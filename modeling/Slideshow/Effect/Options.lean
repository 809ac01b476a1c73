import Slideshow.Config
import Slideshow.Effect.Spec
import Slideshow.Json.Parser

/-!
# Effect options

What a caller asks for, by name. Every field is checked before any is used, so that all faults are
told at once; then a preset gives values and each field that was set replaces the preset's.

* `EffectOptions.faults` lists one fault for each bad field, in the order of the fields (`validate`,
  `check_field`).
* `EffectOptions.resolve` succeeds exactly when there are none (`resolve_with_default`,
  `apply_preset`).
-/

namespace Slideshow

/-- Effects as a caller asks for them. -/
structure EffectOptions where
  transition : Option String := none
  motion : Option String := none
  color : Option String := none
  overlay : Option String := none
  transitionDuration : Option Float := none
  preset : Option String := none

namespace EffectOptions

open Document

def names : List String :=
  ["transition", "motion", "color", "overlay", "transitionDuration", "preset"]

/-- Reads options; unknown fields are refused. -/
def ofDocument? (d : Document) : Option EffectOptions := do
  let r ← record? .strict names d
  return {
    transition := ← r.optionalOrNone 0 string?
    motion := ← r.optionalOrNone 1 string?
    color := ← r.optionalOrNone 2 string?
    overlay := ← r.optionalOrNone 3 string?
    transitionDuration := ← r.optionalOrNone 4 float?
    preset := ← r.optionalOrNone 5 string? }

def document (o : EffectOptions) : Document :=
  .table (fieldIfSome "transition" .string o.transition ++
    fieldIfSome "motion" .string o.motion ++
    fieldIfSome "color" .string o.color ++
    fieldIfSome "overlay" .string o.overlay ++
    fieldIfSome "transitionDuration" .float o.transitionDuration ++
    fieldIfSome "preset" .string o.preset)

/-- Reads options from a JSON text. -/
def ofJson [Json.FloatReader] (text : String) : Except Error EffectOptions :=
  match (Json.parse? text).bind ofDocument? with
  | some o => .ok o
  | none => .error (.validation "invalid effect options: not an object of options")

/-- Whether nothing is asked for. -/
def isEmpty (o : EffectOptions) : Bool :=
  o.transition.isNone && o.motion.isNone && o.color.isNone && o.overlay.isNone &&
    o.transitionDuration.isNone && o.preset.isNone

/-- What is wrong with the name of an effect, if one is given that cannot be read. -/
def effectFault (α : Type) [Choice α] (name : Option String) : List String :=
  match name with
  | none => []
  | some s =>
    match Choice.parse α s with
    | .ok _ => []
    | .error (.validation reason) => [reason]
    | .error other => [other.message]

/-- Whether a length may be asked for. -/
def isDuration (x : Float) : Bool := x.isFinite && !(x ≤ 0) && !(x > maxTransitionSeconds)

def durationFault (duration : Option Float) : List String :=
  match duration with
  | none => []
  | some x =>
    if isDuration x then []
    else ["transitionDuration must be in (0, " ++ Decimal.displayed maxTransitionSeconds ++
      "] seconds, got " ++ Decimal.displayed x]

def presetFault (name : Option String) : List String :=
  match name with
  | none => []
  | some s =>
    match Preset.get s with
    | .ok _ => []
    | .error _ => ["unknown preset '" ++ s ++ "'"]

/-- One fault for each bad field, in the order of the fields. -/
def faults (o : EffectOptions) : List String :=
  effectFault Transition o.transition ++ effectFault Motion o.motion ++
    effectFault ColorGrade o.color ++ effectFault Overlay o.overlay ++
    durationFault o.transitionDuration ++ presetFault o.preset

def isValid (o : EffectOptions) : Bool := o.faults.isEmpty

/-- An explicit effect if one is set, else the preset's. -/
def override {α : Type} [Choice α] (name : Option String) (preset : Option α) :
    Except Error (Option α) :=
  match name with
  | none => .ok preset
  | some s => (Choice.parse α s).map some

/-- What options start from: the selection of their preset, if they name one. -/
def base (o : EffectOptions) : Except Error (EffectSpec Float) :=
  match o.preset with
  | none => .ok (.plain defaultTransitionDuration)
  | some s => (Preset.get s).map (·.spec defaultTransitionDuration)

/-- Turns valid options into a selection. The length is the explicit one, or `default` with or
without a preset. -/
def resolve (o : EffectOptions) (default : Float) : Except Error (EffectSpec Float) :=
  if o.isValid then do
    let base ← o.base
    return {
      transition := ← override o.transition base.transition
      motion := ← override o.motion base.motion
      color := ← override o.color base.color
      overlay := ← override o.overlay base.overlay
      transitionDuration := o.transitionDuration.getD default }
  else .error (.validation ("; ".intercalate o.faults))

end EffectOptions

end Slideshow
