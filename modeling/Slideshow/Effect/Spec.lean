import Slideshow.Effect.Catalog

/-!
# Effect selections

What is applied to a slideshow: at most one effect of each category, and the length of transitions.

* `EffectSpec.ofDocument?` and `EffectSpec.document` read and write a selection.
* `Preset` is a named selection (`preset`, `to_spec`).
-/

namespace Slideshow

/-- The length of a transition that nobody has set, in seconds. -/
def defaultTransitionDuration : Float := 0.8

/-- A selection of effects; `α` is the type of its one length. -/
structure EffectSpec (α : Type) where
  transition : Option Transition
  motion : Option Motion
  color : Option ColorGrade
  overlay : Option Overlay
  transitionDuration : α
deriving DecidableEq, Repr

namespace EffectSpec

variable {α : Type}

/-- No effects. -/
def plain (duration : α) : EffectSpec α := ⟨none, none, none, none, duration⟩

def motionOrDefault (s : EffectSpec α) : Motion := s.motion.getD .static

/-- Whether the video has hard cuts between still images and nothing else. -/
def isPlain (s : EffectSpec α) : Bool :=
  s.transition.isNone && (s.motion.isNone || s.motion == some .static) && s.color.isNone &&
    s.overlay.isNone

open Document

def names : List String := ["transition", "motion", "color", "overlay", "transitionDuration"]

def ofDocument? (d : Document) : Option (EffectSpec Float) := do
  let r ← record? .lenient names d
  return {
    transition := ← r.optionalOrNone 0 Choice.ofDocument?
    motion := ← r.optionalOrNone 1 Choice.ofDocument?
    color := ← r.optionalOrNone 2 Choice.ofDocument?
    overlay := ← r.optionalOrNone 3 Choice.ofDocument?
    transitionDuration := ← r.orDefault 4 float? defaultTransitionDuration }

def document (s : EffectSpec Float) : Document :=
  .table (fieldIfSome "transition" Choice.document s.transition ++
    fieldIfSome "motion" Choice.document s.motion ++
    fieldIfSome "color" Choice.document s.color ++
    fieldIfSome "overlay" Choice.document s.overlay ++
    [("transitionDuration", .float s.transitionDuration)])

end EffectSpec

/-- A named selection of effects. -/
structure Preset where
  name : String
  description : String
  transition : Transition
  motion : Motion
  color : Option ColorGrade
  overlay : Option Overlay
deriving DecidableEq, Repr

namespace Preset

/-- Every preset, in registry order. -/
def all : List Preset := [
  ⟨"cinematic", "Film look with slow zooms, soft fades and warm light leaks",
    .fade, .kenburns, some .vintage, some .lightLeaks⟩,
  ⟨"documentary", "Neutral grade with gentle pans and direct crossfades",
    .crossfade, .panRight, some .lowContrast, none⟩,
  ⟨"dreamy", "Soft dissolves over drifting bokeh",
    .dissolve, .zoomIn, some .desaturated, some .bokeh⟩,
  ⟨"energetic", "Punchy colors, slides and a hand-held feel",
    .slideLeft, .shake, some .vibrant, some .particles⟩,
  ⟨"nostalgic", "Sepia film with dust and scratches",
    .fade, .kenburns, some .sepia, some .scratches⟩,
  ⟨"minimal", "Clean crossfades with no grading or overlay",
    .crossfade, .static, none, none⟩,
  ⟨"noir", "High-contrast black and white with grain",
    .circlecrop, .zoomOut, some .blackWhite, some .dust⟩,
  ⟨"warm_memories", "Warm tones, slow zooms and a lens flare",
    .dissolve, .kenburns, some .warm, some .lensFlare⟩]

/-- The selection that a preset stands for. -/
def spec {α : Type} (p : Preset) (duration : α) : EffectSpec α :=
  ⟨some p.transition, some p.motion, p.color, p.overlay, duration⟩

def find? (name : String) : Option Preset := all.find? (·.name == name)

/-- The preset with a name. -/
def get (name : String) : Except Error Preset :=
  match find? name with
  | some p => .ok p
  | none => .error (.notFound "preset" name)

def document (p : Preset) : Document :=
  .table [("name", .string p.name), ("description", .string p.description),
    ("transition", Choice.document p.transition), ("motion", Choice.document p.motion),
    ("color", Document.orNull Choice.document p.color),
    ("overlay", Document.orNull Choice.document p.overlay)]

end Preset

end Slideshow
