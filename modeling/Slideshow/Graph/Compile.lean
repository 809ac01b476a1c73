import Slideshow.Effect.Spec
import Slideshow.Graph.Basic
import Slideshow.Graph.Camera

/-!
# Compiling a slideshow

Images, the lengths of their segments and a selection of effects become a graph. Each image is
scaled and moved; the segments are joined by one hard cut after another or by a chain of blends; a
grade and an overlay apply to the joined stream.

* `compile` is the graph, or says what is wrong with the images and lengths (`compile`). It panics
  where the layer of the overlay does not fit into words of 32 bits.
* `segmentOperations`, `joinStage`, `gradeStage` and `overlayStage` are its stages, each of which
  goes on from the stream that the one before has made.
-/

namespace Slideshow.Graph

open Scalar

/-- The size and rate of a video and how far its motions and transitions go. -/
structure RenderSettings (α : Type) where
  width : Nat
  height : Nat
  fps : Nat
  pixelFormat : String
  motion : MotionConfig α
  /-- The longest transition, as a fraction of the shortest segment. -/
  maxTransitionFraction : α
deriving Repr

def RenderSettings.ofConfig (c : Config) : RenderSettings Float :=
  ⟨c.video.width, c.video.height, c.video.fps, c.video.pixelFormat, .ofEffects c.effects,
    c.effects.maxTransitionFraction⟩

variable {α : Type} [Scalar α]

/-- The stream of image `i` as it is read. -/
def imagePad (i : Nat) : String := toString i ++ ":v"

/-- The stream of image `i` scaled to the frame. -/
def scaledLabel (i : Nat) : String := "s" ++ toString i

/-- The stream of image `i` with its motion. -/
def movedLabel (i : Nat) : String := "m" ++ toString i

/-- The stream after blend `k`. -/
def blendLabel (k : Nat) : String := "x" ++ toString k

/-- Fills the frame and crops what is over. -/
def scaleCropFilter (width height : Nat) (pixelFormat : String) : String :=
  let w := toString width
  let h := toString height
  "scale=" ++ w ++ ":" ++ h ++ ":force_original_aspect_ratio=increase,crop=" ++ w ++ ":" ++ h ++
    ",setsar=1,format=" ++ pixelFormat

/-- Scales and moves image `i`, shown for some seconds. -/
def imageOperations (s : RenderSettings α) (m : Motion) (i : Nat) (seconds : α) :
    List (Operation α) :=
  let frames := frameCount seconds s.fps
  [⟨.scaleCrop s.width s.height, [imagePad i], scaledLabel i,
      scaleCropFilter s.width s.height s.pixelFormat⟩,
    ⟨.motion m frames, [scaledLabel i], movedLabel i,
      motionFilter m frames s.width s.height s.fps s.motion⟩]

/-- Scales and moves the images from number `i` on. -/
def segmentOperations (s : RenderSettings α) (m : Motion) (i : Nat) : List α → List (Operation α)
  | [] => []
  | seconds :: r => imageOperations s m i seconds ++ segmentOperations s m (i + 1) r

/-- Blends stream `current` with the segments from number `k + 1` on, one blend for each start. -/
def blendOperations (t : Transition) (td : α) (k : Nat) (current : String) :
    List α → List (Operation α)
  | [] => []
  | offset :: r =>
    ⟨.blend t td offset, [current, movedLabel (k + 1)], blendLabel k, blendFilter t td offset⟩ ::
      blendOperations t td (k + 1) (blendLabel k) r

/-- The stream that a chain of `n` blends ends in. -/
def blendedLabel (n : Nat) : String := if n = 0 then movedLabel 0 else blendLabel (n - 1)

/-- Puts `n` segments one after another. -/
def concatOperation (n : Nat) : Operation α :=
  ⟨.concat n, (List.range n).map movedLabel, "cat", "concat=n=" ++ toString n ++ ":v=1:a=0"⟩

/-- Operations and the stream that they end in. -/
structure Stage (α : Type) where
  operations : List (Operation α)
  label : String

/-- Joins `n` segments: by blends when a transition was asked for and fits, else by hard cuts. -/
def joinStage (t : Option Transition) (timeline : Timeline α) (n : Nat) : Stage α :=
  match t, timeline.transition with
  | some t, some td =>
    ⟨blendOperations t td 0 (movedLabel 0) timeline.offsets, blendedLabel timeline.offsets.length⟩
  | _, _ => ⟨[concatOperation n], "cat"⟩

/-- Grades a stream. -/
def gradeStage (g : Option ColorGrade) (current : String) : Stage α :=
  match g with
  | some g => ⟨[⟨.colorGrade g, [current], "graded", gradeFilter g⟩], "graded"⟩
  | none => ⟨[], current⟩

/-- Puts an overlay over a stream. -/
def overlayStage (s : RenderSettings α) (o : Option Overlay) (total : α) (current : String) :
    Stage α :=
  match o with
  | some o =>
    let layer := OverlayLayer.of o s.width s.height s.fps total s.pixelFormat
    ⟨[⟨.overlaySource o, [], "ovl", layer.source⟩,
        ⟨.overlayComposite o layer.mode layer.opacity, [current, "ovl"], "composited",
          compositeFilter layer.mode.name layer.opacity⟩],
      "composited"⟩
  | none => ⟨[], current⟩

/-- Gives the last operation the final label. -/
def relabelLast : List (Operation α) → List (Operation α)
  | [] => []
  | [op] => [{ op with output := finalLabel }]
  | op :: next :: r => op :: relabelLast (next :: r)

/-- All operations of a slideshow of `n` images on a timeline. -/
def operationsOf (s : RenderSettings α) (spec : EffectSpec α) (timeline : Timeline α) (n : Nat) :
    List (Operation α) :=
  let join := joinStage spec.transition timeline n
  let grade := gradeStage spec.color join.label
  let overlay := overlayStage s spec.overlay timeline.total grade.label
  relabelLast (segmentOperations s spec.motionOrDefault 0 timeline.rendered ++ join.operations ++
    grade.operations ++ overlay.operations)

/-- What is wrong with images and lengths. -/
inductive InputFault (α : Type) where
  | noImages
  | mismatch (images durations : Nat)
  | badDuration (seconds : α)

def InputFault.message : InputFault α → String
  | .noImages => "cannot compile a filter graph for zero images"
  | .mismatch images durations =>
    toString images ++ " images but " ++ toString durations ++ " segment durations"
  | .badDuration seconds => "segment duration must be positive, got " ++ displayed seconds

/-- The first thing that is wrong with images and lengths. -/
def inputFault? (images : List String) (durations : List α) : Option (InputFault α) :=
  if images.isEmpty then some .noImages
  else if images.length != durations.length then some (.mismatch images.length durations.length)
  else (durations.find? (!isPositive ·)).map .badDuration

/-- The timeline of segments of the given lengths under a selection of effects. -/
def timelineOf (s : RenderSettings α) (spec : EffectSpec α) (durations : List α) : Timeline α :=
  .plan durations (spec.transition.map fun _ => spec.transitionDuration) s.maxTransitionFraction

/-- The graph of a slideshow on its timeline. -/
def compiled (images : List String) (durations : List α) (s : RenderSettings α)
    (spec : EffectSpec α) :
    FilterGraph α :=
  let timeline := timelineOf s spec durations
  { inputs := List.zipWith ImageInput.mk images timeline.rendered
    operations := operationsOf s spec timeline images.length
    timelineSeconds := timeline.total
    transitionSeconds := timeline.transition }

/-- Whether the layer of the overlay, if there is one, can be computed. -/
def layerFits (s : RenderSettings α) (spec : EffectSpec α) : Bool :=
  spec.overlay.all (overlayFits · s.width)

/-- Compiles a slideshow. -/
def compile (images : List String) (durations : List α) (s : RenderSettings α)
    (spec : EffectSpec α) :
    Except Halt (FilterGraph α) :=
  match inputFault? images durations with
  | some f => .error (.failed (.validation f.message))
  | none =>
    if layerFits s spec then .ok (compiled images durations s spec)
    else .error .multiplied

end Slideshow.Graph
