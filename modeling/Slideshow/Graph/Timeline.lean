import Slideshow.Effect.Catalog
import Slideshow.Scalar

/-!
# Timelines

Transitions overlap neighbouring segments without making the video shorter: every segment but the
last is rendered longer by the length of a transition, and blend `k` starts where segment `k`
nominally ends.

* `Timeline.plan` fits a transition into the shortest segment, or falls back to hard cuts
  (`plan_timeline`).
* `blendFilter` is the filter of one blend (`blend_filter`).
-/

namespace Slideshow.Graph

open Scalar

/-- The name by which the blending filter knows a transition. -/
def blendName : Transition → String
  | .fade => "fadeblack"
  | .crossfade => "fade"
  | .wipeLeft => "wipeleft"
  | .wipeRight => "wiperight"
  | .wipeUp => "wipeup"
  | .wipeDown => "wipedown"
  | .slideLeft => "slideleft"
  | .slideRight => "slideright"
  | .slideUp => "slideup"
  | .slideDown => "slidedown"
  | .circlecrop => "circlecrop"
  | .dissolve => "dissolve"

/-- Lengths of segments, starts of blends and the length of the whole, in seconds. -/
structure Timeline (α : Type) where
  /-- The length of each blend; none when segments are cut hard. -/
  transition : Option α
  /-- The length at which each segment is rendered. -/
  rendered : List α
  /-- Where each blend starts. -/
  offsets : List α
  total : α
deriving DecidableEq, Repr

section

variable {α : Type} [Add α]

namespace Timeline

/-- The sums of the first one, two, … items but not of all. -/
def partialSums (start : α) : List α → List α
  | [] => []
  | [_] => []
  | d :: e :: r => (start + d) :: partialSums (start + d) (e :: r)

/-- Every item but the last made longer. -/
def extended (extra : α) : List α → List α
  | [] => []
  | [d] => [d]
  | d :: e :: r => (d + extra) :: extended extra (e :: r)

end Timeline

end

variable {α : Type} [Scalar α]

/-- The text of a number inside filters. -/
def numeralText (x : α) : String := String.ofList (numeral x)

/-- The filter of one blend. -/
def blendFilter (t : Transition) (duration offset : α) : String :=
  "xfade=transition=" ++ blendName t ++ ":duration=" ++ numeralText duration ++
    ":offset=" ++ numeralText offset

namespace Timeline

/-- Hard cuts between segments of the given lengths. -/
def cuts (durations : List α) : Timeline α := ⟨none, durations, [], sum durations⟩

/-- The shortest of a first length and others; there is no limit when none of them is a number. -/
def shortest (first : α) (rest : List α) : α :=
  let s := rest.foldl minimum first
  if isNaN s then infinite else s

/-- The length of a transition that fits: at most the requested one and at most `fraction` of the
shortest segment. -/
def fitted (requested fraction shortest : α) : α :=
  minimum requested (shortest * clamp fraction zero one)

/-- Plans segments of the given lengths. One segment, no requested transition or nothing left of it
after fitting gives hard cuts. -/
def plan (durations : List α) (requested : Option α) (fraction : α) : Timeline α :=
  match requested, durations with
  | some requested, d :: e :: r =>
    let td := fitted requested fraction (shortest d (e :: r))
    if isAbove td then
      ⟨some td, extended td durations, partialSums zero durations, sum durations⟩
    else cuts durations
  | _, _ => cuts durations

end Timeline

end Slideshow.Graph
