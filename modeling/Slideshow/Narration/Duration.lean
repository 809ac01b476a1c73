import Slideshow.Config
import Slideshow.Decimal.Reader
import Slideshow.Scalar
import Slideshow.Text.Blank

/-!
# The length of a narration

A length is read from a time code or from diagnostics, estimated from the size of a file, and split
among images.

* `hms?` reads hours, minutes and seconds (`parse_hms`); `timecode` makes zero of everything else
  (`parse_timecode`).
* `diagnosed?` finds the length in what is printed about a recording (`parse_diagnostic_duration`).
* `sizeEstimate` is the length that a file of some size has at a bit rate, moved into a window
  (`size_estimate`).
* `segmentDurations` gives every image the same part (`segment_durations`).
-/

namespace Slideshow

open Scalar

/-! ## Time codes -/

/-- The parts of a text between colons. -/
def colonParts (cs : List Char) : List (List Char) :=
  match cs with
  | [] => [[]]
  | c :: r =>
    if c == ':' then [] :: colonParts r
    else
      match colonParts r with
      | [] => [[c]]
      | p :: ps => (c :: p) :: ps

/-- Hours, minutes and seconds in seconds, if that is a finite number and none of them is below
zero. -/
def secondsOf (h m s : Float) : Option Float :=
  let total := h * 3600 + m * 60 + s
  if total.isFinite && h ≥ 0 && m ≥ 0 && s ≥ 0 then some total else none

/-- Reads hours, minutes and seconds between colons; each is a number with blanks around it. -/
def hms? (text : List Char) : Option Float :=
  let cs := Text.trimChars text
  if cs.head? == some '-' then none
  else
    match (colonParts cs).map fun p => Decimal.read? (Text.trimChars p) with
    | [some h, some m, some s] => secondsOf h m s
    | _ => none

/-- The seconds of a time code; what is none counts as zero. -/
def timecode (text : String) : Float := (hms? text.toList).getD 0

/-- The text behind a word at its head. -/
def behind? : List Char → List Char → Option (List Char)
  | [], cs => some cs
  | _ :: _, [] => none
  | w :: ws, c :: cs => if w == c then behind? ws cs else none

/-- The length that a line of diagnostics tells. -/
def lineDuration? (line : List Char) : Option Float := do
  let rest ← behind? "Duration:".toList (line.dropWhile Text.isBlank)
  let seconds ← hms? (rest.takeWhile (· != ','))
  if seconds > 0 then some seconds else none

/-- The length in what is printed about a recording: the first line that tells one. -/
def diagnosed? (text : String) : Option Float := (Text.lines text.toList).findSome? lineDuration?

/-- The length in what a probe prints: the first line that is not blank, if it is a positive
number. -/
def probed? (text : String) : Option Float := do
  let line ← ((Text.lines text.toList).map Text.trimChars).find? (!·.isEmpty)
  let seconds ← Decimal.read? line
  if isPositive seconds then some seconds else none

/-! ## Estimates -/

/-- Where a length comes from. -/
inductive DurationSource where
  | probe
  | diagnostic
  | fileSize
  | fallback
deriving DecidableEq, Repr

def DurationSource.name : DurationSource → String
  | .probe => "probe"
  | .diagnostic => "diagnostic"
  | .fileSize => "file_size"
  | .fallback => "fallback"

/-- A length and where it comes from. -/
structure DurationEstimate where
  seconds : Float
  source : DurationSource

def DurationEstimate.document (e : DurationEstimate) : Document :=
  .table [("seconds", .float e.seconds), ("source", .string e.source.name)]

/-- The length of a file of some size at the reference bit rate, moved into the window; none for an
empty file, no bit rate or no window. -/
def sizeEstimate (bytes : Nat) (c : DurationConfig) : Option Float :=
  if bytes == 0 || c.referenceBitrate == 0 then none
  else if !isPositive c.minSeconds || !isPositive c.maxSeconds || c.minSeconds >
    c.maxSeconds then none
  else some
    (clamp (Float.ofNat bytes * 8 / Float.ofNat c.referenceBitrate) c.minSeconds c.maxSeconds)

/-- The length when nothing else gives one. -/
def lastResort : Float := 30

/-- The first of two lengths that can be used, or the last resort. -/
def fallbackSeconds (asked configured : Float) : Float :=
  if isPositive asked then asked else if isPositive configured then configured else lastResort

/-- The estimate when no probe has answered, from the size of the file if there is one. -/
def unprobedEstimate (size : Option Nat) (c : DurationConfig) (fallback : Float) :
    DurationEstimate :=
  match size.bind (sizeEstimate · c) with
  | some seconds => ⟨seconds, .fileSize⟩
  | none => ⟨fallbackSeconds fallback c.fallbackSeconds, .fallback⟩

/-- A probe's answer, if it is a length. -/
def usable? (answer : Except Error Float) : Option Float :=
  match answer with
  | .ok seconds => if isPositive seconds then some seconds else none
  | .error _ => none

/-! ## Segments -/

/-- What is wrong with a split. -/
inductive SplitFault (α : Type) where
  | noImages
  | badTotal (seconds : α)

def SplitFault.message {α : Type} [Scalar α] : SplitFault α → String
  | .noImages => "cannot split duration across zero images"
  | .badTotal seconds => "total duration must be positive, got " ++ displayed seconds

/-- Gives each of some images the same part of a length. -/
def segmentDurations {α : Type} [Scalar α] (total : α) (count : Nat) : Except Error (List α) :=
  if count = 0 then .error (.validation (SplitFault.noImages (α := α)).message)
  else if isPositive total then .ok (List.replicate count (total / ofNat count))
  else .error (.validation (SplitFault.badTotal total).message)

end Slideshow
