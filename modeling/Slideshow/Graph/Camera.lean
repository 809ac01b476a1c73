import Slideshow.Config
import Slideshow.Effect.Catalog
import Slideshow.Graph.Expression
import Slideshow.Scalar

/-!
# Camera motion

Each motion is given twice: as the camera's state at a frame, and as the filter text that has the
same state computed frame by frame.

* `MotionConfig.limits` is what both go by: the settings, adjusted to the size of the image.
* `motionAt` is the state: the zoom, the corner of the visible window and the angle (`motion_at`).
* `MotionForm.of` is the same motion as expressions, which `motionFilter` writes into a filter
  (`motion_filter`, `zoompan`).
-/

namespace Slideshow

open Scalar

/-- How far motions go. -/
structure MotionConfig (α : Type) where
  /-- What the slow zoom adds in each frame. -/
  kenburnsRate : α
  maxZoom : α
  /-- The fixed zoom of pans and shakes. -/
  panZoom : α
  /-- How far a shake goes, in pixels. -/
  shakeAmplitude : α
  shakePeriodFrames : Nat
deriving DecidableEq, Repr

def MotionConfig.ofEffects (c : EffectsConfig) : MotionConfig Float :=
  ⟨c.kenburnsRate, c.maxZoom, c.panZoom, c.shakeAmplitude, max c.shakePeriodFrames 1⟩

def MotionConfig.document (c : MotionConfig Float) : Document :=
  .table [("kenburns_rate", .float c.kenburnsRate), ("max_zoom", .float c.maxZoom),
    ("pan_zoom", .float c.panZoom), ("shake_amplitude", .float c.shakeAmplitude),
    ("shake_period_frames", .ofNat c.shakePeriodFrames)]

/-- The camera at one frame: the corner of the window is in pixels of the image, the angle is
clockwise. -/
structure MotionFrame (α : Type) where
  zoom : α
  x : α
  y : α
  angle : α
deriving DecidableEq, Repr

section

variable {α : Type} [Scalar α]

/-- The whole image. -/
def MotionFrame.identity : MotionFrame α := ⟨one, zero, zero, zero⟩

/-- The middle of a `w` by `h` image. -/
def MotionFrame.centered (zoom w h : α) : MotionFrame α :=
  ⟨zoom, (w - w / zoom) / two, (h - h / zoom) / two, zero⟩

/-- The frames of a segment, at least one and fewer than `2 ^ 32`. -/
def frameCount (seconds : α) (fps : Nat) : Nat :=
  max (min (ceiling (seconds * ofNat fps)) (Nat.pow 2 32 - 1)) 1

/-- The number of the last of so many frames, but not zero. -/
def lastIndex (count : Nat) : Nat := max (count - 1) 1

/-- A zoom that does not shrink the image. -/
def atLeastOne (x : α) : α := maximum x one

/-- How far a shake goes on one side of length `side`: not beyond the margin that the zoom
leaves. -/
def shakeReach (c : MotionConfig α) (side : α) : α :=
  maximum (minimum c.shakeAmplitude ((side - side / atLeastOne c.panZoom) / two)) zero

/-- What motions of an image of some size go by. -/
structure MotionLimits (α : Type) where
  kenburnsRate : α
  maxZoom : α
  panZoom : α
  /-- How far a shake goes along the width. -/
  reachX : α
  /-- How far a shake goes along the height. -/
  reachY : α
  periodFrames : Nat
deriving DecidableEq, Repr

/-- The same limits in other numbers. -/
def MotionLimits.map {β : Type} (f : α → β) (l : MotionLimits α) : MotionLimits β :=
  ⟨f l.kenburnsRate, f l.maxZoom, f l.panZoom, f l.reachX, f l.reachY, l.periodFrames⟩

/-- The settings adjusted to a `width` by `height` image. -/
def MotionConfig.limits (c : MotionConfig α) (width height : Nat) : MotionLimits α :=
  ⟨c.kenburnsRate, atLeastOne c.maxZoom, atLeastOne c.panZoom, shakeReach c (ofNat width),
    shakeReach c (ofNat height), max c.shakePeriodFrames 1⟩

end

/-- The camera at a frame of a segment of `count` frames, by its limits. -/
def cameraAt {α : Type} [Trigonometric α] (m : Motion) (frame count width height : Nat)
    (l : MotionLimits α) : MotionFrame α :=
  let w : α := ofNat width
  let h : α := ofNat height
  let p : α := clamp (ofNat frame / ofNat (lastIndex count)) zero one
  let panned := MotionFrame.centered l.panZoom w h
  match m with
  | .static => .identity
  | .kenburns => .centered (minimum (one + l.kenburnsRate * ofNat frame) l.maxZoom) w h
  | .zoomIn => .centered (one + (l.maxZoom - one) * p) w h
  | .zoomOut => .centered (l.maxZoom - (l.maxZoom - one) * p) w h
  | .panLeft => { panned with x := (w - w / l.panZoom) * (one - p) }
  | .panRight => { panned with x := (w - w / l.panZoom) * p }
  | .panUp => { panned with y := (h - h / l.panZoom) * (one - p) }
  | .panDown => { panned with y := (h - h / l.panZoom) * p }
  | .rotateClockwise => { MotionFrame.identity with angle := two * Trigonometric.pi * p }
  | .rotateCounter => { MotionFrame.identity with angle := -two * Trigonometric.pi * p }
  | .shake =>
    let phase : α := two * Trigonometric.pi * ofNat frame / ofNat l.periodFrames
    { panned with
      x := panned.x + l.reachX * Trigonometric.sin phase
      y := panned.y + l.reachY * Trigonometric.cos phase }

/-- The camera at a frame of a segment of `count` frames. -/
def motionAt {α : Type} [Trigonometric α] (m : Motion) (frame count width height : Nat)
    (c : MotionConfig α) : MotionFrame α :=
  cameraAt m frame count width height (c.limits width height)

/-! ## Motions as expressions -/

namespace Graph

/-- A motion as filters compute it. -/
inductive MotionForm where
  /-- No camera at all. -/
  | still
  /-- The zoom and the corner of the window. -/
  | window (zoom x y : Expression)
  /-- The whole image, turned. -/
  | turn (angle : Expression)
deriving DecidableEq, Repr

namespace MotionForm

open Expression

/-- The size of the window along a side. -/
def windowSide (side : Variable) : Expression := .divide (.var side) (.var .zoom)

/-- The corner of a window in the middle of a side. -/
def middle (side : Variable) : Expression :=
  .subtract (.divide (.var side) (ofNat 2))
    (.parenthesized (.divide (windowSide side) (ofNat 2)))

/-- The room that the window has along a side. -/
def room (side : Variable) : Expression :=
  .parenthesized (.subtract (.var side) (windowSide side))

/-- The corner of a window that travels along a side from its start. -/
def forth (side : Variable) (last : Expression) : Expression :=
  .divide (.multiply (room side) (.var .outputFrame)) last

/-- The corner of a window that travels along a side from its end. -/
def back (side : Variable) (last : Expression) : Expression :=
  .multiply (room side)
    (.parenthesized (.subtract (ofNat 1) (.divide (.var .outputFrame) last)))

/-- The phase of a shake. -/
def phase (period : Nat) : Expression :=
  .divide (.multiply (.multiply (ofNat 2) (.var .pi)) (.var .outputFrame)) (ofNat period)

/-- What is above one in a zoom, as a share of the frames. -/
def zoomShare (zoom last : Expression) : Expression :=
  .divide (.multiply (.parenthesized (.subtract zoom (ofNat 1))) (.var .outputFrame)) last

variable {α : Type} [Scalar α]

/-- A number as an expression, with at most four decimal places; its sign is none of the number. -/
def number (x : α) : Expression :=
  match numeral x with
  | '-' :: r => .negate (.literal r)
  | text => .literal text

/-- So many turns in the course of a segment. -/
def turns (whole last : Expression) : Expression :=
  .divide (.multiply (.multiply whole (.var .pi)) (.var .frame)) last

/-- A motion over `frames` frames. -/
def of (m : Motion) (frames : Nat) (l : MotionLimits α) : MotionForm :=
  let last : Expression := number (ofNat (lastIndex frames) : α)
  let maxZoom := number l.maxZoom
  let panZoom := number l.panZoom
  match m with
  | .static => .still
  | .kenburns =>
    .window
      (.minimum (.add (ofNat 1) (.multiply (number l.kenburnsRate) (.var .outputFrame))) maxZoom)
      (middle .inputWidth) (middle .inputHeight)
  | .zoomIn =>
    .window (.add (ofNat 1) (zoomShare maxZoom last)) (middle .inputWidth) (middle .inputHeight)
  | .zoomOut =>
    .window (.subtract maxZoom (zoomShare maxZoom last)) (middle .inputWidth) (middle .inputHeight)
  | .panLeft => .window panZoom (back .inputWidth last) (middle .inputHeight)
  | .panRight => .window panZoom (forth .inputWidth last) (middle .inputHeight)
  | .panUp => .window panZoom (middle .inputWidth) (back .inputHeight last)
  | .panDown => .window panZoom (middle .inputWidth) (forth .inputHeight last)
  | .rotateClockwise => .turn (turns (ofNat 2) last)
  | .rotateCounter => .turn (turns (.negate (ofNat 2)) last)
  | .shake =>
    .window panZoom
      (.add (middle .inputWidth)
        (.multiply (number l.reachX) (.apply .sin (phase l.periodFrames))))
      (.add (middle .inputHeight)
        (.multiply (number l.reachY) (.apply .cos (phase l.periodFrames))))

/-- The zooming filter. -/
def zoompan (zoom x y : Expression) (width height fps : Nat) : String :=
  "zoompan=z='" ++ zoom.text ++ "':x='" ++ x.text ++ "':y='" ++ y.text ++ "':d=1:s=" ++
    toString width ++ "x" ++ toString height ++ ":fps=" ++ toString fps

/-- The filter that computes a motion. -/
def filter (f : MotionForm) (width height fps : Nat) : String :=
  match f with
  | .still => "fps=" ++ toString fps
  | .window zoom x y => zoompan zoom x y width height fps
  | .turn angle =>
    zoompan (ofNat 1) (ofNat 0) (ofNat 0) width height fps ++ ",rotate=a='" ++ angle.text ++
      "':ow=" ++ toString width ++ ":oh=" ++ toString height ++ ":c=black"

end MotionForm

/-- The filter for a motion over `frames` frames of a `width` by `height` image. -/
def motionFilter {α : Type} [Scalar α] (m : Motion) (frames width height fps : Nat)
    (c : MotionConfig α) : String :=
  (MotionForm.of m frames (c.limits width height)).filter width height fps

end Graph

end Slideshow
