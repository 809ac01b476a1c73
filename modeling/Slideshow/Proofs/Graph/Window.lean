import Slideshow.Proofs.Graph.Camera

/-!
# Where the camera looks

Over exact numbers, a camera (`motion_at`) is told by its zoom, by where its window lies in the room
that the zoom leaves, and by its angle. In these terms the motions are simple: some keep the window
in the middle, some move it through a share of the room, and a shake adds to the middle what is at
most half of the room.

* `Shot` is a camera in these terms, `shot` the camera of a motion; `MotionLimits.Fit`: what
  adjusted settings keep to.
* `cameraAt_shot`: the camera at a frame is that of the shot, as long as it has a zoom.

Headlines:
* **`motionAt_isInside_iff`**: the window lies in the picture, unless a slow zoom goes backwards.
-/

namespace Slideshow

open Scalar
open Exact (number)

/-! ## Settings and cameras in numbers -/

section
variable {α β : Type}

/-- The same settings in other numbers. -/
def MotionConfig.map (f : α → β) (c : MotionConfig α) : MotionConfig β :=
  ⟨f c.kenburnsRate, f c.maxZoom, f c.panZoom, f c.shakeAmplitude, c.shakePeriodFrames⟩

/-- The same camera in other numbers. -/
def MotionFrame.map (f : α → β) (c : MotionFrame α) : MotionFrame β :=
  ⟨f c.zoom, f c.x, f c.y, f c.angle⟩

end

/-- Half of a number. -/
noncomputable def half (x : ℝ) : ℝ := x / (2 : ℕ)

theorem half_eq (x : ℝ) : half x = x / 2 := by rw [half, Nat.cast_ofNat]

/-- The angle of a whole turn. -/
noncomputable def turn : ℝ := (2 : ℕ) * Real.pi

theorem turn_eq : turn = 2 * Real.pi := by rw [turn, Nat.cast_ofNat]

/-- The room that a window has along a side. -/
noncomputable def slack (side zoom : ℝ) : ℝ := side - side / zoom

/-- How far a shake goes along a side. -/
noncomputable def reachWithin (amplitude side zoom : ℝ) : ℝ :=
  max (min amplitude (half (slack side zoom))) 0

/-- The settings adjusted to a `width` by `height` image, in numbers. -/
noncomputable def MotionConfig.bounds (c : MotionConfig ℝ) (width height : ℕ) : MotionLimits ℝ where
  kenburnsRate := c.kenburnsRate
  maxZoom := max c.maxZoom 1
  panZoom := max c.panZoom 1
  reachX := reachWithin c.shakeAmplitude width (max c.panZoom 1)
  reachY := reachWithin c.shakeAmplitude height (max c.panZoom 1)
  periodFrames := max c.shakePeriodFrames 1

section
variable {side zoom : ℝ}

theorem slack_nonneg (hside : 0 ≤ side) (hzoom : 1 ≤ zoom) : 0 ≤ slack side zoom :=
  sub_nonneg.mpr (div_le_self hside hzoom)

theorem atLeastOne_number (z : ℝ) : atLeastOne (number z) = number (max z 1) := by
  rw [atLeastOne, Exact.one_eq, Exact.maximum_number]

theorem slack_number (side : ℝ) (hzoom : zoom ≠ 0) :
    number side - number side / number zoom = number (slack side zoom) := by
  rw [Exact.number_div side hzoom, Exact.number_sub, slack]

theorem max_one_ne_zero (z : ℝ) : max z 1 ≠ 0 := (lt_of_lt_of_le one_pos (le_max_right z 1)).ne'

theorem shakeReach_number (c : MotionConfig ℝ) (side : ℝ) :
    shakeReach (c.map number)
    (number side) = number (reachWithin c.shakeAmplitude side (max c.panZoom 1)) := by
  have hzoom : atLeastOne (c.map number).panZoom = number (max c.panZoom 1) := atLeastOne_number _
  have hamplitude : (c.map number).shakeAmplitude = number c.shakeAmplitude := rfl
  rw [shakeReach, hzoom, hamplitude, slack_number _ (max_one_ne_zero _), Exact.two_eq,
    Exact.number_div _ two_ne_zero, Exact.minimum_number, Exact.zero_eq, Exact.maximum_number,
    reachWithin, half_eq]

/-- Adjusting settings that are numbers gives numbers. -/
theorem limits_number (c : MotionConfig ℝ) (width height : ℕ) :
    (c.map number).limits width height = (c.bounds width height).map number := by
  rw [MotionConfig.limits, Exact.ofNat_eq, Exact.ofNat_eq, shakeReach_number, shakeReach_number]
  show MotionLimits.mk _ (atLeastOne (number c.maxZoom)) (atLeastOne (number c.panZoom)) _ _ _ = _
  rw [atLeastOne_number, atLeastOne_number]
  rfl

end

/-- Limits that keep a camera on a `w` by `h` image: no zoom makes it smaller, and no shake goes
beyond the margin. -/
structure MotionLimits.Fit (l : MotionLimits ℝ) (w h : ℝ) : Prop where
  maxZoom : 1 ≤ l.maxZoom
  panZoom : 1 ≤ l.panZoom
  reachX : 0 ≤ l.reachX
  reachY : 0 ≤ l.reachY
  reachX_le : l.reachX ≤ slack w l.panZoom / 2
  reachY_le : l.reachY ≤ slack h l.panZoom / 2
  periodFrames : 0 < l.periodFrames

/-- **Adjusted settings fit**, whatever they were. -/
theorem MotionConfig.bounds_fit (c : MotionConfig ℝ) (width height : ℕ) :
    (c.bounds width height).Fit width height := by
  have hpan : 1 ≤ max c.panZoom 1 := le_max_right _ _
  have hreach : ∀ side : ℕ, reachWithin c.shakeAmplitude side (max c.panZoom 1) ≤
      slack side (max c.panZoom 1) / 2 :=
    fun side => max_le (min_le_right _ _)
      (div_nonneg (slack_nonneg (Nat.cast_nonneg side) hpan) zero_le_two)
  exact ⟨le_max_right _ _, hpan, le_max_right _ _, le_max_right _ _, hreach width, hreach height, by
    show 0 < max c.shakePeriodFrames 1
    omega⟩

/-! ## Shots -/

/-- A camera by its zoom, by the share of the room that is in front of the window along each side,
and by its angle. -/
structure Shot where
  zoom : ℝ
  across : ℝ
  down : ℝ
  angle : ℝ

/-- The camera of a shot of a `w` by `h` image. -/
noncomputable def Shot.frame (s : Shot) (w h : ℝ) : MotionFrame ℝ :=
  ⟨s.zoom, slack w s.zoom * s.across, slack h s.zoom * s.down, s.angle⟩

/-- A shot with the window in the middle. -/
noncomputable def Shot.centred (zoom : ℝ) : Shot := ⟨zoom, half 1, half 1, 0⟩

/-- The share of a segment that is over at a frame. -/
noncomputable def progress (frame count : ℕ) : ℝ := min (frame / lastIndex count) 1

/-- The shot of a motion at a frame of a segment of `count` frames. -/
noncomputable def shot (m : Motion) (frame count : ℕ) (w h : ℝ) (l : MotionLimits ℝ) : Shot :=
  let p := progress frame count
  let phase := turn * frame / l.periodFrames
  match m with
  | .static => .centred 1
  | .kenburns => .centred (min (1 + l.kenburnsRate * frame) l.maxZoom)
  | .zoomIn => .centred (1 + (l.maxZoom - 1) * p)
  | .zoomOut => .centred (1 + (l.maxZoom - 1) * (1 - p))
  | .panLeft => { Shot.centred l.panZoom with across := 1 - p }
  | .panRight => { Shot.centred l.panZoom with across := p }
  | .panUp => { Shot.centred l.panZoom with down := 1 - p }
  | .panDown => { Shot.centred l.panZoom with down := p }
  | .rotateClockwise => { Shot.centred 1 with angle := turn * p }
  | .rotateCounter => { Shot.centred 1 with angle := -(turn * p) }
  | .shake =>
    { Shot.centred l.panZoom with
      across := half 1 + l.reachX * Real.sin phase / slack w l.panZoom
      down := half 1 + l.reachY * Real.cos phase / slack h l.panZoom }

/-! ## The cameras of motions -/

section
variable {w h zoom : ℝ}

theorem progress_nonneg (frame count : ℕ) : 0 ≤ progress frame count :=
  le_min (div_nonneg (Nat.cast_nonneg _) (Nat.cast_nonneg _)) zero_le_one

theorem progress_le_one (frame count : ℕ) : progress frame count ≤ 1 := min_le_right _ _

theorem clamp_share (frame count : ℕ) :
    clamp (number (frame : ℝ) / number ((lastIndex count : ℕ) : ℝ)) (number 0)
    (number 1) = number (progress frame count) := by
  have hpos : (0 : ℝ) < (lastIndex count : ℕ) :=
    Nat.cast_pos.mpr (Graph.MotionForm.lastIndex_pos count)
  have hnonneg : 0 ≤ (frame / lastIndex count : ℝ) := div_nonneg (Nat.cast_nonneg frame) hpos.le
  rw [Exact.number_div _ hpos.ne', progress]
  rcases le_total (frame / lastIndex count : ℝ) 1 with hle | hge
  · rw [Exact.clamp_of_mem hnonneg hle, min_eq_left hle]
  · rcases hge.eq_or_lt with heq | hlt
    · rw [← heq, Exact.clamp_of_mem zero_le_one le_rfl, min_self]
    · rw [clamp, Exact.less_number, Exact.less_number, if_neg (by simpa using hnonneg),
        if_pos (by simpa using hlt), min_eq_right hge]

theorem centred_frame (hzoom : zoom ≠ 0) :
    MotionFrame.centered (number zoom) (number w)
    (number h) = ((Shot.centred zoom).frame w h).map number := by
  rw [MotionFrame.centered, slack_number w hzoom, slack_number h hzoom, Exact.two_eq,
    Exact.number_div _ two_ne_zero, Exact.number_div _ two_ne_zero, Exact.zero_eq,
    div_eq_mul_one_div (slack w zoom), div_eq_mul_one_div (slack h zoom)]
  rfl

end

theorem slack_one (side : ℝ) : slack side 1 = 0 := by rw [slack, div_one, sub_self]

/-- A reach that is within the room is a share of it. -/
theorem slack_mul_share {room reach : ℝ} (hreach : 0 ≤ reach) (hle : reach ≤ room / 2) (t : ℝ) :
    room * (1 / 2 + reach * t / room) = room / 2 + reach * t := by
  rcases eq_or_ne room 0 with rfl | hroom
  · obtain rfl : reach = 0 := le_antisymm (by simpa using hle) hreach
    simp
  · field_simp

/-- A zoom between one and a zoom that does not shrink does not shrink either. -/
theorem one_le_zoom {zoom p : ℝ} (hzoom : 1 ≤ zoom) (hp : 0 ≤ p) : 1 ≤ 1 + (zoom - 1) * p :=
  le_add_of_nonneg_right (mul_nonneg (sub_nonneg.mpr hzoom) hp)

section
variable {l : MotionLimits ℝ} {width height : ℕ} (hl : l.Fit width height) (frame count : ℕ)

include hl in
/-- **The camera at a frame is that of the shot**, as long as a slow zoom has a zoom. -/
theorem cameraAt_shot {m : Motion}
    (hm : m = .kenburns → min (1 + l.kenburnsRate * frame) l.maxZoom ≠ 0) :
    cameraAt m frame count width height (l.map number) =
      ((shot m frame count width height l).frame width height).map number := by
  have hp := clamp_share frame count
  have hnonneg := progress_nonneg frame count
  have hle := progress_le_one frame count
  have hpan : l.panZoom ≠ 0 := (lt_of_lt_of_le one_pos hl.panZoom).ne'
  have hcentre := @centred_frame width height l.panZoom hpan
  cases m with
  | static =>
    simp only [cameraAt, MotionFrame.identity, Exact.one_eq, Exact.zero_eq, shot, Shot.centred,
      Shot.frame, slack_one, zero_mul]
    rfl
  | kenburns =>
    simp only [cameraAt, MotionLimits.map, Exact.ofNat_eq, Exact.one_eq, Exact.number_mul,
      Exact.number_add, Exact.minimum_number]
    exact centred_frame (hm rfl)
  | zoomIn =>
    simp only [cameraAt, MotionLimits.map, Exact.ofNat_eq, Exact.zero_eq, Exact.one_eq, hp,
      Exact.number_sub, Exact.number_mul, Exact.number_add]
    exact centred_frame (lt_of_lt_of_le one_pos (one_le_zoom hl.maxZoom hnonneg)).ne'
  | zoomOut =>
    have hmirror : l.maxZoom - (l.maxZoom - 1) * progress frame count =
        1 + (l.maxZoom - 1) * (1 - progress frame count) := by ring
    simp only [cameraAt, MotionLimits.map, Exact.ofNat_eq, Exact.zero_eq, Exact.one_eq, hp,
      Exact.number_sub, Exact.number_mul, hmirror]
    exact centred_frame (lt_of_lt_of_le one_pos (one_le_zoom hl.maxZoom (sub_nonneg.mpr hle))).ne'
  | panLeft | panRight | panUp | panDown =>
    simp only [cameraAt, MotionLimits.map, Exact.ofNat_eq, Exact.zero_eq, Exact.one_eq, hp, hcentre,
      slack_number _ hpan, Exact.number_sub, Exact.number_mul]
    rfl
  | rotateClockwise | rotateCounter =>
    simp only [cameraAt, MotionFrame.identity, Exact.ofNat_eq, Exact.one_eq, Exact.zero_eq,
      Exact.two_eq, hp, Trigonometric.pi, Exact.number_neg, Exact.number_mul, shot, Shot.centred,
      Shot.frame, slack_one, zero_mul, neg_mul, turn_eq]
    rfl
  | shake =>
    have hperiod : (l.periodFrames : ℝ) ≠ 0 := Nat.cast_ne_zero.mpr hl.periodFrames.ne'
    simp only [cameraAt, MotionLimits.map, Exact.ofNat_eq, Exact.two_eq, hcentre, Trigonometric.pi,
      Trigonometric.sin, Trigonometric.cos, MotionFrame.map, Exact.number_mul,
      Exact.number_div _ hperiod, Exact.number_add, shot, Shot.centred, Shot.frame,
      half_eq, turn_eq]
    rw [slack_mul_share hl.reachX hl.reachX_le, slack_mul_share hl.reachY hl.reachY_le, mul_one_div,
      mul_one_div]

end

/-- Other motions than the slow zoom always have a zoom. -/
theorem motionAt_shot {m : Motion} (hm : m ≠ .kenburns) (frame count width height : ℕ)
    (c : MotionConfig ℝ) :
    motionAt m frame count width height (c.map number) =
      ((shot m frame count width height (c.bounds width height)).frame width height).map
          number := by
  rw [motionAt, limits_number, cameraAt_shot (c.bounds_fit width height) frame count fun h =>
    absurd h hm]

/-! ## Windows in the picture -/

/-- A shot that shows no more than the picture: it does not make it smaller, and there is room on
both sides of the window. -/
structure Shot.Fits (s : Shot) : Prop where
  zoom : 1 ≤ s.zoom
  across : 0 ≤ s.across
  across_le : s.across ≤ 1
  down : 0 ≤ s.down
  down_le : s.down ≤ 1

/-- The camera is at numbers, does not make the picture smaller, and has its window in a `width` by
`height` picture. -/
def MotionFrame.IsInside (f : MotionFrame (Exact ℝ)) (width height : ℕ) : Prop :=
  ∃ g : MotionFrame ℝ, f = g.map number ∧ 1 ≤ g.zoom ∧
    (0 ≤ g.x ∧ g.x + width / g.zoom ≤ width) ∧ 0 ≤ g.y ∧ g.y + height / g.zoom ≤ height

/-- A window with a share of the room in front of it lies on the side. -/
theorem window_within {side zoom share : ℝ} (hside : 0 ≤ side) (hzoom : 1 ≤ zoom)
    (hshare : 0 ≤ share) (hle : share ≤ 1) :
    0 ≤ slack side zoom * share ∧ slack side zoom * share + side / zoom ≤ side := by
  have hslack := slack_nonneg hside hzoom
  have hwhole : slack side zoom + side / zoom = side := sub_add_cancel _ _
  exact ⟨mul_nonneg hslack hshare, by linarith [mul_le_of_le_one_right hslack hle]⟩

theorem Shot.Fits.isInside {s : Shot} (hs : s.Fits) (width height : ℕ) :
    ((s.frame width height).map number).IsInside width height :=
  ⟨_, rfl, hs.zoom, window_within (Nat.cast_nonneg width) hs.zoom hs.across hs.across_le,
    window_within (Nat.cast_nonneg height) hs.zoom hs.down hs.down_le⟩

theorem fits_centred {zoom : ℝ} (h : 1 ≤ zoom) : (Shot.centred zoom).Fits :=
  ⟨h, one_half_pos.le, one_half_lt_one.le, one_half_pos.le, one_half_lt_one.le⟩

/-- A shake swings around the middle, not beyond the margin. -/
theorem swing_within {room reach t : ℝ} (hreach : 0 ≤ reach) (hle : reach ≤ room / 2)
    (ht : |t| ≤ 1) :
    0 ≤ 1 / 2 + reach * t / room ∧ 1 / 2 + reach * t / room ≤ 1 := by
  have hroom : 0 ≤ room := by linarith
  have hswing : |reach * t / room| ≤ 1 / 2 := by
    rw [abs_div, abs_mul, abs_of_nonneg hreach, abs_of_nonneg hroom]
    exact div_le_of_le_mul₀ hroom one_half_pos.le (by linarith [mul_le_of_le_one_right hreach ht])
  obtain ⟨hlow, hhigh⟩ := abs_le.mp hswing
  constructor <;> linarith

section
variable {l : MotionLimits ℝ} {w h : ℝ} (hl : l.Fit w h) (frame count : ℕ)

include hl in
/-- **Every shot fits**, unless a slow zoom goes backwards. -/
theorem fits_shot {m : Motion} (hm : ¬(m = .kenburns ∧ l.kenburnsRate < 0 ∧ 0 < frame)) :
    (shot m frame count w h l).Fits := by
  have hnonneg := progress_nonneg frame count
  have hle := progress_le_one frame count
  have hback : 0 ≤ 1 - progress frame count := sub_nonneg.mpr hle
  have hback_le : 1 - progress frame count ≤ 1 := sub_le_self 1 hnonneg
  have hpan := fits_centred hl.panZoom
  have hwhole := fits_centred le_rfl
  cases m with
  | static => exact hwhole
  | kenburns =>
    refine fits_centred (le_min (le_add_of_nonneg_right ?_) hl.maxZoom)
    rcases Nat.eq_zero_or_pos frame with rfl | hframe
    · rw [Nat.cast_zero, mul_zero]
    · exact mul_nonneg (not_lt.mp fun hrate => hm ⟨rfl, hrate, hframe⟩) (Nat.cast_nonneg frame)
  | zoomIn => exact fits_centred (one_le_zoom hl.maxZoom hnonneg)
  | zoomOut => exact fits_centred (one_le_zoom hl.maxZoom hback)
  | panLeft => exact { hpan with across := hback, across_le := hback_le }
  | panRight => exact { hpan with across := hnonneg, across_le := hle }
  | panUp => exact { hpan with down := hback, down_le := hback_le }
  | panDown => exact { hpan with down := hnonneg, down_le := hle }
  | rotateClockwise =>
    exact ⟨hwhole.zoom, hwhole.across, hwhole.across_le, hwhole.down, hwhole.down_le⟩
  | rotateCounter =>
    exact ⟨hwhole.zoom, hwhole.across, hwhole.across_le, hwhole.down, hwhole.down_le⟩
  | shake =>
    have hx := swing_within hl.reachX hl.reachX_le
      (Real.abs_sin_le_one (2 * Real.pi * frame / l.periodFrames))
    have hy := swing_within hl.reachY hl.reachY_le
      (Real.abs_cos_le_one (2 * Real.pi * frame / l.periodFrames))
    exact ⟨hl.panZoom, hx.1, hx.2, hy.1, hy.2⟩

end

/-- A slow zoom that goes backwards makes the picture smaller after its first frame. -/
theorem not_isInside_of_receding {c : MotionConfig ℝ} {frame : ℕ} (hrate : c.kenburnsRate < 0)
    (hframe : 0 < frame) (count width height : ℕ) :
    ¬(motionAt .kenburns frame count width height (c.map number)).IsInside width height := by
  rintro ⟨g, hg, hzoom, -⟩
  rw [motionAt, limits_number] at hg
  have hless : c.kenburnsRate * frame < 0 := mul_neg_of_neg_of_pos hrate (Nat.cast_pos.mpr hframe)
  have hstate : minimum (one + number c.kenburnsRate * number (frame : ℝ))
      (number (max c.maxZoom 1)) = number g.zoom :=
    congrArg MotionFrame.zoom hg
  rw [Exact.one_eq, Exact.number_mul, Exact.number_add, Exact.minimum_number] at hstate
  have hvalue : min (1 + c.kenburnsRate * frame) (max c.maxZoom 1) = g.zoom :=
    Exact.number.inj hstate
  linarith [min_le_left (1 + c.kenburnsRate * frame) (max c.maxZoom 1)]

/-- **The window lies in the picture**, unless a slow zoom goes backwards: then the picture is made
smaller. -/
theorem motionAt_isInside_iff (m : Motion) (frame count width height : ℕ) (c : MotionConfig ℝ) :
    (motionAt m frame count width height (c.map number)).IsInside width height ↔
      ¬(m = .kenburns ∧ c.kenburnsRate < 0 ∧ 0 < frame) := by
  constructor
  · rintro h ⟨rfl, hrate, hframe⟩
    exact not_isInside_of_receding hrate hframe count width height h
  · intro hm
    have hl := c.bounds_fit width height
    have hfits := fits_shot hl frame count hm
    have hzoom : m = .kenburns → min (1 + c.kenburnsRate * frame) (max c.maxZoom 1) ≠ 0 := by
      rintro rfl
      exact (lt_of_lt_of_le one_pos hfits.zoom).ne'
    rw [motionAt, limits_number, cameraAt_shot hl frame count hzoom]
    exact hfits.isInside width height

/-- A configuration with a slow zoom that goes backwards. -/
def receding : Config := { effects := { kenburnsRate := -0.5, panZoom := 1.25 } }

/-- It passes, and the second frame of a slow zoom by its settings shows twice the picture. -/
theorem receding_leaves : receding.check = .ok () ∧
    ¬(motionAt .kenburns 1 2 1920 1080
        ((⟨-1 / 2, 3 / 2, 5 / 4, 12, 9⟩ : MotionConfig ℝ).map number)).IsInside 1920 1080 :=
  ⟨rfl, not_isInside_of_receding (by norm_num) Nat.one_pos 2 1920 1080⟩

end Slideshow
