import Slideshow.Proofs.Graph.Window

/-!
# How the motions sweep

Eight of the motions (`motion_at`) go along with the progress of their segment, from one end of
their range to the other. A motion and its opposite are each other's mirror images in time, or in
the angle.

* `Ramp`: a quantity that goes up from one value to another in the course of a segment;
  `ramp_progress`, `Ramp.affine`.
* `Sweeps`: what the motions do that go along with the progress.

Headlines:
* **`ramps_sweep`**: they sweep their whole range, and stay at its end.
-/

namespace Slideshow

open Exact (number)

/-! ## Ramps -/

/-- A quantity that goes up from `start` to `stop` in the course of a segment of `count` frames. -/
structure Ramp (count : ℕ) (f : ℕ → ℝ) (start stop : ℝ) : Prop where
  first : f 0 = start
  rises : Monotone f
  last : f (count - 1) = stop

section
variable {count : ℕ}

theorem lastIndex_eq (hcount : 2 ≤ count) : lastIndex count = count - 1 := max_eq_left (by omega)

/-- **Progress goes from zero to one.** -/
theorem ramp_progress (hcount : 2 ≤ count) : Ramp count (progress · count) 0 1 where
  first := by rw [progress, Nat.cast_zero, zero_div, min_eq_left zero_le_one]
  rises := fun j k hjk =>
    min_le_min_right 1 (div_le_div_of_nonneg_right (Nat.cast_le.mpr hjk) (Nat.cast_nonneg _))
  last := by
    have hlast : ((count - 1 : ℕ) : ℝ) ≠ 0 := Nat.cast_ne_zero.mpr (by omega)
    rw [progress, lastIndex_eq hcount, div_self hlast, min_self]

/-- Read backwards, progress is what is left of it. -/
theorem progress_mirror (hcount : 2 ≤ count) {k : ℕ} (hk : k ≤ count - 1) :
    progress (count - 1 - k) count = 1 - progress k count := by
  have hlast : (0 : ℝ) < (count - 1 : ℕ) := Nat.cast_pos.mpr (by omega)
  have hle : (k / (count - 1 : ℕ) : ℝ) ≤ 1 := (div_le_one hlast).mpr (Nat.cast_le.mpr hk)
  have hback : ((count - 1 - k : ℕ) : ℝ) / (count - 1 : ℕ) = 1 - k / (count - 1 : ℕ) := by
    rw [Nat.cast_sub hk, sub_div, div_self hlast.ne']
  have hnonneg : (0 : ℝ) ≤ k / (count - 1 : ℕ) := div_nonneg (Nat.cast_nonneg _) hlast.le
  rw [progress, progress, lastIndex_eq hcount, hback, min_eq_left hle,
    min_eq_left (sub_le_self 1 hnonneg)]

/-- After its last frame a segment makes no progress. -/
theorem progress_stays (hcount : 2 ≤ count) {k : ℕ} (hk : count ≤ k) :
    progress k count = progress (count - 1) count := by
  have hend := (ramp_progress hcount).last
  refine le_antisymm ?_ ((ramp_progress hcount).rises (by omega))
  exact hend.symm ▸ progress_le_one k count

/-- What goes up with a ramp from zero to one is a ramp. -/
theorem Ramp.affine {f : ℕ → ℝ} (hf : Ramp count f 0 1) {start stop range : ℝ} (hrange : 0 ≤ range)
    (hstop : start + range = stop) :
    Ramp count (fun k => start + range * f k) start stop where
  first := by rw [hf.first, mul_zero, add_zero]
  rises := fun _ _ hjk => add_le_add_right (mul_le_mul_of_nonneg_left (hf.rises hjk) hrange) start
  last := by rw [hf.last, mul_one, hstop]

/-- A share that goes from nothing to the whole goes through all of a range. -/
theorem Ramp.scale {f : ℕ → ℝ} (hf : Ramp count f 0 1) {range : ℝ} (hrange : 0 ≤ range) :
    Ramp count (fun k => range * f k) 0 range := by
  simpa only [zero_add] using hf.affine hrange (zero_add range)

end

/-! ## Sweeps -/

/-- The motions that go along with the progress of their segment. -/
def Motion.ramps : List Motion :=
  [.zoomIn, .zoomOut, .panLeft, .panRight, .panUp, .panDown, .rotateClockwise, .rotateCounter]

/-- What the cameras of these motions do in a segment of `count` frames of a `width` by `height`
image. -/
structure Sweeps (view : Motion → ℕ → MotionFrame ℝ) (count width height : ℕ) (c : MotionConfig ℝ) :
    Prop where
  /-- A zoom in starts with the whole picture and ends with the largest zoom, in the middle. -/
  zoomIn : ∃ zoom, Ramp count zoom 1 (max c.maxZoom 1) ∧
    ∀ k, view .zoomIn k = ⟨zoom k, slack width (zoom k) / 2, slack height (zoom k) / 2, 0⟩
  /-- A pan to the right crosses the width, in the middle of the height. -/
  panRight : ∃ x, Ramp count x 0 (slack width (max c.panZoom 1)) ∧
    ∀ k, view .panRight k = ⟨max c.panZoom 1, x k, slack height (max c.panZoom 1) / 2, 0⟩
  /-- A pan down crosses the height, in the middle of the width. -/
  panDown : ∃ y, Ramp count y 0 (slack height (max c.panZoom 1)) ∧
    ∀ k, view .panDown k = ⟨max c.panZoom 1, slack width (max c.panZoom 1) / 2, y k, 0⟩
  /-- A rotation makes one turn of the whole picture; the other one turns the other way. -/
  rotate : ∃ angle, Ramp count angle 0 (2 * Real.pi) ∧
    ∀ k, view .rotateClockwise k = ⟨1, 0, 0, angle k⟩ ∧ view .rotateCounter k = ⟨1, 0, 0, -angle k⟩
  /-- The others are mirror images in time. -/
  mirror : ∀ k ≤ count - 1, view .zoomOut k = view .zoomIn (count - 1 - k) ∧
    view .panLeft k = view .panRight (count - 1 - k) ∧
    view .panUp k = view .panDown (count - 1 - k)
  /-- All of them stay where they are at the last frame. -/
  stays : ∀ m ∈ Motion.ramps, ∀ k ≥ count, view m k = view m (count - 1)

section
variable {count : ℕ} {l : MotionLimits ℝ}

/-- The shots of these motions depend on the progress alone. -/
theorem shot_congr {m : Motion} (hm : m ∈ Motion.ramps) {j k : ℕ}
    (h : progress j count = progress k count) (w h' : ℝ) :
    shot m j count w h' l = shot m k count w h' l := by
  simp only [Motion.ramps, List.mem_cons, List.not_mem_nil, or_false] at hm
  rcases hm with rfl | rfl | rfl | rfl | rfl | rfl | rfl | rfl <;> simp only [shot, h]

/-- The shots of a motion and of its opposite are mirror images. -/
theorem shot_mirror (hcount : 2 ≤ count) {k : ℕ} (hk : k ≤ count - 1) (w h : ℝ) :
    shot .zoomOut k count w h l = shot .zoomIn (count - 1 - k) count w h l ∧
      shot .panLeft k count w h l = shot .panRight (count - 1 - k) count w h l ∧
        shot .panUp k count w h l = shot .panDown (count - 1 - k) count w h l := by
  simp only [shot, progress_mirror hcount hk, and_self]

end

/-- The shots of these motions sweep. -/
theorem sweeps_shot {count : ℕ} (hcount : 2 ≤ count) (width height : ℕ) (c : MotionConfig ℝ) :
    Sweeps (fun m k => (shot m k count width height (c.bounds width height)).frame width height)
        count width height c := by
  have hprogress := ramp_progress hcount
  have hpan : ∀ side : ℕ, 0 ≤ slack side (max c.panZoom 1) :=
    fun side => slack_nonneg (Nat.cast_nonneg side) (le_max_right _ _)
  have hzoom : 0 ≤ max c.maxZoom 1 - 1 := sub_nonneg.mpr (le_max_right _ _)
  have hmiddle : ∀ side zoom : ℝ, slack side zoom * half 1 = slack side zoom / 2 := fun _ _ => by
    rw [half_eq, mul_one_div]
  constructor
  case zoomIn =>
    refine ⟨_, hprogress.affine hzoom (add_sub_cancel 1 _), fun k => ?_⟩
    simp only [shot, Shot.centred, Shot.frame, hmiddle, MotionConfig.bounds]
  case panRight =>
    refine ⟨_, hprogress.scale (hpan width), fun k => ?_⟩
    simp only [shot, Shot.centred, Shot.frame, hmiddle, MotionConfig.bounds]
  case panDown =>
    refine ⟨_, hprogress.scale (hpan height), fun k => ?_⟩
    simp only [shot, Shot.centred, Shot.frame, hmiddle, MotionConfig.bounds]
  case rotate =>
    refine ⟨_, hprogress.scale Real.two_pi_pos.le, fun k => ?_⟩
    simp only [shot, Shot.centred, Shot.frame, slack_one, zero_mul, turn_eq, and_self]
  case mirror =>
    intro k hk
    obtain ⟨hin, hright, hdown⟩ :=
      shot_mirror (l := c.bounds width height) hcount hk (width : ℝ) height
    exact ⟨congrArg (Shot.frame · width height) hin, congrArg (Shot.frame · width height) hright,
      congrArg (Shot.frame · width height) hdown⟩
  case stays =>
    intro m hm k hk
    exact congrArg (Shot.frame · width height) (shot_congr hm (progress_stays hcount hk) _ _)

/-- **The motions that go along with their segment sweep their whole range**, and stay at its
end. -/
theorem ramps_sweep {count : ℕ} (hcount : 2 ≤ count) (width height : ℕ) (c : MotionConfig ℝ) :
    ∃ view : Motion → ℕ → MotionFrame ℝ,
      (∀ m ∈ Motion.ramps, ∀ k,
        motionAt m k count width height (c.map number) = (view m k).map number) ∧
        Sweeps view count width height c := by
  refine ⟨_, fun m hm k => motionAt_shot ?_ k count width height c,
    sweeps_shot hcount width height c⟩
  rintro rfl
  exact absurd hm (by decide)

/-- A segment of two frames. -/
theorem ramps_sweep_pair :
    ∃ view : Motion → ℕ → MotionFrame ℝ,
      (∀ m ∈ Motion.ramps, ∀ k,
        motionAt m k 2 1920 1080 ((⟨0, 3 / 2, 5 / 4, 12, 9⟩ : MotionConfig ℝ).map number) =
            (view m k).map number) ∧ Sweeps view 2 1920 1080 ⟨0, 3 / 2, 5 / 4, 12, 9⟩ :=
  ramps_sweep le_rfl 1920 1080 _

end Slideshow
