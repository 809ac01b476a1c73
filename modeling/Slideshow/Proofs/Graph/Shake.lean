import Slideshow.Proofs.Graph.Window
import Mathlib.RingTheory.RootsOfUnity.Complex

/-!
# What a shake adds up to

A shake (`motion_at`, `shake_amplitudes`) follows a circle, one turn in a period. The points of a
turn are the powers of a root of unity, so their sum is zero, unless the period is a single frame:
then every frame stands at the same point of the circle, which is at the end of the height.

* `sum_turn`: the points of a turn add up to zero.
* `Drifts`: what the offsets of a camera from the middle add up to; `Drifts.unique`.

Headlines:
* **`shake_drift`**: over a period a shake does not drift, but one with a single frame drifts by its
  whole reach.
-/

namespace Slideshow

open Exact (number)
open Finset (range)

/-! ## Turns -/

/-- The angle of a frame on the circle, with a turn in `p` frames. -/
noncomputable def phase (frame p : ℕ) : ℝ := turn * frame / p

section
variable {p : ℕ} (start : ℕ)

/-- The points of a turn add up to zero, wherever it starts. -/
theorem sum_turn (hp : 2 ≤ p) :
    ∑ i ∈ range p, Complex.exp (phase (start + i) p * Complex.I) = 0 := by
  have hroot := Complex.isPrimitiveRoot_exp p (by omega)
  have hpoint : ∀ i, Complex.exp (phase (start + i) p * Complex.I) =
      Complex.exp (2 * Real.pi * Complex.I / p) ^ start *
          Complex.exp (2 * Real.pi * Complex.I / p) ^ i := by
    intro i
    rw [← pow_add, ← Complex.exp_nat_mul, phase, turn_eq]
    congr 1
    push_cast
    ring
  simp only [hpoint]
  rw [← Finset.mul_sum, hroot.geom_sum_eq_zero hp, mul_zero]

theorem sum_sin (hp : 2 ≤ p) : ∑ i ∈ range p, Real.sin (phase (start + i) p) = 0 := by
  have h := congrArg Complex.im (sum_turn start hp)
  simpa only [Complex.im_sum, Complex.exp_ofReal_mul_I_im, Complex.zero_im] using h

theorem sum_cos (hp : 2 ≤ p) : ∑ i ∈ range p, Real.cos (phase (start + i) p) = 0 := by
  have h := congrArg Complex.re (sum_turn start hp)
  simpa only [Complex.re_sum, Complex.exp_ofReal_mul_I_re, Complex.zero_re] using h

/-- With a turn in a frame, every frame is at the start of a turn. -/
theorem phase_one (frame : ℕ) : Real.sin (phase frame 1) = 0 ∧ Real.cos (phase frame 1) = 1 := by
  have hturns : phase frame 1 = 0 + frame * (2 * Real.pi) := by
    rw [phase, turn_eq, Nat.cast_one, div_one, mul_comm, zero_add]
  rw [hturns, Real.sin_add_nat_mul_two_pi, Real.cos_add_nat_mul_two_pi, Real.sin_zero,
    Real.cos_zero]
  exact ⟨rfl, rfl⟩

end

/-! ## Drifts -/

/-- Over the `p` frames from `start`, the offsets of cameras from the middle of a `w` by `h` picture
add up to `across` and `down`. -/
structure Offsets (view : ℕ → MotionFrame ℝ) (start p : ℕ) (w h across down : ℝ) : Prop where
  across : ∑ i ∈ range p, ((view (start + i)).x - slack w (view (start + i)).zoom / 2) = across
  down : ∑ i ∈ range p, ((view (start + i)).y - slack h (view (start + i)).zoom / 2) = down

/-- A camera is at numbers, and its offsets add up to `across` and `down`. -/
def Drifts (camera : ℕ → MotionFrame (Exact ℝ)) (start p : ℕ) (w h across down : ℝ) : Prop :=
  ∃ view : ℕ → MotionFrame ℝ, (∀ k, camera k = (view k).map number) ∧
    Offsets view start p w h across down

theorem MotionFrame.map_number_injective :
    Function.Injective (MotionFrame.map number : MotionFrame ℝ → MotionFrame (Exact ℝ)) := by
  intro f g h
  simp only [MotionFrame.map, MotionFrame.mk.injEq, Exact.number.injEq] at h
  obtain ⟨hzoom, hx, hy, hangle⟩ := h
  cases f
  cases g
  simp_all

/-- A camera drifts in one way. -/
theorem Drifts.unique {camera : ℕ → MotionFrame (Exact ℝ)} {start p : ℕ}
    {w h across down across' down' : ℝ} (hd : Drifts camera start p w h across down)
    (hd' : Drifts camera start p w h across' down') : across = across' ∧ down = down' := by
  obtain ⟨view, hview, ⟨rfl, rfl⟩⟩ := hd
  obtain ⟨view', hview', ⟨rfl, rfl⟩⟩ := hd'
  obtain rfl : view = view' :=
    funext fun k => MotionFrame.map_number_injective ((hview k).symm.trans (hview' k))
  exact ⟨rfl, rfl⟩

/-! ## Shakes -/

/-- What swings around the middle is off it by its swing. -/
theorem sum_swing {room reach : ℝ} (hreach : 0 ≤ reach) (hle : reach ≤ room / 2) (t : ℕ → ℝ)
    (p : ℕ) :
    ∑ i ∈ range p, (room * (half 1 + reach * t i / room) - room / 2) = reach * ∑ i ∈ range p,
        t i := by
  rw [Finset.mul_sum]
  refine Finset.sum_congr rfl fun i _ => ?_
  rw [half_eq, slack_mul_share hreach hle, add_sub_cancel_left]

section
variable (start count width height : ℕ) (c : MotionConfig ℝ)

/-- A shake follows a circle around the middle. -/
theorem shake_drifts :
    Drifts (motionAt .shake · count width height (c.map number)) start
      (max c.shakePeriodFrames 1) width height
    (reachWithin c.shakeAmplitude width (max c.panZoom 1) *
      ∑ i ∈ range (max c.shakePeriodFrames 1),
        Real.sin (phase (start + i) (max c.shakePeriodFrames 1)))
    (reachWithin c.shakeAmplitude height (max c.panZoom 1) *
      ∑ i ∈ range (max c.shakePeriodFrames 1),
          Real.cos (phase (start + i) (max c.shakePeriodFrames 1))) := by
  have hl := c.bounds_fit width height
  have hshake : Motion.shake ≠ .kenburns := nofun
  exact ⟨_, fun k => motionAt_shot hshake k count width height c,
    ⟨sum_swing hl.reachX hl.reachX_le _ _, sum_swing hl.reachY hl.reachY_le _ _⟩⟩

/-- With a period of a single frame a shake stands still at its lowest point. -/
theorem single_drift (hperiod : c.shakePeriodFrames ≤ 1) :
    Drifts (motionAt .shake · count width height (c.map number)) start
      (max c.shakePeriodFrames 1) width height
      0 (reachWithin c.shakeAmplitude height (max c.panZoom 1)) := by
  have h := shake_drifts start count width height c
  rw [max_eq_right hperiod, Finset.sum_range_one, Finset.sum_range_one, (phase_one _).1,
    (phase_one _).2, mul_zero, mul_one] at h
  rwa [max_eq_right hperiod]

/-- **Over a period a shake does not drift**, but one with a period of a single frame drifts down by
its whole reach. -/
theorem shake_drift :
    Drifts (motionAt .shake · count width height (c.map number)) start
      (max c.shakePeriodFrames 1) width height
    0 (if 2 ≤ c.shakePeriodFrames then 0
        else reachWithin c.shakeAmplitude height (max c.panZoom 1)) := by
  split_ifs with hperiod
  · have h := shake_drifts start count width height c
    rw [max_eq_left (by omega), sum_sin start hperiod, sum_cos start hperiod, mul_zero,
      mul_zero] at h
    rwa [max_eq_left (by omega)]
  · exact single_drift start count width height c (by omega)

end

/-- A configuration with a shake whose period is a single frame. -/
def jolting : Config := { effects := { panZoom := 1.25, shakePeriodFrames := 1 } }

/-- It passes, and its shake is off the middle for good. -/
theorem jolting_drifts : jolting.check = .ok () ∧
    ¬Drifts
        (motionAt .shake · 10 1920 1080 ((⟨0, 3 / 2, 5 / 4, 12, 1⟩ : MotionConfig ℝ).map number)) 0
            1 1920 1080 0 0 := by
  refine ⟨rfl, fun h => ?_⟩
  have hreach : reachWithin 12 (1080 : ℕ) (max (5 / 4) 1) = 12 := by
    norm_num [reachWithin, slack, half_eq]
  have hdown := (h.unique (single_drift 0 10 1920 1080 ⟨0, 3 / 2, 5 / 4, 12, 1⟩ le_rfl)).2
  exact absurd (hdown.trans hreach) (by norm_num)

end Slideshow
