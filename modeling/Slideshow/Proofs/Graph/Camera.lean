import Slideshow.Proofs.Binary
import Slideshow.Proofs.Graph.Evaluation

/-!
# Filters follow motions

A motion is given twice, as the camera at a frame (`motion_at`) and as the text of a filter
(`motion_filter`). The text, read back and evaluated, is the camera again, once the settings are
taken as they are printed.

Headlines:
* `StandsFor`: an expression that has the same value in every frame.
* `MotionForm.readable_of`: what is written for a motion can be read back.
* `MotionForm.camera_of`: the expressions of a motion say where its camera is.
* **`motionFilter_camera`**: so does the text of the filter, at every frame of a segment.
-/

namespace Slideshow

open Scalar

/-! ## Finite settings -/

/-- All settings are finite numbers. -/
structure MotionConfig.IsFinite (c : MotionConfig Float) : Prop where
  kenburnsRate : isFinite c.kenburnsRate = true
  maxZoom : isFinite c.maxZoom = true
  panZoom : isFinite c.panZoom = true
  shakeAmplitude : isFinite c.shakeAmplitude = true

/-- All limits are finite numbers. -/
structure MotionLimits.IsFinite (l : MotionLimits Float) : Prop where
  kenburnsRate : isFinite l.kenburnsRate = true
  maxZoom : isFinite l.maxZoom = true
  panZoom : isFinite l.panZoom = true
  reachX : isFinite l.reachX = true
  reachY : isFinite l.reachY = true

/-- The limits of finite settings are finite, whatever the size of the image. -/
theorem MotionConfig.IsFinite.limits {c : MotionConfig Float} (h : c.IsFinite)
    (width height : Nat) : (c.limits width height).IsFinite where
  kenburnsRate := h.kenburnsRate
  maxZoom := isFinite_maximum h.maxZoom (by decide)
  panZoom := isFinite_maximum h.panZoom (by decide)
  reachX := isFinite_limited h.shakeAmplitude _
  reachY := isFinite_limited h.shakeAmplitude _

namespace Graph

/-- What the text of a number stands for. -/
noncomputable def printedNumber (x : Float) : Exact ℝ := .number (Decimal.printed x : ℝ)

/-! ## Numbers of filters -/

/-- An expression that stands for a number, and can be a factor. -/
structure StandsFor (e : Expression) (x : ℝ) : Prop where
  isFactor : e.IsFactor
  value : ∀ env, e.value env = .number x

/-- **The text of a finite number stands for what is printed.** -/
theorem standsFor_of_parts {x : Float} {negative : Bool} {mantissa : Nat} {exponent : Int}
    (h : Decimal.Parts.ofFloat x = .finite negative mantissa exponent) :
    StandsFor (MotionForm.number x) (Decimal.printed x) := by
  obtain ⟨whole, fraction, hne, hw, hf, htext⟩ := Decimal.numeralChars_finite h
  have hread := readable_digits hne hw hf
  rcases htext with ⟨ht, hv⟩ | ⟨ht, hv⟩
  · have hnumber : MotionForm.number x = .literal (whole ++ Decimal.pointed fraction) := by
      obtain ⟨d, ds, rfl⟩ := List.exists_cons_of_ne_nil hne
      have hd : d ≠ '-' := by
        rintro rfl
        exact absurd (hw _ List.mem_cons_self) (by decide)
      rw [MotionForm.number, show numeral x = _ from ht]
      split
      · next heq => exact absurd (List.cons.inj heq).1 hd
      · rfl
    rw [hnumber, hv]
    exact ⟨⟨hread, Nat.le_succ 2⟩, fun _ => rfl⟩
  · have hnumber : MotionForm.number x =
        .negate (.literal (whole ++ Decimal.pointed fraction)) := by
      rw [MotionForm.number, show numeral x = _ from ht]
      rfl
    rw [hnumber, hv]
    refine ⟨⟨⟨hread, Nat.le_succ 2⟩, le_rfl⟩, fun env => ?_⟩
    show -Exact.number _ = _
    rw [Exact.number_neg, Rat.cast_neg]

theorem standsFor_number {x : Float} (hx : isFinite x = true) :
    StandsFor (MotionForm.number x) (Decimal.printed x) := by
  obtain ⟨negative, mantissa, exponent, h⟩ := ofFloat_of_isFinite hx
  exact standsFor_of_parts h

theorem StandsFor.negate {e : Expression} {x : ℝ} (h : StandsFor e x) :
    StandsFor (.negate e) (-x) where
  isFactor := Expression.isFactor_negate h.isFactor
  value env := by
    show -e.value env = _
    rw [h.value, Exact.number_neg]

theorem standsFor_ofNat (n : Nat) : StandsFor (.ofNat n) n where
  isFactor := ⟨readable_ofNat n, Nat.le_succ 2⟩
  value env := value_ofNat env n

namespace MotionForm

open Expression

/-! ## Parts of motions -/

section

variable {last e : Expression} {l : ℝ} (side : Variable)

theorem isTerm_windowSide : (windowSide side).IsTerm :=
  (isFactor_var side).isTerm.divide (isFactor_var .zoom)

theorem readable_middle : (middle side).Readable :=
  have hhalf := (isFactor_var side).isTerm.divide (standsFor_ofNat 2).isFactor
  have hwindow := (isTerm_windowSide side).divide (standsFor_ofNat 2).isFactor
  hhalf.readable.subtract (isFactor_parenthesized hwindow.readable).isTerm

theorem isTerm_room : (room side).IsTerm :=
  (isFactor_parenthesized ((isFactor_var side).readable.subtract (isTerm_windowSide side))).isTerm

theorem readable_forth (h : StandsFor last l) : (forth side last).Readable :=
  (((isTerm_room side).multiply (isFactor_var .outputFrame)).divide h.isFactor).readable

theorem readable_back (h : StandsFor last l) : (back side last).Readable :=
  have hshare := (isFactor_var .outputFrame).isTerm.divide h.isFactor
  ((isTerm_room side).multiply
    (isFactor_parenthesized ((readable_ofNat 1).subtract hshare))).readable

theorem readable_phase (period : Nat) : (phase period).Readable :=
  have hcircle := (standsFor_ofNat 2).isFactor.isTerm.multiply (isFactor_var .pi)
  ((hcircle.multiply (isFactor_var .outputFrame)).divide (standsFor_ofNat period).isFactor).readable

theorem isTerm_zoomShare {zoom : ℝ} (hz : StandsFor e zoom) (h : StandsFor last l) :
    (zoomShare e last).IsTerm :=
  have habove := hz.isFactor.readable.subtract (standsFor_ofNat 1).isFactor.isTerm
  ((isFactor_parenthesized habove).isTerm.multiply (isFactor_var .outputFrame)).divide h.isFactor

theorem readable_turns {whole : ℝ} (hw : StandsFor e whole) (h : StandsFor last l) :
    (turns e last).Readable :=
  have hcircle := hw.isFactor.isTerm.multiply (isFactor_var .pi)
  ((hcircle.multiply (isFactor_var .frame)).divide h.isFactor).readable

variable {env : Variable → Exact ℝ} {side} {s k : ℝ}

theorem value_middle (hs : env side = .number s) :
    (middle side).value env = (env side - env side / env .zoom) / two := by
  show env side / (Expression.ofNat 2).value env -
    env side / env .zoom / (Expression.ofNat 2).value env = _
  rw [value_ofNat, hs]
  exact Exact.sub_div_two s _

theorem value_phase (period : Nat) :
    (phase period).value env = two * env .pi * env .outputFrame / Scalar.ofNat period := by
  show (Expression.ofNat 2).value env * env .pi * env .outputFrame /
    (Expression.ofNat period).value env = _
  rw [value_ofNat, value_ofNat]
  rfl

variable {P : Exact ℝ} (hP : P = .number (k / l)) (h : StandsFor last l)

include hP h in
theorem value_forth (hk : env .outputFrame = .number k) (hk0 : 0 ≤ k) (hl : 0 < l) :
    (forth side last).value env = (env side - env side / env .zoom) * P := by
  show (env side - env side / env .zoom) * env .outputFrame / last.value env = _
  rw [hk, h.value, Exact.mul_div_number _ hk0 hl, hP]

include hP h in
theorem value_back (hk : env .outputFrame = .number k) (hl : 0 < l) :
    (back side last).value env = (env side - env side / env .zoom) * (one - P) := by
  show (env side - env side / env .zoom) *
    ((Expression.ofNat 1).value env - env .outputFrame / last.value env) = _
  rw [hk, h.value, value_ofNat, Exact.number_div _ hl.ne', hP]
  rfl

include hP h in
theorem value_zoomShare (hk : env .outputFrame = .number k) (hk0 : 0 ≤ k) (hl : 0 < l) :
    (zoomShare e last).value env = (e.value env - one) * P := by
  show (e.value env - (Expression.ofNat 1).value env) * env .outputFrame / last.value env = _
  rw [value_ofNat, hk, h.value, Exact.mul_div_number _ hk0 hl, hP]
  rfl

include hP h in
theorem value_turns (hk : env .frame = .number k) (hk0 : 0 ≤ k) (hl : 0 < l) :
    (turns e last).value env = e.value env * env .pi * P := by
  show e.value env * env .pi * env .frame / last.value env = _
  rw [hk, h.value, Exact.mul_div_number _ hk0 hl, hP]

end

/-! ## Motions -/

section

variable {l : MotionLimits Float} (hl : l.IsFinite) {count : Nat} (hcount : count < 2 ^ 32)

theorem lastIndex_lt (h : count < 2 ^ 32) : lastIndex count < 2 ^ 53 := by
  unfold lastIndex
  omega

theorem lastIndex_pos (count : Nat) : 0 < lastIndex count := by
  unfold lastIndex
  omega

theorem standsFor_last (h : count < 2 ^ 32) :
    StandsFor (number (Scalar.ofNat (lastIndex count) : Float)) (lastIndex count : Nat) := by
  have hlast := standsFor_of_parts (Decimal.ofFloat_ofNat (lastIndex_pos count) (lastIndex_lt h))
  rwa [Decimal.printed_ofNat (lastIndex_pos count) (lastIndex_lt h), Rat.cast_natCast] at hlast

/-- The share of a segment that is over at one of its frames is between zero and one. -/
theorem clamp_progress {frame : Nat} (h : frame < count) :
    clamp (Scalar.ofNat frame / Scalar.ofNat (lastIndex count) : Exact ℝ) zero one =
      .number ((frame : ℝ) / (lastIndex count : Nat)) := by
  have hpos : (0 : ℝ) < (lastIndex count : Nat) := Nat.cast_pos.mpr (lastIndex_pos count)
  have hle : frame ≤ lastIndex count := by
    unfold lastIndex
    omega
  have hcast : (frame : ℝ) ≤ (lastIndex count : Nat) := Nat.cast_le.mpr hle
  rw [Exact.ofNat_eq, Exact.ofNat_eq, Exact.number_div _ hpos.ne', Exact.zero_eq, Exact.one_eq]
  exact Exact.clamp_of_mem (div_nonneg (Nat.cast_nonneg frame) hpos.le)
    ((div_le_one hpos).mpr hcast)

theorem camera_window {zoom x y : Expression} {width height frame : Nat} {Z X Y : Exact ℝ}
    (hz : zoom.value (environment width height frame .nan) = Z)
    (hx : x.value (environment width height frame Z) = X)
    (hy : y.value (environment width height frame Z) = Y) :
    (window zoom x y).camera width height frame = ⟨Z, X, Y, zero⟩ := by
  subst hz hx hy
  rfl

theorem camera_turn {angle : Expression} {width height frame : Nat} {A : Exact ℝ}
    (h : angle.value (environment width height frame one) = A) :
    (turn angle).camera width height frame = { MotionFrame.identity with angle := A } := by
  subst h
  rfl

include hl hcount in
/-- What is written for a motion can be read back. -/
theorem readable_of (m : Motion) : (of m count l).Readable := by
  have hlast := standsFor_last hcount
  have hmax := standsFor_number hl.maxZoom
  have hpan := standsFor_number hl.panZoom
  cases m with
  | static => trivial
  | kenburns =>
    have hrate := standsFor_number hl.kenburnsRate
    have hgrowth := hrate.isFactor.isTerm.multiply (isFactor_var .outputFrame)
    exact ⟨⟨(readable_ofNat 1).add hgrowth, hmax.isFactor.readable⟩, readable_middle _,
      readable_middle _⟩
  | zoomIn =>
    exact ⟨(readable_ofNat 1).add (isTerm_zoomShare hmax hlast), readable_middle _,
      readable_middle _⟩
  | zoomOut =>
    exact ⟨hmax.isFactor.readable.subtract (isTerm_zoomShare hmax hlast), readable_middle _,
      readable_middle _⟩
  | panLeft => exact ⟨hpan.isFactor.readable, readable_back _ hlast, readable_middle _⟩
  | panRight => exact ⟨hpan.isFactor.readable, readable_forth _ hlast, readable_middle _⟩
  | panUp => exact ⟨hpan.isFactor.readable, readable_middle _, readable_back _ hlast⟩
  | panDown => exact ⟨hpan.isFactor.readable, readable_middle _, readable_forth _ hlast⟩
  | rotateClockwise => exact readable_turns (standsFor_ofNat 2) hlast
  | rotateCounter => exact readable_turns (standsFor_ofNat 2).negate hlast
  | shake =>
    have hx := (standsFor_number hl.reachX).isFactor.isTerm.multiply
      (isFactor_apply .sin (readable_phase l.periodFrames))
    have hy := (standsFor_number hl.reachY).isFactor.isTerm.multiply
      (isFactor_apply .cos (readable_phase l.periodFrames))
    exact ⟨hpan.isFactor.readable, (readable_middle _).add hx, (readable_middle _).add hy⟩

include hl hcount in
/-- The expressions of a motion say where its camera is. -/
theorem camera_of (m : Motion) {frame : Nat} (hframe : frame < count) (width height : Nat) :
    (of m count l).camera width height frame =
      cameraAt m frame count width height (l.map printedNumber) := by
  have hlast := standsFor_last hcount
  have hmax := standsFor_number hl.maxZoom
  have hpan := standsFor_number hl.panZoom
  have hk : (0 : ℝ) ≤ frame := Nat.cast_nonneg frame
  have hL : (0 : ℝ) < (lastIndex count : Nat) := Nat.cast_pos.mpr (lastIndex_pos count)
  have hp := clamp_progress hframe
  cases m with
  | static => rfl
  | kenburns =>
    refine camera_window ?_ (value_middle rfl) (value_middle rfl)
    show minimum ((Expression.ofNat 1).value _ + (number l.kenburnsRate).value _ * .number frame)
      ((number l.maxZoom).value _) = _
    rw [value_ofNat, (standsFor_number hl.kenburnsRate).value, hmax.value]
    rfl
  | zoomIn =>
    refine camera_window ?_ (value_middle rfl) (value_middle rfl)
    show (Expression.ofNat 1).value _ + (zoomShare (number l.maxZoom) _).value _ = _
    rw [value_ofNat, value_zoomShare hp hlast rfl hk hL, hmax.value]
    rfl
  | zoomOut =>
    refine camera_window ?_ (value_middle rfl) (value_middle rfl)
    show (number l.maxZoom).value _ - (zoomShare (number l.maxZoom) _).value _ = _
    rw [value_zoomShare hp hlast rfl hk hL, hmax.value]
    rfl
  | panLeft =>
    exact camera_window (hpan.value _) (value_back hp hlast rfl hL) (value_middle rfl)
  | panRight =>
    exact camera_window (hpan.value _) (value_forth hp hlast rfl hk hL) (value_middle rfl)
  | panUp =>
    exact camera_window (hpan.value _) (value_middle rfl) (value_back hp hlast rfl hL)
  | panDown =>
    exact camera_window (hpan.value _) (value_middle rfl) (value_forth hp hlast rfl hk hL)
  | rotateClockwise =>
    refine camera_turn ?_
    rw [value_turns hp hlast rfl hk hL, value_ofNat]
    rfl
  | rotateCounter =>
    refine camera_turn ?_
    rw [value_turns hp hlast rfl hk hL, (standsFor_ofNat 2).negate.value]
    rfl
  | shake =>
    refine camera_window (hpan.value _) ?_ ?_
    · show (middle .inputWidth).value _ +
        (number l.reachX).value _ * Trigonometric.sin ((phase l.periodFrames).value _) = _
      rw [value_middle rfl, (standsFor_number hl.reachX).value, value_phase]
      rfl
    · show (middle .inputHeight).value _ +
        (number l.reachY).value _ * Trigonometric.cos ((phase l.periodFrames).value _) = _
      rw [value_middle rfl, (standsFor_number hl.reachY).value, value_phase]
      rfl

end

end MotionForm

/-- **The filter of a motion computes the camera of the motion** at every frame of a segment, with
the settings as they are printed. -/
theorem motionFilter_camera (m : Motion) {c : MotionConfig Float} (hc : c.IsFinite)
    {count frame : Nat} (hcount : count < 2 ^ 32) (hframe : frame < count)
    (width height fps : Nat) :
    cameraOf? (motionFilter m count width height fps c) width height frame =
      some (cameraAt m frame count width height ((c.limits width height).map printedNumber)) := by
  have hreadable := MotionForm.readable_of (hc.limits width height) hcount m
  rw [motionFilter, cameraOf?_filter width height fps frame hreadable,
    MotionForm.camera_of (hc.limits width height) hcount m hframe]

/-- A pan to the left, by default settings, at the last of its fifty frames. -/
theorem motionFilter_camera_panLeft :
    (MotionConfig.ofEffects {}).IsFinite ∧ 49 < 50 ∧
      cameraOf? (motionFilter .panLeft 50 1080 1920 25 (.ofEffects {})) 1080 1920 49 =
        some (cameraAt .panLeft 49 50 1080 1920
          (((MotionConfig.ofEffects {}).limits 1080 1920).map printedNumber)) := by
  have hc : (MotionConfig.ofEffects {}).IsFinite :=
    ⟨by decide, by decide, by decide, by decide⟩
  exact ⟨hc, by decide, motionFilter_camera .panLeft hc (by decide) (by decide) 1080 1920 25⟩

end Graph

end Slideshow
