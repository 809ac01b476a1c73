import Slideshow.Narration.Probe
import Slideshow.Proofs.Division
import Slideshow.Proofs.Graph.Stages
import Slideshow.Proofs.Trial

/-!
# Lengths that can be used

Whatever the probes answer, an estimate is a positive length: a probe's answer is checked, the
length from the size of a file is moved into a window of positive lengths, and there is always a
last resort. A positive length can be split, but its parts need not be positive: below a bound they
are rounded to zero.

* `clamp_isPositive`: what is moved into a window of positive lengths is a positive length, if it is
  a number.
* `Vanishes` says that the parts of a length are rounded to nothing.

Headlines:
* **`estimate_isPositive`**: every estimate is a positive length.
* **`vanishes_iff`**: the parts vanish when they are at most half of the least positive number.
* **`compile_split`**: the parts of a positive length are accepted unless they vanish.
-/

namespace Slideshow.Decimal

open Float.Model Float.Model.UnpackedFloat

/-- Packing does not turn a number into none. -/
theorem unpack_pack_ne_notANumber {u : UnpackedFloat} (h : u ≠ .notANumber) :
    UnpackedFloat.unpack Format.binary64 (UnpackedFloat.pack Format.binary64 u) ≠ .notANumber := by
  have hcomponents : ∀ (s : Sign) (e : BitVec 11) (m : BitVec 52), e ≠ -1#11 ∨ m = 0#52 →
      UnpackedFloat.unpack Format.binary64 (packComponents Format.binary64 s e m) ≠
          .notANumber := by
    intro s e m hkind
    unfold UnpackedFloat.unpack
    simp only [unpackMantissa_packComponents, unpackExponent_packComponents]
    by_cases he : e = -1#11
    · rw [if_pos he, if_pos (hkind.resolve_left fun hne => hne he)]
      exact UnpackedFloat.noConfusion
    · rw [if_neg he]
      split
      · split <;> exact UnpackedFloat.noConfusion
      · exact UnpackedFloat.noConfusion
  cases u with
  | notANumber => exact absurd rfl h
  | infinity s => exact hcomponents s _ _ (.inr rfl)
  | zero s => exact hcomponents s _ _ (.inr rfl)
  | finite s m e hm =>
    rw [UnpackedFloat.pack]
    dsimp only
    split
    · exact hcomponents s _ _ (.inr rfl)
    · next hlarge =>
      split
      · -- the exponent of a number that is not too large does not have all bits
        refine hcomponents s _ _ (.inl fun hinf => hlarge ?_)
        have hbits := congrArg BitVec.toNat hinf
        rw [BitVec.toNat_ofNat, show (-1#11 : BitVec 11).toNat = 2047 by decide] at hbits
        show 2 ^ 11 ≤ _ + 1
        omega
      · exact hcomponents s _ _ (.inl (by decide))

theorem roundWithAccuracy_ne_notANumber (s : Sign) (m : ℕ) (e : ℤ) (a : Accuracy) :
    roundWithAccuracy Format.binary64 s m e a ≠ .notANumber := by
  rw [roundWithAccuracy]
  dsimp only
  split <;> exact UnpackedFloat.noConfusion

end Slideshow.Decimal

namespace Slideshow

open Decimal Scalar Float.Model

/-! ## Estimates -/

section
variable {x low high : Float}

theorem isNaN_eq_false_iff : isNaN x = false ↔ x.toModel.unpack ≠ .notANumber := by
  show x.toModel.unpack.isNaN = false ↔ _
  cases x.toModel.unpack with
  | notANumber => exact ⟨fun h => absurd h.symm Bool.false_ne_true, fun h => absurd rfl h⟩
  | _ => exact ⟨fun _ => UnpackedFloat.noConfusion, fun _ => rfl⟩

/-- What is divided by a positive finite number is still a number. -/
theorem isNaN_div {y : Float} {m : ℕ} {e : ℤ} {hm : 0 < m} (hx : isNaN x = false)
    (hy : y.toModel.unpack = .finite .positive m e hm) : isNaN (x / y) = false := by
  rw [isNaN_eq_false_iff] at hx ⊢
  show UnpackedFloat.unpack
    _ (UnpackedFloat.pack _ (UnpackedFloat.div _ x.toModel.unpack y.toModel.unpack)) ≠ _
  refine unpack_pack_ne_notANumber ?_
  rw [hy]
  cases hu : x.toModel.unpack with
  | notANumber => exact absurd hu hx
  | infinity s => exact UnpackedFloat.noConfusion
  | zero s => exact UnpackedFloat.noConfusion
  | finite s n f hn => exact roundWithAccuracy_ne_notANumber _ _ _ _

/-- Eight times a count above zero is a number. -/
theorem isNaN_eightfold {n : ℕ} (hn : 0 < n) : Scalar.isNaN (Float.ofNat n * 8) = false := by
  rw [isNaN_eq_false_iff]
  have height : (8 : Float).toModel.unpack = .finite .positive (2 ^ 52) (-49) (by decide) := rfl
  show UnpackedFloat.unpack
    _ (UnpackedFloat.pack _ (UnpackedFloat.mul _ (Float.ofNat n).toModel.unpack
    (8 : Float).toModel.unpack)) ≠ _
  refine unpack_pack_ne_notANumber ?_
  rw [height]
  rcases unpack_ofNat_cases hn with hinfinite | ⟨m, e, hm, hfinite, -⟩
  · rw [hinfinite]
    exact UnpackedFloat.noConfusion
  · rw [hfinite]
    exact roundWithAccuracy_ne_notANumber _ _ _ _

/-- **What is moved into a window of positive lengths** is a positive length, if it is a number. -/
theorem clamp_isPositive (hx : isNaN x = false) (hlow : isPositive low = true)
    (hhigh : isPositive high = true) :
    isPositive (clamp x low high) = true := by
  unfold clamp
  split
  · exact hlow
  · next hbelow =>
    split
    · exact hhigh
    · next habove =>
      obtain ⟨m, e, hm, hlow⟩ := isPositive_iff.mp hlow
      obtain ⟨n, f, hn, hhigh⟩ := isPositive_iff.mp hhigh
      rw [isNaN_eq_false_iff] at hx
      rw [less_eq, lt_iff_rank, hlow] at hbelow
      rw [less_eq, lt_iff_rank, hhigh] at habove
      -- between two positive numbers there are no others
      refine isPositive_iff.mpr ?_
      rcases hu : x.toModel.unpack with (_ | _) | _ | _ | ⟨_ | _, k, g, hk⟩
      all_goals simp [hu, rank, Prod.Lex.toLex_lt_toLex] at hx hbelow habove
      exact ⟨k, g, hk, rfl⟩

end

/-- The length from the size of a file is a positive length; the bit rate is a number of 64 bits. -/
theorem sizeEstimate_isPositive {bytes : ℕ} {c : DurationConfig} {seconds : Float}
    (hrate : c.referenceBitrate < 2 ^ 64) (h : sizeEstimate bytes c = some seconds) :
    isPositive seconds = true := by
  unfold sizeEstimate at h
  split at h
  · cases h
  · next hcounts =>
    split at h
    · cases h
    · next hwindow =>
      simp only [Bool.or_eq_true, beq_iff_eq, not_or] at hcounts
      simp only [Bool.or_eq_true, Bool.not_eq_true', not_or, Bool.not_eq_false] at hwindow
      obtain ⟨m, e, hm, hdivisor⟩ := unpack_ofNat_finite (Nat.pos_of_ne_zero hcounts.2) hrate
      have hraw := isNaN_div (isNaN_eightfold (Nat.pos_of_ne_zero hcounts.1)) hdivisor
      rw [← Option.some.inj h]
      exact clamp_isPositive hraw hwindow.1.1 hwindow.1.2

theorem unprobedEstimate_isPositive {size : Option ℕ} {c : DurationConfig}
    (hrate : c.referenceBitrate < 2 ^ 64) (fallback : Float) :
    isPositive (unprobedEstimate size c fallback).seconds = true := by
  unfold unprobedEstimate
  split
  · next seconds hsize =>
    obtain ⟨bytes, -, hbytes⟩ := Option.bind_eq_some_iff.mp hsize
    exact sizeEstimate_isPositive hrate hbytes
  · show isPositive (fallbackSeconds fallback c.fallbackSeconds) = true
    unfold fallbackSeconds
    split
    · assumption
    · split
      · assumption
      · decide

theorem usable?_isPositive {answer : Except Error Float} {seconds : Float}
    (h : usable? answer = some seconds) :
    isPositive seconds = true := by
  unfold usable? at h
  split at h
  · split at h
    · next hpositive => exact Option.some.inj h ▸ hpositive
    · cases h
  · cases h

/-- **Every estimate is a positive length**, whatever the probes answer. -/
theorem Probe.estimate_isPositive (p : Probe) {c : DurationConfig}
    (hrate : c.referenceBitrate < 2 ^ 64) (watched : Bool) (path : String) (fallback : Float) :
    Ensures (fun _ => True) (p.estimate c watched path fallback) fun e _ =>
      ∀ x, e = some x → isPositive x.seconds = true := by
  have hnone : ∀ x : DurationEstimate, none = some x → isPositive x.seconds = true :=
    fun _ h => nomatch h
  have hsome : ∀ {e : DurationEstimate}, isPositive e.seconds = true →
      ∀ x, some e = some x → isPositive x.seconds = true := fun he x hx => Option.some.inj hx ▸ he
  unfold Probe.estimate
  refine (Ensures.any _).bind fun stopped => ?_
  split
  · exact .pure _ fun _ _ => hnone
  · refine (Ensures.any _).bind fun told => (Ensures.any _).bind fun stopped => ?_
    split
    · exact .pure _ fun _ _ => hnone
    · split
      · next seconds htold => exact .pure _ fun _ _ => hsome (usable?_isPositive htold)
      · refine (Ensures.any _).bind fun printed => (Ensures.any _).bind fun stopped => ?_
        split
        · exact .pure _ fun _ _ => hnone
        · split
          · next seconds hprinted => exact .pure _ fun _ _ => hsome (usable?_isPositive hprinted)
          · refine (Ensures.any _).bind fun size => (Ensures.any _).bind fun stopped => ?_
            split
            · exact .pure _ fun _ _ => hnone
            · exact .pure _ fun _ _ => hsome (unprobedEstimate_isPositive hrate fallback)

/-! ## Splits -/

/-- The parts of a length are rounded to nothing. -/
def Vanishes (seconds : Float) (count : ℕ) : Prop := seconds / Float.ofNat count = 0

section
variable {seconds : Float} {count : ℕ}

/-- **The parts of a positive length are positive, or they vanish.** -/
theorem isPositive_part (h : isPositive seconds = true) (hcount : 0 < count) :
    isPositive (seconds / Float.ofNat count) = true ↔ ¬Vanishes seconds count := by
  obtain ⟨m, e, hm, hseconds⟩ := isPositive_iff.mp h
  have hzero : isPositive (0 : Float) = false := by decide
  have hne : isPositive (seconds / Float.ofNat count) = true → ¬Vanishes seconds count := by
    intro hpart hvanishes
    rw [hvanishes, hzero] at hpart
    exact absurd hpart Bool.false_ne_true
  refine ⟨hne, fun hvanishes => ?_⟩
  rcases unpack_ofNat_cases hcount with hinfinite | ⟨n, f, hn, hfinite, -, hone⟩
  · refine absurd (eq_zero_of_unpack ?_) hvanishes
    show UnpackedFloat.unpack _ (UnpackedFloat.pack _ (UnpackedFloat.div _ seconds.toModel.unpack
      (Float.ofNat count).toModel.unpack)) = _
    rw [hseconds, hinfinite, UnpackedFloat.div]
    rfl
  · exact (isPositive_div_iff hseconds hfinite hone).2.resolve_right hvanishes

/-- **The parts vanish** when they are at most half of the least positive number. -/
theorem vanishes_iff {m : ℕ} {e : ℤ} (h : Parts.ofFloat seconds = .finite false m e) (hm : 0 < m)
    (hcount : 0 < count) (hexact : count < 2 ^ 53) :
    Vanishes seconds count ↔ magnitude m e ≤ count * 2 ^ (-1075 : ℤ) := by
  have hseconds : seconds.toModel.unpack = .finite .positive m e hm := by
    rw [ofFloat_eq] at h
    cases hu : seconds.toModel.unpack with
    | notANumber => rw [hu] at h; cases h
    | infinity s => rw [hu] at h; cases h
    | zero s =>
      rw [hu] at h
      obtain ⟨-, rfl, -⟩ := Parts.finite.inj h
      exact absurd hm (lt_irrefl 0)
    | finite s n f hn =>
      rw [hu] at h
      obtain ⟨hs, rfl, rfl⟩ := Parts.finite.inj h
      cases s with
      | negative => cases hs
      | positive => rfl
  have hone : 1 ≤ magnitude (count * 2 ^ natShift count) (-natShift count) := by
    rw [magnitude_natShift]
    exact_mod_cast hcount
  have hpart := (isPositive_div_iff hseconds
    (unpack_ofNat hcount hexact (Nat.mul_pos hcount (Nat.two_pow_pos _))) hone).1
  rw [magnitude_natShift, isPositive_part (isPositive_iff.mpr ⟨m, e, hm, hseconds⟩) hcount] at hpart
  rw [← not_lt, ← hpart, not_not]

/-- A positive length can be split. -/
theorem segmentDurations_of_isPositive (h : isPositive seconds = true) (hcount : 0 < count) :
    segmentDurations seconds count = .ok (List.replicate count (seconds / Float.ofNat count)) := by
  rw [segmentDurations, if_neg hcount.ne', if_pos h]
  rfl

/-- **The parts of a positive length are accepted unless they vanish.** -/
theorem compile_split {images : List String} (himages : images ≠ []) (h : isPositive seconds = true)
    (settings : Graph.RenderSettings Float) (spec : EffectSpec Float) :
    (¬Vanishes seconds images.length ∧ Graph.Accepted images
        (List.replicate images.length (seconds / Float.ofNat images.length))) ∨
      Vanishes seconds images.length ∧ Graph.compile images
        (List.replicate images.length (seconds / Float.ofNat images.length)) settings spec =
          .error (.failed (.validation "segment duration must be positive, got 0")) := by
  have hcount : 0 < images.length := List.length_pos_iff.mpr himages
  have hshape : ∀ part : Float, Graph.inputFault? images (List.replicate images.length part) =
      if isPositive part then none else some (.badDuration part) := by
    intro part
    rw [Graph.inputFault?, if_neg (by simpa using himages), if_neg (by simp)]
    obtain ⟨k, hk⟩ := Nat.exists_eq_succ_of_ne_zero hcount.ne'
    rw [hk, List.replicate_succ, List.find?_cons]
    cases hpart : isPositive part with
    | false => rfl
    | true => simp [hpart]
  have hpart := isPositive_part h hcount
  by_cases hvanishes : Vanishes seconds images.length
  · right
    have hzero : isPositive (0 : Float) = false := by decide
    have hnothing : seconds / Float.ofNat images.length = 0 := hvanishes
    refine ⟨hvanishes, ?_⟩
    rw [hnothing, Graph.compile, hshape, hzero]
    rfl
  · left
    refine ⟨hvanishes, Graph.inputFault?_eq_none_iff.mp ?_⟩
    rw [hshape, hpart.mpr hvanishes]
    rfl

end

end Slideshow
