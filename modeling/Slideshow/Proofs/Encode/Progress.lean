import Mathlib.Order.Bounds.Defs
import Slideshow.Proofs.Monotone
import Slideshow.Proofs.Narration.Estimate
import Slideshow.Proofs.Render.Progress

/-!
# A tracker of progress

An encoder prints how far it has come, and may print any time: an earlier one, a negative one, one
that is no number. A tracker (`ProgressTracker`: `observe`, `finish`) makes of it a fraction that
never falls.

* `Progress.Call` is what a tracker can be told, `after` a tracker after some of it and `told` what
  it tells in turn.
* `shares`: the shares of the expected length that the times among some calls are.
* `float_le_self_div`: a finite number divided by a positive one is a number or infinite, so that it
  compares.

Headlines:
* `take_cases`: what one call can do.
* `observe_isGreatest`: one time makes the fraction the larger one of what it was and the share of
  that time.
* **`tracker_keepsMaximum`**: the fraction is the largest share so far, from zero on, until the end
  makes it one; what is told are its changes.
-/

namespace Slideshow.Decimal

open Float.Model Float.Model.UnpackedFloat

/-! ## Quotients -/

/-- What is no number has the largest exponent. -/
theorem isNaN_unpack {b : BitVec Format.binary64.numBits} (h : unpackExponent b ≠ -1#11) :
    (UnpackedFloat.unpack Format.binary64 b).isNaN = false := by
  unfold UnpackedFloat.unpack
  dsimp only
  rw [if_neg h]
  split
  · split <;> rfl
  · rfl

/-- What is a number, or infinite, stays that when it is packed. -/
theorem isNaN_unpack_pack {u : UnpackedFloat} (h : u.isNaN = false) :
    (UnpackedFloat.unpack Format.binary64 (UnpackedFloat.pack Format.binary64 u)).isNaN =
        false := by
  cases u with
  | notANumber => cases h
  | infinity s => cases s <;> rfl
  | zero s => cases s <;> rfl
  | finite s m e hm =>
    rw [UnpackedFloat.pack]
    dsimp only
    split
    · cases s <;> rfl
    · next hsmall =>
      have hexponent : ∀ k : ℕ, k + 1 < 2 ^ 11 → BitVec.ofNat 11 k ≠ -1#11 := fun k hk heq => by
        have hnat := congrArg BitVec.toNat heq
        rw [BitVec.toNat_ofNat, Nat.mod_eq_of_lt (by omega),
          show (-1#11 : BitVec 11).toNat = 2047 by decide] at hnat
        omega
      split
      all_goals
        refine isNaN_unpack ?_
        rw [unpackExponent_packComponents]
      · exact hexponent _ (not_le.mp hsmall)
      · exact hexponent 0 (by decide)

theorem isNaN_roundWithAccuracy (s : Sign) (m : ℕ) (e : ℤ) (a : Accuracy) :
    (roundWithAccuracy Format.binary64 s m e a).isNaN = false := by
  unfold roundWithAccuracy
  dsimp only
  split <;> rfl

end Slideshow.Decimal

namespace Slideshow

open Decimal Scalar Float.Model Float.Model.UnpackedFloat

/-- Only what is no number does not compare with itself. -/
theorem float_le_self_iff {x : Float} : x ≤ x ↔ isNaN x = false := by
  refine ⟨isNaN_of_le, fun h => ?_⟩
  have hnumber : x.toModel.unpack.isNaN = false := h
  have hrank : ∃ a, rank x.toModel.unpack = some a := by
    cases hu : x.toModel.unpack with
    | notANumber =>
      rw [hu] at hnumber
      cases hnumber
    | infinity s => cases s <;> exact ⟨_, rfl⟩
    | zero s => exact ⟨_, rfl⟩
    | finite s m e hm => cases s <;> exact ⟨_, rfl⟩
  obtain ⟨a, ha⟩ := hrank
  exact float_le_iff.mpr ⟨a, a, ha, ha, le_rfl⟩

/-- **A finite number divided by a positive one compares**: it is a number, or infinite. -/
theorem float_le_self_div {x y : Float} (hx : x.isFinite = true) (hy : isPositive y = true) :
    x / y ≤ x / y := by
  obtain ⟨n, f, hn, hY⟩ := isPositive_iff.mp hy
  have hfinite : x.toModel.unpack.isFinite = true := hx
  have hquotient : (UnpackedFloat.div Format.binary64 x.toModel.unpack y.toModel.unpack).isNaN =
      false := by
    rw [hY]
    cases hX : x.toModel.unpack with
    | notANumber =>
      rw [hX] at hfinite
      cases hfinite
    | infinity s =>
      rw [hX] at hfinite
      cases hfinite
    | zero s => rfl
    | finite s m e hm => exact isNaN_roundWithAccuracy _ _ _ _
  refine float_le_self_iff.mpr ?_
  show (x / y).toModel.unpack.isNaN = false
  rw [unpack_div rfl rfl]
  exact isNaN_unpack_pack hquotient

namespace Progress

/-! ## Calls -/

/-- What a tracker can be told. -/
inductive Call where
  /-- A time was reached. -/
  | observe (elapsed : Float)
  /-- The encoder is done. -/
  | finish

/-- What a tracker tells of a call, and the tracker after it. -/
def take (p : Progress) : Call → Option Float × Progress
  | .observe elapsed => p.observe elapsed
  | .finish => p.finish

/-- A tracker after some calls. -/
def after (p : Progress) (calls : List Call) : Progress :=
  calls.foldl (fun p call => (p.take call).2) p

/-- All that a tracker tells of some calls. -/
def told (p : Progress) : List Call → List Float
  | [] => []
  | call :: calls => (p.take call).1.toList ++ (p.take call).2.told calls

/-- The share of a length that a finite time is, moved between zero and one. -/
def Call.share? (total : Float) : Call → Option Float
  | .observe elapsed => if elapsed.isFinite then some (clamp (elapsed / total) 0 1) else none
  | .finish => none

/-- The shares of a length that the finite times among some calls are. -/
def shares (total : Float) (calls : List Call) : List Float := calls.filterMap (Call.share? total)

/-! ## One call -/

section
variable (p : Progress) (call : Call)

theorem advance_cases {f : Float} (hle : p.fraction < f → f ≤ 1) :
    p.advance f = (none, p) ∧ ¬p.fraction < f ∨ p.advance f = (some f, { p with fraction := f }) ∧
        p.fraction < f ∧ f ≤ 1 := by
  unfold advance
  split
  · next hlt => exact .inr ⟨rfl, hlt, hle hlt⟩
  · next hlt => exact .inl ⟨rfl, hlt⟩

/-- **What one call can do**: nothing, or move on to the larger fraction that it tells, at most
one. -/
theorem take_cases : p.take call = (none, p) ∨
    ∃ f, p.take call = (some f, { p with fraction := f }) ∧ p.fraction < f ∧ f ≤ 1 := by
  have hadvance {f : Float} (hle : p.fraction < f → f ≤ 1) :
      p.advance f = (none, p) ∨ ∃ f', p.advance f = (some f', { p with fraction := f' }) ∧
          p.fraction < f' ∧ f' ≤ 1 :=
    (p.advance_cases hle).imp And.left fun h => ⟨f, h⟩
  cases call with
  | finish => exact hadvance fun _ => float_one_le_one
  | observe elapsed =>
    rw [take, observe, fractionAt?]
    split
    · next share hshare =>
      obtain rfl := Option.some.inj (Option.ite_none_right_eq_some.mp hshare).2
      exact hadvance clamp_le_one
    · exact .inl rfl

/-- What a call tells climbs to the new fraction. -/
theorem take_climbs : Climbs p.fraction (p.take call).1.toList ∧
    (p.take call).2.fraction = (p.take call).1.toList.getLastD p.fraction := by
  rcases p.take_cases call with h | ⟨f, h, hlt, hle⟩ <;> rw [h]
  · exact ⟨trivial, rfl⟩
  · exact ⟨⟨hlt, hle, trivial⟩, rfl⟩

theorem take_total : (p.take call).2.total = p.total := by
  rcases p.take_cases call with h | ⟨f, h, -⟩ <;> rw [h]

/-- **A call tells the new fraction if it grew**, and nothing if not. -/
theorem take_tells_iff (hself : p.fraction ≤ p.fraction) (f : Float) :
    (p.take call).1 = some f ↔ p.fraction < (p.take call).2.fraction ∧
        f = (p.take call).2.fraction := by
  rcases p.take_cases call with h | ⟨f', h, hlt, -⟩ <;> rw [h]
  · exact iff_of_false nofun fun hgrew => float_not_lt hself hgrew.1
  · exact ⟨fun heq => ⟨hlt, (Option.some.inj heq).symm⟩, fun hgrew => congrArg some hgrew.2.symm⟩

end

section
variable {p : Progress}

/-- **One time makes the fraction the larger one** of what it was and the share of that time. -/
theorem observe_isGreatest {elapsed share : Float} (hself : p.fraction ≤ p.fraction)
    (hpositive : isPositive p.total = true)
    (hshare : (Call.observe elapsed).share? p.total = some share) :
    IsGreatest {f | f = p.fraction ∨ f = share} (p.observe elapsed).2.fraction := by
  obtain ⟨hfinite, heq⟩ := Option.ite_none_right_eq_some.mp hshare
  obtain rfl := Option.some.inj heq
  obtain ⟨hlow, hhigh⟩ := clamp_within float_zero_le_one (float_le_self_div hfinite hpositive)
  have hobserve : p.observe elapsed = p.advance (clamp (elapsed / p.total) 0 1) := by
    rw [observe, fractionAt?, hpositive, hfinite]
    rfl
  rw [hobserve]
  rcases p.advance_cases (f := clamp (elapsed / p.total) 0 1) fun _ =>
    hhigh with ⟨h, hnot⟩ | ⟨h, hlt, -⟩ <;> rw [h]
  · refine ⟨.inl rfl, ?_⟩
    rintro f (rfl | rfl)
    · exact hself
    · exact float_le_of_not_lt (float_refl hlow) hself hnot
  · refine ⟨.inr rfl, ?_⟩
    rintro f (rfl | rfl)
    · exact float_le_of_lt hlt
    · exact float_refl hlow

/-- A time that is not finite, and any time without a length, is not counted. -/
theorem observe_ignored {elapsed : Float}
    (h : isPositive p.total = false ∨ (Call.observe elapsed).share? p.total = none) :
    p.observe elapsed = (none, p) := by
  have hnone : p.fractionAt? elapsed = none := by
    refine if_neg fun hboth => ?_
    obtain ⟨hpositive, hfinite⟩ := Bool.and_eq_true_iff.mp hboth
    rcases h with h | h
    · exact Bool.false_ne_true (h.symm.trans hpositive)
    · rw [Call.share?, if_pos hfinite] at h
      cases h
  rw [observe, hnone]

theorem finish_fraction (h : p.fraction ≤ 1) : p.finish.2.fraction = 1 := by
  have hlast := (p.take_climbs .finish).2
  exact hlast.trans (p.finish_climbs h).2

end

/-! ## Sequences of calls -/

section
variable {p : Progress}

theorem after_append (p : Progress) (calls more : List Call) :
    p.after (calls ++ more) = (p.after calls).after more :=
  List.foldl_append

theorem told_append (p : Progress) (calls more : List Call) :
    p.told (calls ++ more) = p.told calls ++ (p.after calls).told more := by
  induction calls generalizing p with
  | nil => rfl
  | cons call calls ih =>
    rw [List.cons_append, told, told, ih, List.append_assoc]
    rfl

/-- **What calls tell climbs**, and the fraction is the last one told. -/
theorem told_climbs (p : Progress) (calls : List Call) :
    Climbs p.fraction (p.told calls) ∧
        (p.after calls).fraction = (p.told calls).getLastD p.fraction := by
  induction calls generalizing p with
  | nil => exact ⟨trivial, rfl⟩
  | cons call calls ih =>
    obtain ⟨hclimbs, hlast⟩ := p.take_climbs call
    obtain ⟨hrest, hlater⟩ := ih (p.take call).2
    rw [hlast] at hrest hlater
    exact ⟨hclimbs.append hrest, hlater.trans (getLastD_append _ _ _).symm⟩

theorem after_le_one (h : p.fraction ≤ 1) (calls : List Call) : (p.after calls).fraction ≤ 1 := by
  obtain ⟨hclimbs, hlast⟩ := p.told_climbs calls
  rw [hlast]
  exact hclimbs.last_le_one h

/-- The fraction never falls. -/
theorem le_after (hself : p.fraction ≤ p.fraction) (calls : List Call) :
    p.fraction ≤ (p.after calls).fraction := by
  obtain ⟨hclimbs, hlast⟩ := p.told_climbs calls
  rw [hlast, List.getLastD_eq_getLast?]
  cases hlast? : (p.told calls).getLast? with
  | none => exact hself
  | some f => exact float_le_of_lt (hclimbs.above f (List.mem_of_getLast? hlast?))

/-- After one, nothing is told. -/
theorem told_eq_nil (h : p.fraction = 1) (calls : List Call) : p.told calls = [] := by
  have hclimbs := (p.told_climbs calls).1
  rw [h] at hclimbs
  cases htold : p.told calls with
  | nil => rfl
  | cons f fs =>
    rw [htold] at hclimbs
    exact absurd hclimbs.1 (float_not_lt hclimbs.2.1)

/-- One stays one. -/
theorem after_eq_one (h : p.fraction = 1) (calls : List Call) : (p.after calls).fraction = 1 := by
  rw [(p.told_climbs calls).2, told_eq_nil h]
  exact h

/-- The end was told among some calls. -/
theorem after_finish (hle : p.fraction ≤ 1) {calls : List Call} (h : .finish ∈ calls) :
    (p.after calls).fraction = 1 := by
  obtain ⟨earlier, later, rfl⟩ := List.append_of_mem h
  rw [after_append]
  exact after_eq_one (p := (p.after earlier).finish.2)
    (finish_fraction (after_le_one hle earlier)) later

/-- **Before the end, the fraction is the largest share so far**, of those of all finite times and
what it was. -/
theorem after_isGreatest (hself : p.fraction ≤ p.fraction) (hpositive : isPositive p.total = true)
    {calls : List Call} (h : .finish ∉ calls) :
    IsGreatest {f | f ∈ p.fraction :: shares p.total calls} (p.after calls).fraction := by
  induction calls generalizing p with
  | nil =>
    refine ⟨List.mem_singleton_self _, fun f hf => ?_⟩
    obtain rfl := List.mem_singleton.mp hf
    exact hself
  | cons call calls ih =>
    cases call with
    | finish => exact absurd List.mem_cons_self h
    | observe elapsed =>
      have hlater : .finish ∉ calls := fun hmem => h (List.mem_cons_of_mem _ hmem)
      cases hshare : (Call.observe elapsed).share? p.total with
      | none =>
        have hignored := observe_ignored (.inr hshare)
        have hshares : shares p.total (.observe elapsed :: calls) = shares p.total calls :=
          List.filterMap_cons_none hshare
        rw [hshares, after, List.foldl_cons, take, hignored]
        exact ih hself hpositive hlater
      | some share =>
        have hshares : shares p.total (.observe elapsed :: calls) = share :: shares p.total calls :=
          List.filterMap_cons_some hshare
        obtain ⟨hmem, hbound⟩ := observe_isGreatest hself hpositive hshare
        have htotal : (p.observe elapsed).2.total = p.total := p.take_total (.observe elapsed)
        have hrest :=
          ih (p := (p.observe elapsed).2) (float_refl (hbound (.inl rfl)))
            (by rw [htotal]; exact hpositive) hlater
        rw [htotal] at hrest
        obtain ⟨hmem', hbound'⟩ := hrest
        rw [hshares]
        have hnow := hbound' List.mem_cons_self
        refine ⟨?_, fun f hf => ?_⟩
        · rcases List.mem_cons.mp hmem' with heq | hin
          · exact heq ▸ hmem.elim (fun heq' => heq' ▸ List.mem_cons_self) fun heq' =>
              heq' ▸ List.mem_cons_of_mem _ List.mem_cons_self
          · exact List.mem_cons_of_mem _ (List.mem_cons_of_mem _ hin)
        · rcases List.mem_cons.mp hf with rfl | hf
          · exact float_le_trans (hbound (.inl rfl)) hnow
          · rcases List.mem_cons.mp hf with rfl | hf
            · exact float_le_trans (hbound (.inr rfl)) hnow
            · exact hbound' (List.mem_cons_of_mem _ hf)

/-- Without a length, nothing is counted before the end. -/
theorem after_unmeasured (hpositive : isPositive p.total = false) {calls : List Call}
    (h : .finish ∉ calls) :
    p.after calls = p := by
  induction calls with
  | nil => rfl
  | cons call calls ih =>
    cases call with
    | finish => exact absurd List.mem_cons_self h
    | observe elapsed =>
      rw [after, List.foldl_cons, take, observe_ignored (.inl hpositive)]
      exact ih fun hmem => h (List.mem_cons_of_mem _ hmem)

/-- How a tracker stands that was told some calls, for an expected length. -/
structure KeepsMaximum (total : Float) (calls : List Call) : Prop where
  within : 0 ≤ ((ofTotal total).after calls).fraction ∧ ((ofTotal total).after calls).fraction ≤ 1
  grows : ∀ more, ((ofTotal total).after calls).fraction ≤
    ((ofTotal total).after (calls ++ more)).fraction
  largest : .finish ∉ calls → total.isFinite = true ∧ 0 < total →
    IsGreatest {f | f ∈ 0 :: shares total calls} ((ofTotal total).after calls).fraction
  unmeasured : .finish ∉ calls → ¬(total.isFinite = true ∧ 0 < total) →
    ((ofTotal total).after calls).fraction = 0
  finished : .finish ∈ calls → ((ofTotal total).after calls).fraction = 1
  /-- The next call tells the fraction after it, if that is larger than before. -/
  tells : ∀ call f, (((ofTotal total).after calls).take call).1 = some f ↔
    ((ofTotal total).after calls).fraction < ((ofTotal total).after (calls ++ [call])).fraction ∧
      f = ((ofTotal total).after (calls ++ [call])).fraction
  rising : Rising ((ofTotal total).told calls)
  /-- One is told last. -/
  last : ((ofTotal total).after calls).fraction = 1 →
    ∀ more, (ofTotal total).told (calls ++ more) = (ofTotal total).told calls

/-- **A tracker keeps the largest share of its length**, whatever the length is and whatever it is
told. -/
theorem tracker_keepsMaximum (total : Float) (calls : List Call) : KeepsMaximum total calls := by
  have hle : (ofTotal total).fraction ≤ 1 := float_zero_le_one
  have hlow : 0 ≤ ((ofTotal total).after calls).fraction :=
    le_after (p := ofTotal total) float_zero_le_zero calls
  refine ⟨⟨hlow, after_le_one hle calls⟩, fun more => ?_, fun hnot hpositive => ?_,
    fun hnot hunmeasured => ?_, after_finish hle, fun call f => ?_, ?_, fun hone more => ?_⟩
  · rw [after_append]
    exact le_after (float_refl hlow) more
  · exact after_isGreatest (p := ofTotal total) float_zero_le_zero
      (isPositive_iff_lt.mpr hpositive) hnot
  · have hpositive : isPositive total = false :=
      Bool.eq_false_iff.mpr fun h => hunmeasured (isPositive_iff_lt.mp h)
    rw [after_unmeasured (p := ofTotal total) hpositive hnot]
    rfl
  · rw [after_append]
    exact take_tells_iff _ call (float_refl hlow) f
  · exact ((ofTotal total).told_climbs calls).1.rising float_zero_le_zero
  · rw [told_append, told_eq_nil hone, List.append_nil]

end

end Progress

end Slideshow
