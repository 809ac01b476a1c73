import Slideshow.Proofs.Arithmetic
import Slideshow.Proofs.Graph.Timeline

/-!
# Transitions that fit

A transition is the smaller of the length asked for and a share of the shortest segment
(`plan_timeline`). The share is moved between nothing and all of the segment, so that no transition
outlasts one. A share that is no number stays one through that and through the product, and the
smaller of a number and none is the number: the length asked for is then taken as it is, whatever
the segments are.

* `shortest_spec`: the shortest segment is one of them and not longer than the others.
* `product_le`: a share of a length is not longer than the length.

Headlines:
* **`transition_of_share`**: with a share that is a number, the transition is what fits, if anything
  is left of it.
* **`transition_of_noShare`**: with a share that is none, the transition is as long as it was asked
  for.
* **`plan_fits`**: the transitions of every plan, and the hard cuts.
-/

namespace Slideshow

open Decimal Scalar Float.Model

/-! ## The smaller of two numbers, and what is moved between two -/

section
variable {x y z : Float}

theorem less_iff : less x y = true ↔ x < y := decide_eq_true_iff

theorem isAbove_iff : isAbove x = true ↔ 0 < x := decide_eq_true_iff

/-- The smaller of two numbers is not above either of them. -/
theorem minimum_le (hx : x ≤ x) (hy : y ≤ y) : minimum x y ≤ x ∧ minimum x y ≤ y := by
  rw [minimum, isNaN_of_le hx, isNaN_of_le hy, if_neg Bool.false_ne_true, if_neg Bool.false_ne_true]
  split
  · next hless => exact ⟨float_le_of_lt (less_iff.mp hless), hy⟩
  · next hless => exact ⟨hx, float_le_of_not_lt hx hy fun h => hless (less_iff.mpr h)⟩

theorem minimum_of_isNaN (hx : x ≤ x) (hy : isNaN y = true) : minimum x y = x := by
  rw [minimum, isNaN_of_le hx, if_neg Bool.false_ne_true, if_pos hy]

theorem le_self_of_isNaN (h : isNaN x = false) : x ≤ x := by
  have hx : x.toModel.unpack.isNaN = false := h
  refine float_le_iff.mpr ?_
  rcases hu : x.toModel.unpack with (_ | _) | _ | _ | ⟨_ | _, m, e, hm⟩
  case notANumber =>
    rw [hu] at hx
    cases hx
  all_goals exact ⟨_, _, rfl, rfl, le_rfl⟩

/-- A share that is no number is not moved. -/
theorem clamp_of_isNaN (h : isNaN x = true) : clamp x 0 1 = x := by
  have hx : x.toModel.unpack = .notANumber := by
    have hnan : x.toModel.unpack.isNaN = true := h
    cases hu : x.toModel.unpack with
    | notANumber => rfl
    | _ =>
      rw [hu] at hnan
      cases hnan
  have hbelow : less x 0 = false := by
    rw [less_eq, hx]
    rfl
  have habove : less 1 x = false := by
    rw [less_eq, hx]
    rfl
  rw [clamp, hbelow, habove, if_neg Bool.false_ne_true, if_neg Bool.false_ne_true]

theorem isNaN_mul (h : isNaN y = true) : isNaN (x * y) = true := by
  have hy : y.toModel.unpack.isNaN = true := h
  show (UnpackedFloat.unpack Format.binary64 (UnpackedFloat.pack Format.binary64
    (UnpackedFloat.mul Format.binary64 x.toModel.unpack y.toModel.unpack))).isNaN = true
  cases hu : y.toModel.unpack with
  | notANumber =>
    have hproduct : UnpackedFloat.mul Format.binary64 x.toModel.unpack .notANumber =
        .notANumber := by
      cases x.toModel.unpack <;> rfl
    rw [hproduct]
    rfl
  | _ =>
    rw [hu] at hy
    cases hy

/-- What is moved between nothing and all. -/
theorem clamp_spec (h : isNaN x = false) : 0 ≤ clamp x 0 1 ∧ clamp x 0 1 ≤ 1 :=
  clamp_within float_zero_le_one (le_self_of_isNaN h)

/-- **A share of a length**, between nothing and all of it, is not longer than the length. -/
theorem product_le (hx : isPositive x = true) (hlow : 0 ≤ y) (hhigh : y ≤ 1) : x * y ≤ x := by
  obtain ⟨p, hp, hworth⟩ := isPositive_iff_worth.mp hx
  have hnone : ∀ {z : Float} {s : UnpackedFloat.Sign}, z.toModel.unpack = .zero s → z ≤ x := by
    intro z s hz
    obtain ⟨m, e, hm, -, hunpack, -⟩ := hworth.of_pos hp
    refine float_le_iff.mpr ⟨_, _, congrArg rank hz, congrArg rank hunpack, ?_⟩
    simp [Prod.Lex.toLex_le_toLex]
  rw [float_le_iff] at hlow hhigh
  rcases hu : y.toModel.unpack with (_ | _) | _ | s | ⟨_ | _, n, f, hn⟩
  case zero =>
    obtain ⟨m, e, hm, -, hunpack, -⟩ := hworth.of_pos hp
    have hproduct : UnpackedFloat.mul Format.binary64 (.finite .positive m e hm) (.zero s) =
        .zero s := by
      cases s <;> rfl
    refine @hnone _ s ?_
    show UnpackedFloat.unpack
      _ (UnpackedFloat.pack _ (UnpackedFloat.mul _ x.toModel.unpack y.toModel.unpack)) = _
    rw [hunpack, hu, hproduct]
    cases s <;> rfl
  case finite.positive =>
    have hshare := worth_of_unpack hu
    have hone : magnitude n f ≤ 1 := by
      have hworthOne := worth_ofNat (n := 1) (by decide)
      rw [Nat.cast_one] at hworthOne
      exact (hshare.le_iff hworthOne).mp (float_le_iff.mpr hhigh)
    have hle : p * magnitude n f ≤ p := mul_le_of_le_one_right hp.le hone
    obtain ⟨t, ht, hrounds⟩ := hworth.mul hshare (hle.trans hworth.le_largest)
    exact (ht.le_iff hworth).mpr (hrounds.le hworth hle)
  all_goals
    simp [hu, rank, show (0 : Float).toModel.unpack = .zero .positive from rfl,
      show (1 : Float).toModel.unpack = .finite .positive (2 ^ 52) (-52) (by decide) from rfl,
      Prod.Lex.toLex_le_toLex] at hlow hhigh

end

end Slideshow

namespace Slideshow.Graph.Timeline

open Scalar

/-! ## The shortest segment -/

/-- The smallest of positive lengths is one of them and not longer than the others. -/
theorem foldl_minimum : ∀ (first : Float) (rest : List Float),
    (∀ d ∈ first :: rest, isPositive d = true) →
    rest.foldl minimum first ∈ first :: rest ∧ ∀ d ∈ first :: rest, rest.foldl minimum first ≤ d
  | first, [], h => by
    have hfirst : isFinite first = true := (Bool.and_eq_true_iff.mp (h first List.mem_cons_self)).1
    refine ⟨List.mem_cons_self, fun d hd => ?_⟩
    rw [List.mem_singleton.mp hd]
    exact float_le_self hfirst
  | first, d :: r, h => by
    have hcompares : ∀ x ∈ first :: d :: r, x ≤ x := fun x hx =>
      float_le_self (Bool.and_eq_true_iff.mp (h x hx)).1
    have hd := List.mem_cons_of_mem first (List.mem_cons_self (a := d) (l := r))
    obtain ⟨hleft, hright⟩ := minimum_le (hcompares first List.mem_cons_self) (hcompares d hd)
    have hsmaller : minimum first d ∈ first :: d :: r := by
      rcases minimum_eq_or first d with heq | heq <;> rw [heq]
      · exact List.mem_cons_self
      · exact hd
    have hrest : ∀ x ∈ r, x ∈ first :: d :: r :=
      fun x hx => List.mem_cons_of_mem _ (List.mem_cons_of_mem _ hx)
    obtain ⟨hmem, hle⟩ := foldl_minimum (minimum first d) r (by
      intro x hx
      rcases List.mem_cons.mp hx with rfl | hx
      · exact h _ hsmaller
      · exact h x (hrest x hx))
    refine ⟨?_, fun x hx => ?_⟩
    · rcases List.mem_cons.mp hmem with heq | hin
      · rw [List.foldl_cons, heq]
        exact hsmaller
      · exact hrest _ hin
    · have hbest := hle (minimum first d) List.mem_cons_self
      rcases List.mem_cons.mp hx with rfl | hx
      · exact float_le_trans hbest hleft
      · rcases List.mem_cons.mp hx with rfl | hx
        · exact float_le_trans hbest hright
        · exact hle x (List.mem_cons_of_mem _ hx)

/-- A shortest one of some segments. -/
def IsShortest (s : Float) (durations : List Float) : Prop := s ∈ durations ∧ ∀ d ∈ durations, s ≤ d

theorem shortest_spec {first : Float} {rest : List Float}
    (h : ∀ d ∈ first :: rest, isPositive d = true) :
    IsShortest (shortest first rest) (first :: rest) := by
  obtain ⟨hmem, hle⟩ := foldl_minimum first rest h
  rw [shortest, isNaN_of_le (hle _ hmem), if_neg Bool.false_ne_true]
  exact ⟨hmem, hle⟩

/-! ## What fits -/

section
variable {durations : List Float} {asked fraction s : Float}

/-- With a share that is a number, at most the share is left of what was asked for, and nothing if
the share is nothing. -/
theorem fitted_of_share (hs : isPositive s = true) (hasked : 0 < asked)
    (hfraction : isNaN fraction = false) :
    fitted asked fraction s ≤ asked ∧ fitted asked fraction s ≤ s * clamp fraction 0 1 ∧
      fitted asked fraction s ≤ s ∧ (0 < fitted asked fraction s ↔ 0 < s * clamp fraction 0 1) := by
  obtain ⟨hlow, hhigh⟩ := clamp_spec hfraction
  have hshare := product_le hs hlow hhigh
  have hfitted : fitted asked fraction s = minimum asked (s * clamp fraction 0 1) := rfl
  obtain ⟨hleAsked, hleShare⟩ :=
    minimum_le (float_refl (float_le_of_lt hasked)) (le_self_of_isNaN (isNaN_of_le hshare))
  rw [hfitted]
  refine ⟨hleAsked, hleShare, float_le_trans hleShare hshare,
    fun h => float_lt_of_lt_of_le h hleShare, fun h => ?_⟩
  rcases minimum_eq_or asked (s * clamp fraction 0 1) with heq | heq <;> rw [heq] <;> assumption

/-- With a share that is none, all is left of what was asked for. -/
theorem fitted_of_noShare (hasked : 0 < asked) (hfraction : isNaN fraction = true) :
    fitted asked fraction s = asked := by
  have hshare : isNaN (s * clamp fraction 0 1) = true :=
    isNaN_mul (by rwa [clamp_of_isNaN hfraction])
  exact minimum_of_isNaN (float_refl (float_le_of_lt hasked)) hshare

/-- A plan of two segments or more has the transition that fits, if anything is left of it. -/
theorem transition_eq (htwo : 2 ≤ durations.length)
    (hpositive : ∀ d ∈ durations, isPositive d = true) (asked fraction : Float) :
    ∃ s, IsShortest s durations ∧ (plan durations (some asked) fraction).transition =
      if 0 < fitted asked fraction s then some (fitted asked fraction s) else none := by
  match durations, htwo with
  | d :: e :: r, _ =>
    refine ⟨shortest d (e :: r), shortest_spec hpositive, ?_⟩
    rw [plan_some, blendLength?]
    by_cases habove : 0 < fitted asked fraction (shortest d (e :: r))
    · rw [if_pos habove, if_pos (isAbove_iff.mpr habove)]
      rfl
    · rw [if_neg habove, if_neg (fun h => habove (isAbove_iff.mp h))]
      rfl

/-- **With a share that is a number**, the transition is the smaller of the length asked for and the
share of the shortest segment, if the share is anything. -/
theorem transition_of_share (htwo : 2 ≤ durations.length)
    (hpositive : ∀ d ∈ durations, isPositive d = true) (hasked : 0 < asked)
    (hfraction : isNaN fraction = false) :
    ∃ s, IsShortest s durations ∧ (plan durations (some asked) fraction).transition =
      if 0 < s * clamp fraction 0 1 then some (minimum asked (s * clamp fraction 0 1))
          else none := by
  obtain ⟨s, hs, htransition⟩ := transition_eq htwo hpositive asked fraction
  obtain ⟨-, -, -, habove⟩ := fitted_of_share (hpositive s hs.1) hasked hfraction
  refine ⟨s, hs, ?_⟩
  rw [htransition]
  simp only [habove]
  rfl

/-- **With a share that is none**, the transition is as long as it was asked for, whatever the
segments are. -/
theorem transition_of_noShare (htwo : 2 ≤ durations.length)
    (hpositive : ∀ d ∈ durations, isPositive d = true) (hasked : 0 < asked)
    (hfraction : isNaN fraction = true) :
    (plan durations (some asked) fraction).transition = some asked := by
  obtain ⟨s, -, htransition⟩ := transition_eq htwo hpositive asked fraction
  rw [htransition, fitted_of_noShare hasked hfraction, if_pos hasked]

/-- Without a transition, a plan cuts hard between segments as they were given. -/
theorem plan_of_none {requested : Option Float}
    (h : (plan durations requested fraction).transition = none) :
    (plan durations requested fraction).rendered = durations ∧
        (plan durations requested fraction).offsets = [] := by
  rcases plan_cases durations requested fraction with hplan | ⟨_, _, -, -, hplan⟩
  · rw [hplan]
    exact ⟨rfl, rfl⟩
  · rw [hplan] at h
    cases h

/-- **What a transition fits into.** It is longer than nothing and at most as long as it was asked
for. With a share that is a number it is the smaller of that and the share of the shortest segment,
so that it does not outlast any; with a share that is none it is as long as it was asked for.
Without a transition there are hard cuts. -/
theorem plan_fits (htwo : 2 ≤ durations.length) (hpositive : ∀ d ∈ durations, isPositive d = true)
    (hasked : 0 < asked) (fraction : Float) :
    (∀ td, (plan durations (some asked) fraction).transition = some td →
      0 < td ∧ td ≤ asked ∧ (isNaN fraction = false →
        (∀ d ∈ durations, td ≤ d) ∧ ∃ s, IsShortest s durations ∧ td ≤ s * clamp fraction 0 1)) ∧
    (isNaN fraction = false → ∃ s,
      IsShortest s durations ∧ (plan durations (some asked) fraction).transition = if 0 <
        s * clamp fraction 0 1 then some (minimum asked (s * clamp fraction 0 1)) else none) ∧
    (isNaN fraction = true → (plan durations (some asked) fraction).transition = some asked) ∧
    ((plan durations (some asked) fraction).transition = none →
      (plan durations (some asked) fraction).rendered = durations ∧
          (plan durations (some asked) fraction).offsets = []) := by
  refine ⟨fun td htd => ?_, transition_of_share htwo hpositive hasked,
    transition_of_noShare htwo hpositive hasked, plan_of_none⟩
  obtain ⟨s, hs, htransition⟩ := transition_eq htwo hpositive asked fraction
  rw [htransition] at htd
  split at htd
  case isFalse => cases htd
  case isTrue habove =>
    obtain rfl := Option.some.inj htd
    cases hfraction : isNaN fraction with
    | false =>
      obtain ⟨hleAsked, hleShare, hle, -⟩ := fitted_of_share (hpositive s hs.1) hasked hfraction
      exact ⟨habove, hleAsked, fun _ =>
        ⟨fun d hd => float_le_trans hle (hs.2 d hd), s, hs, hleShare⟩⟩
    | true =>
      rw [fitted_of_noShare hasked hfraction]
      exact ⟨hasked, float_refl (float_le_of_lt hasked), fun h => absurd h.symm Bool.false_ne_true⟩

/-- A transition of two seconds between segments of one second, with a share of a half. -/
theorem plan_fits_half :
    (∀ d ∈ [(1 : Float), 1], isPositive d = true) ∧ (0 : Float) < 2 ∧
      ∀ td, (plan [(1 : Float), 1] (some 2) 0.5).transition = some td →
          ∀ d ∈ [(1 : Float), 1], td ≤ d := by
  have hpositive : ∀ d ∈ [(1 : Float), 1], isPositive d = true := by decide
  exact ⟨hpositive, by decide, fun td htd =>
    (((plan_fits (by decide) hpositive (by decide) 0.5).1 td htd).2.2 (by decide)).1⟩

/-- With a share that is no number, a transition of two seconds outlasts segments of one second. -/
theorem plan_outlasts : ∃ td : Float, (plan [1, 1] (some 2) (0 / 0)).transition = some td ∧
    ¬∀ d ∈ [(1 : Float), 1], td ≤ d :=
  ⟨2, transition_of_noShare (by decide) (by decide) (by decide) (by decide), by decide⟩

end

end Slideshow.Graph.Timeline
