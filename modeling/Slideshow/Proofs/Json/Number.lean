import Slideshow.Json.Number
import Slideshow.Json.Printer
import Slideshow.Proofs.Numeral

/-!
# Numbers that are read back

A number is read up to a character that none goes on with, so that its text can be looked at by
itself.

* `Ends` says what may follow a number.
* `readNumber?_append`: what follows a number does not matter for it.

Headline:
* **`readNumber?_integerText`**: integers of 64 bits are read back.
-/

namespace Slideshow.Json

open Decimal

/-! ## What follows a number -/

/-- No number goes on with the head of a text. -/
def Ends (rest : List Char) : Prop :=
  ∀ c ∈ rest.head?, isDigit c = false ∧ c ≠ '.' ∧ (c == 'e' || c == 'E') = false

theorem ends_nil : Ends [] := fun _ h => nomatch h

theorem ends_cons {c : Char} (r : List Char)
    (h : isDigit c = false ∧ c ≠ '.' ∧ (c == 'e' || c == 'E') = false) : Ends (c :: r) := by
  rintro d hd
  cases hd
  exact h

section
variable {rest : List Char} (hrest : Ends rest)
include hrest

theorem span_isDigit_append (cs : List Char) :
    (cs ++ rest).takeWhile isDigit = cs.takeWhile isDigit ∧
      (cs ++ rest).dropWhile isDigit = cs.dropWhile isDigit ++ rest :=
  span_append (fun c hc => (hrest c hc).1) cs

theorem readPower?_append {cs : List Char} {power : Int} (h : readPower? cs = some (power, [])) :
    readPower? (cs ++ rest) = some (power, rest) := by
  have hsign : readSign (cs ++ rest) = ((readSign cs).1, (readSign cs).2 ++ rest) := by
    cases cs with
    | nil => cases h
    | cons c cs =>
      rw [List.cons_append]
      unfold readSign
      split <;> simp_all
  have hspan := span_isDigit_append hrest (readSign cs).2
  unfold readPower? at h ⊢
  rw [hsign]
  dsimp only at h ⊢
  rw [hspan.1, hspan.2]
  split at h
  · cases h
  · next hne =>
    obtain ⟨hpower, hnil⟩ := Prod.mk.inj (Option.some.inj h)
    rw [if_neg hne, hpower, hnil, List.nil_append]

theorem readEnd?_append {negative point : Bool} {whole fraction cs : List Char} {t : NumberText}
    (h : readEnd? negative whole fraction point cs = some (t, [])) :
    readEnd? negative whole fraction point (cs ++ rest) = some (t, rest) := by
  cases cs with
  | nil =>
    cases h
    cases rest with
    | nil => rfl
    | cons c r => 
      rw [List.nil_append, readEnd?, if_neg (by simp [(hrest c rfl).2.2])]
  | cons c cs =>
    rw [readEnd?] at h
    rw [List.cons_append, readEnd?]
    split at h
    · next he =>
      obtain ⟨⟨power, left⟩, hpower, ht⟩ := Option.map_eq_some_iff.mp h
      obtain ⟨rfl, rfl⟩ := Prod.mk.inj ht
      rw [if_pos he, readPower?_append hrest hpower, Option.map_some]
    · cases h

theorem readTail?_append {negative : Bool} {whole cs : List Char} {t : NumberText}
    (h : readTail? negative whole cs = some (t, [])) :
    readTail? negative whole (cs ++ rest) = some (t, rest) := by
  obtain ⟨⟨fraction, point, left⟩, hfraction, hend⟩ := Option.bind_eq_some_iff.mp h
  have happend : readFraction? (cs ++ rest) = some (fraction, point, left ++ rest) := by
    cases cs with
    | nil =>
      cases hfraction
      cases rest with
      | nil => rfl
      | cons c r =>
        have hc := (hrest c rfl).2.1
        simp [readFraction?, hc]
    | cons c cs =>
      by_cases hc : c = '.'
      · subst hc
        have hspan := span_isDigit_append hrest cs
        rw [readFraction?] at hfraction
        rw [List.cons_append, readFraction?]
        rw [hspan.1, hspan.2]
        split at hfraction
        · cases hfraction
        · next hne =>
          cases hfraction
          rw [if_neg hne]
      · have hother : ∀ r, readFraction? (c :: r) = some ([], false, c :: r) := fun r => by
          simp [readFraction?, hc]
        rw [hother] at hfraction
        cases hfraction
        rw [List.cons_append, hother]
  rw [readTail?, happend]
  exact readEnd?_append hrest hend

theorem readUnsigned?_append {negative : Bool} {cs : List Char} {t : NumberText}
    (h : readUnsigned? negative cs = some (t, [])) :
    readUnsigned? negative (cs ++ rest) = some (t, rest) := by
  have hspan := span_isDigit_append hrest cs
  unfold readUnsigned? at h ⊢
  rw [hspan.1, hspan.2]
  split at h
  · cases h
  · cases h
  · exact readTail?_append hrest h

/-- **What follows a number does not matter for it.** -/
theorem readNumber?_append {cs : List Char} {t : NumberText} (h : readNumber? cs = some (t, [])) :
    readNumber? (cs ++ rest) = some (t, rest) := by
  cases cs with
  | nil => cases h
  | cons c cs =>
    by_cases hc : c = '-'
    · subst hc
      exact readUnsigned?_append hrest h
    · have hunsigned : ∀ r, readNumber? (c :: r) = readUnsigned? false (c :: r) := fun r => by
        simp [readNumber?, hc]
      rw [hunsigned] at h
      rw [List.cons_append, hunsigned]
      exact readUnsigned?_append hrest h

end

/-- A number begins with a digit or a minus. -/
theorem head_of_readNumber? {c : Char} {cs : List Char} {p : NumberText × List Char}
    (h : readNumber? (c :: cs) = some p) : c = '-' ∨ isDigit c = true := by
  by_cases hc : c = '-'
  · exact .inl hc
  · right
    by_contra hdigit
    rw [show readNumber? (c :: cs) = readUnsigned? false (c :: cs) by simp [readNumber?, hc],
      readUnsigned?, List.takeWhile_cons_of_neg hdigit] at h
    cases h

/-! ## Integers -/

theorem le_foldl_digits (ds : List Char) :
    ∀ v : Nat, v ≤ ds.foldl (fun n c => 10 * n + digitValue c) v := by
  induction ds with
  | nil => exact fun v => v.le_refl
  | cons d ds ih =>
    intro v
    have hle := ih (10 * v + digitValue d)
    rw [List.foldl_cons]
    omega

/-- Digits that make a number below `2 ^ 64` all count. -/
theorem take_eq {ds : List Char} : ∀ {s : Significand},
    ds.foldl (fun n c => 10 * n + digitValue c) s.value < 2 ^ 64 →
      s.take ds = ⟨ds.foldl (fun n c => 10 * n + digitValue c) s.value, s.used + ds.length⟩ := by
  induction ds with
  | nil => exact fun _ => rfl
  | cons d ds ih =>
    intro s h
    rw [List.foldl_cons] at h
    have hle := le_foldl_digits ds (10 * s.value + digitValue d)
    have hlt : 10 * s.value + digitValue d < Nat.pow 2 64 := Nat.lt_of_le_of_lt hle h
    rw [Significand.take, if_pos hlt, ih h, List.foldl_cons, List.length_cons]
    simp only [Nat.add_assoc, Nat.add_comm 1]

/-- Digits alone are read as a whole number. -/
theorem readUnsigned?_natDigits (negative : Bool) (n : Nat) :
    readUnsigned? negative (natDigits n) = some (⟨negative, natDigits n, [], 0, false⟩, []) := by
  obtain ⟨htake, hdrop⟩ := span_natDigits n
  unfold readUnsigned?
  rw [htake, hdrop]
  split
  · next h => exact absurd h (natDigits_ne_nil n)
  · next h => exact absurd h (natDigits_ne_zero_cons n _ _)
  · rfl

/-- **Integers of 64 bits are read back.** -/
theorem readNumber?_integerText [FloatReader] {n : Int} (hlow : -2 ^ 63 ≤ n) (hhigh : n < 2 ^ 64) :
    ∃ t, readNumber? (integerText n) = some (t, []) ∧ t.document = .integer n := by
  have hwhole : Significand.take ⟨0, 0⟩ (natDigits n.natAbs) =
      ⟨n.natAbs, (natDigits n.natAbs).length⟩ := by
    have hvalue := natOfDigits_natDigits n.natAbs
    rw [natOfDigits] at hvalue
    rw [take_eq (by dsimp only; omega), hvalue, Nat.zero_add]
  unfold integerText
  split
  · next hneg =>
    refine ⟨_, readUnsigned?_natDigits true n.natAbs, ?_⟩
    unfold NumberText.document
    simp only [hwhole]
    have hbounds : (n.natAbs == 0 || decide (n.natAbs > Nat.pow 2 63)) = false := by
      simp only [Bool.or_eq_false_iff, beq_eq_false_iff_ne, decide_eq_false_iff_not, Nat.pow_eq]
      omega
    have hn : -(n.natAbs : Int) = n := by omega
    rw [if_neg (by simp), if_pos trivial, hbounds, if_neg Bool.false_ne_true, hn]
  · next hneg =>
    have hread : readNumber? (natDigits n.natAbs) = readUnsigned? false (natDigits n.natAbs) := by
      cases h : natDigits n.natAbs with
      | nil => rfl
      | cons c cs =>
        have hc : isDigit c = true := isDigit_of_mem_natDigits (n := n.natAbs) (by simp [h])
        have hminus : c ≠ '-' := fun hc' => by rw [hc'] at hc; exact absurd hc (by decide)
        simp [readNumber?, hminus]
    refine ⟨_, hread.trans (readUnsigned?_natDigits false n.natAbs), ?_⟩
    unfold NumberText.document
    simp only [hwhole]
    have hn : (n.natAbs : Int) = n := by omega
    rw [if_neg (by simp), if_neg Bool.false_ne_true, hn]

end Slideshow.Json
