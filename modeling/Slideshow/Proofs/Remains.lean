import Slideshow.Proofs.Monotone

/-!
# What remains of a number in its text

A decimal of so many places is a count of units of the last one, and a number that is at most half a
unit is counted as none. So the text of a number above zero can be zero.

* `Remains`: a number that is more than half a unit of the last of so many places.

Headlines:
* `units_pos_iff`: a number has units exactly if it is more than half of one.
* **`fixed_above_iff`**, **`numeral_above_iff`**: the text of an amount is above zero exactly if
  something remains of it.
-/

namespace Slideshow.Decimal

/-! ## Units -/

theorem roundQuotient_pos_iff {num den : ℕ} (h : 0 < den) :
    0 < roundQuotient num den ↔ den < 2 * num := by
  rcases lt_or_ge num den with hsmall | hlarge
  · have hbelow : num / den = 0 := Nat.div_eq_of_lt hsmall
    have hrest : num % den = num := Nat.mod_eq_of_lt hsmall
    simp only [roundQuotient, hbelow, hrest]
    split
    · omega
    · split
      · omega
      · simpa using not_lt.mp ‹_›
  · have hbelow : 0 < num / den := Nat.div_pos hlarge h
    simp only [roundQuotient]
    split
    · omega
    · split
      · omega
      · split <;> omega

/-- A number has units of the last place exactly if it is more than half of one. -/
theorem units_pos_iff {places m : ℕ} {e : ℤ} :
    0 < units places m e ↔ 1 / 10 ^ places / 2 < magnitude m e := by
  have hden : (0 : ℚ) < Parts.denominator e := by exact_mod_cast Parts.denominator_pos e
  have hscale : (0 : ℚ) < 10 ^ places := by positivity
  rw [units, roundQuotient_pos_iff (Parts.denominator_pos e), ← numerator_div_denominator, div_div,
    div_lt_div_iff₀ (by positivity) hden, Nat.pow_eq, ← Nat.cast_lt (α := ℚ)]
  push_cast
  constructor <;> intro h <;> linarith

/-! ## Texts -/

/-- Something remains of a number that is rounded to so many places: it is more than half a unit of
the last one. -/
def Remains (places : ℕ) (x : Float) : Prop := ∃ q, Worth x q ∧ 1 / 10 ^ places / 2 < q

section
variable {x : Float} {q : ℚ} {places : ℕ}

theorem Worth.remains_iff (h : Worth x q) : Remains places x ↔ 1 / 10 ^ places / 2 < q :=
  ⟨fun ⟨_, hr, hlt⟩ => h.unique hr ▸ hlt, fun hlt => ⟨q, h, hlt⟩⟩

theorem not_remains_of_infinite (h : x.toModel.unpack = .infinity .positive) :
    ¬Remains places x := by
  rintro ⟨q, hworth, -⟩
  rcases hworth.cases with ⟨hX, -⟩ | ⟨m, e, hm, -, hX, -⟩ <;> rw [h] at hX <;> cases hX

theorem fixedChars_of_infinite (h : x.toModel.unpack = .infinity .positive) :
    fixedChars places x = ['i', 'n', 'f'] := by
  rw [fixedChars, ofFloat_eq, h]
  rfl

/-- A count of units is above zero exactly if its decimal is. -/
theorem units_div_pos_iff {m : ℕ} {e : ℤ} :
    0 < (units places m e : ℚ) / 10 ^ places ↔ 1 / 10 ^ places / 2 < magnitude m e := by
  rw [← units_pos_iff, div_pos_iff_of_pos_right (by positivity), Nat.cast_pos]

/-- **The text of an amount with a fixed number of places** is above zero exactly if something
remains of the amount. -/
theorem fixed_above_iff (hplaces : 0 < places) (h : IsAmount x) :
    0 < literalValue (fixedChars places x) ↔ Remains places x := by
  rcases h with ⟨q, hworth⟩ | hinfinite
  · obtain ⟨m, e, hx, rfl⟩ := hworth.parts
    obtain ⟨whole, fraction, htext, hne, hdigits, hlength, hvalue⟩ :=
      placed_digits hplaces (units places m e)
    obtain ⟨hwhole, hfraction⟩ := List.forall_mem_append.mp hdigits
    have hpointed : '.' :: fraction = pointed fraction :=
      (if_neg (List.length_pos_iff.mp (hlength.trans_gt hplaces))).symm
    have hread := literalValue_digits hne hwhole hfraction
    rw [hvalue, hlength, ← hpointed, ← htext] at hread
    rw [hworth.remains_iff, ← units_div_pos_iff, ← hread, fixedChars, hx]
    rfl
  · rw [fixedChars_of_infinite hinfinite]
    exact iff_of_false (by decide +kernel) (not_remains_of_infinite hinfinite)

/-- **The text of an amount inside filters** is above zero exactly if something remains of the
amount. -/
theorem numeral_above_iff (h : IsAmount x) : 0 < literalValue (numeralChars x) ↔ Remains 4 x := by
  rcases h with ⟨q, hworth⟩ | hinfinite
  · obtain ⟨m, e, hx, rfl⟩ := hworth.parts
    have hread := (Numeral.ofCount false (units 4 m e)).literalValue_body
    rw [Numeral.size_ofCount] at hread
    rw [hworth.remains_iff, ← units_div_pos_iff, ← hread, numeralChars_eq_text hx]
    rfl
  · rw [numeralChars, fixedChars_of_infinite hinfinite]
    exact iff_of_false (by decide +kernel) (not_remains_of_infinite hinfinite)

end

end Slideshow.Decimal
