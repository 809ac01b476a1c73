import Mathlib
import Slideshow.JobId
import Slideshow.Proofs.Json.Quoted

/-!
# Identifiers that are read back

The digits of an identifier, from the left, are read as its bits.

Headline:
* **`parse?_text`**: an identifier is read back.
-/

namespace Slideshow.JobId

variable (id : JobId)

/-- The first digits of an identifier are its highest bits. -/
theorem foldlM_digits : ∀ k ≤ 32, ((List.range k).map id.digit).foldlM
    (fun n c => (Json.hexValue? c).map (16 * n + ·)) 0 = some (id.bits.toNat / 16 ^ (32 - k)) := by
  intro k
  induction k with
  | zero =>
    intro _
    rw [Nat.div_eq_of_lt (Nat.lt_of_lt_of_eq id.bits.isLt (by decide))]
    rfl
  | succ k ih =>
    intro hk
    have hshift : 32 - k = 31 - k + 1 := by omega
    have hnext : 32 - (k + 1) = 31 - k := by omega
    have hdigit : Json.hexValue? (id.digit k) = some (id.bits.toNat / 16 ^ (31 - k) % 16) :=
      Json.hexValue?_hexDigit (Nat.mod_lt _ (by decide))
    rw [List.range_succ, List.map_append, List.foldlM_append, ih (Nat.le_of_succ_le hk), hshift,
      hnext, Nat.pow_succ, ← Nat.div_div_eq_div_mul]
    simp only [List.map_cons, List.map_nil, List.foldlM_cons, List.foldlM_nil, Option.bind_eq_bind,
      Option.bind_some, hdigit, Option.map_some]
    exact congrArg some (Nat.div_add_mod _ 16)

theorem length_digits : id.digits.length = 32 := by simp [digits]

theorem ofDigits?_digits : ofDigits? id.digits = some id := by
  have hfold := id.foldlM_digits 32 (Nat.le_refl 32)
  rw [ofDigits?, length_digits, digits, hfold]
  simp

theorem dash_not_mem_digits : '-' ∉ id.digits := by
  have hdigit : ∀ n, n < 16 → Json.hexDigit n ≠ '-' := by decide
  intro h
  obtain ⟨i, -, hi⟩ := List.mem_map.mp h
  exact hdigit _ (Nat.mod_lt _ (by decide)) hi

/-- Without the dashes between them, groups are the digits. -/
theorem filter_grouped {ds : List Char} (h : '-' ∉ ds) : (grouped ds).filter (· != '-') = ds := by
  have hkeep : ∀ cs : List Char, (∀ c ∈ cs, c ∈ ds) → cs.filter (· != '-') = cs := fun cs hcs =>
    List.filter_eq_self.mpr fun c hc => bne_iff_ne.mpr fun hdash => h (hdash ▸ hcs c hc)
  have htake : ∀ k n, ∀ c ∈ (ds.drop k).take n, c ∈ ds := fun k n c hc =>
    List.mem_of_mem_drop (List.mem_of_mem_take hc)
  have hdash : ∀ cs : List Char, ('-' :: cs).filter (· != '-') = cs.filter (· != '-') :=
    fun _ => rfl
  have hjoin : ∀ k, (ds.drop k).take 4 ++ ds.drop (k + 4) = ds.drop k := fun k => by
    rw [← List.drop_drop, List.take_append_drop]
  simp only [grouped, List.filter_append, List.append_assoc, List.cons_append, hdash]
  rw [hkeep _ fun _ => List.mem_of_mem_take, hkeep _ (htake 8 4), hkeep _ (htake 12 4),
    hkeep _ (htake 16 4), hkeep _ fun _ =>
      List.mem_of_mem_drop, hjoin 16, hjoin 12, hjoin 8, List.take_append_drop]

theorem ofGroups?_grouped {ds : List Char} (hlength : ds.length = 32) (h : '-' ∉ ds) :
    ofGroups? (grouped ds) = ofDigits? ds := by
  have hdashes : [8, 13, 18, 23].all (fun i => (grouped ds)[i]? == some '-') = true := by
    simp [grouped, List.getElem?_append, hlength]
  have hcount : (grouped ds).length = 36 := by simp [grouped, hlength]
  rw [ofGroups?, filter_grouped h]
  simp only [hcount, hlength, hdashes]
  rfl

/-- **An identifier is read back.** -/
theorem parse?_text : parse? id.text = some id := by
  have hcount : (grouped id.digits).length = 36 := by simp [grouped, length_digits]
  rw [parse?, text, String.toList_ofList]
  simp only [hcount]
  rw [if_neg (by decide), if_pos (by decide),
    ofGroups?_grouped id.length_digits id.dash_not_mem_digits, ofDigits?_digits]

end Slideshow.JobId
