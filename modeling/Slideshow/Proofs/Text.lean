import Mathlib.Data.List.Basic
import Slideshow.Text.Utf8

/-!
# Texts and their bytes

Reading the bytes of a text gives the text back, whatever would stand for ill-formed bytes: there
are none.

* `follow_two`, `follow_three`, `follow_four`: what follows the lead bytes of longer characters.

Headlines:
* **`decodeWith_encode`**: bytes of a text are read as that text.
* **`decode?_append`**: a character of one byte is never inside another one, so that bytes can be
  cut there.
-/

namespace Slideshow.Text

/-! ## One character -/

theorem toNat_ofNat {n : Nat} (h : n < 256) : (UInt8.ofNat n).toNat = n := by
  rw [UInt8.toNat_ofNat']
  exact Nat.mod_eq_of_lt h

/-- A further byte with six bits of a character. -/
theorem readTail_cons {x lo hi k acc : Nat} (r : List UInt8) (hlo : lo ≤ 0x80 + x % 0x40)
    (hhi : 0x80 + x % 0x40 ≤ hi) :
    readTail (k + 1) lo hi acc (UInt8.ofNat (0x80 + x % 0x40) :: r) =
      readTail k 0x80 0xBF (acc * 0x40 + x % 0x40) r := by
  have hbyte : (UInt8.ofNat (0x80 + x % 0x40)).toNat = 0x80 + x % 0x40 := toNat_ofNat (by omega)
  have hbits : (0x80 + x % 0x40) % 0x40 = x % 0x40 := by omega
  rw [readTail, hbyte, if_pos (by simp [hlo, hhi]), hbits]

theorem follow_one {b : Nat} (h : b < 0x80) : follow b = some (0, 0, 0) := if_pos h

theorem follow_two {b : Nat} (hlow : 0xC2 ≤ b) (hhigh : b < 0xE0) :
    follow b = some (1, 0x80, 0xBF) := by
  unfold follow
  rw [if_neg (by omega), if_neg (by omega), if_pos hhigh]

/-- The first byte after a lead byte of three excludes characters that need two, and halves of
pairs. -/
theorem follow_three {n : Nat} (hlow : 0x800 ≤ n) (hhigh : n < 0x10000)
    (hpair : n < 0xD800 ∨ 0xDFFF < n) :
    ∃ lo hi, follow (0xE0 + n >>> 12) = some (2, lo, hi) ∧ lo ≤ 0x80 + (n >>> 6) % 0x40 ∧
      0x80 + (n >>> 6) % 0x40 ≤ hi := by
  simp only [Nat.shiftRight_eq_div_pow]
  unfold follow
  rw [if_neg (by omega), if_neg (by omega), if_neg (by omega)]
  split
  · next hE0 =>
    have hE0 := beq_iff_eq.mp hE0
    exact ⟨_, _, rfl, by omega, by omega⟩
  · split
    · next hED =>
      have hED := beq_iff_eq.mp hED
      exact ⟨_, _, rfl, by omega, by omega⟩
    · rw [if_pos (by omega)]
      exact ⟨_, _, rfl, by omega, by omega⟩

theorem follow_four {n : Nat} (hlow : 0x10000 ≤ n) (hhigh : n < 0x110000) :
    ∃ lo hi, follow (0xF0 + n >>> 18) = some (3, lo, hi) ∧ lo ≤ 0x80 + (n >>> 12) % 0x40 ∧
      0x80 + (n >>> 12) % 0x40 ≤ hi := by
  simp only [Nat.shiftRight_eq_div_pow]
  unfold follow
  rw [if_neg (by omega), if_neg (by omega), if_neg (by omega), if_neg (by rw [beq_iff_eq]; omega),
    if_neg (by rw [beq_iff_eq]; omega), if_neg (by omega)]
  split
  · next hF0 =>
    have hF0 := beq_iff_eq.mp hF0
    exact ⟨_, _, rfl, by omega, by omega⟩
  · split
    · exact ⟨_, _, rfl, by omega, by omega⟩
    · rw [if_pos (by rw [beq_iff_eq]; omega)]
      exact ⟨_, _, rfl, by omega, by omega⟩

/-- The bytes of a character are read as it. -/
theorem nextChar_encodeChar (c : Char) (r : List UInt8) :
    ∃ b bs, encodeChar c ++ r = b :: bs ∧ nextChar b bs = (some c, r) := by
  have hvalid : c.toNat < 0xD800 ∨ 0xDFFF < c.toNat ∧ c.toNat < 0x110000 := c.valid
  -- it is enough to put the bits together
  have hread : ∀ {b : Nat} {bs : List UInt8} {count lo hi : Nat}, b < 256 →
    follow b = some (count, lo, hi) →
      readTail count lo hi (leadBits count b) bs = (some c.toNat, r) →
      nextChar (UInt8.ofNat b) bs = (some c, r) := by
    intro b bs count lo hi hb hfollow htail
    rw [nextChar, toNat_ofNat hb, hfollow]
    simp only [htail, Char.ofNat_toNat]
  unfold encodeChar
  dsimp only
  split
  · next h1 => exact ⟨_, _, rfl, hread (by omega) (follow_one h1) rfl⟩
  · split
    · next h1 h2 =>
      have hlead : 0xC2 ≤ 0xC0 + c.toNat >>> 6 ∧ 0xC0 + c.toNat >>> 6 < 0xE0 := by
        rw [Nat.shiftRight_eq_div_pow]
        omega
      refine ⟨_, _, List.cons_append, hread (by omega) (follow_two hlead.1 hlead.2) ?_⟩
      rw [List.cons_append, List.nil_append, readTail_cons _ (by omega) (by omega), readTail]
      simp only [leadBits, Nat.shiftRight_eq_div_pow] at hlead ⊢
      rw [if_neg (by decide), if_pos (by decide)]
      congr 2
      omega
    · split
      · next h1 h2 h3 =>
        obtain ⟨lo, hi, hfollow, hlo, hhi⟩ := follow_three (n := c.toNat) (by omega) h3 (by omega)
        refine ⟨_, _, List.cons_append, hread (by rw [Nat.shiftRight_eq_div_pow]; omega) hfollow ?_⟩
        rw [List.cons_append, List.cons_append, List.nil_append, readTail_cons _ hlo hhi,
          readTail_cons _ (by omega) (by omega), readTail]
        simp only [leadBits, Nat.shiftRight_eq_div_pow]
        rw [if_neg (by decide), if_neg (by decide), if_pos (by decide)]
        congr 2
        omega
      · next h1 h2 h3 =>
        obtain ⟨lo, hi, hfollow, hlo, hhi⟩ := follow_four (n := c.toNat) (by omega) (by omega)
        refine ⟨_, _, List.cons_append, hread (by rw [Nat.shiftRight_eq_div_pow]; omega) hfollow ?_⟩
        rw [List.cons_append, List.cons_append, List.cons_append, List.nil_append,
          readTail_cons _ hlo hhi, readTail_cons _ (by omega) (by omega),
          readTail_cons _ (by omega) (by omega), readTail]
        simp only [leadBits, Nat.shiftRight_eq_div_pow]
        rw [if_neg (by decide), if_neg (by decide), if_neg (by decide)]
        congr 2
        omega

/-! ## Texts -/

theorem decodeWith_flatMap (hole cs : List Char) :
    decodeWith hole (cs.flatMap encodeChar) = cs := by
  induction cs with
  | nil => rw [List.flatMap_nil, decodeWith]
  | cons c cs ih =>
    obtain ⟨b, bs, hbytes, hnext⟩ := nextChar_encodeChar c (cs.flatMap encodeChar)
    rw [List.flatMap_cons, hbytes, decodeWith, hnext]
    exact congrArg (c :: ·) ih

/-- **The bytes of a text are read as that text.** -/
theorem decodeWith_encode (hole : List Char) (s : String) : decodeWith hole (encode s) = s.toList :=
  decodeWith_flatMap hole s.toList

/-- They are well-formed. -/
theorem decode?_flatMap (cs : List Char) : decode? (cs.flatMap encodeChar) = some cs := by
  induction cs with
  | nil => rw [List.flatMap_nil, decode?]
  | cons c cs ih =>
    obtain ⟨b, bs, hbytes, hnext⟩ := nextChar_encodeChar c (cs.flatMap encodeChar)
    rw [List.flatMap_cons, hbytes, decode?, hnext]
    dsimp only
    rw [ih]
    rfl

/-- The first 128 bytes stand for the characters with their numbers wherever they are. -/
theorem toNat_of_mem_encodeChar {c : Char} {b : UInt8} (h : b ∈ encodeChar c)
    (hb : b.toNat < 0x80) : c.toNat = b.toNat := by
  have hvalid : c.toNat < 0xD800 ∨ 0xDFFF < c.toNat ∧ c.toNat < 0x110000 := c.valid
  -- a character of several bytes has none of them
  have hhigh : ∀ k, 0x80 ≤ k → k < 256 → b ≠ UInt8.ofNat k := by
    rintro k hlow hk rfl
    rw [toNat_ofNat hk] at hb
    omega
  unfold encodeChar at h
  simp only [Nat.shiftRight_eq_div_pow] at h
  split_ifs at h with h1 h2 h3
  · rw [List.mem_singleton.mp h, toNat_ofNat (by omega)]
  all_goals simp only [List.mem_cons, List.not_mem_nil, or_false] at h
  · rcases h with h | h <;> exact absurd h (hhigh _ (by omega) (by omega))
  · rcases h with h | h | h <;> exact absurd h (hhigh _ (by omega) (by omega))
  · rcases h with h | h | h | h <;> exact absurd h (hhigh _ (by omega) (by omega))

/-! ## Bytes that are cut -/

/-- Bytes that go on with a character are none of the first 128. -/
theorem low_of_follow {b count lo hi : Nat} (h : follow b = some (count, lo, hi)) :
    count = 0 ∨ 0x80 ≤ lo := by
  unfold follow at h
  split_ifs at h <;> cases h <;> first | exact .inl rfl | exact .inr (by decide)

section
variable {a : UInt8} (ha : a.toNat < 0x80)
include ha

theorem readTail_append {k lo hi : Nat} (hlo : k = 0 ∨ 0x80 ≤ lo) (acc : Nat) (l r : List UInt8) :
    readTail k lo hi acc (l ++ a :: r) =
      ((readTail k lo hi acc l).1, (readTail k lo hi acc l).2 ++ a :: r) := by
  fun_induction readTail k lo hi acc l with
  | case1 => rfl
  | case2 k lo hi acc =>
    have hlow : ¬ lo ≤ a.toNat := by omega
    rw [List.nil_append, readTail, if_neg (by simp [hlow])]
  | case3 k lo hi acc b l hb ih =>
    rw [List.cons_append, readTail, if_pos hb]
    exact ih (.inr (Nat.le_refl _))
  | case4 k lo hi acc b l hb =>
    rw [List.cons_append, readTail, if_neg hb]

theorem nextChar_append (b : UInt8) (l r : List UInt8) :
    nextChar b (l ++ a :: r) = ((nextChar b l).1, (nextChar b l).2 ++ a :: r) := by
  unfold nextChar
  cases hfollow : follow b.toNat with
  | none => rfl
  | some x =>
    obtain ⟨count, lo, hi⟩ := x
    dsimp only
    rw [readTail_append ha (low_of_follow hfollow)]
    rcases readTail count lo hi (leadBits count b.toNat) l with ⟨_ | n, rest⟩ <;> rfl

theorem nextChar_low (r : List UInt8) : nextChar a r = (some (Char.ofNat a.toNat), r) := by
  rw [nextChar, follow_one ha]
  rfl

/-- **Bytes can be cut at a character of one byte**: they are text if both pieces are. -/
theorem decode?_append (l r : List UInt8) :
    decode? (l ++ a :: r) = (decode? l).bind fun cs => (decode? r).map fun ds =>
      cs ++ Char.ofNat a.toNat :: ds := by
  fun_induction decode? l with
  | case1 =>
    rw [List.nil_append, decode?, nextChar_low ha]
    rfl
  | case2 b l hnone =>
    rw [List.cons_append, decode?, nextChar_append ha, hnone]
    rfl
  | case3 b l c hsome ih =>
    rw [List.cons_append, decode?, nextChar_append ha, hsome]
    dsimp only
    rw [ih]
    cases decode? (nextChar b l).2 with
    | none => rfl
    | some cs =>
      cases decode? r with
      | none => rfl
      | some ds => rfl

end

end Slideshow.Text
