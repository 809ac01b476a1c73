import Slideshow.Json.Quoted

/-!
# Strings that are read back

A string between quotes is read back as it was: each character as itself, as its escape or as the
number of its unit.

* `Piece.Stands` says which piece is read as a character wherever it stands.

Headline:
* **`scan_quote`**: what `quote` writes is read up to its closing quote.
-/

namespace Slideshow.Json

/-- A piece is read as a character, whatever follows. -/
def Piece.Stands (p : Piece) (c : Char) : Prop := ∀ ps, join? (p :: ps) = (join? ps).map (c :: ·)

theorem Piece.stands_char (c : Char) : (Piece.char c).Stands c := fun _ => by rw [join?]

/-- The unit of a character that is half of no pair. -/
theorem Piece.stands_unit {c : Char} (h : c.toNat < 0xD800) : (Piece.unit c.toNat).Stands c := by
  intro ps
  have hhalf : ¬(0xD800 ≤ c.toNat ∧ c.toNat < 0xE000) := by omega
  have hfirst : ¬(0xD800 ≤ c.toNat ∧ c.toNat < 0xDC00) := by omega
  have hsecond : ¬(0xDC00 ≤ c.toNat ∧ c.toNat < 0xE000) := by omega
  cases ps with
  | nil => simp [join?, hhalf]
  | cons q ps =>
    cases q with
    | char d => simp [join?, hhalf]
    | unit m => simp [join?, hfirst, hsecond]

theorem hexValue?_hexDigit {n : Nat} (h : n < 16) : hexValue? (hexDigit n) = some n := by
  have hall : ∀ k : Fin 16, hexValue? (hexDigit k) = some k.val := by decide
  exact hall ⟨n, h⟩

/-- The unit that a character below the space is written as. -/
theorem unit?_hexDigit {n : Nat} (h : n < 0x20) :
    unit? '0' '0' (hexDigit (n / 16)) (hexDigit (n % 16)) = some n := by
  have hzero : hexValue? '0' = some 0 := by decide
  have hvalue : 4096 * 0 + 256 * 0 + 16 * (n / 16) + n % 16 = n := by omega
  rw [unit?, hzero, hexValue?_hexDigit (by omega), hexValue?_hexDigit (by omega)]
  exact congrArg some hvalue

/-- A character is written as a letter after a backslash, as the number of its unit, or as
itself. -/
theorem escape_cases (c : Char) :
    (∃ d, d ≠ 'u' ∧ escaped? d = some c ∧ escape c = ['\\', d]) ∨
      (c.toNat < 0x20 ∧
        escape c = ['\\', 'u', '0', '0', hexDigit (c.toNat / 16), hexDigit (c.toNat % 16)]) ∨
      (c ≠ '"' ∧ c ≠ '\\' ∧ ¬c.toNat < 0x20 ∧ escape c = [c]) := by
  have hletter : ∀ {e d : Char}, (c == e) = true → d ≠ 'u' → escaped? d = some e →
      ∃ d', d' ≠ 'u' ∧ escaped? d' = some c ∧ ['\\', d] = ['\\', d'] :=
    fun hc hd he => ⟨_, hd, beq_iff_eq.mp hc ▸ he, rfl⟩
  unfold escape
  split
  · next h => exact .inl (hletter h (by decide) (by decide))
  next hquote =>
  split
  · next h => exact .inl (hletter h (by decide) (by decide))
  next hbackslash =>
  split
  · next h => exact .inl (hletter h (by decide) (by decide))
  split
  · next h => exact .inl (hletter h (by decide) (by decide))
  split
  · next h => exact .inl (hletter h (by decide) (by decide))
  split
  · next h => exact .inl (hletter h (by decide) (by decide))
  split
  · next h => exact .inl (hletter h (by decide) (by decide))
  split
  · next h => exact .inr (.inl ⟨h, rfl⟩)
  · next h => exact .inr (.inr ⟨by simpa using hquote, by simpa using hbackslash, h, rfl⟩)

/-- Reading goes on after what a character is written as. -/
theorem scan_escape (c : Char) (r : List Char) :
    ∃ p : Piece, p.Stands c ∧ scan (escape c ++ r) = (scan r).map fun q => (p :: q.1, q.2) := by
  rcases escape_cases c with ⟨d, hd, hletter, h⟩ | ⟨hlow, h⟩ | ⟨hquote, hbackslash, hlow, h⟩
  · refine ⟨.char c, Piece.stands_char c, ?_⟩
    cases hr : scan r <;> simp [h, scan, hd, hletter, hr]
  · refine ⟨.unit c.toNat, Piece.stands_unit (by omega), ?_⟩
    cases hr : scan r <;> simp [h, scan, unit?_hexDigit hlow, hr]
  · refine ⟨.char c, Piece.stands_char c, ?_⟩
    cases hr : scan r <;> simp [h, scan, hbackslash, hlow, hr]

/-- Characters are read up to the closing quote. -/
theorem scan_escaped (cs r : List Char) :
    ∃ ps, join? ps = some cs ∧ scan (cs.flatMap escape ++ '"' :: r) = some (ps, r) := by
  induction cs with
  | nil => exact ⟨[], by rw [join?], by rw [List.flatMap_nil, List.nil_append, scan]⟩
  | cons c cs ih =>
    obtain ⟨ps, hjoin, hscan⟩ := ih
    obtain ⟨p, hp, hc⟩ := scan_escape c (cs.flatMap escape ++ '"' :: r)
    refine ⟨p :: ps, by rw [hp, hjoin, Option.map_some], ?_⟩
    rw [List.flatMap_cons, List.append_assoc, hc, hscan, Option.map_some]

/-- **What is written between quotes is read up to the closing one.** -/
theorem scan_quote (cs r : List Char) :
    ∃ body ps, quote cs ++ r = '"' :: body ∧ scan body = some (ps, r) ∧ join? ps = some cs := by
  obtain ⟨ps, hjoin, hscan⟩ := scan_escaped cs r
  exact ⟨_, ps, by simp [quote], hscan, hjoin⟩

end Slideshow.Json
