import Slideshow.Proofs.Graph.Camera

/-!
# The words of filters

A word is a longest run of letters, digits and points. The names of filters, options and values are
words, and so is everything that is printed as a number: decimals, sizes and colors, but also the
names of what is no finite number.

* `words` are the words of a text; `words_append` and `words_between`: what stands between them
  takes no part.
* `isDefinite` are the words of filters that mean something: names, decimals, sizes and colors, but
  not what is no finite number.
* `Definite` texts have only such words.

Headlines:
* **`numeral_cases`**: a number is printed as one word with or without a sign, which is definite if
  the number is finite.
* **`definite_chars`**: the text of an expression is definite if its numbers are.
* `not_undefined`: a definite text says nowhere that something is no number or infinite.
-/

namespace Slideshow.Graph

/-! ## Words -/

def Token.word? : Token → Option (List Char)
  | .word w => some w
  | .symbol _ => none

/-- The words of a text. -/
def words (cs : List Char) : List (List Char) := (tokens cs).filterMap Token.word?

section
variable {as bs w : List Char} {c : Char}

theorem wordInFront_append (c : Char) {ts : List Token} (h : ts ≠ []) (us : List Token) :
    Token.wordInFront c (ts ++ us) = Token.wordInFront c ts ++ us := by
  cases ts with
  | nil => exact absurd rfl h
  | cons t r => cases t <;> rfl

theorem wordInFront_ne_nil (c : Char) (ts : List Token) : Token.wordInFront c ts ≠ [] := by
  cases ts with
  | nil => exact List.cons_ne_nil _ _
  | cons t r => cases t <;> exact List.cons_ne_nil _ _

theorem tokens_ne_nil (c : Char) (r : List Char) : tokens (c :: r) ≠ [] := by
  rw [tokens]
  split
  · exact wordInFront_ne_nil c _
  · exact List.cons_ne_nil _ _

/-- Texts are read one after another if no word goes on from one to the other. -/
theorem tokens_append (h : Boundary bs) : tokens (as ++ bs) = tokens as ++ tokens bs := by
  induction as with
  | nil => rfl
  | cons c r ih =>
    rw [List.cons_append, tokens, tokens, ih]
    split
    · cases r with
      | cons d r => exact wordInFront_append c (tokens_ne_nil d r) _
      | nil =>
        cases bs with
        | nil => rfl
        | cons d bs =>
          rw [tokens_symbol (h d rfl) bs]
          rfl
    · rfl

theorem words_append (h : Boundary bs) : words (as ++ bs) = words as ++ words bs := by
  rw [words, tokens_append h, List.filterMap_append]
  rfl

theorem words_symbol (h : isWordChar c = false) (cs : List Char) : words (c :: cs) = words cs := by
  rw [words, tokens_symbol h]
  rfl

/-- What is no word character stands between words. -/
theorem words_between (h : isWordChar c = false) :
    words (as ++ c :: bs) = words as ++ words bs := by
  rw [words_append (boundary_cons h bs), words_symbol h]

theorem words_word (h : w ≠ []) (hw : ∀ c ∈ w, isWordChar c = true) : words w = [w] := by
  have htokens := tokens_word h hw boundary_nil
  rw [List.append_nil] at htokens
  rw [words, htokens]
  rfl

/-- What begins a text and has only word characters begins the first word. -/
theorem tokens_front {w cs : List Char} (h : w ≠ []) (hw : ∀ c ∈ w, isWordChar c = true)
    (hfront : w <+: cs) :
    ∃ v ts, tokens cs = .word v :: ts ∧ w <+: v := by
  induction w generalizing cs with
  | nil => exact absurd rfl h
  | cons c w ih =>
    obtain ⟨rest, rfl⟩ := hfront
    have hc := hw c List.mem_cons_self
    rw [List.cons_append, tokens, if_pos hc]
    cases w with
    | nil =>
      rw [List.nil_append]
      cases htokens : tokens rest with
      | nil => exact ⟨[c], [], rfl, List.prefix_rfl⟩
      | cons t ts =>
        cases t with
        | word v => exact ⟨c :: v, ts, rfl, ⟨v, rfl⟩⟩
        | symbol s => exact ⟨[c], _, rfl, List.prefix_rfl⟩
    | cons d w =>
      obtain ⟨v, ts, htokens, hv⟩ :=
        ih (List.cons_ne_nil d w) (fun x hx => hw x (List.mem_cons_of_mem c hx)) ⟨rest, rfl⟩
      rw [htokens]
      exact ⟨c :: v, ts, rfl, (List.prefix_cons_inj c).mpr hv⟩

/-- **What has only word characters stands inside one word**, wherever it stands in a text. -/
theorem exists_word_around {w cs : List Char} (h : w ≠ []) (hw : ∀ c ∈ w, isWordChar c = true)
    (hinside : w <:+: cs) :
    ∃ v ∈ words cs, w <:+: v := by
  induction cs with
  | nil => exact absurd (List.eq_nil_of_infix_nil hinside) h
  | cons c r ih =>
    rcases List.infix_cons_iff.mp hinside with hfront | hrest
    · obtain ⟨v, ts, htokens, hv⟩ := tokens_front h hw hfront
      exact ⟨v, by rw [words, htokens]; exact List.mem_cons_self, hv.isInfix⟩
    · obtain ⟨v, hv, hwv⟩ := ih hrest
      rw [words] at hv ⊢
      rw [tokens]
      split
      · -- the character goes in front of the first word, if the rest begins with one
        cases htokens : tokens r with
        | nil =>
          rw [htokens] at hv
          exact absurd hv List.not_mem_nil
        | cons t ts =>
          rw [htokens] at hv
          cases t with
          | symbol s => exact ⟨v, List.mem_cons_of_mem _ hv, hwv⟩
          | word u =>
            rcases List.mem_cons.mp hv with rfl | hv
            · exact ⟨c :: v, List.mem_cons_self, hwv.trans (List.suffix_cons c v).isInfix⟩
            · exact ⟨v, List.mem_cons_of_mem _ hv, hwv⟩
      · exact ⟨v, hv, hwv⟩

end

/-! ## Definite words -/

open Decimal (isDigit)

/-- Digits, with or without a point and digits behind it. -/
def isDecimal (w : List Char) : Bool :=
  match w.dropWhile isDigit with
  | [] => !w.isEmpty
  | '.' :: fraction => !fraction.isEmpty && fraction.all isDigit
  | _ => false

/-- A width and a height. -/
def isSize (w : List Char) : Bool :=
  match w.dropWhile isDigit with
  | 'x' :: height => w.head?.any isDigit && !height.isEmpty && height.all isDigit
  | _ => false

/-- A color by its three parts, in six hexadecimal digits. -/
def isColor (w : List Char) : Bool :=
  match w with
  | '0' :: 'x' :: digits => digits.length == 6 && digits.all fun c =>
    isDigit c || ('a' ≤ c && c ≤ 'f')
  | _ => false

/-- How numbers are printed that are none, or infinite. -/
def undefinedTexts : List (List Char) := [['N', 'a', 'N'], ['i', 'n', 'f']]

/-- A name, a decimal, a size or a color, in which nothing says that something is no number or
infinite. -/
def isDefinite (w : List Char) : Bool :=
  undefinedTexts.all (fun u => !decide (u <:+: w)) &&
    (w.head?.any Char.isAlpha || isDecimal w || isSize w || isColor w)

/-- A text all of whose words are definite. -/
def Definite (cs : List Char) : Prop := ∀ w ∈ words cs, isDefinite w = true

instance (cs : List Char) : Decidable (Definite cs) :=
  inferInstanceAs (Decidable (∀ w ∈ words cs, isDefinite w = true))

example : Definite "scale=1920:1080,gblur=sigma=1.5,color=c=0xff7a1a:s=480x270".toList := by decide

example : ¬Definite "zoompan=z='min(1+NaN*on,1.5)'".toList := by decide

section
variable {as bs w : List Char} {c : Char}

theorem definite_append (h : Boundary bs) : Definite (as ++ bs) ↔ Definite as ∧ Definite bs := by
  rw [Definite, words_append h]
  exact List.forall_mem_append

theorem definite_between (h : isWordChar c = false) :
    Definite (as ++ c :: bs) ↔ Definite as ∧ Definite bs := by
  rw [Definite, words_between h]
  exact List.forall_mem_append

theorem definite_symbol (h : isWordChar c = false) (cs : List Char) :
    Definite (c :: cs) ↔ Definite cs := by
  rw [Definite, words_symbol h]
  rfl

theorem definite_word (h : w ≠ []) (hw : ∀ c ∈ w, isWordChar c = true) :
    Definite w ↔ isDefinite w = true := by
  rw [Definite, words_word h hw]
  exact List.forall_mem_singleton

/-- **A definite text says nowhere** that something is no number or infinite. -/
theorem not_undefined (h : Definite as) : ∀ u ∈ undefinedTexts, ¬u <:+: as := by
  intro u hu hinside
  have hword : ∀ u ∈ undefinedTexts, u ≠ [] ∧ u.all isWordChar = true := by decide
  obtain ⟨v, hv, huv⟩ :=
    exists_word_around (hword u hu).1 (List.all_eq_true.mp (hword u hu).2) hinside
  have hclean := List.all_eq_true.mp (Bool.and_eq_true_iff.mp (h v hv)).1 u hu
  exact of_decide_eq_false (by simpa using hclean) huv

/-! ## Numbers -/

/-- Without these letters nothing says that something is no number or infinite. -/
theorem isDefinite_of_not_mem (hn : 'n' ∉ w) (hN : 'N' ∉ w)
    (hw : w.head?.any Char.isAlpha = true ∨ isDecimal w = true ∨ isSize w = true) :
    isDefinite w = true := by
  have hclean : undefinedTexts.all (fun u => !decide (u <:+: w)) = true := by
    have hletter : ∀ u ∈ undefinedTexts, 'n' ∈ u ∨ 'N' ∈ u := by decide
    refine List.all_eq_true.mpr fun u hu => ?_
    have hnot : ¬u <:+: w := fun hinside =>
      (hletter u hu).elim (fun h => hn (hinside.subset h)) fun h => hN (hinside.subset h)
    rw [decide_eq_false hnot]
    rfl
  rw [isDefinite, hclean]
  rcases hw with h | h | h <;> simp [h]

theorem isDecimal_digits {whole fraction : List Char} (hne : whole ≠ [])
    (hw : ∀ c ∈ whole, isDigit c = true) (hf : ∀ c ∈ fraction, isDigit c = true) :
    isDecimal (whole ++ Decimal.pointed fraction) = true := by
  rw [isDecimal, List.dropWhile_append_of_pos hw]
  by_cases h : fraction = []
  · rw [Decimal.pointed, if_pos h]
    simpa using hne
  · rw [Decimal.pointed, if_neg h, List.dropWhile_cons_of_neg (by decide)]
    simpa [h] using hf

/-- Digits with a point are one definite word. -/
theorem isDefinite_digits {whole fraction : List Char} (hne : whole ≠ [])
    (hw : ∀ c ∈ whole, isDigit c = true) (hf : ∀ c ∈ fraction, isDigit c = true) :
    isDefinite (whole ++ Decimal.pointed fraction) = true := by
  have hmem : ∀ c ∈ whole ++ Decimal.pointed fraction, isDigit c = true ∨ c = '.' := by
    intro c hc
    rcases List.mem_append.mp hc with hc | hc
    · exact .inl (hw c hc)
    · unfold Decimal.pointed at hc
      split at hc
      · exact absurd hc List.not_mem_nil
      · exact (List.mem_cons.mp hc).elim .inr fun hc => .inl (hf c hc)
  have hletter : ∀ c, isDigit c = false → c ≠ '.' → c ∉ whole ++ Decimal.pointed fraction :=
    fun c hdigit hpoint hc =>
    (hmem c hc).elim (fun h => by rw [hdigit] at h; exact Bool.false_ne_true h) hpoint
  exact isDefinite_of_not_mem (hletter 'n' (by decide) (by decide))
    (hletter 'N' (by decide) (by decide))
    (.inr (.inl (isDecimal_digits hne hw hf)))

/-- What has no mantissa is not finite. -/
theorem not_isFinite_of_parts {x : Float}
    (h : ∀ negative m e, Decimal.Parts.ofFloat x ≠ .finite negative m e) :
    Scalar.isFinite x = false := by
  refine Bool.eq_false_iff.mpr fun hx => ?_
  obtain ⟨negative, m, e, hparts⟩ := ofFloat_of_isFinite hx
  exact h negative m e hparts

/-- **A number is printed as one word** with or without a sign, which is definite if the number is
finite. -/
theorem numeral_cases (x : Float) : ∃ w, w ≠ [] ∧ (∀ c ∈ w, isWordChar c = true) ∧
    (Decimal.numeralChars x = w ∨ Decimal.numeralChars x = '-' :: w) ∧
        isDefinite w = Scalar.isFinite x := by
  cases hparts : Decimal.Parts.ofFloat x with
  | nan =>
    have hfinite := not_isFinite_of_parts (x := x) (by simp [hparts])
    refine ⟨['N', 'a', 'N'], by decide, List.all_eq_true.mp (by decide), .inl ?_, ?_⟩
    · rw [Decimal.numeralChars, Decimal.fixedChars, hparts]
      decide
    · rw [hfinite]
      rfl
  | infinite negative =>
    have hfinite := not_isFinite_of_parts (x := x) (by simp [hparts])
    refine ⟨['i', 'n', 'f'], by decide, List.all_eq_true.mp (by decide), ?_, ?_⟩
    · rw [Decimal.numeralChars, Decimal.fixedChars, hparts]
      cases negative
      · exact .inl (by decide)
      · exact .inr (by decide)
    · rw [hfinite]
      rfl
  | finite negative mantissa exponent =>
    obtain ⟨whole, fraction, hne, hw, hf, htext⟩ := Decimal.numeralChars_finite hparts
    have hread := readable_digits hne hw hf
    refine ⟨whole ++ Decimal.pointed fraction, ne_nil_of_isNumber hread.1, hread.2,
      htext.imp And.left And.left, ?_⟩
    rw [isFinite_of_ofFloat hparts]
    exact isDefinite_digits hne hw hf

/-- **The text of a number** is definite if the number is finite. -/
theorem definite_numeral (x : Float) :
    Definite (Decimal.numeralChars x) ↔ Scalar.isFinite x = true := by
  obtain ⟨w, hne, hw, htext, hdefinite⟩ := numeral_cases x
  rw [← hdefinite]
  rcases htext with htext | htext <;> rw [htext]
  · exact definite_word hne hw
  · rw [definite_symbol (by decide)]
    exact definite_word hne hw

theorem toList_toString (n : Nat) : (toString n).toList = Decimal.natDigits n := by
  rw [Nat.toString_eq_repr, Nat.toList_repr]
  rfl

theorem definite_natDigits (n : Nat) : Definite (Decimal.natDigits n) := by
  have hdigits :=
    @isDefinite_digits _ [] (Decimal.natDigits_ne_nil n) (fun _ => Decimal.isDigit_of_mem_natDigits)
    fun _ h => absurd h List.not_mem_nil
  rw [Decimal.pointed, if_pos rfl, List.append_nil] at hdigits
  exact (definite_word (Decimal.natDigits_ne_nil n) fun c hc =>
    isWordChar_of_isDigit (Decimal.isDigit_of_mem_natDigits hc)).mpr
    hdigits

/-- A size is one definite word. -/
theorem definite_size (width height : Nat) :
    Definite (Decimal.natDigits width ++ 'x' :: Decimal.natDigits height) := by
  have hdigits : ∀ {n : Nat} {c : Char}, c ∈ Decimal.natDigits n → isDigit c = true :=
    Decimal.isDigit_of_mem_natDigits
  have hmem : ∀ c ∈ Decimal.natDigits width ++ 'x' :: Decimal.natDigits height, isDigit c = true ∨
      c = 'x' := fun c hc =>
    (List.mem_append.mp hc).elim (fun h => .inl (hdigits h)) fun h =>
      (List.mem_cons.mp h).elim .inr fun h => .inl (hdigits h)
  have hletter : ∀ c, isDigit c = false → c ≠ 'x' →
      c ∉ Decimal.natDigits width ++ 'x' :: Decimal.natDigits height :=
    fun c hdigit hx hc =>
      (hmem c hc).elim (fun h => by rw [hdigit] at h; exact Bool.false_ne_true h) hx
  have hsize : isSize (Decimal.natDigits width ++ 'x' :: Decimal.natDigits height) = true := by
    obtain ⟨d, ds, hwidth⟩ := List.exists_cons_of_ne_nil (Decimal.natDigits_ne_nil width)
    have hd : isDigit d = true := hdigits (n := width) (by rw [hwidth]; exact List.mem_cons_self)
    rw [isSize, List.dropWhile_append_of_pos fun c hc => hdigits hc,
      List.dropWhile_cons_of_neg (by decide), hwidth]
    simp [hd, Decimal.natDigits_ne_nil]
    exact fun c hc => hdigits hc
  refine (definite_word (by simp) fun c hc => ?_).mpr
    (isDefinite_of_not_mem (hletter 'n' (by decide) (by decide))
      (hletter 'N' (by decide) (by decide)) (.inr (.inr hsize)))
  rcases hmem c hc with h | rfl
  · exact isWordChar_of_isDigit h
  · decide

end

/-! ## Values -/

/-- Letters, digits, points and signs, which separate nothing and quote nothing. -/
def isValueChar (c : Char) : Bool := isWordChar c || c == '-' || c == '_'

/-- A text of such characters. -/
def IsValue (cs : List Char) : Prop := cs.all isValueChar = true

instance (cs : List Char) : Decidable (IsValue cs) :=
  inferInstanceAs (Decidable (cs.all isValueChar = true))

theorem IsValue.append {as bs : List Char} (ha : IsValue as) (hb : IsValue bs) :
    IsValue (as ++ bs) := by
  rw [IsValue, List.all_append, ha, hb]
  rfl

theorem isValue_of_words {cs : List Char} (h : ∀ c ∈ cs, isWordChar c = true) : IsValue cs :=
  List.all_eq_true.mpr fun c hc => by rw [isValueChar, h c hc, Bool.true_or, Bool.true_or]

theorem isValue_toString (n : Nat) : IsValue (toString n).toList := by
  rw [toList_toString]
  exact isValue_of_words fun c hc => isWordChar_of_isDigit (Decimal.isDigit_of_mem_natDigits hc)

theorem isValue_size (width height : Nat) :
    IsValue (toString width ++ "x" ++ toString height).toList := by
  rw [String.toList_append, String.toList_append]
  exact ((isValue_toString width).append (by decide)).append (isValue_toString height)

theorem isValue_numeral (x : Float) : IsValue (Decimal.numeralChars x) := by
  obtain ⟨w, -, hw, htext, -⟩ := numeral_cases x
  rcases htext with htext | htext <;> rw [htext]
  · exact isValue_of_words hw
  · exact @IsValue.append ['-'] _ (by decide) (isValue_of_words hw)

theorem IsValue.ne {cs : List Char} (h : IsValue cs) {d : Char} (hd : isValueChar d = false) :
    ∀ c ∈ cs, c ≠ d := by
  rintro c hc rfl
  rw [List.all_eq_true.mp h c hc] at hd
  cases hd

/-! ## Expressions -/

namespace Expression

/-- The numbers in an expression, as they are written. -/
def literals : Expression → List (List Char)
  | .literal w => [w]
  | .var _ => []
  | .negate e | .apply _ e | .parenthesized e => e.literals
  | .add a b | .subtract a b | .multiply a b | .divide a b | .minimum a b =>
    a.literals ++ b.literals

/-- All numbers in an expression are words. -/
def Worded (e : Expression) : Prop := ∀ w ∈ e.literals, w ≠ [] ∧ ∀ c ∈ w, isWordChar c = true

end Expression

/-- Two expressions with a symbol between them. -/
theorem definite_joined {as bs : List Char} {v w : List (List Char)} {c : Char}
    (hc : isWordChar c = false) (ha : Definite as ↔ ∀ x ∈ v, isDefinite x = true)
    (hb : Definite bs ↔ ∀ x ∈ w, isDefinite x = true) :
    Definite (as ++ c :: bs) ↔ ∀ x ∈ v ++ w, isDefinite x = true := by
  rw [definite_between hc, ha, hb, List.forall_mem_append]

/-- An expression in brackets. -/
theorem definite_enclosed {cs : List Char} : Definite ('(' :: cs ++ [')']) ↔ Definite cs := by
  have hnil : Definite [] := List.forall_mem_nil _
  rw [List.cons_append, definite_symbol (by decide), definite_between (by decide),
    and_iff_left hnil]

/-- An expression in brackets behind a name. -/
theorem definite_called {name cs : List Char} (h : Definite name) :
    Definite (name ++ ('(' :: cs ++ [')'])) ↔ Definite cs := by
  have hboundary : Boundary ('(' :: cs ++ [')']) := boundary_cons (by decide) (cs ++ [')'])
  rw [definite_append hboundary, definite_enclosed, and_iff_right h]

/-- **The text of an expression is definite** if its numbers are. -/
theorem definite_chars : ∀ {e : Expression}, e.Worded →
    (Definite e.chars ↔ ∀ w ∈ e.literals, isDefinite w = true)
  | .literal w, h => by
    obtain ⟨hne, hw⟩ := h w List.mem_cons_self
    rw [Expression.literals, List.forall_mem_singleton]
    exact definite_word hne hw
  | .var v, _ => by
    refine iff_of_true ?_ (List.forall_mem_nil _)
    show Definite v.text
    cases v <;> decide
  | .negate e, h => (definite_symbol (by decide) e.chars).trans (definite_chars (e := e) h)
  | .add a b, h =>
    definite_joined (by decide) (definite_chars (e := a) (List.forall_mem_append.mp h).1)
    (definite_chars (List.forall_mem_append.mp h).2)
  | .subtract a b, h =>
    definite_joined (by decide) (definite_chars (e := a) (List.forall_mem_append.mp h).1)
    (definite_chars (List.forall_mem_append.mp h).2)
  | .multiply a b, h =>
    definite_joined (by decide) (definite_chars (e := a) (List.forall_mem_append.mp h).1)
    (definite_chars (List.forall_mem_append.mp h).2)
  | .divide a b, h =>
    definite_joined (by decide) (definite_chars (e := a) (List.forall_mem_append.mp h).1)
    (definite_chars (List.forall_mem_append.mp h).2)
  | .apply f e, h => by
    have hname : Definite f.text := by cases f <;> decide
    have hcall : (Expression.apply f e).chars = f.text ++ ('(' :: e.chars ++ [')']) := by
      rw [Expression.chars, List.append_assoc]
    rw [hcall, definite_called hname]
    exact definite_chars (e := e) h
  | .minimum a b, h => by
    have hname : Definite ['m', 'i', 'n'] := by decide
    have hcall : (Expression.minimum a b).chars = ['m', 'i', 'n'] ++
        ('(' :: (a.chars ++ ',' :: b.chars) ++ [')']) := by
      simp [Expression.chars]
    rw [hcall, definite_called hname]
    exact definite_joined (by decide) (definite_chars (List.forall_mem_append.mp h).1)
      (definite_chars (List.forall_mem_append.mp h).2)
  | .parenthesized e, h => definite_enclosed.trans (definite_chars (e := e) h)

/-- What expressions are written with. -/
def isExpressionChar (c : Char) : Bool :=
  isWordChar c || ['+', '-', '*', '/', '(', ')', ','].contains c

/-- The text of an expression of words has nothing else in it. -/
theorem all_isExpressionChar {e : Expression} (h : e.Worded) :
    e.chars.all isExpressionChar = true := by
  have hmin : ['m', 'i', 'n', '('].all isExpressionChar = true := by decide
  have hsymbol : ['+', '-', '*', '/', '(', ')', ','].all isExpressionChar = true := by decide
  simp only [List.all_cons, List.all_nil, Bool.and_true, Bool.and_eq_true] at hmin hsymbol
  induction e with
  | literal w =>
    exact List.all_eq_true.mpr fun c hc => by
      rw [isExpressionChar, (h w List.mem_cons_self).2 c hc, Bool.true_or]
  | var v => cases v <;> decide
  | negate e ih => simp [Expression.chars, ih h, hsymbol]
  | parenthesized e ih => simp [Expression.chars, ih h, hsymbol]
  | apply f e ih =>
    have hname : f.text.all isExpressionChar = true := by cases f <;> decide
    simp [Expression.chars, hname, ih h, hsymbol]
  | add a b iha ihb =>
    obtain ⟨ha, hb⟩ := List.forall_mem_append.mp h
    simp [Expression.chars, iha ha, ihb hb, hsymbol]
  | subtract a b iha ihb =>
    obtain ⟨ha, hb⟩ := List.forall_mem_append.mp h
    simp [Expression.chars, iha ha, ihb hb, hsymbol]
  | multiply a b iha ihb =>
    obtain ⟨ha, hb⟩ := List.forall_mem_append.mp h
    simp [Expression.chars, iha ha, ihb hb, hsymbol]
  | divide a b iha ihb =>
    obtain ⟨ha, hb⟩ := List.forall_mem_append.mp h
    simp [Expression.chars, iha ha, ihb hb, hsymbol]
  | minimum a b iha ihb =>
    obtain ⟨ha, hb⟩ := List.forall_mem_append.mp h
    simp [Expression.chars, iha ha, ihb hb, hsymbol, hmin]

/-! ## Motions -/

namespace MotionForm

open Expression

/-- The text of a number among those of an expression. -/
theorem literals_number (x : Float) :
    ∃ w, (number x).literals = [w] ∧ w ≠ [] ∧ (∀ c ∈ w, isWordChar c = true) ∧
    isDefinite w = Scalar.isFinite x := by
  obtain ⟨w, hne, hw, htext, hdefinite⟩ := numeral_cases x
  refine ⟨w, ?_, hne, hw, hdefinite⟩
  rw [number]
  rcases htext with htext | htext
  · rw [show Scalar.numeral x = w from htext]
    split
    · next r => exact absurd (hw '-' List.mem_cons_self) (by decide)
    · rfl
  · rw [show Scalar.numeral x = '-' :: w from htext]
    rfl

theorem literals_ofNat (n : Nat) : (ofNat n).literals = [Decimal.natDigits n] := rfl

/-- The expressions in the filter of a motion. -/
def expressions : MotionForm → List Expression
  | .still => []
  | .window zoom x y => [zoom, x, y]
  | .turn angle => [ofNat 1, ofNat 0, ofNat 0, angle]

/-- The numbers in the filter of a motion that depend on settings and lengths. -/
def numbers (m : Motion) (frames : Nat) (l : MotionLimits Float) : List Float :=
  let last : Float := Scalar.ofNat (lastIndex frames)
  match m with
  | .static => []
  | .kenburns => [l.kenburnsRate, l.maxZoom]
  | .zoomIn | .zoomOut => [l.maxZoom, last]
  | .panLeft | .panRight | .panUp | .panDown => [l.panZoom, last]
  | .rotateClockwise | .rotateCounter => [last]
  | .shake => [l.panZoom, l.reachX, l.reachY]

/-- What holds of all texts of natural numbers holds of all numbers in the filter of a motion if it
does of the others. -/
theorem forall_literals {P : List Char → Prop} (hnat : ∀ n, P (Decimal.natDigits n)) (m : Motion)
    (frames : Nat) (l : MotionLimits Float) :
    (∀ e ∈ (of m frames l).expressions, ∀ w ∈ e.literals, P w) ↔
      ∀ x ∈ numbers m frames l, ∀ w ∈ (number x).literals, P w := by
  cases m <;>
    simp only [of, expressions, numbers, literals, literals_ofNat, middle, windowSide, room, forth,
      back, phase, zoomShare, turns, List.forall_mem_cons, List.forall_mem_append, hnat, true_and,
      and_true, and_self_left,
      List.not_mem_nil, false_imp_iff, implies_true, List.append_nil, List.nil_append,
        List.append_assoc, List.cons_append]

theorem worded_of (m : Motion) (frames : Nat) (l : MotionLimits Float) :
    ∀ e ∈ (of m frames l).expressions, e.Worded := by
  refine (forall_literals (fun n => ?_) m frames l).mpr fun x _ w hw => ?_
  · exact ⟨Decimal.natDigits_ne_nil n, fun c hc =>
      isWordChar_of_isDigit (Decimal.isDigit_of_mem_natDigits hc)⟩
  · obtain ⟨v, hv, hne, hword, -⟩ := literals_number x
    obtain rfl := List.mem_singleton.mp (hv ▸ hw)
    exact ⟨hne, hword⟩

/-- **The expressions of a motion are definite** if its numbers are finite. -/
theorem definite_expressions (m : Motion) (frames : Nat) (l : MotionLimits Float) :
    (∀ e ∈ (of m frames l).expressions, Definite e.chars) ↔
        ∀ x ∈ numbers m frames l, Scalar.isFinite x = true := by
  have hdefinite := forall_literals (P := fun w => isDefinite w = true) (fun n =>
    (definite_word (Decimal.natDigits_ne_nil n) fun c hc =>
      isWordChar_of_isDigit (Decimal.isDigit_of_mem_natDigits hc)).mp
      (definite_natDigits n)) m frames l
  have hchars : (∀ e ∈ (of m frames l).expressions, Definite e.chars) ↔
      ∀ e ∈ (of m frames l).expressions, ∀ w ∈ e.literals, isDefinite w = true :=
    forall₂_congr fun e he => definite_chars (worded_of m frames l e he)
  rw [hchars, hdefinite]
  refine forall₂_congr fun x _ => ?_
  obtain ⟨w, hw, -, -, hfinite⟩ := literals_number x
  rw [hw, List.forall_mem_singleton, hfinite]

end MotionForm

end Slideshow.Graph
