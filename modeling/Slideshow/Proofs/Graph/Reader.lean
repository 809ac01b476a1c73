import Slideshow.Decimal.Reader
import Slideshow.Graph.Expression

/-!
# Reading filter expressions

The text of an expression, read as arithmetic: words and symbols first, then operands and operators
with the usual precedence, one token after another. What is still open is kept as what becomes of
the next factor and of the next term, so that reading a whole operand is one step of the same kind
as reading a word.

An expression can be read back when its text puts it together as it is: a sum is no factor and no
second term, a product is no second factor, and a sign stands in front of a factor.

Headlines:
* `parse` reads an expression; nothing in it knows how expressions are written.
* `tokens_chars`: the words and symbols of a written expression.
* **`reads`**: what reading an expression does, by its place among the operators.
* **`parse_chars`**: a readable expression is read back from its text.
-/

namespace Slideshow.Graph

/-! ## Words and symbols -/

inductive Symbol where
  | plus
  | minus
  | times
  | over
  | opening
  | closing
  | comma
  | unknown (c : Char)
deriving DecidableEq, Repr

def Symbol.ofChar (c : Char) : Symbol :=
  if c = '+' then .plus
  else if c = '-' then .minus
  else if c = '*' then .times
  else if c = '/' then .over
  else if c = '(' then .opening
  else if c = ')' then .closing
  else if c = ',' then .comma
  else .unknown c

/-- A piece of an expression's text. -/
inductive Token where
  | word (cs : List Char)
  | symbol (s : Symbol)
deriving DecidableEq, Repr

/-- Names and numbers are of letters, digits and points. -/
def isWordChar (c : Char) : Bool := c.isAlphanum || c == '.'

/-- Puts a character in front of the first word, or makes it a word of its own. -/
def Token.wordInFront (c : Char) : List Token → List Token
  | .word w :: ts => .word (c :: w) :: ts
  | ts => .word [c] :: ts

/-- The words and symbols of a text. -/
def tokens : List Char → List Token
  | [] => []
  | c :: r =>
    if isWordChar c then Token.wordInFront c (tokens r) else .symbol (.ofChar c) :: tokens r

/-! ## Operands and operators -/

/-- What becomes of the next factor and of the next term. -/
structure Pending where
  sum : Expression → Expression
  product : Expression → Expression

/-- Nothing is pending. -/
def Pending.none : Pending := ⟨id, id⟩

/-- What an open bracket is for. -/
inductive Bracket where
  | plain
  | call (f : Function)
  /-- The first argument of a minimum. -/
  | least
  /-- The second one, after the first. -/
  | leastOf (first : Expression)

/-- What a bracket makes of what is inside, if that is all it needs. -/
def Bracket.close : Bracket → Expression → Option Expression
  | .plain, e => some (.parenthesized e)
  | .call f, e => some (.apply f e)
  | .least, _ => Option.none
  | .leastOf first, e => some (.minimum first e)

/-- How far reading has come; the open brackets wait with what was pending in front of them. -/
inductive Reading where
  /-- An operand comes next. -/
  | operand (p : Pending) (waiting : List (Pending × Bracket))
  /-- A bracket comes next. -/
  | bracket (p : Pending) (b : Bracket) (waiting : List (Pending × Bracket))
  /-- The last term is complete, as long as no factor follows. -/
  | operator (sum : Expression → Expression) (term : Expression)
    (waiting : List (Pending × Bracket))

/-- Whether a word is a number. -/
def isNumber (w : List Char) : Bool :=
  w.head?.any Decimal.isDigit && (Decimal.readLiteral? w).isSome

def variableOf? (w : List Char) : Option Variable :=
  [Variable.outputFrame, .frame, .inputWidth, .inputHeight, .zoom, .pi].find? (·.text == w)

def functionOf? (w : List Char) : Option Function := [Function.sin, .cos].find? (·.text == w)

namespace Reading

/-- An operand has been read. -/
def complete (p : Pending) (e : Expression) (waiting : List (Pending × Bracket)) : Reading :=
  .operator p.sum (p.product e) waiting

def stepWord (p : Pending) (waiting : List (Pending × Bracket)) (w : List Char) : Option Reading :=
  if isNumber w then some (complete p (.literal w) waiting)
  else
    match variableOf? w, functionOf? w with
    | some v, _ => some (complete p (.var v) waiting)
    | none, some f => some (.bracket p (.call f) waiting)
    | none, none => if w = ['m', 'i', 'n'] then some (.bracket p .least waiting) else none

/-- Reads one token. -/
def step : Reading → Token → Option Reading
  | .operand p waiting, .word w => stepWord p waiting w
  | .operand p waiting, .symbol .minus => some (.operand ⟨p.sum, p.product ∘ .negate⟩ waiting)
  | .operand p waiting, .symbol .opening => some (.operand .none ((p, .plain) :: waiting))
  | .bracket p b waiting, .symbol .opening => some (.operand .none ((p, b) :: waiting))
  | .operator sum t waiting, .symbol .plus => some (.operand ⟨.add (sum t), id⟩ waiting)
  | .operator sum t waiting, .symbol .minus => some (.operand ⟨.subtract (sum t), id⟩ waiting)
  | .operator sum t waiting, .symbol .times => some (.operand ⟨sum, .multiply t⟩ waiting)
  | .operator sum t waiting, .symbol .over => some (.operand ⟨sum, .divide t⟩ waiting)
  | .operator sum t ((p, .least) :: waiting), .symbol .comma =>
    some (.operand .none ((p, .leastOf (sum t)) :: waiting))
  | .operator sum t ((p, b) :: waiting), .symbol .closing =>
    (b.close (sum t)).map fun e => complete p e waiting
  | _, _ => none

/-- Reads some tokens. -/
def feed (r : Reading) (ts : List Token) : Option Reading := ts.foldlM step r

end Reading

/-- Reads an expression. -/
def parse (cs : List Char) : Option Expression :=
  match Reading.feed (.operand .none []) (tokens cs) with
  | some (.operator sum t []) => some (sum t)
  | _ => none

/-! ## Expressions that can be read back -/

namespace Expression

/-- How tightly an expression is held together: a sum, a product, a signed factor, one operand. -/
def rank : Expression → Nat
  | .add _ _ | .subtract _ _ => 0
  | .multiply _ _ | .divide _ _ => 1
  | .negate _ => 2
  | _ => 3

/-- The text puts an expression together as it is. -/
def Readable : Expression → Prop
  | .literal w => isNumber w = true ∧ ∀ c ∈ w, isWordChar c = true
  | .var _ => True
  | .negate e => e.Readable ∧ 2 ≤ e.rank
  | .add a b | .subtract a b => a.Readable ∧ b.Readable ∧ 1 ≤ b.rank
  | .multiply a b | .divide a b => a.Readable ∧ 1 ≤ a.rank ∧ b.Readable ∧ 2 ≤ b.rank
  | .apply _ e | .parenthesized e => e.Readable
  | .minimum a b => a.Readable ∧ b.Readable

/-- Can be read back as a term of a sum. -/
structure IsTerm (e : Expression) : Prop where
  readable : e.Readable
  rank : 1 ≤ e.rank

/-- Can be read back as a factor of a product. -/
structure IsFactor (e : Expression) : Prop where
  readable : e.Readable
  rank : 2 ≤ e.rank

variable {a b e : Expression}

theorem IsFactor.isTerm (h : e.IsFactor) : e.IsTerm := ⟨h.readable, Nat.le_of_succ_le h.rank⟩

theorem isFactor_var (v : Variable) : (var v).IsFactor := ⟨trivial, Nat.le_succ 2⟩

theorem isFactor_parenthesized (h : e.Readable) : (parenthesized e).IsFactor := ⟨h, Nat.le_succ 2⟩

theorem isFactor_apply (f : Function) (h : e.Readable) : (apply f e).IsFactor := ⟨h, Nat.le_succ 2⟩

theorem isFactor_negate (h : e.IsFactor) : (negate e).IsFactor :=
  ⟨⟨h.readable, h.rank⟩, Nat.le_refl 2⟩

theorem IsTerm.multiply (ha : a.IsTerm) (hb : b.IsFactor) : (multiply a b).IsTerm :=
  ⟨⟨ha.readable, ha.rank, hb.readable, hb.rank⟩, Nat.le_refl 1⟩

theorem IsTerm.divide (ha : a.IsTerm) (hb : b.IsFactor) : (divide a b).IsTerm :=
  ⟨⟨ha.readable, ha.rank, hb.readable, hb.rank⟩, Nat.le_refl 1⟩

theorem Readable.add (ha : a.Readable) (hb : b.IsTerm) : (add a b).Readable :=
  ⟨ha, hb.readable, hb.rank⟩

theorem Readable.subtract (ha : a.Readable) (hb : b.IsTerm) : (subtract a b).Readable :=
  ⟨ha, hb.readable, hb.rank⟩

/-- The words and symbols of an expression. -/
def tokens : Expression → List Token
  | .literal w => [.word w]
  | .var v => [.word v.text]
  | .negate e => .symbol .minus :: e.tokens
  | .add a b => a.tokens ++ .symbol .plus :: b.tokens
  | .subtract a b => a.tokens ++ .symbol .minus :: b.tokens
  | .multiply a b => a.tokens ++ .symbol .times :: b.tokens
  | .divide a b => a.tokens ++ .symbol .over :: b.tokens
  | .apply f e => .word f.text :: .symbol .opening :: e.tokens ++ [.symbol .closing]
  | .minimum a b =>
    .word ['m', 'i', 'n'] :: .symbol .opening :: a.tokens ++ .symbol .comma :: b.tokens ++
      [.symbol .closing]
  | .parenthesized e => .symbol .opening :: e.tokens ++ [.symbol .closing]

end Expression

/-! ## The tokens of a text -/

/-- No word goes on here. -/
def Boundary (cs : List Char) : Prop := ∀ c ∈ cs.head?, isWordChar c = false

theorem boundary_nil : Boundary [] := fun _ h => absurd h (by simp)

theorem boundary_cons {c : Char} (h : isWordChar c = false) (r : List Char) : Boundary (c :: r) :=
  fun d hd => by
    obtain rfl : c = d := by simpa using hd
    exact h

theorem tokens_symbol {c : Char} (h : isWordChar c = false) (r : List Char) :
    tokens (c :: r) = .symbol (.ofChar c) :: tokens r := by
  rw [tokens, if_neg (by rw [h]; exact Bool.false_ne_true)]

theorem tokens_word : ∀ {w : List Char}, w ≠ [] → (∀ c ∈ w, isWordChar c = true) →
    ∀ {rest : List Char}, Boundary rest → tokens (w ++ rest) = .word w :: tokens rest
  | [], h, _, _, _ => absurd rfl h
  | [c], _, hw, rest, hrest => by
    rw [List.singleton_append, tokens, if_pos (hw c List.mem_cons_self)]
    cases rest with
    | nil => rfl
    | cons d r => rw [tokens_symbol (hrest d rfl) r]; rfl
  | c :: d :: w, _, hw, rest, hrest => by
    have ih := tokens_word (List.cons_ne_nil d w) (fun x hx => hw x (List.mem_cons_of_mem _ hx))
      hrest
    rw [List.cons_append, tokens, if_pos (hw c List.mem_cons_self), ih]
    rfl

theorem isWordChar_of_mem_variable (v : Variable) : ∀ c ∈ v.text, isWordChar c = true :=
  List.all_eq_true.mp (by cases v <;> decide)

theorem isWordChar_of_mem_function (f : Function) : ∀ c ∈ f.text, isWordChar c = true :=
  List.all_eq_true.mp (by cases f <;> decide)

theorem ne_nil_of_isNumber {w : List Char} (h : isNumber w = true) : w ≠ [] := by
  rintro rfl
  exact absurd h Bool.false_ne_true

/-- A text whose tokens are known, whatever follows it. -/
def Yields (cs : List Char) (ts : List Token) : Prop :=
  ∀ rest, Boundary rest → tokens (cs ++ rest) = ts ++ tokens rest

theorem Yields.word {w : List Char} (h : w ≠ []) (hw : ∀ c ∈ w, isWordChar c = true) :
    Yields w [.word w] := fun _ hrest => tokens_word h hw hrest

/-- Two texts with a symbol between them. -/
theorem Yields.joined {as bs : List Char} {ta tb : List Token} (ha : Yields as ta)
    (hb : Yields bs tb) {c : Char} (hc : isWordChar c = false) :
    Yields (as ++ c :: bs) (ta ++ .symbol (.ofChar c) :: tb) := fun rest hrest => by
  rw [List.append_assoc, List.cons_append, ha _ (boundary_cons hc _), tokens_symbol hc,
    hb rest hrest, List.append_assoc, List.cons_append]

/-- A text in brackets. -/
theorem Yields.enclosed {cs : List Char} {ts : List Token} (h : Yields cs ts) :
    Yields ('(' :: cs ++ [')']) (.symbol .opening :: ts ++ [.symbol .closing]) := fun rest _ => by
  rw [List.append_assoc, List.cons_append, tokens_symbol (by decide), List.singleton_append,
    h _ (boundary_cons (by decide) rest), tokens_symbol (by decide)]
  simp only [List.cons_append, List.append_assoc, List.nil_append]
  rfl

/-- A name in front of a bracket. -/
theorem Yields.called {w cs : List Char} {ts : List Token} (hw : Yields w [.word w])
    (h : Yields ('(' :: cs) ts) : Yields (w ++ '(' :: cs) (.word w :: ts) := fun rest hrest => by
  rw [List.append_assoc, List.cons_append, hw _ (boundary_cons (by decide) _),
    ← List.cons_append, h rest hrest]
  rfl

/-- **The words and symbols of a written expression.** -/
theorem yields_chars : ∀ {e : Expression}, e.Readable → Yields e.chars e.tokens
  | .literal _, h => .word (ne_nil_of_isNumber h.1) h.2
  | .var v, _ =>
    .word (by cases v <;> exact List.cons_ne_nil _ _) (isWordChar_of_mem_variable v)
  | .negate e, h => fun rest hrest => by
    rw [Expression.chars, List.cons_append, tokens_symbol (by decide), yields_chars h.1 rest hrest]
    rfl
  | .add _ _, h => (yields_chars h.1).joined (yields_chars h.2.1) (by decide)
  | .subtract _ _, h => (yields_chars h.1).joined (yields_chars h.2.1) (by decide)
  | .multiply _ _, h => (yields_chars h.1).joined (yields_chars h.2.2.1) (by decide)
  | .divide _ _, h => (yields_chars h.1).joined (yields_chars h.2.2.1) (by decide)
  | .apply f e, h => by
    have hword := Yields.word (w := f.text) (by cases f <;> exact List.cons_ne_nil _ _)
      (isWordChar_of_mem_function f)
    have hcall := hword.called (yields_chars (e := e) h).enclosed
    simpa [Expression.chars, Expression.tokens] using hcall
  | .minimum a b, h => by
    have hword := Yields.word (w := ['m', 'i', 'n']) (List.cons_ne_nil _ _)
      (List.all_eq_true.mp (by decide))
    have hargs := (yields_chars (e := a) h.1).joined (yields_chars (e := b) h.2) (c := ',')
      (by decide)
    have hcall := hword.called hargs.enclosed
    simpa [Expression.chars, Expression.tokens, Symbol.ofChar] using hcall
  | .parenthesized e, h => (yields_chars (e := e) h).enclosed

/-! ## Reading what has been written -/

namespace Reading

theorem feed_cons {r s : Reading} {t : Token} (h : step r t = some s) (ts : List Token) :
    feed r (t :: ts) = feed s ts := by
  rw [feed, List.foldlM_cons, h]
  rfl

theorem feed_append {r s : Reading} {ts : List Token} (h : feed r ts = some s)
    (us : List Token) : feed r (ts ++ us) = feed s us := by
  rw [feed, List.foldlM_append]
  show (feed r ts >>= fun s => feed s us) = _
  rw [h]
  rfl

theorem step_literal (p : Pending) (waiting : List (Pending × Bracket)) {w : List Char}
    (h : isNumber w = true) :
    step (.operand p waiting) (.word w) = some (complete p (.literal w) waiting) := if_pos h

theorem step_variable (p : Pending) (waiting : List (Pending × Bracket)) (v : Variable) :
    step (.operand p waiting) (.word v.text) = some (complete p (.var v) waiting) := by
  cases v <;> rfl

theorem step_function (p : Pending) (waiting : List (Pending × Bracket)) (f : Function) :
    step (.operand p waiting) (.word f.text) = some (.bracket p (.call f) waiting) := by
  cases f <;> rfl

end Reading

open Reading

/-- Where a factor can stand, reading it completes an operand. -/
def ReadsFactor (e : Expression) : Prop :=
  ∀ p waiting, feed (.operand p waiting) e.tokens = some (complete p e waiting)

/-- Where a term can stand, reading it makes it the last term. -/
def ReadsTerm (e : Expression) : Prop :=
  ∀ sum waiting, feed (.operand ⟨sum, id⟩ waiting) e.tokens = some (.operator sum e waiting)

/-- Where nothing is pending, reading an expression leaves its last term and what becomes of it. -/
def ReadsSum (e : Expression) : Prop :=
  ∀ waiting, ∃ sum t,
    feed (.operand .none waiting) e.tokens = some (.operator sum t waiting) ∧ sum t = e

theorem ReadsFactor.term {e : Expression} (h : ReadsFactor e) : ReadsTerm e :=
  fun sum waiting => h ⟨sum, id⟩ waiting

theorem ReadsTerm.sum {e : Expression} (h : ReadsTerm e) : ReadsSum e :=
  fun waiting => ⟨id, e, h id waiting, rfl⟩

/-- Two texts with an operator of the lowest rank between them. -/
theorem ReadsSum.additive {a b : Expression} (ha : ReadsSum a) (hb : ReadsTerm b) {s : Symbol}
    {op : Expression → Expression → Expression}
    (hs : ∀ sum t waiting, step (.operator sum t waiting) (.symbol s) =
      some (.operand ⟨op (sum t), id⟩ waiting)) (waiting : List (Pending × Bracket)) :
    ∃ sum t, feed (.operand .none waiting) (a.tokens ++ .symbol s :: b.tokens) =
      some (.operator sum t waiting) ∧ sum t = op a b := by
  obtain ⟨sum, t, hat, rfl⟩ := ha waiting
  refine ⟨op (sum t), b, ?_, rfl⟩
  rw [feed_append hat, feed_cons (hs sum t waiting)]
  exact hb (op (sum t)) waiting

theorem ReadsTerm.multiplicative {a b : Expression} (ha : ReadsTerm a) (hb : ReadsFactor b)
    {s : Symbol} {op : Expression → Expression → Expression}
    (hs : ∀ sum t waiting, step (.operator sum t waiting) (.symbol s) =
      some (.operand ⟨sum, op t⟩ waiting)) (sum : Expression → Expression)
    (waiting : List (Pending × Bracket)) :
    feed (.operand ⟨sum, id⟩ waiting) (a.tokens ++ .symbol s :: b.tokens) =
      some (.operator sum (op a b) waiting) := by
  rw [feed_append (ha sum waiting), feed_cons (hs sum a waiting)]
  exact hb ⟨sum, op a⟩ waiting

/-- What is inside a bracket is read up to its end. -/
theorem ReadsSum.closed {e e' : Expression} (h : ReadsSum e) {b : Bracket}
    (hb : b.close e = some e') (p : Pending) (waiting : List (Pending × Bracket)) :
    feed (.operand .none ((p, b) :: waiting)) (e.tokens ++ [.symbol .closing]) =
      some (complete p e' waiting) := by
  obtain ⟨sum, t, he, rfl⟩ := h ((p, b) :: waiting)
  rw [feed_append he, feed_cons (s := complete p e' waiting)]
  · rfl
  · show (b.close (sum t)).map (fun e => complete p e waiting) = _
    rw [hb]
    rfl

/-- **What reading an expression does**, by its place among the operators. -/
theorem reads : ∀ {e : Expression}, e.Readable →
    (2 ≤ e.rank → ReadsFactor e) ∧ (1 ≤ e.rank → ReadsTerm e) ∧ ReadsSum e := by
  -- who reads as a factor reads as a term, and who reads as a term reads as a sum
  have hfactor : ∀ {e : Expression}, ReadsFactor e →
      (2 ≤ e.rank → ReadsFactor e) ∧ (1 ≤ e.rank → ReadsTerm e) ∧ ReadsSum e :=
    fun h => ⟨fun _ => h, fun _ => h.term, h.term.sum⟩
  have hterm : ∀ {e : Expression}, e.rank = 1 → ReadsTerm e →
      (2 ≤ e.rank → ReadsFactor e) ∧ (1 ≤ e.rank → ReadsTerm e) ∧ ReadsSum e :=
    fun hr h => ⟨fun h2 => absurd h2 (by omega), fun _ => h, h.sum⟩
  have hsum : ∀ {e : Expression}, e.rank = 0 → ReadsSum e →
      (2 ≤ e.rank → ReadsFactor e) ∧ (1 ≤ e.rank → ReadsTerm e) ∧ ReadsSum e :=
    fun hr h => ⟨fun h2 => absurd h2 (by omega), fun h1 => absurd h1 (by omega), h⟩
  intro e
  induction e with
  | literal w => exact fun h => hfactor fun p waiting => feed_cons (step_literal p waiting h.1) []
  | var v => exact fun _ => hfactor fun p waiting => feed_cons (step_variable p waiting v) []
  | negate e ih => exact fun h => hfactor fun p waiting => (ih h.1).1 h.2 _ waiting
  | add a b iha ihb =>
    exact fun h => hsum rfl ((iha h.1).2.2.additive ((ihb h.2.1).2.1 h.2.2) fun _ _ _ => rfl)
  | subtract a b iha ihb =>
    exact fun h => hsum rfl ((iha h.1).2.2.additive ((ihb h.2.1).2.1 h.2.2) fun _ _ _ => rfl)
  | multiply a b iha ihb =>
    exact fun h => hterm rfl (((iha h.1).2.1 h.2.1).multiplicative ((ihb h.2.2.1).1 h.2.2.2)
      fun _ _ _ => rfl)
  | divide a b iha ihb =>
    exact fun h => hterm rfl (((iha h.1).2.1 h.2.1).multiplicative ((ihb h.2.2.1).1 h.2.2.2)
      fun _ _ _ => rfl)
  | apply f e ih =>
    exact fun h => hfactor fun p waiting => by
      show feed _ (.word f.text :: .symbol .opening :: (e.tokens ++ [.symbol .closing])) = _
      rw [feed_cons (step_function p waiting f)]
      exact (ih h).2.2.closed rfl p waiting
  | minimum a b iha ihb =>
    exact fun h => hfactor fun p waiting => by
      show feed (.operand .none ((p, .least) :: waiting))
        (a.tokens ++ .symbol .comma :: b.tokens ++ [.symbol .closing]) = _
      obtain ⟨sum, t, ha, rfl⟩ := (iha h.1).2.2 ((p, .least) :: waiting)
      rw [List.append_assoc, feed_append ha]
      exact (ihb h.2).2.2.closed rfl p waiting
  | parenthesized e ih => exact fun h => hfactor fun p waiting => (ih h).2.2.closed rfl p waiting

/-- **A readable expression is read back from its text.** -/
theorem parse_chars {e : Expression} (h : e.Readable) : parse e.chars = some e := by
  have htokens := yields_chars h [] boundary_nil
  obtain ⟨sum, t, hfeed, rfl⟩ := (reads h).2.2 []
  rw [List.append_nil, tokens, List.append_nil] at htokens
  rw [parse, htokens, hfeed]

/-- The sign of a factor is read before the operators around it. -/
example : parse "1+-2*on".toList =
    some (.add (.literal ['1']) (.multiply (.negate (.literal ['2'])) (.var .outputFrame))) := by
  decide

end Slideshow.Graph
