/-!
# Filter expressions

The arithmetic inside filters, which is evaluated for every frame. An expression is written as it
stands: the parentheses in the text are those of the expression.

* `Expression.text` writes an expression.
-/

namespace Slideshow.Graph

/-- What a filter knows while it evaluates an expression. -/
inductive Variable where
  /-- The frame, as the zooming filter counts it. -/
  | outputFrame
  /-- The frame, as the rotating filter counts it. -/
  | frame
  | inputWidth
  | inputHeight
  /-- The zoom of the same frame. -/
  | zoom
  /-- The circle number. -/
  | pi
deriving DecidableEq, Repr

def Variable.text : Variable → List Char
  | .outputFrame => ['o', 'n']
  | .frame => ['n']
  | .inputWidth => ['i', 'w']
  | .inputHeight => ['i', 'h']
  | .zoom => ['z', 'o', 'o', 'm']
  | .pi => ['P', 'I']

/-- The functions of expressions. -/
inductive Function where
  | sin
  | cos
deriving DecidableEq, Repr

def Function.text : Function → List Char
  | .sin => ['s', 'i', 'n']
  | .cos => ['c', 'o', 's']

/-- An expression of a filter. -/
inductive Expression where
  /-- A number, by its text. -/
  | literal (text : List Char)
  | var (v : Variable)
  | negate (e : Expression)
  | add (a b : Expression)
  | subtract (a b : Expression)
  | multiply (a b : Expression)
  | divide (a b : Expression)
  | apply (f : Function) (e : Expression)
  | minimum (a b : Expression)
  | parenthesized (e : Expression)
deriving DecidableEq, Repr

namespace Expression

def chars : Expression → List Char
  | .literal text => text
  | .var v => v.text
  | .negate e => '-' :: e.chars
  | .add a b => a.chars ++ '+' :: b.chars
  | .subtract a b => a.chars ++ '-' :: b.chars
  | .multiply a b => a.chars ++ '*' :: b.chars
  | .divide a b => a.chars ++ '/' :: b.chars
  | .apply f e => f.text ++ '(' :: e.chars ++ [')']
  | .minimum a b => ['m', 'i', 'n', '('] ++ a.chars ++ ',' :: b.chars ++ [')']
  | .parenthesized e => '(' :: e.chars ++ [')']

def text (e : Expression) : String := String.ofList e.chars

/-- A natural number. -/
def ofNat (n : Nat) : Expression := .literal (Nat.toDigits 10 n)

end Expression

end Slideshow.Graph
