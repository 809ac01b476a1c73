import Slideshow.Text.Unprintable

/-!
# Texts shown in messages

A text between double quotes on one line: quotes, backslashes and line ends are escaped, and what
has no glyph is written as its number in braces.

* `escaped` shows a text.
-/

namespace Slideshow.Text

/-- The hexadecimal digits of a number. -/
def hexDigits (n : Nat) : List Char := (Nat.toDigits 16 n)

/-- One character of a shown text. -/
def escapedChar (c : Char) : List Char :=
  match c with
  | '\x00' => ['\\', '0']
  | '\t' => ['\\', 't']
  | '\r' => ['\\', 'r']
  | '\n' => ['\\', 'n']
  | '\\' => ['\\', '\\']
  | '"' => ['\\', '"']
  | c => if isUnprintable c then ['\\', 'u', '\x7b'] ++ hexDigits c.toNat ++ ['\x7d'] else [c]

/-- A text between quotes. -/
def escaped (s : String) : String := String.ofList ('"' :: s.toList.flatMap escapedChar ++ ['"'])

end Slideshow.Text
