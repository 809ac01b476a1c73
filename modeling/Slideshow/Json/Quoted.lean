import Slideshow.Decimal.Reader

/-!
# JSON strings

Strings between double quotes. Quotes, backslashes and the characters below the space are escaped;
all others stand for themselves.

* `quote` writes a string.
* `scan` reads up to the closing quote, and `join?` puts pairs of UTF-16 units together.
* `hole` stands for bytes that are no text.
-/

namespace Slideshow.Json

def hexDigit (n : Nat) : Char :=
  if n < 10 then Char.ofNat ('0'.toNat + n) else Char.ofNat ('a'.toNat + (n - 10))

/-- The value of a hexadecimal digit. -/
def hexValue? (c : Char) : Option Nat :=
  if '0' ≤ c && c ≤ '9' then some (c.toNat - '0'.toNat)
  else if 'a' ≤ c && c ≤ 'f' then some (c.toNat - 'a'.toNat + 10)
  else if 'A' ≤ c && c ≤ 'F' then some (c.toNat - 'A'.toNat + 10)
  else none

/-- How one character is written inside quotes. -/
def escape (c : Char) : List Char :=
  if c == '"' then ['\\', '"']
  else if c == '\\' then ['\\', '\\']
  else if c == '\n' then ['\\', 'n']
  else if c == '\r' then ['\\', 'r']
  else if c == '\t' then ['\\', 't']
  else if c == '\x08' then ['\\', 'b']
  else if c == '\x0c' then ['\\', 'f']
  else if c.toNat < 0x20 then
    ['\\', 'u', '0', '0', hexDigit (c.toNat / 16), hexDigit (c.toNat % 16)]
  else [c]

/-- A string between quotes. -/
def quote (cs : List Char) : List Char := '"' :: cs.flatMap escape ++ ['"']

/-- A piece of a string as it is written: a character, or a UTF-16 unit given by its number. -/
inductive Piece where
  | char (c : Char)
  | unit (n : Nat)
deriving DecidableEq, Repr

/-- The character that a one-letter escape stands for. -/
def escaped? (c : Char) : Option Char :=
  if c == '"' || c == '\\' || c == '/' then some c
  else if c == 'b' then some '\x08'
  else if c == 'f' then some '\x0c'
  else if c == 'n' then some '\n'
  else if c == 'r' then some '\r'
  else if c == 't' then some '\t'
  else none

/-- The number that four hexadecimal digits write. -/
def unit? (a b c d : Char) : Option Nat := do
  return 4096 * (← hexValue? a) + 256 * (← hexValue? b) + 16 * (← hexValue? c) + (← hexValue? d)

/-- Reads the pieces of a string up to its closing quote, with the rest of the text. -/
def scan : List Char → Option (List Piece × List Char)
  | [] => none
  | '"' :: r => some ([], r)
  | '\\' :: 'u' :: a :: b :: c :: d :: r => do
    let n ← unit? a b c d
    let (ps, rest) ← scan r
    return (.unit n :: ps, rest)
  | '\\' :: c :: r => do
    let e ← escaped? c
    let (ps, rest) ← scan r
    return (.char e :: ps, rest)
  | c :: r =>
    if c == '\\' || c.toNat < 0x20 then none
    else do
      let (ps, rest) ← scan r
      return (.char c :: ps, rest)

/-- Puts pairs of units together; `none` when half of a pair stands alone. -/
def join? : List Piece → Option (List Char)
  | [] => some []
  | .char c :: r => (join? r).map (c :: ·)
  | .unit n :: .unit m :: r =>
    if 0xD800 ≤ n && n < 0xDC00 then
      if 0xDC00 ≤ m && m < 0xE000 then
        (join? r).map (Char.ofNat (0x10000 + (n - 0xD800) * 0x400 + (m - 0xDC00)) :: ·)
      else none
    else if 0xDC00 ≤ n && n < 0xE000 then none
    else (join? (.unit m :: r)).map (Char.ofNat n :: ·)
  | .unit n :: r => if 0xD800 ≤ n && n < 0xE000 then none else (join? r).map (Char.ofNat n :: ·)

/-- What is read in place of bytes that are no text. In a string it is half a pair, which the
letters on both sides keep from being joined, so that the string can be skipped but not read;
anywhere else it is refused. -/
def hole : List Char := ['x', '\\', 'u', 'd', '8', '0', '0', 'x']

end Slideshow.Json
