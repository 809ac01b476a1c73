import Slideshow.Json.Quoted

/-!
# TOML strings

The four kinds of strings: with escapes or literal, on one line or on many. A line feed right after
the opening of a string on many lines is dropped, and a carriage return before a line feed too.

* `basic?`, `literal?`, `multiBasic?`, `multiLiteral?` read up to the closing quotes.
-/

namespace Slideshow.Toml

open Json (hexValue?)

/-- Characters that may stand in a comment or a literal string. -/
def isPlain (c : Char) : Bool := c == '\t' || (0x20 ≤ c.toNat && c.toNat != 0x7F)

/-- The character that a one-letter escape stands for. -/
def escaped? (c : Char) : Option Char :=
  if c == '"' || c == '\\' then some c
  else if c == 'b' then some '\x08'
  else if c == 'f' then some '\x0c'
  else if c == 'n' then some '\n'
  else if c == 'r' then some '\r'
  else if c == 't' then some '\t'
  else none

/-- The character whose code the hexadecimal digits write. -/
def scalar? (ds : List Char) : Option Char := do
  let n ← ds.foldlM (fun n c => (hexValue? c).map (16 * n + ·)) 0
  if n < 0xD800 || (0xDFFF < n && n < 0x110000) then some (Char.ofNat n) else none

/-- The line ends, blanks and further line ends that a backslash at the end of a line joins. -/
def skipBreaks : List Char → List Char
  | '\r' :: '\n' :: r => skipBreaks r
  | c :: r => if c == ' ' || c == '\t' || c == '\n' then skipBreaks r else c :: r
  | [] => []

/-- Whether only blanks stand before the end of the line. -/
def atLineEnd : List Char → Bool
  | '\n' :: _ => true
  | '\r' :: '\n' :: _ => true
  | c :: r => (c == ' ' || c == '\t') && atLineEnd r
  | [] => false

/-- Reads the escape after a backslash. -/
def escape? : List Char → Option (Char × List Char)
  | 'u' :: a :: b :: c :: d :: r => (scalar? [a, b, c, d]).map (·, r)
  | 'U' :: a :: b :: c :: d :: e :: f :: g :: h :: r =>
    (scalar? [a, b, c, d, e, f, g, h]).map (·, r)
  | c :: r => (escaped? c).map (·, r)
  | [] => none

/-- Reads a string with escapes on one line, after its opening quote. -/
def basic? : Nat → List Char → Option (List Char × List Char)
  | 0, _ => none
  | fuel + 1, cs =>
    match cs with
    | [] => none
    | '"' :: r => some ([], r)
    | '\\' :: r => do
      let (c, r) ← escape? r
      let (s, rest) ← basic? fuel r
      return (c :: s, rest)
    | c :: r =>
      if isPlain c then do
        let (s, rest) ← basic? fuel r
        return (c :: s, rest)
      else none

/-- Reads a literal string on one line, after its opening quote. -/
def literal? : List Char → Option (List Char × List Char)
  | [] => none
  | '\'' :: r => some ([], r)
  | c :: r =>
    if isPlain c then do
      let (s, rest) ← literal? r
      return (c :: s, rest)
    else none

/-- How many of the first five characters are this quote, counted from the head. -/
def quoteRun (q : Char) (cs : List Char) : Nat := ((cs.take 5).takeWhile (· == q)).length

/-- Reads a string on many lines, after its opening: three to five quotes end it, the last three of
which close it. Escapes are read when `escapes` is set. -/
def multi? (q : Char) (escapes : Bool) : Nat → List Char → Option (List Char × List Char)
  | 0, _ => none
  | fuel + 1, cs =>
    let run := quoteRun q cs
    if run ≥ 3 then some (List.replicate (run - 3) q, cs.drop run)
    else
      match cs with
      | [] => none
      | '\r' :: '\n' :: r => do
        let (s, rest) ← multi? q escapes fuel r
        return ('\n' :: s, rest)
      | c :: r =>
        if escapes && c == '\\' then
          if atLineEnd r then multi? q escapes fuel (skipBreaks r)
          else do
            let (c, r) ← escape? r
            let (s, rest) ← multi? q escapes fuel r
            return (c :: s, rest)
        else if isPlain c || c == '\n' then do
          let (s, rest) ← multi? q escapes fuel r
          return (c :: s, rest)
        else none

/-- The text after one line end at its head, if there is one. -/
def dropLineEnd : List Char → List Char
  | '\n' :: r => r
  | '\r' :: '\n' :: r => r
  | cs => cs

/-- Reads a string that starts with a quote. -/
def string? (cs : List Char) : Option (List Char × List Char) :=
  match cs with
  | '"' :: '"' :: '"' :: r => multi? '"' true (r.length + 1) (dropLineEnd r)
  | '\'' :: '\'' :: '\'' :: r => multi? '\'' false (r.length + 1) (dropLineEnd r)
  | '"' :: r => basic? (r.length + 1) r
  | '\'' :: r => literal? r
  | _ => none

end Slideshow.Toml
