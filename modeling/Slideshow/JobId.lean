import Slideshow.Json.Quoted

/-!
# Job identifiers

A job is named by 128 bits, written as 32 hexadecimal digits in five groups.

* `text` writes an identifier, `short` its first eight digits.
* `parse?` reads it grouped, ungrouped, in braces or after `urn:uuid:` (`from_str`).
-/

namespace Slideshow

/-- The name of a render job and of its ledger entry. -/
structure JobId where
  bits : BitVec 128
deriving DecidableEq, Repr

namespace JobId

/-- The `i`-th of the 32 hexadecimal digits, from the left. -/
def digit (id : JobId) (i : Nat) : Char := Json.hexDigit (id.bits.toNat / Nat.pow 16 (31 - i) % 16)

def digits (id : JobId) : List Char := (List.range 32).map id.digit

/-- Groups of 8, 4, 4, 4 and 12 digits. -/
def grouped (ds : List Char) : List Char :=
  ds.take 8 ++ '-' :: (ds.drop 8).take 4 ++ '-' :: (ds.drop 12).take 4 ++
    '-' :: (ds.drop 16).take 4 ++ '-' :: ds.drop 20

def text (id : JobId) : String := String.ofList (grouped id.digits)

/-- The first eight digits, which name the output file. -/
def short (id : JobId) : String := String.ofList (id.digits.take 8)

/-- The random identifier with the lowest 122 bits of a number: the thirteenth digit is 4, and the
seventeenth is one of 8, 9, a and b. -/
def ofRandom (n : Nat) : JobId :=
  let power (k : Nat) := Nat.pow 2 k
  ⟨.ofNat 128
    (n / power 74 % power 48 * power 80 + 4 * power 76 + n / power 62 % power 12 * power 64 + 2 *
      power 62 +
    n % power 62)⟩

/-- The identifier that 32 hexadecimal digits write. -/
def ofDigits? (ds : List Char) : Option JobId := do
  if ds.length != 32 then none
  let n ← ds.foldlM (fun n c => (Json.hexValue? c).map (16 * n + ·)) 0
  return ⟨BitVec.ofNat 128 n⟩

/-- The identifier that five groups of digits write. -/
def ofGroups? (cs : List Char) : Option JobId :=
  let ds := cs.filter (· != '-')
  if cs.length == 36 && ds.length == 32 && [8, 13, 18, 23].all (fun i => cs[i]? == some '-') then
    ofDigits? ds
  else none

/-- Reads an identifier in any of its forms; letters may be capitals. -/
def parse? (s : String) : Option JobId :=
  let cs := s.toList
  if cs.length == 32 then ofDigits? cs
  else if cs.length == 36 then ofGroups? cs
  else if cs.length == 38 then
    match cs, cs.getLast? with
    | '\x7b' :: r, some '\x7d' => ofGroups? r.dropLast
    | _, _ => none
  else if cs.length == 45 then
    if (cs.take 9).map Char.toLower == "urn:uuid:".toList then ofGroups? (cs.drop 9) else none
  else none

end JobId

end Slideshow
