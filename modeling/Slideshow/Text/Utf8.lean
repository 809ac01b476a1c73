/-!
# Bytes as text

Characters written as UTF-8 bytes, and bytes read as text in two ways.

* `decodeWith` puts something in place of every longest ill-formed piece, `decodeLossy` the
  character U+FFFD.
* `decode?` refuses ill-formed bytes.
-/

namespace Slideshow.Text

/-- The bytes of one character. -/
def encodeChar (c : Char) : List UInt8 :=
  let n := c.toNat
  let tail (shift : Nat) : UInt8 := UInt8.ofNat (0x80 + (n >>> shift) % 0x40)
  if n < 0x80 then [UInt8.ofNat n]
  else if n < 0x800 then [UInt8.ofNat (0xC0 + (n >>> 6)), tail 0]
  else if n < 0x10000 then [UInt8.ofNat (0xE0 + (n >>> 12)), tail 6, tail 0]
  else [UInt8.ofNat (0xF0 + (n >>> 18)), tail 12, tail 6, tail 0]

/-- The bytes of a text. -/
def encode (s : String) : List UInt8 := s.toList.flatMap encodeChar

/-- How many bytes follow a lead byte, with the range of the first of them. -/
def follow (lead : Nat) : Option (Nat × Nat × Nat) :=
  if lead < 0x80 then some (0, 0, 0)
  else if lead < 0xC2 then none
  else if lead < 0xE0 then some (1, 0x80, 0xBF)
  else if lead == 0xE0 then some (2, 0xA0, 0xBF)
  else if lead == 0xED then some (2, 0x80, 0x9F)
  else if lead < 0xF0 then some (2, 0x80, 0xBF)
  else if lead == 0xF0 then some (3, 0x90, 0xBF)
  else if lead < 0xF4 then some (3, 0x80, 0xBF)
  else if lead == 0xF4 then some (3, 0x80, 0x8F)
  else none

/-- Reads up to `count` further bytes, the first between `lo` and `hi`, into `acc`: the code point
when all are there, and what is left unread. -/
def readTail : Nat → Nat → Nat → Nat → List UInt8 → Option Nat × List UInt8
  | 0, _, _, acc, r => (some acc, r)
  | _ + 1, _, _, _, [] => (none, [])
  | k + 1, lo, hi, acc, b :: r =>
    if lo ≤ b.toNat && b.toNat ≤ hi then
      readTail k 0x80 0xBF (acc * 0x40 + b.toNat % 0x40) r
    else (none, b :: r)

/-- The bits that a lead byte adds to a code point of `count + 1` bytes. -/
def leadBits (count lead : Nat) : Nat :=
  if count == 0 then lead
  else if count == 1 then lead % 0x20
  else if count == 2 then lead % 0x10
  else lead % 0x08

/-- The first character of a non-empty list of bytes, `none` for an ill-formed piece, with the
rest. -/
def nextChar (b : UInt8) (r : List UInt8) : Option Char × List UInt8 :=
  match follow b.toNat with
  | none => (none, r)
  | some (count, lo, hi) =>
    match readTail count lo hi (leadBits count b.toNat) r with
    | (some n, rest) => (some (Char.ofNat n), rest)
    | (none, rest) => (none, rest)

theorem readTail_length (k lo hi acc : Nat) (r : List UInt8) :
    (readTail k lo hi acc r).2.length ≤ r.length := by
  fun_induction readTail k lo hi acc r with
  | case1 => simp
  | case2 => simp
  | case3 _ _ _ _ b r _ ih => simp only [List.length_cons]; omega
  | case4 => simp

theorem nextChar_length (b : UInt8) (r : List UInt8) : (nextChar b r).2.length ≤ r.length := by
  unfold nextChar
  split
  · simp
  · rename_i count lo hi _
    have h := readTail_length count lo hi (leadBits count b.toNat) r
    split <;> simp_all

/-- Reads bytes as text, with something in place of every longest ill-formed piece. -/
def decodeWith (hole : List Char) (bytes : List UInt8) : List Char :=
  match bytes with
  | [] => []
  | b :: r =>
    match (nextChar b r).1 with
    | some c => c :: decodeWith hole (nextChar b r).2
    | none => hole ++ decodeWith hole (nextChar b r).2
termination_by bytes.length
decreasing_by all_goals have := nextChar_length b r; simp only [List.length_cons]; omega

/-- Reads bytes as text, with one U+FFFD for every longest ill-formed piece. -/
def decodeLossy (bytes : List UInt8) : List Char := decodeWith ['\uFFFD'] bytes

/-- Reads bytes as text when they are well-formed. -/
def decode? (bytes : List UInt8) : Option (List Char) :=
  match bytes with
  | [] => some []
  | b :: r =>
    match (nextChar b r).1 with
    | none => none
    | some c => (decode? (nextChar b r).2).map (c :: ·)
termination_by bytes.length
decreasing_by have := nextChar_length b r; simp only [List.length_cons]; omega

end Slideshow.Text
