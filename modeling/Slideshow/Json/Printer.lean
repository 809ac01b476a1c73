import Slideshow.Decimal.Shortest
import Slideshow.Json.Quoted
import Slideshow.Document

/-!
# Writing JSON

A document on one line without blanks, or on many lines with two blanks a level.

* `compact` and `pretty` write a document; fields keep their order.
* A number that is not finite is written as `null`.
-/

namespace Slideshow.Json

def nullText : List Char := ['n', 'u', 'l', 'l']

/-- The text of an integer. -/
def integerText (n : Int) : List Char :=
  if n < 0 then '-' :: Decimal.natDigits n.natAbs else Decimal.natDigits n.natAbs

/-- The text of a value without parts. -/
def scalarText : Document → List Char
  | .bool true => ['t', 'r', 'u', 'e']
  | .bool false => ['f', 'a', 'l', 's', 'e']
  | .integer n => integerText n
  | .float x => (Decimal.jsonNumber? x).getD nullText
  | .string s => quote s.toList
  | _ => nullText

mutual

/-- A document on one line. -/
def compactChars : Document → List Char
  | .list items => '[' :: compactItems items ++ [']']
  | .openList items => '[' :: compactItems items ++ [']']
  | .table fields => '\x7b' :: compactFields fields ++ ['\x7d']
  | d => scalarText d

def compactItems : List Document → List Char
  | [] => []
  | [d] => compactChars d
  | d :: e :: r => compactChars d ++ ',' :: compactItems (e :: r)

def compactFields : List (String × Document) → List Char
  | [] => []
  | [(k, d)] => quote k.toList ++ ':' :: compactChars d
  | (k, d) :: e :: r => quote k.toList ++ ':' :: compactChars d ++ ',' :: compactFields (e :: r)

end

def compact (d : Document) : String := String.ofList (compactChars d)

/-- A line feed and the blanks of a level. -/
def newline (level : Nat) : List Char := '\n' :: List.replicate (2 * level) ' '

mutual

/-- A document on many lines, whose own lines stand at `level`. -/
def prettyChars (level : Nat) : Document → List Char
  | .list [] => ['[', ']']
  | .openList [] => ['[', ']']
  | .table [] => ['\x7b', '\x7d']
  | .list (d :: r) => '[' :: prettyItems (level + 1) (d :: r) ++ newline level ++ [']']
  | .openList (d :: r) => '[' :: prettyItems (level + 1) (d :: r) ++ newline level ++ [']']
  | .table (f :: r) => '\x7b' :: prettyFields (level + 1) (f :: r) ++ newline level ++ ['\x7d']
  | d => scalarText d

def prettyItems (level : Nat) : List Document → List Char
  | [] => []
  | [d] => newline level ++ prettyChars level d
  | d :: e :: r => newline level ++ prettyChars level d ++ ',' :: prettyItems level (e :: r)

def prettyFields (level : Nat) : List (String × Document) → List Char
  | [] => []
  | [(k, d)] => newline level ++ quote k.toList ++ ':' :: ' ' :: prettyChars level d
  | (k, d) :: e :: r =>
    newline level ++ quote k.toList ++ ':' :: ' ' :: prettyChars level d ++
      ',' :: prettyFields level (e :: r)

end

def pretty (d : Document) : String := String.ofList (prettyChars 0 d)

end Slideshow.Json
