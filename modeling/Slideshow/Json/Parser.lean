import Slideshow.Json.Number
import Slideshow.Json.Quoted

/-!
# Reading JSON

One value from a text, with blanks around it and nothing else.

* `parse?` reads a text; what it makes of repeated fields is left to the records that read them.
-/

namespace Slideshow.Json

def isSpace (c : Char) : Bool := c == ' ' || c == '\n' || c == '\t' || c == '\r'

def skipSpace (cs : List Char) : List Char := cs.dropWhile isSpace

/-- The text after a given word at its head. -/
def after? : List Char → List Char → Option (List Char)
  | [], cs => some cs
  | _ :: _, [] => none
  | w :: ws, c :: cs => if w == c then after? ws cs else none

/-- The string that pieces stand for. -/
def stringOfPieces (ps : List Piece) : Document :=
  match join? ps with
  | some cs => .string (String.ofList cs)
  | none => .unreadable

/-- The table of some fields, unless one has a name that is none. -/
def tableOfFields (fs : List (Option (List Char) × Document)) : Document :=
  match fs.mapM fun f => f.1.map fun name => (String.ofList name, f.2) with
  | some fields => .table fields
  | none => .unreadable

mutual

/-- Reads one value at the head of a text; `fuel` bounds the values read. -/
def value? [FloatReader] : Nat → List Char → Option (Document × List Char)
  | 0, _ => none
  | fuel + 1, cs =>
    match skipSpace cs with
    | [] => none
    | '"' :: r => (scan r).map fun p => (stringOfPieces p.1, p.2)
    | '[' :: r =>
      match skipSpace r with
      | ']' :: rest => some (.list [], rest)
      | _ => (items? fuel r).map fun p => (.list p.1, p.2)
    | '\x7b' :: r =>
      match skipSpace r with
      | '\x7d' :: rest => some (.table [], rest)
      | _ => (fields? fuel r).map fun p => (tableOfFields p.1, p.2)
    | 'n' :: r => (after? ['u', 'l', 'l'] r).map fun rest => (.null, rest)
    | 't' :: r => (after? ['r', 'u', 'e'] r).map fun rest => (.bool true, rest)
    | 'f' :: r => (after? ['a', 'l', 's', 'e'] r).map fun rest => (.bool false, rest)
    | c :: r => (readNumber? (c :: r)).map fun p => (p.1.document, p.2)

/-- Reads the items of a list that is not empty, with its closing bracket. -/
def items? [FloatReader] : Nat → List Char → Option (List Document × List Char)
  | 0, _ => none
  | fuel + 1, cs => do
    let (d, r) ← value? fuel cs
    match skipSpace r with
    | ']' :: rest => some ([d], rest)
    | ',' :: rest =>
      let (ds, rest) ← items? fuel rest
      some (d :: ds, rest)
    | _ => none

/-- Reads the fields of a table that is not empty, with its closing brace. -/
def fields? [FloatReader] : Nat → List Char →
    Option (List (Option (List Char) × Document) × List Char)
  | 0, _ => none
  | fuel + 1, cs =>
    match skipSpace cs with
    | '"' :: r => do
      let (name, r) ← scan r
      match skipSpace r with
      | ':' :: r =>
        let (d, r) ← value? fuel r
        match skipSpace r with
        | '\x7d' :: rest => some ([(join? name, d)], rest)
        | ',' :: rest =>
          let (fs, rest) ← fields? fuel rest
          some ((join? name, d) :: fs, rest)
        | _ => none
      | _ => none
    | _ => none

end

/-- Reads a text that holds one value. -/
def parseChars? [FloatReader] (cs : List Char) : Option Document :=
  match value? (2 * cs.length + 1) cs with
  | some (d, rest) => if (skipSpace rest).isEmpty then some d else none
  | none => none

def parse? [FloatReader] (text : String) : Option Document := parseChars? text.toList

end Slideshow.Json
