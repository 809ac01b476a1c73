import Slideshow.Toml.Quoted
import Slideshow.Toml.Scalar
import Slideshow.Toml.Tree

/-!
# Reading TOML

A file of headers, assignments, comments and blank lines, read line by line.

* `parse?` reads a file as one table.
-/

namespace Slideshow.Toml

def isBlank (c : Char) : Bool := c == ' ' || c == '\t'

def skipBlanks (cs : List Char) : List Char := cs.dropWhile isBlank

def isBareKey (c : Char) : Bool := c.isAlphanum || c == '_' || c == '-'

/-- One part of a key: bare, or a string on one line. -/
def keyPart? (cs : List Char) : Option (String × List Char) :=
  match cs with
  | '"' :: r => (basic? (r.length + 1) r).map fun p => (String.ofList p.1, p.2)
  | '\'' :: r => (literal? r).map fun p => (String.ofList p.1, p.2)
  | cs =>
    let ds := cs.takeWhile isBareKey
    if ds.isEmpty then none else some (String.ofList ds, cs.dropWhile isBareKey)

/-- How deep lists and tables may be nested in a value, and how many parts a dotted key may have. -/
def maxDepth : Nat := 79

/-- The parts of a dotted key with blanks around them; `fuel` bounds their number. -/
def keyParts? : Nat → List Char → Option (List String × List Char)
  | 0, _ => none
  | fuel + 1, cs => do
    let (k, r) ← keyPart? (skipBlanks cs)
    match skipBlanks r with
    | '.' :: r =>
      let (ks, rest) ← keyParts? fuel r
      return (k :: ks, rest)
    | r => return ([k], r)

/-- A dotted key. -/
def key? (cs : List Char) : Option (List String × List Char) := keyParts? maxDepth cs

/-- The text after a comment at its head, if there is one; its line end stays. -/
def comment? : List Char → Option (List Char)
  | '#' :: r => some (r.dropWhile isPlain)
  | cs => some cs

/-- Skips blanks, line ends and comments. -/
def skipLines : Nat → List Char → List Char
  | 0, cs => cs
  | fuel + 1, cs =>
    match skipBlanks cs with
    | '#' :: r => skipLines fuel (r.dropWhile isPlain)
    | '\n' :: r => skipLines fuel r
    | '\r' :: '\n' :: r => skipLines fuel r
    | r => r

mutual

/-- Reads a value; `depth` bounds the nesting and `fuel` the parts read. -/
def value? (depth : Nat) : Nat → List Char → Option (Document × List Char)
  | 0, _ => none
  | fuel + 1, cs =>
    match cs with
    | [] => none
    | '[' :: r =>
      match depth with
      | 0 => none
      | depth + 1 => (items? depth fuel r).map fun p => (.openList p.1, p.2)
    | '\x7b' :: r =>
      match depth with
      | 0 => none
      | depth + 1 =>
        match skipBlanks r with
        | '\x7d' :: rest => some (.table [], rest)
        | _ => (fields? depth fuel [] r).map fun p => (.table (Node.documents p.1), p.2)
    | 't' :: 'r' :: 'u' :: 'e' :: r => some (.bool true, r)
    | 'f' :: 'a' :: 'l' :: 's' :: 'e' :: r => some (.bool false, r)
    | c :: r =>
      if c == '"' || c == '\'' then
        (string? (c :: r)).map fun p => (.string (String.ofList p.1), p.2)
      else
        match dateTime? (c :: r) with
        | some rest => some (.table [], rest)
        | none =>
          match float? (c :: r) with
          | some (x, rest) => some (.float x, rest)
          | none => (integer? (c :: r)).map fun p => (.integer p.1, p.2)

/-- Reads the items of a list up to its closing bracket; a comma may follow the last. -/
def items? (depth : Nat) : Nat → List Char → Option (List Document × List Char)
  | 0, _ => none
  | fuel + 1, cs =>
    match skipLines cs.length cs with
    | ']' :: rest => some ([], rest)
    | cs => do
      let (d, r) ← value? depth fuel cs
      match skipLines r.length r with
      | ']' :: rest => some ([d], rest)
      | ',' :: r =>
        let (ds, rest) ← items? depth fuel r
        some (d :: ds, rest)
      | _ => none

/-- Reads the assignments of a table in braces, which stands on one line. -/
def fields? (depth : Nat) : Nat → Fields → List Char → Option (Fields × List Char)
  | 0, _, _ => none
  | fuel + 1, done, cs => do
    let (path, r) ← key? cs
    match r with
    | '=' :: r =>
      let (d, r) ← value? depth fuel (skipBlanks r)
      let done ← Node.assign path.dropLast (path.getLast?.getD "") (.value d) done
      match skipBlanks r with
      | '\x7d' :: rest => some (done, rest)
      | ',' :: r => fields? depth fuel done r
      | _ => none
    | _ => none

end

/-- The file read so far: all its tables, and the path of the one in force. -/
structure File where
  fields : Fields
  path : List String

/-- The text after the end of a line, which may hold a comment. -/
def lineEnd? (cs : List Char) : Option (List Char) := do
  match ← comment? (skipBlanks cs) with
  | [] => some []
  | '\n' :: r => some r
  | '\r' :: '\n' :: r => some r
  | _ => none

/-- Opens the table or the item that a header names. -/
def File.header (f : File) (item : Bool) (path : List String) : Option File := do
  let key ← path.getLast?
  let opening : Fields → Option Fields := if item then Node.openItem key else Node.openTable key
  let fields ← Node.updateAt false (fun _ fs => opening fs) path.dropLast false f.fields
  return ⟨fields, path⟩

/-- Assigns a value in the table in force. -/
def File.assign (f : File) (path : List String) (d : Document) : Option File := do
  let key ← path.getLast?
  let fields ← Node.updateAt false (fun _ fs => Node.assign path.dropLast key (.value d) fs) f.path
    false f.fields
  return ⟨fields, f.path⟩

/-- Reads one line that is not blank. -/
def line? (f : File) (cs : List Char) : Option (File × List Char) :=
  match cs with
  | '[' :: '[' :: r => do
    let (path, r) ← key? r
    match r with
    | ']' :: ']' :: r => return (← f.header true path, ← lineEnd? r)
    | _ => none
  | '[' :: r => do
    let (path, r) ← key? r
    match r with
    | ']' :: r => return (← f.header false path, ← lineEnd? r)
    | _ => none
  | cs => do
    let (path, r) ← key? cs
    match r with
    | '=' :: r =>
      let (d, r) ← value? maxDepth (2 * r.length + 1) (skipBlanks r)
      return (← f.assign path d, ← lineEnd? r)
    | _ => none

/-- Reads the remaining lines. -/
def lines? : Nat → File → List Char → Option File
  | 0, _, _ => none
  | fuel + 1, f, cs =>
    match skipBlanks cs with
    | [] => some f
    | '#' :: r => do lines? fuel f (← lineEnd? ('#' :: r))
    | '\n' :: r => lines? fuel f r
    | '\r' :: '\n' :: r => lines? fuel f r
    | cs => do
      let (f, rest) ← line? f cs
      lines? fuel f rest

/-- Reads a file, before which a byte order mark may stand. -/
def parse? (text : String) : Option Document :=
  let cs := match text.toList with
    | '\uFEFF' :: r => r
    | cs => cs
  (lines? (cs.length + 1) ⟨[], []⟩ cs).map fun f => .table (Node.documents f.fields)

end Slideshow.Toml
