/-!
# Documents

The values that settings, options, records and messages are read from and written to: JSON is their
written form, TOML another one. Fields keep their order and may repeat.

* `Document.Record` is what a list of named fields finds in a document: by name in a table, by
  position in a list.
* A named field that repeats is refused; an unknown field is skipped or, in a strict record,
  refused.
-/

namespace Slideshow

/-- A value read from or written to a text. -/
inductive Document where
  | null
  | bool (value : Bool)
  | integer (value : Int)
  | float (value : Float)
  | string (value : String)
  | list (items : List Document)
  /-- A list that may be longer than the record it is read as. -/
  | openList (items : List Document)
  | table (fields : List (String × Document))
  /-- A value that may be skipped but not read: a number too large, a string with half a
  character. -/
  | unreadable

namespace Document

/-- The fields that a record's names find in a document, in the order of the names. -/
structure Record where
  values : List (Option Document)

/-- Whether unknown fields are refused. -/
inductive Strictness where
  | strict
  | lenient
deriving DecidableEq, Repr

/-- The one value of a field, if it is there; `none` when the field repeats. -/
def single? (name : String) (fields : List (String × Document)) : Option (Option Document) :=
  match fields.filter (·.1 == name) with
  | [] => some none
  | [f] => some (some f.2)
  | _ => none

/-- The first `n` items, missing ones marked. -/
def padded : Nat → List Document → List (Option Document)
  | 0, _ => []
  | n + 1, [] => none :: padded n []
  | n + 1, d :: r => some d :: padded n r

/-- Reads a record with the given field names. -/
def record? (strictness : Strictness) (names : List String) : Document → Option Record
  | .table fields =>
    if strictness == .strict && fields.any (fun f => !names.contains f.1) then none
    else (names.mapM (single? · fields)).map fun values => ⟨values⟩
  | .list items =>
    if names.length < items.length then none else some ⟨padded names.length items⟩
  | .openList items => some ⟨padded names.length items⟩
  | _ => none

namespace Record

/-- The field at a position, with a default for a missing one. -/
def orDefault {α : Type} (r : Record) (i : Nat) (read : Document → Option α) (default : α) :
    Option α :=
  match r.values[i]?.join with
  | none => some default
  | some d => read d

/-- The field at a position, which must be there. -/
def required {α : Type} (r : Record) (i : Nat) (read : Document → Option α) : Option α :=
  r.values[i]?.join.bind read

/-- The optional field at a position, whose default is no value. -/
def optionalOrNone {α : Type} (r : Record) (i : Nat) (read : Document → Option α) :
    Option (Option α) :=
  match r.values[i]?.join with
  | none => some none
  | some .null => some none
  | some d => (read d).map some

end Record

/-! ## Reading single values -/

def string? : Document → Option String
  | .string s => some s
  | _ => none

/-- A natural number below a bound. -/
def nat? (bound : Nat) : Document → Option Nat
  | .integer n => if 0 ≤ n && n < bound then some n.toNat else none
  | _ => none

/-- An integer from `low` up to, not including, `high`. -/
def int? (low high : Int) : Document → Option Int
  | .integer n => if low ≤ n && n < high then some n else none
  | _ => none

/-- A number; an integer is read as the nearest one. -/
def float? : Document → Option Float
  | .float x => some x
  | .integer n => some (Float.ofInt n)
  | _ => none

def listOf? {α : Type} (read : Document → Option α) : Document → Option (List α)
  | .list items => items.mapM read
  | .openList items => items.mapM read
  | _ => none

def nat32? : Document → Option Nat := nat? (Nat.pow 2 32)

def nat64? : Document → Option Nat := nat? (Nat.pow 2 64)

def int32? : Document → Option Int := int? (-Int.pow 2 31) (Int.pow 2 31)

/-! ## Building tables -/

/-- A field that is left out when it has no value. -/
def fieldIfSome {α : Type} (name : String) (write : α → Document) :
    Option α → List (String × Document)
  | none => []
  | some a => [(name, write a)]

/-- A value that is null when there is none. -/
def orNull {α : Type} (write : α → Document) : Option α → Document
  | none => .null
  | some a => write a

def ofNat (n : Nat) : Document := .integer n

/-! ## Sorting fields -/

/-- Puts a field in front of the first with a larger name. -/
def insertField (field : String × Document) : List (String × Document) → List (String × Document)
  | [] => [field]
  | f :: rest => if field.1 < f.1 then field :: f :: rest else f :: insertField field rest

mutual

/-- A document whose tables have their fields in the order of their names. -/
def sorted : Document → Document
  | .list items => .list (sortedItems items)
  | .openList items => .openList (sortedItems items)
  | .table fields => .table (sortedFields fields)
  | d => d

def sortedItems : List Document → List Document
  | [] => []
  | d :: rest => sorted d :: sortedItems rest

def sortedFields : List (String × Document) → List (String × Document)
  | [] => []
  | (name, d) :: rest => insertField (name, sorted d) (sortedFields rest)

end

end Document

end Slideshow
