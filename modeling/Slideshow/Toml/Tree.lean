import Slideshow.Document

/-!
# TOML tables under construction

A file of tables is built from headers and assignments. A table remembers whether a header has
opened it (until then it is implicit) and whether dotted keys made it, because each may be opened
only once.

* `Node.openTable`, `Node.openItem`: what `[a.b]` and `[[a.b]]` do.
* `Node.assign`: what `a.b = value` does inside the table in force.
-/

namespace Slideshow.Toml

/-- A table of a file, a list of tables made by headers, or a value. -/
inductive Node where
  | value (d : Document)
  | table (implicit dotted : Bool) (fields : List (String × Node))
  | tables (items : List (List (String × Node)))

abbrev Fields := List (String × Node)

namespace Node

/-- The fields with one of them replaced. -/
def replace (key : String) (n : Node) (fields : Fields) : Fields :=
  fields.map fun f => if f.1 == key then (key, n) else f

/-- Changes the table at a path below a table; missing tables on the way are made. The change is
told whether dotted keys made the table. -/
def updateAt (dotted : Bool) (change : Bool → Fields → Option Fields) :
    List String → Bool → Fields → Option Fields
  | [], made, fields => change made fields
  | key :: path, _, fields =>
    match fields.lookup key with
    | none => do
      let inner ← updateAt dotted change path dotted []
      return fields ++ [(key, .table true dotted inner)]
    | some (.value _) => none
    | some (.tables items) =>
      match items.getLast? with
      | none => none
      | some last => do
        let inner ← updateAt dotted change path false last
        return replace key (.tables (items.dropLast ++ [inner])) fields
    | some (.table implicit made inner) =>
      if dotted && !implicit then none
      else do
        let inner ← updateAt dotted change path made inner
        return replace key (.table implicit made inner) fields

/-- Opens a table: it is new, or implicit and not made by dotted keys. -/
def openTable (key : String) (fields : Fields) : Option Fields :=
  match fields.lookup key with
  | none => some (fields ++ [(key, .table false false [])])
  | some (.table true false inner) => some (replace key (.table false false inner) fields)
  | _ => none

/-- Opens the next table of a list of tables. -/
def openItem (key : String) (fields : Fields) : Option Fields :=
  match fields.lookup key with
  | none => some (fields ++ [(key, .tables [[]])])
  | some (.tables items) => some (replace key (.tables (items ++ [[]])) fields)
  | _ => none

/-- Assigns a value to a dotted key inside a table. -/
def assign (path : List String) (key : String) (n : Node) (fields : Fields) : Option Fields :=
  updateAt true
    (fun made fields =>
      if made == path.isEmpty then none
      else if (fields.lookup key).isSome then none
      else some (fields ++ [(key, n)]))
    path false fields

mutual

/-- The document that a node stands for. -/
def document : Node → Document
  | .value d => d
  | .table _ _ fields => .table (documents fields)
  | .tables items => .openList (tableDocuments items)

def documents : Fields → List (String × Document)
  | [] => []
  | (k, n) :: r => (k, n.document) :: documents r

def tableDocuments : List Fields → List Document
  | [] => []
  | fs :: r => .table (documents fs) :: tableDocuments r

end

end Node

end Slideshow.Toml
