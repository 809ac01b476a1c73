import Slideshow.Document

/-!
# Failures

Every way in which work can fail, its message, and the four kinds that callers tell apart.

* `Error.message` is the whole text of a failure (the `Display` of `Error`).
* `Error.kind` and `Error.report` are what a caller gets (`kind`, `report`, `http_status_code`).
* `Halt` is how work can stop early: with an error, or in a panic, which no caller is told of as an
  error.

Out of scope: the source of an error behind its text, and the place that a panic names.
-/

namespace Slideshow

/-- Why something failed. -/
inductive Error where
  /-- What was asked for cannot be done as it stands. -/
  | validation (reason : String)
  | notFound (entity id : String)
  /-- The video could not be made. -/
  | encoding (reason : String)
  /-- An external program failed. -/
  | tool (name reason : String)
  /-- The length of a recording could not be measured. -/
  | probe (reason : String)
  | io (source : String)
  /-- A step on a named file or directory failed. -/
  | system (context source : String)
  | cancelled (what : String)
  | internal (reason : String)
deriving DecidableEq, Repr

/-- How work stops early. -/
inductive Halt where
  | failed (error : Error)
  /-- A computation went wrong in a way that nothing handles. -/
  | panicked (reason : String)
deriving DecidableEq, Repr

/-- What a product that does not fit its word says in a panic. -/
def Halt.multiplied : Halt := .panicked "attempt to multiply with overflow"

/-- The kinds of failure that callers tell apart. -/
inductive ErrorKind where
  | validation
  | notFound
  | encoding
  | system
deriving DecidableEq, Repr

namespace ErrorKind

def name : ErrorKind → String
  | .validation => "validation"
  | .notFound => "not_found"
  | .encoding => "encoding"
  | .system => "system"

def all : List ErrorKind := [.validation, .notFound, .encoding, .system]

def ofName? (s : String) : Option ErrorKind := all.find? (·.name == s)

theorem ofName?_name (k : ErrorKind) : ofName? k.name = some k := by cases k <;> rfl

end ErrorKind

namespace Error

def message : Error → String
  | .validation reason => "Validation error: " ++ reason
  | .notFound entity id => entity ++ " not found: " ++ id
  | .encoding reason => "Encoding error: " ++ reason
  | .tool name reason => "Tool error [" ++ name ++ "]: " ++ reason
  | .probe reason => "Probe error: " ++ reason
  | .io source => "IO error: " ++ source
  | .system context source => "System error (" ++ context ++ "): " ++ source
  | .cancelled what => "Cancelled: " ++ what
  | .internal reason => "Internal error: " ++ reason

def kind : Error → ErrorKind
  | .validation _ => .validation
  | .notFound _ _ => .notFound
  | .encoding _ | .tool _ _ | .probe _ => .encoding
  | .io _ | .system _ _ | .cancelled _ | .internal _ => .system

/-- The status code for a caller across HTTP. -/
def httpStatus : Error → Nat
  | .validation _ => 400
  | .notFound _ _ => 404
  | .tool _ _ => 502
  | .probe _ => 422
  | .cancelled _ => 499
  | .encoding _ | .io _ | .system _ _ | .internal _ => 500

end Error

/-- What a caller gets for a failure. -/
structure ErrorReport where
  kind : ErrorKind
  message : String
deriving DecidableEq, Repr

def Error.report (e : Error) : ErrorReport := ⟨e.kind, e.message⟩

def ErrorReport.document (r : ErrorReport) : Document :=
  .table [("kind", .string r.kind.name), ("message", .string r.message)]

end Slideshow
