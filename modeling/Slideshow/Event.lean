import Slideshow.Error
import Slideshow.JobId

/-!
# Job events

What is told about a job while it runs.

* `Event.ofDocument?` and `Event.document` read and write an event, which names its kind in the
  field `type`.
-/

namespace Slideshow

/-- Something that happened to a job. -/
inductive Event where
  | queued (job : JobId) (images : Nat)
  | started (job : JobId) (command : String)
  | progress (job : JobId) (fraction : Float)
  | completed (job : JobId) (outputFilename : String)
  | failed (job : JobId) (kind : ErrorKind) (error : String)

namespace Event

/-- The job that an event belongs to. -/
def job : Event → JobId
  | .queued id _ | .started id _ | .progress id _ | .completed id _ | .failed id _ _ => id

open Document

def readId? (d : Document) : Option JobId := (string? d).bind JobId.parse?

def writeId (id : JobId) : Document := .string id.text

/-- Reads the kind of a failure: its name, or a table with the name as its one field, which holds
nothing. -/
def kind? : Document → Option ErrorKind
  | .string s => ErrorKind.ofName? s
  | .table [(s, .null)] => ErrorKind.ofName? s
  | .table [(s, .table [])] => ErrorKind.ofName? s
  | _ => none

def document : Event → Document
  | .queued id images =>
    .table [("type", .string "job_queued"), ("job_id", writeId id), ("images", ofNat images)]
  | .started id command =>
    .table [("type", .string "job_started"), ("job_id", writeId id), ("command", .string command)]
  | .progress id fraction =>
    .table [("type", .string "job_progress"), ("job_id", writeId id), ("fraction", .float fraction)]
  | .completed id filename =>
    .table [("type", .string "job_completed"), ("job_id", writeId id),
      ("output_filename", .string filename)]
  | .failed id kind error =>
    .table [("type", .string "job_failed"), ("job_id", writeId id), ("kind", .string kind.name),
      ("error", .string error)]

/-- Reads the fields of an event of a given type. -/
def ofFields? (type : String) (d : Document) : Option Event :=
  match type with
  | "job_queued" => do
    let r ← record? .lenient ["job_id", "images"] d
    return .queued (← r.required 0 readId?) (← r.required 1 nat64?)
  | "job_started" => do
    let r ← record? .lenient ["job_id", "command"] d
    return .started (← r.required 0 readId?) (← r.required 1 string?)
  | "job_progress" => do
    let r ← record? .lenient ["job_id", "fraction"] d
    return .progress (← r.required 0 readId?) (← r.required 1 float?)
  | "job_completed" => do
    let r ← record? .lenient ["job_id", "output_filename"] d
    return .completed (← r.required 0 readId?) (← r.required 1 string?)
  | "job_failed" => do
    let r ← record? .lenient ["job_id", "kind", "error"] d
    return .failed (← r.required 0 readId?) (← r.required 1 kind?) (← r.required 2 string?)
  | _ => none

/-- Reads an event: its type is a field of a table or the first item of a list. -/
def ofDocument? : Document → Option Event
  | .table fields => do
    let type ← (single? "type" fields).join
    ofFields? (← string? type) (.table (fields.filter (·.1 != "type")))
  | .list (type :: rest) => do ofFields? (← string? type) (.list rest)
  | _ => none

end Event

end Slideshow
