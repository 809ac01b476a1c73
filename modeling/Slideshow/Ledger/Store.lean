import Slideshow.Ledger.Entry
import Slideshow.Machine.Basic

/-!
# The ledger file

Entries are only ever added, each by writing the whole list to a new file that then takes the name
of the ledger, so that a reader sees the old list or the new one. A file that is no ledger is moved
aside first.

* `Ledger.load` and `Ledger.list` are what the file says.
* `Ledger.append` adds an entry (`append`, `quarantine`, `store`); `Ledger.replace` is
  `write_atomically`.

Every step may be refused: reading, serializing, making directories and the temporary file, writing
it, which may leave a part, syncing it, renaming it, and removing it after a failure. Out of scope:
a panic of the blocking task that writes, and a loss of power.
-/

namespace Slideshow

/-- Where the ledger is. -/
structure Ledger where
  path : String
deriving DecidableEq, Repr

namespace Ledger

def unreadable (l : Ledger) (e : OsError) : Error := .system ("read ledger " ++ l.path) e.message

/-- What is read of the ledger's file (`load`): a file that is not there is one without entries. -/
def loaded (l : Ledger) : Except OsError Content → Except Error Loaded
  | .ok c => .ok (classify c.toBytes)
  | .error .missing => .ok (.entries [])
  | .error e => .error (l.unreadable e)

/-- What the files say, seen at once. -/
def contents (l : Ledger) (t : FileTree) (here : Location) : Except Error (List LedgerEntry) :=
  (l.loaded (t.read here l.path)).map Loaded.readable

def load (l : Ledger) : Trial Loaded := ExceptT.mk (do return l.loaded (← Machine.read l.path))

/-- All entries in the order in which they were added. -/
def list (l : Ledger) : Trial (List LedgerEntry) := do return (← l.load).readable

/-- The first entry of a job. -/
def find (l : Ledger) (id : JobId) : Trial LedgerEntry := do
  match (← l.list).find? (·.id == id) with
  | some e => return e
  | none => throw (.notFound "ledger entry" id.text)

/-- Where a file goes that is no ledger. -/
def asidePath (l : Ledger) : String := l.path ++ ".corrupt"

/-- Moves the file aside (`quarantine`); nobody hears of a failure. -/
def moveAside (l : Ledger) : Action Unit := do
  let _ ← Machine.rename l.path l.asidePath

/-- The directory of the ledger. -/
def directory (l : Ledger) : String :=
  match Path.parent? l.path with
  | some parent => if parent.isEmpty then "." else parent
  | none => "."

/-- Tries something with a temporary file and removes the file when that fails. -/
def orDiscard {α : Type} (temporary : String) (trial : Trial α) : Trial α :=
  ExceptT.mk (do
    match ← trial.run with
    | .ok a => return .ok a
    | .error e =>
      let _ ← Machine.removeFile temporary
      return .error e)

/-- Replaces the file by one with new contents (`write_atomically`): a temporary file is made,
written, synced and renamed to the ledger, each in a step of its own, and removed if one is
refused. -/
def replace (l : Ledger) (c : Content) : Trial Unit := do
  let context := "write ledger " ++ l.path
  Action.orSystem (Machine.makeDirectories l.directory) ("create ledger dir " ++ l.directory)
  let temporary ← Action.orSystem (Machine.makeTemporaryFile l.directory) context
  orDiscard temporary (do
    Action.orSystem (Machine.write temporary c) context
    Action.orSystem Machine.sync context
    Action.orSystem (Machine.rename temporary l.path) context)

/-- Replaces the file by one with other entries (`store`), which may be none that can be written. -/
def store (l : Ledger) (entries : List LedgerEntry) : Trial Unit := do
  l.replace (.ofText (← Trial.ofExcept (serialized entries)))

/-- Adds an entry (`append`). -/
def append (l : Ledger) (entry : LedgerEntry) : Trial Unit := do
  match ← l.load with
  | .entries es => l.store (es ++ [entry])
  | .corrupt =>
    (l.moveAside : Action Unit)
    l.store [entry]

end Ledger

end Slideshow
