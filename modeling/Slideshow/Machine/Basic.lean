import Slideshow.Error
import Slideshow.JobId
import Slideshow.Machine.FileTree
import Slideshow.Timestamp

/-!
# The machine

What the library works on: files, programs, a cancellation token, a clock. Nobody knows beforehand
which step the operating system refuses, when the token fires, which names are drawn and what time
it is; all that is in `Circumstances`, so that what holds for all circumstances holds whatever
happens.

* `Machine.tick` begins a step: the clock goes on, and the token may have fired.
* `Machine.await` waits, and looks at the token when work is taken up again (a biased `select!`).
* `Machine.step` is a step on the files, which may be refused and then leaves them as they are; a
  refused `write` or `copy` may leave the beginning of what was to be written.
* `Action` is what can be done on a machine, `Trial` what can fail with an error of the library.

Out of scope: links, permissions that are not a refusal of a step, and other processes. Asking about
a file (`metadata`, `exists`, `canonicalize`) and removing a directory are never refused. Paths are
texts.
-/

namespace Slideshow

/-- A call of a program: where it stands and its arguments. -/
structure Call where
  program : Location
  arguments : List String
deriving DecidableEq, Repr

/-- How a run went that was started. -/
inductive Outcome where
  | finished (run : Run)
  | timedOut (run : Run)
  | stopped (run : Run)
deriving DecidableEq, Repr

/-- What is seen of programs from outside. -/
inductive Happening where
  | started (call : Call)
  /-- A program has come to its end, or was stopped and waited for. -/
  | ended (call : Call) (outcome : Outcome)
  /-- A program was killed, and nobody waits until it is gone. -/
  | killed (call : Call) (outcome : Outcome)
  /-- A program was not started. -/
  | refused (program : String) (arguments : List String) (e : OsError)
deriving DecidableEq, Repr

/-- Where nothing is refused nothing is said to be missing. -/
theorem none_ne_missing (_clock : Nat) : none ≠ some OsError.missing := nofun

/-- There are no names on the way to the root. -/
theorem isName_root : ([] : Location).all FileTree.isName = true := rfl

/-- What nobody knows beforehand, by the reading of the clock. -/
structure Circumstances where
  /-- Why a step on files is refused, if it is. -/
  refusal : Nat → Option OsError := fun _ => none
  /-- Nothing is said to be missing that is there. -/
  truthful : ∀ clock, refusal clock ≠ some .missing := by exact none_ne_missing
  /-- How many bytes were written when writing them was refused; none if nothing was begun. -/
  begun : Nat → Option Nat := fun _ => none
  /-- Why removing a file is refused, if it is. -/
  removal : Nat → Option OsError := fun _ => none
  /-- Whether the token fires, given what has happened. -/
  fires : Nat → List Happening → Bool := fun _ _ => false
  /-- What is drawn for the name of something temporary; the second number counts the tries. -/
  draw : Nat → Nat → Nat
  jobId : Nat → JobId
  time : Nat → Timestamp
  /-- The milliseconds that a job has taken. -/
  elapsed : Nat → Nat := fun _ => 0

/-- The state of the machine. -/
structure Machine where
  files : FileTree := {}
  /-- The current directory. -/
  here : Location := []
  /-- It stands at its path. -/
  named : here.all FileTree.isName = true := by exact isName_root
  home : Option String := none
  /-- Where programs without a path are searched for. -/
  searchPath : List String := []
  circumstances : Circumstances
  clock : Nat := 0
  /-- Whether the token has fired. -/
  cancelled : Bool := false
  /-- Whether it had fired when it was looked at last. -/
  noticed : Bool := false
  happenings : List Happening := []

/-- What can be done on a machine. -/
abbrev Action (α : Type) := StateM Machine α

/-- What can be done on a machine and can fail; a failure keeps what was done before it. -/
abbrev Trial (α : Type) := ExceptT Error (StateM Machine) α

namespace Machine

/-- Begins a step. A token that has fired stays so. -/
def tick (m : Machine) : Machine :=
  { m with
    clock := m.clock + 1
    cancelled := m.cancelled || m.circumstances.fires m.clock m.happenings }

theorem files_tick (m : Machine) : m.tick.files = m.files := rfl

/-- Goes on at once: the token does not fire where nothing is waited for. -/
def advance (m : Machine) : Machine := { m with clock := m.clock + 1 }

/-- Waits; when work is taken up again the token is looked at. -/
def await (m : Machine) : Machine := { m.tick with noticed := m.tick.cancelled }

/-- A step that changes the files, unless it is refused. -/
def step (change : FileTree → Location → Except OsError FileTree) : Action (Except OsError Unit) :=
  fun m =>
    let m := m.tick
    match m.circumstances.refusal m.clock with
    | some e => (.error e, m)
    | none =>
      match change m.files m.here with
      | .ok files => (.ok (), { m with files := files })
      | .error e => (.error e, m)

/-- A step that looks at the files, unless it is refused. -/
def look {α : Type} (view : FileTree → Location → Except OsError α) : Action (Except OsError α) :=
  fun m =>
    let m := m.tick
    match m.circumstances.refusal m.clock with
    | some e => (.error e, m)
    | none => (view m.files m.here, m)

/-- Whether the token has fired by now. -/
def isCancelled : Action Bool := fun m => let m := m.await; (m.noticed, m)

/-- Fires the token. -/
def cancel : Action Unit := fun m => ((), { m with cancelled := true })

/-! ## Steps on files -/

def read (path : String) : Action (Except OsError Content) := look (·.read · path)

/-- Reads a file that should be text. -/
def readText (path : String) : Action (Except OsError String) :=
  look fun t here =>
    match t.read here path with
    | .error e => .error e
    | .ok c =>
      match Text.decode? c.toBytes with
      | some cs => .ok (String.ofList cs)
      | none => .error .notText

/-- What is known about a file; nobody refuses that. -/
def metadata (path : String) : Action (Except OsError FileTree.Metadata) := fun m =>
  (m.files.metadata m.here path, m)

/-- Whether there is something. -/
def isPresent (path : String) : Action Bool := fun m => (m.files.isPresent m.here path, m)

/-- What is left of writing that was refused: the beginning of it, or all as it was. -/
def spill (m : Machine) (path : String) (c : Content) : Machine :=
  match m.circumstances.begun m.clock with
  | none => m
  | some n =>
    match m.files.write m.here path (c.take n) with
    | .ok files => { m with files := files }
    | .error _ => m

/-- Writes what is found to a file. When that is refused, the beginning of it may have been
written. -/
def writing (path : String) (found : FileTree → Location → Except OsError Content) :
    Action (Except OsError Unit) :=
  fun m =>
    let m := m.tick
    match found m.files m.here with
    | .error e => (.error e, m)
    | .ok c =>
      match m.circumstances.refusal m.clock with
      | some e => (.error e, m.spill path c)
      | none =>
        match m.files.write m.here path c with
        | .ok files => (.ok (), { m with files := files })
        | .error e => (.error e, m)

def write (path : String) (c : Content) : Action (Except OsError Unit) :=
  writing path fun _ _ => .ok c

def copy (source target : String) : Action (Except OsError Unit) := writing target (·.read · source)

/-- Has the system keep what was written to a file. -/
def sync : Action (Except OsError Unit) := step fun t _ => .ok t

def rename (source target : String) : Action (Except OsError Unit) :=
  step (·.rename · source target)

def makeDirectory (path : String) : Action (Except OsError Unit) := step (·.makeDirectory · path)

/-- A directory that could not be made will do if it is there. -/
def orDirectory (path : String) (e : OsError) : Action (Except OsError Unit) := fun m =>
  (if m.files.isDirectory m.here path then .ok () else .error e, m)

/-- Makes a directory and those above it that are missing (`create_dir_all`), each in a step of its
own: those that were made stay when a later one is refused. `fuel` bounds how many they are. -/
def makeDirectoriesWithin : Nat → String → Action (Except OsError Unit)
  | 0, _ => return .error .missing
  | fuel + 1, path => do
    if path.isEmpty then return .ok ()
    match ← makeDirectory path with
    | .ok () => return .ok ()
    | .error .missing =>
      match Path.parent? path with
      | none => return .error (.other "failed to create whole tree")
      | some parent =>
        match ← makeDirectoriesWithin fuel parent with
        | .error e => return .error e
        | .ok () =>
          match ← makeDirectory path with
          | .ok () => return .ok ()
          | .error e => orDirectory path e
    | .error e => orDirectory path e

/-- Makes a directory and those above it that are missing. -/
def makeDirectories (path : String) : Action (Except OsError Unit) :=
  makeDirectoriesWithin (path.length + 1) path

/-- Removes a file, unless that is refused. -/
def removeFile (path : String) : Action (Except OsError Unit) :=
  fun m =>
    let m := m.tick
    match m.circumstances.removal m.clock with
    | some e => (.error e, m)
    | none =>
      match m.files.removeFile m.here path with
      | .ok files => (.ok (), { m with files := files })
      | .error e => (.error e, m)

/-- Removes a directory with everything in it. What is there can be removed. -/
def removeDirectory (path : String) : Action (Except OsError Unit) :=
  fun m =>
    let m := m.tick
    match m.files.removeDirectory m.here path with
    | .ok files => (.ok (), { m with files := files })
    | .error e => (.error e, m)

/-- The characters of drawn names. -/
def letters : String := "0123456789abcdefghijklmnopqrstuvwxyzABCDEFGHIJKLMNOPQRSTUVWXYZ"

/-- The six characters that a number draws. -/
def drawn (n : Nat) : String :=
  String.ofList ((List.range 6).map fun i => letters.toList.getD (n / Nat.pow 62 i % 62) '0')

/-- How often a new name is drawn for something temporary. -/
def maxDraws : Nat := 65536

/-- The first drawn name in a directory that nothing has yet. -/
def drawFresh (m : Machine) (directory opening : String) (attempt : Nat) :
    Nat → Except OsError String
  | 0 => .error .present
  | fuel + 1 =>
    let path := Path.join directory (opening ++ drawn (m.circumstances.draw m.clock attempt))
    match m.files.find m.here path with
    | .ok _ => m.drawFresh directory opening (attempt + 1) fuel
    | .error .missing => .ok path
    | .error e => .error e

/-- Makes something temporary in a directory and gives its path, which begins at the root. -/
def makeTemporary (directory opening : String)
    (make : FileTree → Location → String → Except OsError FileTree) :
    Action (Except OsError String) :=
  fun m =>
    let m := m.tick
    match m.circumstances.refusal m.clock with
    | some e => (.error e, m)
    | none =>
      match m.drawFresh (Path.join (FileTree.pathOf m.here) directory) opening 0 maxDraws with
      | .error e => (.error e, m)
      | .ok path =>
        match make m.files m.here path with
        | .ok files => (.ok path, { m with files := files })
        | .error e => (.error e, m)

/-- Makes an empty file with a new name in a directory. -/
def makeTemporaryFile (directory : String) : Action (Except OsError String) :=
  makeTemporary directory ".tmp" (·.write · · .empty)

/-- Makes a directory with a new name in a directory. -/
def makeTemporaryDirectory (directory opening : String) : Action (Except OsError String) :=
  makeTemporary directory opening (·.makeDirectory · ·)

/-- Whether two paths name the same file, which is there. -/
def isSameFile (a b : String) : Action Bool := fun m =>
  (match m.files.find m.here a, m.files.find m.here b with
    | .ok (k, _), .ok (l, _) => k == l
    | _, _ => false, m)

/-! ## What only the clock knows -/

def newJobId : Action JobId := fun m => let m := m.tick; (m.circumstances.jobId m.clock, m)

def now : Action Timestamp := fun m => let m := m.tick; (m.circumstances.time m.clock, m)

def elapsed : Action Nat := fun m => let m := m.tick; (m.circumstances.elapsed m.clock, m)

end Machine

/-- An action whose refusal is an error of the library, with what was being done. -/
def Action.orSystem {α : Type} (action : Action (Except OsError α)) (context : String) : Trial α :=
  ExceptT.mk (do return (← action).mapError fun e => .system context e.message)

/-- A value or an error as something tried. -/
def Trial.ofExcept {α : Type} (r : Except Error α) : Trial α := ExceptT.mk (pure r)

end Slideshow
