import Slideshow.Machine.Basic
import Slideshow.Tool.Command

/-!
# Running programs

A command is run in one of two ways. It is captured: what it says is taken when it has ended. Or it
is followed: each line of its diagnostics is handed on, and the token stops it. The time limit stops
it in both ways.

* `Machine.run` runs a program to its end or until it is stopped; `Machine.calls` are the calls so
  far.
* `Command.capture` (`execute_unchecked`) gives whatever a program said, `Command.execute` refuses a
  bad end, `Command.follow` (`execute_with_stderr_callback`) hands on lines.
* `tail` keeps the last diagnostic lines, without those that report progress.

A captured program that is cut off is dropped with the work that waited for it: it is killed, and
nobody waits until it is gone, so that it is seen as killed and not as ended. Out of scope: that a
pipe or a process cannot be waited for, what a program leaves running, and writing to other files
than the one that the last argument names (`Machine.receive`).
-/

namespace Slideshow

/-- What a program has said, and how it ended. -/
structure ToolOutput where
  ending : Ending
  output : String
  errors : String
deriving DecidableEq, Repr

namespace Ending

def isSuccess (e : Ending) : Bool := e == .exited 0

/-- The names of the signals, from the first. -/
def signalNames : List String :=
  ["HUP", "INT", "QUIT", "ILL", "TRAP", "ABRT", "BUS", "FPE", "KILL", "USR1",
  "SEGV", "USR2", "PIPE", "ALRM", "TERM", "STKFLT", "CHLD", "CONT", "STOP", "TSTP", "TTIN", "TTOU",
    "URG",
  "XCPU", "XFSZ", "VTALRM", "PROF", "WINCH", "IO", "PWR", "SYS"]

/-- The name of a signal in brackets, if it has one. -/
def signalName : Nat → String
  | 0 => ""
  | n + 1 =>
    match signalNames[n]? with
    | some name => " (SIG" ++ name ++ ")"
    | none => ""

def message : Ending → String
  | .exited code => "exit status: " ++ toString code
  | .killed signal => "signal: " ++ toString signal ++ signalName signal

end Ending

namespace Machine

/-- All calls so far, in order. -/
def calls (m : Machine) : List Call :=
  m.happenings.filterMap fun
    | .started c => some c
    | .ended .. | .killed .. | .refused .. => none

/-- How often a program has been called. -/
def callCount (m : Machine) (program : Location) : Nat :=
  (m.calls.filter (·.program == program)).length

/-- The program that stands at a path. -/
def programAt (m : Machine) (path : String) : Except OsError (Location × Program) :=
  match m.files.find m.here path with
  | .error e => .error e
  | .ok (l, .program p) => .ok (l, p)
  | .ok (_, _) => .error .denied

/-- Looks for a program in directories, one after another. -/
def searched (m : Machine) (name : String) : List String → Except OsError (Location × Program)
  | [] => .error .missing
  | directory :: rest =>
    match m.programAt (Path.join directory name) with
    | .ok p => .ok p
    | .error _ => m.searched name rest

/-- The program that a command names: by a path, or by a name to be searched for. -/
def programNamed (m : Machine) (program : String) : Except OsError (Location × Program) :=
  if program.toList.contains '\x00' then .error .nulByte
  else if program.isEmpty then .error .missing
  else if program.toList.contains '/' then m.programAt program
  else m.searched program m.searchPath

/-- Writes what a program has made to the file named by its last argument; nobody hears of a
failure. That a program writes nothing else is an assumption about the two tools. -/
def receive (m : Machine) (arguments : List String) (made : Option Content) : Machine :=
  match made, arguments.getLast? with
  | some c, some path =>
    if path == "-" then m
    else
      match m.files.write m.here path c with
      | .ok files => { m with files := files }
      | .error _ => m
  | _, _ => m

def happen (m : Machine) (h : Happening) : Machine := { m with happenings := m.happenings ++ [h] }

/-- How a run goes with a time limit: a watched one is stopped when the token fires. Captured output
is at its end only when the program is. -/
def outcome (m : Machine) (run : Run) (watched captured : Bool) (timeout : Option Nat) : Outcome :=
  let length := run.milliseconds + if captured then run.lingering else 0
  if watched && m.cancelled then .stopped run
  else
    match timeout with
    | some limit => if limit ≤ length then .timedOut run else .finished run
    | none => .finished run

/-- The program to be started, unless something refuses that. -/
def startable (m : Machine) (program : String) (arguments : List String) :
    Except OsError (Location × Program) :=
  match m.circumstances.refusal m.clock with
  | some e => .error e
  | none =>
    if arguments.any (·.toList.contains '\x00') then .error .nulByte else m.programNamed program

/-- How the end of a call is seen: a captured program that is cut off is killed, and nobody waits
for it. -/
def ending (captured : Bool) (call : Call) : Outcome → Happening
  | .finished run => .ended call (.finished run)
  | outcome => if captured then .killed call outcome else .ended call outcome

/-- What a program has written by the time that is told how it went. -/
def made : Outcome → Option Content
  | .finished run => run.written
  | .timedOut run | .stopped run => run.writtenEarly

/-- Runs a program: `spawn`, and what is waited for in `execute_unchecked` or, if the run is not
captured, in `execute_with_stderr_callback`. A program that cannot be started is not called. It is
started at once; how it goes is waited for. -/
def run (program : String) (arguments : List String) (watched captured : Bool)
    (timeout : Option Nat) :
    Action (Except OsError Outcome) :=
  fun m =>
    let m := m.advance
    match m.startable program arguments with
    | .error e => (.error e, m.happen (.refused program arguments e))
    | .ok (l, behaviour) =>
      let call : Call := ⟨l, arguments⟩
      let n := m.callCount l
      let m := (m.happen (.started call)).await
      let outcome := m.outcome (behaviour n arguments) watched captured timeout
      (.ok outcome, (m.receive arguments (made outcome)).happen (ending captured call outcome))

end Machine

namespace Command

/-- A text from bytes, with a mark for what is no text. -/
def lossy (bytes : List UInt8) : String := String.ofList (Text.decodeLossy bytes)

/-- The failure to start a program. -/
def notStarted (c : Command) (e : OsError) : Error :=
  .tool c.name ("failed to spawn: " ++ e.message)

def timedOut (c : Command) : Error := .tool c.name ("timed out after " ++ durationText c.timeout)

def cancelled (c : Command) : Error := .cancelled (c.name ++ " cancelled")

/-- The failure to read diagnostics that are no text. -/
def unreadable (c : Command) : Error :=
  .tool c.name ("failed to read stderr: " ++ OsError.notText.message)

/-- A bad end, with what was said before it. -/
def badEnd (c : Command) (ending : Ending) (said : String) : Error :=
  .tool c.name ("exited with status " ++ ending.message ++ ": " ++ Text.trim said)

/-- What a captured run gives, whatever its end. -/
def captured (c : Command) : Except OsError Outcome → Except Error ToolOutput
  | .error e => .error (c.notStarted e)
  | .ok (.finished run) => .ok ⟨run.ending, lossy run.output, lossy run.errors⟩
  | .ok (.timedOut _) => .error c.timedOut
  | .ok (.stopped _) => .error c.cancelled

/-- Refuses a bad end. -/
def checked (c : Command) (o : ToolOutput) : Except Error ToolOutput :=
  if o.ending.isSuccess then .ok o else .error (c.badEnd o.ending o.errors)

/-- Runs a command and gives what it said, whatever its end. A watched one is stopped when the token
fires. -/
def capture (c : Command) (watched : Bool) : Trial ToolOutput :=
  ExceptT.mk
    (do return c.captured (← Machine.run c.program c.arguments watched true (some c.timeout)))

/-- Runs a command that has to end well. -/
def execute (c : Command) (watched : Bool) : Trial ToolOutput := do
  Trial.ofExcept (c.checked (← c.capture watched))

/-! ## Following -/

/-- The lines of bytes, as those of a text. -/
def byteLines : List UInt8 → List (List UInt8)
  | [] => []
  | 10 :: r => [] :: byteLines r
  | 13 :: 10 :: r => [] :: byteLines r
  | b :: r =>
    match byteLines r with
    | [] => [[b]]
    | l :: ls => (b :: l) :: ls

/-- The lines up to the first that is no text, and whether there is such a one. -/
def readable : List (List UInt8) → List String × Bool
  | [] => ([], true)
  | l :: ls =>
    match Text.decode? l with
    | some cs => let (rest, whole) := readable ls; (String.ofList cs :: rest, whole)
    | none => ([], false)

/-- Whether a line reports progress: a key without blanks, an equals sign and a value. -/
def isProgress (line : String) : Bool :=
  let key := line.toList.takeWhile (· != '=')
  key.length < line.toList.length && !key.isEmpty && !key.any Text.isBlank

/-- How many diagnostic lines are kept. -/
def tailLength : Nat := 20

/-- One more line: the oldest goes when there are too many. -/
def pushLine (kept : List String) (line : String) : List String :=
  if isProgress line then kept
  else if kept.length == tailLength then kept.drop 1 ++ [line]
  else kept ++ [line]

/-- The last diagnostic lines. -/
def tail (lines : List String) : List String := lines.foldl pushLine []

/-- What was said in a run, as far as it is text: its lines, and whether that is all. -/
def saidIn (errors : List UInt8) : List String × Bool := readable (byteLines errors)

/-- The lines that a followed run hands on. -/
def handedOn : Except OsError Outcome → List String
  | .error _ => []
  | .ok (.finished run) => (saidIn run.errors).1
  | .ok (.timedOut run) | .ok (.stopped run) => (saidIn run.errorsEarly).1

/-- What a followed run gives. -/
def followed (c : Command) : Except OsError Outcome → Except Error ToolOutput
  | .error e => .error (c.notStarted e)
  | .ok (.stopped _) => .error c.cancelled
  | .ok (.timedOut _) => .error c.timedOut
  | .ok (.finished run) =>
    let (lines, whole) := saidIn run.errors
    if whole then c.checked ⟨run.ending, "", "\n".intercalate (tail lines)⟩
    else .error c.unreadable

/-- Runs a command and hands on each line of its diagnostics. A watched one is stopped when the
token fires. -/
def follow (c : Command) (watched : Bool) : Action (List String × Except Error ToolOutput) := do
  let outcome ← Machine.run c.program c.arguments watched false (some c.timeout)
  return (handedOn outcome, c.followed outcome)

end Command

end Slideshow
