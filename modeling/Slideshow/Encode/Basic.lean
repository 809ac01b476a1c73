import Slideshow.Encode.Arguments
import Slideshow.Encode.Progress
import Slideshow.Narration.Duration
import Slideshow.Tool.Registry

/-!
# Encoding

One run of the encoder: it is started, reports progress, and succeeds or fails. It has succeeded
only if it left a file that is not empty.

* `Encoder.encode` gives the events of a run, its states and its result (`submit`, `run_encode`,
  `output_size`).
* `progressOf` is what the lines of diagnostics tell about progress.

Out of scope: that the task of a run is waited for elsewhere, and events that nobody receives.
-/

namespace Slideshow

/-- What is told about an encode while it runs. -/
inductive EncodeEvent where
  | started (command : String)
  | progress (fraction : Float)
  | succeeded (output : String)
  | failed (message : String)

/-- Where an encode stands. -/
inductive EncodeState where
  | pending
  | running
  | succeeded
  | failed
deriving DecidableEq, Repr

namespace EncodeState

def name : EncodeState → String
  | .pending => "pending"
  | .running => "running"
  | .succeeded => "succeeded"
  | .failed => "failed"

def isTerminal (s : EncodeState) : Bool := s == .succeeded || s == .failed

end EncodeState

/-- What a successful encode has made. -/
structure EncodeSummary where
  output : String
  command : String
  bytes : Nat
deriving DecidableEq, Repr

/-- How videos are encoded. -/
structure Encoder where
  tools : Registry
  settings : EncodeSettings
  timeout : Nat

/-- An encode that has ended: its events and states in order, and its result. -/
structure Encoded where
  events : List EncodeEvent
  states : List EncodeState
  result : Except Error EncodeSummary

namespace Encoder

/-- The time that a line of diagnostics reports. -/
def elapsedIn? (line : String) : Option Float :=
  (behind? "out_time=".toList line.toList).map fun cs => timecode (String.ofList cs)

/-- The fractions that lines tell, and the progress after them. -/
def progressOf (p : Progress) : List String → List Float × Progress
  | [] => ([], p)
  | line :: rest =>
    match elapsedIn? line with
    | none => progressOf p rest
    | some elapsed =>
      let (told, p) := p.observe elapsed
      let (later, p) := progressOf p rest
      (told.toList ++ later, p)

/-- The command of an encode. -/
def command (e : Encoder) (tool : String) (r : EncodeRequest) : Command :=
  { program := tool, arguments := r.arguments e.settings, timeout := e.timeout }

/-- A failed run of the encoder is a failure to encode. -/
def ofToolError : Error → Error
  | .tool _ reason => .encoding reason
  | e => e

/-- The size of the file that was made, which has to be there and not empty. -/
def outputSize (output : String) : Action (Except Error Nat) := do
  match ← Machine.metadata output with
  | .error _ => return .error (.encoding ("encoder produced no output: " ++ output))
  | .ok info =>
    if info.size == 0 then return .error (.encoding ("encoder produced an empty file: " ++ output))
    else return .ok info.size

/-- An encode that ended with an error. -/
def failing (events : List EncodeEvent) (states : List EncodeState) (e : Error) : Encoded :=
  ⟨events ++ [.failed e.message], states ++ [.failed], .error e⟩

/-- Runs the encoder once (`run_encode`). -/
def encode (e : Encoder) (r : EncodeRequest) : Action Encoded := do
  match e.tools.require "ffmpeg" with
  | .error missing => return failing [] [.pending] missing
  | .ok tool =>
    let command := e.command tool.path r
    let line := command.describe
    let (said, outcome) ← command.follow true
    let (told, progress) := progressOf (.ofTotal r.seconds) said
    let events := .started line :: told.map .progress
    let states := [.pending, .running]
    match outcome with
    | .error failure => return failing events states (ofToolError failure)
    | .ok _ =>
      match ← outputSize r.output with
      | .error failure => return failing events states failure
      | .ok bytes =>
        let last := progress.finish.1.toList.map .progress
        return ⟨events ++ last ++ [.succeeded r.output], states ++ [.succeeded],
          .ok ⟨r.output, line, bytes⟩⟩

end Encoder

end Slideshow
