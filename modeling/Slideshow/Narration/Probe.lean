import Slideshow.Narration.Duration
import Slideshow.Text.Escaped
import Slideshow.Tool.Registry

/-!
# Measuring recordings

The length of a recording is asked for in tiers: what its container says, what is printed when it is
opened, its size, and a given length. The first usable answer counts, and nothing is asked after it.

* `Probe` is something that answers the first two questions; `Probe.ofTools` asks the tools.
* `Probe.estimate` (`estimate_detailed`) goes through the tiers. A watched one stands in a biased
  `select!` with the token, which is looked at before the first question and whenever the work is
  taken up again after waiting, and nowhere else: what is answered at once leads on to the next
  question.
-/

namespace Slideshow

/-- Something that can be asked for the length of a recording. -/
structure Probe where
  /-- What the container of a file says. -/
  duration : String → Trial Float
  /-- What is printed when a file is opened. -/
  scan : String → Trial Float

namespace Probe

/-- The command that prints what the container of a file says. -/
def durationCommand (tool path : String) (timeout : Nat) : Command :=
  { program := tool
    arguments := ["-v", "error", "-show_entries", "format=duration", "-of",
      "default=noprint_wrappers=1:nokey=1", path]
    timeout := timeout }

/-- The command that opens a file and decodes next to nothing of it. -/
def scanCommand (tool path : String) (timeout : Nat) : Command :=
  { program := tool
    arguments := ["-hide_banner", "-nostdin", "-i", path, "-t", "0.01", "-f", "null", "-"]
    timeout := timeout }

/-- What is wrong with an answer that tells no length. -/
def unreported (path answer : String) : Error :=
  .probe ("no duration reported for " ++ path ++ ": " ++ Text.escaped (Text.trim answer))

def undiagnosed (path : String) : Error := .probe ("no Duration line in ffmpeg output for " ++ path)

/-- The tools as a probe. Watched, their calls are stopped when the token fires. -/
def ofTools (tools : Registry) (timeout : Nat) (watched : Bool) : Probe where
  duration path := do
    let tool ← Trial.ofExcept (tools.require "ffprobe")
    let said ← (durationCommand tool.path path timeout).execute watched
    match probed? said.output with
    | some seconds => return seconds
    | none => throw (unreported path said.output)
  scan path := do
    let tool ← Trial.ofExcept (tools.require "ffmpeg")
    let said ← (scanCommand tool.path path timeout).capture watched
    match diagnosed? said.errors with
    | some seconds => return seconds
    | none => throw (undiagnosed path)

/-- Looks whether a watched action has to stop. -/
def mustStop (watched : Bool) : Action Bool := if watched then Machine.isCancelled else pure false

/-- Whether a watched action was stopped while it waited for an answer. -/
def wasStopped (watched : Bool) : Action Bool := fun m => (watched && m.noticed, m)

/-- The size of a file or directory, if it is there. -/
def sizeOf (path : String) : Action (Option Nat) := do
  match ← Machine.metadata path with
  | .ok info => return some info.size
  | .error _ => return none

/-- The length of a recording from the first tier that has one; a watched estimate has none when the
token was found to have fired. Reading the size is waited for. -/
def estimate (p : Probe) (c : DurationConfig) (watched : Bool) (path : String) (fallback : Float) :
    Action (Option DurationEstimate) := do
  if ← mustStop watched then return none
  let told ← (p.duration path).run
  if ← wasStopped watched then return none
  match usable? told with
  | some seconds => return some ⟨seconds, .probe⟩
  | none =>
    let printed ← (p.scan path).run
    if ← wasStopped watched then return none
    match usable? printed with
    | some seconds => return some ⟨seconds, .diagnostic⟩
    | none =>
      let size ← sizeOf path
      if ← mustStop watched then return none
      return some (unprobedEstimate size c fallback)

end Probe

end Slideshow
