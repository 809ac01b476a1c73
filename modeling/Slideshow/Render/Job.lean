import Slideshow.Effect.Spec
import Slideshow.Json.Printer
import Slideshow.JobId
import Slideshow.Scalar
import Slideshow.Timestamp

/-!
# Render jobs

The record of one job: what it is made of, where it stands, how far it has come and how it ended.

* `start`, `succeed` and `fail` move a job on; a move that is not allowed is an error and changes
  nothing.
* `updateProgress` only ever raises the progress of a running job (`update_progress`).
-/

namespace Slideshow

/-- Where a job stands. -/
inductive JobStatus where
  | queued
  | running
  | succeeded
  | failed
deriving DecidableEq, Repr

namespace JobStatus

def name : JobStatus → String
  | .queued => "queued"
  | .running => "running"
  | .succeeded => "succeeded"
  | .failed => "failed"

/-- The name inside messages. -/
def title : JobStatus → String
  | .queued => "Queued"
  | .running => "Running"
  | .succeeded => "Succeeded"
  | .failed => "Failed"

def isTerminal (s : JobStatus) : Bool := s == .succeeded || s == .failed

end JobStatus

/-- Where the video goes. -/
structure OutputFile where
  filename : String
  path : String
deriving DecidableEq, Repr

namespace OutputFile

def document (o : OutputFile) : Document :=
  .table [("filename", .string o.filename), ("path", .string o.path)]

/-- The name of a video: when it was asked for, and the first digits of its job. -/
def nameFor (id : JobId) (asked : Timestamp) : String :=
  "slideshow_" ++ asked.compact ++ "_" ++ id.short ++ ".mp4"

end OutputFile

/-- A job. -/
structure RenderJob where
  id : JobId
  images : List String
  effects : EffectSpec Float
  output : OutputFile
  /-- The narration that is encoded: the joined one if there are several parts. -/
  audio : Option String := none
  segmentDurations : List Float := []
  status : JobStatus := .queued
  progress : Float := 0
  error : Option String := none
  startedAt : Option Timestamp := none
  completedAt : Option Timestamp := none

namespace RenderJob

/-- A move that a job cannot make. -/
inductive Misstep where
  | transition (id : JobId) (source target : JobStatus)
  | failure (id : JobId) (status : JobStatus)

def Misstep.message : Misstep → String
  | .transition id source target =>
    "job " ++ id.text ++ ": invalid transition " ++ source.title ++ " -> " ++ target.title
  | .failure id status => "job " ++ id.text ++ " already " ++ status.title ++ ", cannot fail"

def Misstep.error (s : Misstep) : Error := .internal s.message

/-- A queued job starts. -/
def start (j : RenderJob) (now : Timestamp) : Except Error RenderJob :=
  if j.status == .queued then .ok { j with status := .running, startedAt := some now }
  else .error (Misstep.transition j.id j.status .running).error

/-- Records the narration and the length of each segment. -/
def setTiming (j : RenderJob) (audio : String) (durations : List Float) : RenderJob :=
  { j with audio := some audio, segmentDurations := durations }

/-- Raises the progress of a running job; the most is one. -/
def updateProgress (j : RenderJob) (fraction : Float) : RenderJob :=
  if j.status == .running && fraction > j.progress then
    { j with progress := Scalar.minimum fraction 1 }
  else j

/-- A running job succeeds. -/
def succeed (j : RenderJob) (now : Timestamp) : Except Error RenderJob :=
  if j.status == .running then
    .ok { j with status := .succeeded, progress := 1, completedAt := some now }
  else .error (Misstep.transition j.id j.status .succeeded).error

/-- A job that has not ended fails. -/
def fail (j : RenderJob) (error : String) (now : Timestamp) : Except Error RenderJob :=
  if j.status.isTerminal then .error (Misstep.failure j.id j.status).error
  else .ok { j with status := .failed, error := some error, completedAt := some now }

end RenderJob

end Slideshow
