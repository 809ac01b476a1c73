import Slideshow.Encode.Basic
import Slideshow.EventBus
import Slideshow.Graph.Compile
import Slideshow.Ledger.Store
import Slideshow.Render.Job
import Slideshow.Render.Request

/-!
# The render service

One request in, one video and one ledger entry out. A request that is not valid leaves no trace.
Every other one is a job, which is announced, runs step by step, and ends with success or with an
error that its record, its last event and the caller all have. A panic ends it where it is: its
workspace is removed, and nothing more is told.

* `Service.ofConfig` makes a service (`RenderService::new`).
* `Service.render` renders a request (`render`); `Service.run` works on its job (`run`).
* `Service.produce` is the work on one job, from measuring the narration to the ledger (`produce`).

Out of scope: renders that wait for one another (a slot is always free), the log, and a removal of
the workspace that fails.
-/

namespace Slideshow

/-- What others see of the service after a step: what was told in it, if anything, and the records
of the jobs. -/
structure Moment where
  told : Option Event
  jobs : List RenderJob

/-- The service: its settings, the tools it found, and what it has done. -/
structure Service where
  config : Config
  tools : Registry
  machine : Machine
  events : EventBus := .empty
  /-- The jobs, the oldest first. -/
  jobs : List RenderJob := []
  /-- What others have seen, one moment for each step that tells something or changes a record. -/
  moments : List Moment := []

/-- What a job has made. -/
structure RenderOutcome where
  job : JobId
  output : OutputFile
  effects : EffectSpec Float
  segmentDurations : List Float
  seconds : Float
  source : DurationSource
  processingMs : Nat

def RenderOutcome.document (o : RenderOutcome) : Document :=
  .table [("job_id", .string o.job.text), ("output_filename", .string o.output.filename),
    ("output_path", .string o.output.path), ("effects", o.effects.document),
    ("segment_durations", .list (o.segmentDurations.map .float)),
      ("total_duration", .float o.seconds),
    ("duration_source", .string o.source.name), ("processing_ms", .ofNat o.processingMs)]

/-- What the service can do. -/
abbrev Service.Action (α : Type) := StateM Service α

/-- What the service can do and what can stop early. -/
abbrev Service.Trial (α : Type) := ExceptT Halt (StateM Service) α

namespace Service

/-- How many renders can have a slot at once. -/
def maxSlots : Nat := 2305843009213693951

/-- What making too many slots says in a panic. -/
def tooManySlots : Halt :=
  .panicked "a semaphore may not have more than MAX_PERMITS permits (2305843009213693951)"

/-- A service that has done nothing yet. -/
def idle (config : Config) (machine : Machine) : Service :=
  { config := config, tools := .discover machine config.tools, machine := machine }

/-- Makes a service, unless there would be too many slots. -/
def ofConfig (config : Config) (machine : Machine) : Except Halt Service :=
  if maxSlots < max 1 config.jobs.maxConcurrent then .error tooManySlots
  else .ok (idle config machine)

/-! ## Parts -/

def probeTimeout (c : Config) : Nat := 1000 * c.jobs.probeTimeoutSecs

def encodeTimeout (c : Config) : Nat := 1000 * c.jobs.encodeTimeoutSecs

/-- The tools as a probe that stops when the token fires. -/
def probe (s : Service) : Probe := .ofTools s.tools (probeTimeout s.config) true

def merger (s : Service) : Merger where
  transcoder := .ofTools s.tools (encodeTimeout s.config)
  probe := s.probe
  duration := s.config.duration
  format := .ofConfig s.config.audio
  workRoot := s.config.storage.workDir
  fallback := s.config.duration.fallbackSeconds

def encoder (s : Service) : Encoder :=
  ⟨s.tools, .ofConfig s.config.video, encodeTimeout s.config⟩

def ledger (s : Service) : Ledger := ⟨s.config.storage.ledgerPath⟩

/-! ## Steps -/

/-- Does something on the machine. -/
def onMachine {α : Type} (action : Slideshow.Action α) : Action α := fun s =>
  let (a, m) := action s.machine
  (a, { s with machine := m })

/-- Tries something on the machine. -/
def tryOnMachine {α : Type} (trial : Slideshow.Trial α) : Trial α :=
  ExceptT.mk (do return (← onMachine trial.run).mapError .failed)

/-- The service with one more moment. -/
def seen (s : Service) (told : Option Event) : Service :=
  { s with moments := s.moments ++ [⟨told, s.jobs⟩] }

def broadcast (e : Event) : Action Unit := fun s =>
  ((), { s with events := s.events.broadcast e }.seen (some e))

/-- Changes the record of a job. -/
def updateJob (id : JobId) (change : RenderJob → RenderJob) : Action Unit := fun s =>
  let jobs := s.jobs.map fun j => if j.id == id then change j else j
  ((), { s with jobs := jobs }.seen none)

/-- Moves a job on; a move that it cannot make is left out. -/
def moveJob (id : JobId) (move : RenderJob → Except Error RenderJob) : Action Unit :=
  updateJob id fun j => (move j).toOption.getD j

/-- Adds a job. -/
def addJob (j : RenderJob) : Action Unit :=
  fun s => ((), { s with jobs := s.jobs ++ [j] }.seen none)

/-! ## The work on a job -/

/-- What is known when the narration is measured. -/
structure Narration where
  path : String
  seconds : Float
  source : DurationSource

/-- The narration of a job: its only part, or its parts joined in the workspace. -/
def narration (id : JobId) (parts : List String) (w : Workspace) : Trial Narration := do
  let s ← get
  match parts with
  | [part] =>
    let fallback := s.config.duration.fallbackSeconds
    match ← (onMachine (s.probe.estimate s.config.duration true part fallback) : Action _) with
    | none =>
      throw (.failed (.cancelled ("job " ++ id.text ++ " cancelled while measuring narration")))
    | some e => return ⟨part, e.seconds, e.source⟩
  | _ =>
    let merged ← tryOnMachine (s.merger.merge parts (w.file "narration.wav"))
    return ⟨merged.path, merged.seconds, merged.source⟩

/-- Tells what an encode has told. -/
def relay (id : JobId) : EncodeEvent → Action Unit
  | .started command => broadcast (.started id command)
  | .progress fraction => do
    updateJob id (·.updateProgress fraction)
    broadcast (.progress id fraction)
  | .succeeded _ | .failed _ => pure ()

/-- Encodes a video and tells how it goes; what is left of a failed one is removed. -/
def encode (id : JobId) (r : EncodeRequest) : Trial Unit := ExceptT.mk (do
  let encoded ← onMachine ((← get).encoder.encode r)
  encoded.events.forM (relay id)
  match encoded.result with
  | .ok _ => return .ok ()
  | .error e =>
    let _ ← onMachine (Machine.removeFile r.output)
    return .error (.failed e))

/-- The entry of a job in the ledger. -/
def entryFor (c : Config) (id : JobId) (r : ValidatedRequest) (output : OutputFile) (n : Narration)
    (durations : List Float) (recorded : Timestamp) (processingMs : Nat) : LedgerEntry where
  id := id
  time := recorded
  images := List.zipWith ImageSummary.ofPath r.images r.imageSizes
  audio := .ofPaths r.audio r.audioBytes n.seconds
  effects := r.effects
  outputFilename := output.filename
  outputPath := .text output.path
  processingMs := processingMs
  settings := {
    width := c.video.width
    height := c.video.height
    fps := c.video.fps
    videoCodec := c.video.videoCodec
    crf := c.video.crf
    preset := c.video.preset
    segmentDurations := durations
    durationSource := n.source.name }

/-- Makes the directory of the video. -/
def makeOutputDirectory (output : OutputFile) : Trial Unit :=
  match Path.parent? output.path with
  | some d => tryOnMachine (Action.orSystem (Machine.makeDirectories d) ("create output dir " ++ d))
  | none => pure ()

/-- The work on a job in its workspace (`produce`): the narration is measured and split, the graph
is compiled, the video is encoded and its entry is added to the ledger. -/
def produce (id : JobId) (r : ValidatedRequest) (output : OutputFile) (w : Workspace) :
    Trial RenderOutcome := do
  let narration ← narration id r.audio w
  let durations ← ExceptT.mk
    (pure ((segmentDurations narration.seconds r.images.length).mapError .failed))
  (updateJob id (·.setTiming narration.path durations) : Action Unit)
  let config := (← get).config
  let graph ← ExceptT.mk (pure (Graph.compile r.images durations (.ofConfig config) r.effects))
  makeOutputDirectory output
  encode id ⟨graph, narration.path, output.path, narration.seconds⟩
  let processingMs ← (onMachine Machine.elapsed : Action Nat)
  let recorded ← (onMachine Machine.now : Action Timestamp)
  let entry := entryFor config id r output narration durations recorded processingMs
  tryOnMachine ((← get).ledger.append entry)
  return ⟨id, output, r.effects, durations, narration.seconds, narration.source, processingMs⟩

/-- Removes the workspace after the work in it, also after a panic; a failure to remove it is not
told. -/
def closingAfter {α : Type} (w : Workspace) (trial : Trial α) : Trial α :=
  ExceptT.mk (do
    let result ← trial.run
    let _ ← onMachine w.close.run
    return result)

/-- Starts a job, unless the token has fired, and works on it in a workspace (`run`). -/
def run (id : JobId) (r : ValidatedRequest) (output : OutputFile) : Trial RenderOutcome := do
  if ← (onMachine Machine.isCancelled : Action Bool) then
    throw (.failed (.cancelled ("job " ++ id.text ++ " cancelled while queued")))
  let now ← (onMachine Machine.now : Action Timestamp)
  (moveJob id (·.start now) : Action Unit)
  let workDir := (← get).config.storage.workDir
  let w ← tryOnMachine (Workspace.create workDir ("job-" ++ id.short ++ "-"))
  closingAfter w (produce id r output w)

/-- Ends a job as its work has ended; a panic does not come back. -/
def conclude (id : JobId) : Except Halt RenderOutcome → Action Unit
  | .ok outcome => do
    let now ← onMachine Machine.now
    moveJob id (·.succeed now)
    broadcast (.completed id outcome.output.filename)
  | .error (.failed e) => do
    let now ← onMachine Machine.now
    moveJob id (·.fail e.message now)
    broadcast (.failed id e.kind e.message)
  | .error (.panicked _) => pure ()

/-- Renders a request (`render`). -/
def render (request : RenderRequest) : Trial RenderOutcome := ExceptT.mk (do
  let s ← get
  match request.validate s.machine.files s.machine.here s.config.input s.config.effects with
  | .error e => return .error (.failed e)
  | .ok r =>
    let id ← onMachine Machine.newJobId
    let asked ← onMachine Machine.now
    let filename := OutputFile.nameFor id asked
    let output : OutputFile := ⟨filename, Path.join s.config.storage.outputDir filename⟩
    addJob { id := id, images := r.images, effects := r.effects, output := output }
    broadcast (.queued id r.images.length)
    let result ← (run id r output).run
    conclude id result
    return result)

end Service

end Slideshow
