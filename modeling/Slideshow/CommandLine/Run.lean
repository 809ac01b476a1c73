import Slideshow.CommandLine.Basic
import Slideshow.CommandLine.Report
import Slideshow.Config.File

/-!
# Running the program

One invocation of the program on a machine: its exit code and what it prints.

* `run` is the whole program (`main`); `perform` carries out its commands.
* `Failure` is why a command fails; only the errors of the library end in their report (`report`).

Out of scope: the log, the progress that is printed while a video is made, an interrupt from the
keyboard, a standard output that cannot be written, and the place that a panic names.
-/

namespace Slideshow.CommandLine

/-- The exit code of the program and what it has printed. -/
structure Answer where
  code : Nat := 0
  output : String := ""
  errors : String := ""
deriving DecidableEq, Repr

/-- Why an instruction fails. -/
inductive Failure where
  | reported (error : Error)
  /-- A file of effects that cannot be read. -/
  | effectsFile (path : String) (reason : OsError)
  /-- A recording that is not there. -/
  | missingFile (path : String)
  /-- The threads for the work cannot be started. -/
  | runtime (reason : OsError)
  | panicked (reason : String)

namespace Failure

/-- What the program says last. -/
def message : Failure → String
  | .reported error => Json.compact error.report.document
  | .effectsFile path reason =>
    "Failed to read effects file: " ++ Text.escaped path ++ "\n\nCaused by:\n    " ++ reason.message
  | .missingFile path => "File does not exist: " ++ Text.escaped path
  | .runtime reason => reason.message
  | .panicked reason => "thread 'main' panicked:\n" ++ reason

def ofHalt : Halt → Failure
  | .failed error => .reported error
  | .panicked reason => .panicked reason

/-- The exit code, and all that is printed about a failure. -/
def answer (f : Failure) : Answer :=
  match f with
  | .panicked _ => { code := 101, errors := f.message ++ "\n" }
  | _ => { code := 1, errors := "Error: " ++ f.message ++ "\n" }

end Failure

/-- Something tried for an invocation. -/
abbrev Attempt (α : Type) := ExceptT Failure (StateM Machine) α

namespace Attempt

/-- Something tried whose failure is reported. -/
def ofTrial {α : Type} (trial : Trial α) : Attempt α :=
  ExceptT.mk (do return (← trial.run).mapError .reported)

def ofExcept {α : Type} (r : Except Error α) : Attempt α := ofTrial (Trial.ofExcept r)

/-- Something tried that can panic; an error is reported. -/
def ofHalting {α : Type} (trial : ExceptT Halt (StateM Machine) α) : Attempt α :=
  ExceptT.mk (do return (← trial.run).mapError .ofHalt)

/-- Starts the threads for the work, unless that is refused. -/
def startRuntime : Attempt Unit :=
  ExceptT.mk (do return (← Machine.step fun t _ => .ok t).mapError .runtime)

end Attempt

/-! ## Instructions -/

/-- The effects of a render; a preset that is given on its own replaces the one among them. -/
def effectOptions (o : RenderOrder) : Attempt (Option EffectOptions) := do
  let options ← match o.effects with
    | none => pure none
    | some (.inline json) => some <$> Attempt.ofExcept (EffectOptions.ofJson json)
    | some (.file path) =>
      match ← (Machine.readText path : Action (Except OsError String)) with
      | .error reason => throw (.effectsFile path reason)
      | .ok json => some <$> Attempt.ofExcept (EffectOptions.ofJson json)
  return match o.preset with
    | none => options
    | some name => some { options.getD {} with preset := some name }

/-- Renders with a service that lives as long as the program. -/
def renderOnce (config : Config) (request : RenderRequest) :
    ExceptT Halt (StateM Machine) RenderOutcome := fun m =>
  match Service.ofConfig config m with
  | .error h => (.error h, m)
  | .ok s =>
    let (result, s) := (Service.render request).run s
    (result, s.machine)

def settings (path : Option String) : Attempt Config := Attempt.ofTrial (Config.loadOrDefault path)

def render (config : Option String) (o : RenderOrder) : Attempt String := do
  let options ← effectOptions o
  let config ← settings config
  Attempt.startRuntime
  let outcome ← Attempt.ofHalting (renderOnce config ⟨o.images, o.audio, options⟩)
  return if o.json then prettyLine outcome.document else outcomeText outcome

def listLedger (config : Option String) (json : Bool) : Attempt String := do
  let ledger : Ledger := ⟨(← settings config).storage.ledgerPath⟩
  Attempt.startRuntime
  let entries ← Attempt.ofTrial ledger.list
  return if json then prettyLine (ledgerDocument entries) else ledgerText ledger.path entries

/-- Measures a recording. Nothing stops that. -/
def measure (config : Option String) (path : String) (json : Bool) : Attempt String := do
  let config ← settings config
  Attempt.startRuntime
  if !(← (Machine.isPresent path : Action Bool)) then throw (.missingFile path)
  let probe := Probe.ofTools (.discover (← get) config.tools) (Service.probeTimeout config) false
  match ←
    (probe.estimate config.duration false path config.duration.fallbackSeconds : Action _) with
  | some estimate =>
    return if json then prettyLine estimate.document else estimateText path estimate
  | none => throw (.reported (.cancelled ("measuring " ++ path)))

def checkTools (config : Option String) : Attempt String := do
  let config ← settings config
  return toolsText (← (Registry.discover (← get) config.tools).checkAll)

/-- Reads and checks settings; those of no file are the defaults. -/
def validate (path : Option String) : Attempt String := do
  let config ← match path with
    | some path => Attempt.ofTrial (Config.load path)
    | none => pure {}
  Attempt.ofExcept config.check
  return configText config

def versionText : String := "slidecast 0.1.0\n"

/-- Carries out an instruction and gives what is printed when it succeeds. -/
def perform (i : Invocation) : Attempt String :=
  match i.instruction with
  | .render order => render i.config order
  | .effects json => return if json then prettyLine effectsDocument else effectsText
  | .describe category name =>
    return effectText category (← Attempt.ofExcept (describeEffect category name))
  | .preset name => return prettyLine (← Attempt.ofExcept (Preset.get name)).document
  | .ledger json => listLedger i.config json
  | .probe path json => measure i.config path json
  | .checkTools => checkTools i.config
  | .validate path => validate (path <|> i.config)
  | .version => return versionText

/-- What is printed before an instruction is carried out. -/
def announcement (i : Invocation) : String :=
  match i.instruction with
  | .validate path =>
    match path <|> i.config with
    | some path => "Validating config: " ++ Text.escaped path ++ "\n"
    | none => "No config file specified, using defaults\n"
  | _ => ""

/-! ## The program -/

def usageText : String :=
  "Usage: slidecast [OPTIONS] <COMMAND>\n\nCommands: " ++
    ", ".intercalate (Verb.all.map Verb.name) ++ "\n"

/-- What is answered when reading stops. -/
def Stop.answer : Stop → Answer
  | .usage => { code := 2, errors := usageText }
  | .version => { output := versionText }
  | .help => { output := usageText }

/-- Answers an invocation. -/
def respond (i : Invocation) : Action Answer := do
  match ← (perform i).run with
  | .ok text => return { output := announcement i ++ text }
  | .error failure => return { failure.answer with output := announcement i }

/-- The whole program. -/
def run (arguments : List String) : Action Answer :=
  match parse arguments with
  | .error stop => return stop.answer
  | .ok invocation => respond invocation

end Slideshow.CommandLine
