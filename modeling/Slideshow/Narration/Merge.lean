import Slideshow.Machine.Workspace
import Slideshow.Narration.Format
import Slideshow.Narration.Probe

/-!
# Joining narrations

Several parts of a narration become one file. A single part is copied. Of several parts, each is
converted to one format in a workspace, one after another; a manifest lists them in order; and one
pass joins what the manifest lists.

* `Transcoder` is something that converts and joins (`normalize`, `concat`); `Transcoder.ofTools`
  has the tools do it.
* `manifest` lists names, each as one token (`manifest_contents`).
* `Merger.merge` joins parts and measures the result (`concatenate`, `merge`). It looks at the token
  before each pass and before it measures; a pass looks at it by itself.
-/

namespace Slideshow

/-- Something that converts and joins recordings. Both stop when the token fires. -/
structure Transcoder where
  /-- Converts a file to a format, into another file. -/
  normalize : (input output : String) → CanonicalAudio → Trial Unit
  /-- Joins what a manifest lists into a file, with a codec. -/
  concat : (manifest output codec : String) → Trial Unit

namespace Transcoder

/-- The command that converts a file. -/
def normalizeCommand (tool : String) (timeout : Nat) (input output : String)
    (format : CanonicalAudio) :
    Command :=
  { program := tool
    arguments := ["-hide_banner", "-nostdin", "-y", "-i", input, "-vn", "-ar",
      toString format.sampleRate, "-ac", toString format.channels, "-c:a", format.codec, output]
    timeout := timeout }

/-- The command that joins what a manifest lists. -/
def concatCommand (tool : String) (timeout : Nat) (manifest output codec : String) : Command :=
  { program := tool
    arguments := ["-hide_banner", "-nostdin", "-y", "-f", "concat", "-safe", "0", "-i", manifest,
      "-vn", "-c:a", codec, output]
    timeout := timeout }

/-- Runs a command to its end, stopping it when the token fires. -/
def runToEnd (c : Command) : Trial Unit := ExceptT.mk (do
  return (← c.follow true).2.map fun _ => ())

/-- The tools as a transcoder. -/
def ofTools (tools : Registry) (timeout : Nat) : Transcoder where
  normalize input output format := do
    let tool ← Trial.ofExcept (tools.require "ffmpeg")
    runToEnd (normalizeCommand tool.path timeout input output format)
  concat manifest output codec := do
    let tool ← Trial.ofExcept (tools.require "ffmpeg")
    runToEnd (concatCommand tool.path timeout manifest output codec)

end Transcoder

/-! ## The manifest -/

/-- One line of a manifest: a name between single quotes. -/
def manifestLine (name : List Char) : List Char :=
  "file ".toList ++ Command.quoted name ++ ['\n']

/-- The text that lists names in order. -/
def manifest (names : List String) : String :=
  String.ofList (names.flatMap fun n => manifestLine n.toList)

def manifestName : String := "concat.txt"

/-- The name of the converted part with some number. -/
def partName (i : Nat) : String := "part" ++ Decimal.padded 3 i ++ ".wav"

/-! ## Joining -/

/-- A joined narration. -/
structure Merged where
  path : String
  seconds : Float
  parts : Nat
  source : DurationSource

/-- How narrations are joined. -/
structure Merger where
  transcoder : Transcoder
  probe : Probe
  duration : DurationConfig
  format : CanonicalAudio
  workRoot : String
  fallback : Float

/-- What is wrong with a file that is given as a part. -/
inductive FileFault where
  | missing
  | notFile
  | isEmpty
deriving DecidableEq, Repr

/-- What is told about a file of some kind. -/
def FileFault.message (kind path : String) : FileFault → String
  | .missing => kind ++ " file not found: " ++ path
  | .notFile => kind ++ " path is not a file: " ++ path
  | .isEmpty => kind ++ " file is empty: " ++ path

/-- The size of a file that is there and not empty. -/
def fileSize (t : FileTree) (here : Location) (path : String) : Except FileFault Nat :=
  match t.metadata here path with
  | .error _ => .error .missing
  | .ok info =>
    if !info.isFile then .error .notFile
    else if info.size == 0 then .error .isEmpty
    else .ok info.size

/-- The first thing that is wrong with parts. -/
def partsFault? (t : FileTree) (here : Location) (parts : List String) : Option String :=
  if parts.isEmpty then some "no audio files supplied"
  else parts.findSome? fun path =>
    match fileSize t here path with
    | .ok _ => none
    | .error f => some (f.message "audio" path)

namespace Merger

/-- The failure that the token has fired. -/
def cancelled (stage : String) : Error := .cancelled ("narration merge cancelled while " ++ stage)

/-- Goes on unless the token has fired. -/
def unlessCancelled (stage : String) : Trial Unit := do
  if ← (Machine.isCancelled : Action Bool) then throw (cancelled stage)

/-- Converts parts from number `i` on and gives the names of what was made. -/
def convert (g : Merger) (w : Workspace) (i : Nat) : List String → Trial (List String)
  | [] => return []
  | path :: rest => do
    unlessCancelled "converting narration parts"
    g.transcoder.normalize path (w.file (partName i)) g.format
    return partName i :: (← g.convert w (i + 1) rest)

/-- Joins several parts in a workspace. -/
def join (g : Merger) (parts : List String) (output : String) (w : Workspace) : Trial Unit := do
  let names ← g.convert w 0 parts
  let list := w.file manifestName
  Action.orSystem (Machine.write list (.ofText (manifest names))) ("write manifest " ++ list)
  unlessCancelled "joining narration parts"
  g.transcoder.concat list output (outputCodec output)

/-- Copies a single part, unless it is the output itself. -/
def copySingle (part output : String) : Trial Unit := do
  if !(← (Machine.isSameFile part output : Action Bool)) then
    Action.orSystem (Machine.copy part output) ("copy " ++ part ++ " to " ++ output)

/-- Makes the directory of a file. -/
def makeParent (path context : String) : Trial Unit :=
  match Path.parent? path with
  | some parent =>
    if parent.isEmpty then pure ()
    else Action.orSystem (Machine.makeDirectories parent) (context ++ " " ++ parent)
  | none => pure ()

/-- Refuses parts that cannot be joined. -/
def checkParts (parts : List String) : Trial Unit := fun m =>
  match partsFault? m.files m.here parts with
  | some reason => (.error (.validation reason), m)
  | none => (.ok (), m)

/-- Makes one file of parts, in order. -/
def produce (g : Merger) (parts : List String) (output : String) : Trial Unit := do
  checkParts parts
  makeParent output "create"
  match parts with
  | [part] => copySingle part output
  | _ =>
    let w ← Workspace.create g.workRoot "concat-"
    w.closingAfter (g.join parts output w)

/-- Makes one file of parts, in order, and measures it. -/
def merge (g : Merger) (parts : List String) (output : String) : Trial Merged := do
  g.produce parts output
  match ← (g.probe.estimate g.duration true output g.fallback : Action _) with
  | none => throw (cancelled "measuring merged narration")
  | some e => return ⟨output, e.seconds, parts.length, e.source⟩

end Merger

end Slideshow
