import Slideshow.Config
import Slideshow.Tool.Process

/-!
# Tools

The two programs that the library uses, and where they are found: at a configured path, whatever is
there, or in one of the directories where programs are searched for.

* `Registry.discover` finds the tools of a machine (`discover`).
* `Registry.require` is the path of a tool, or the error that it is missing (`require`).
* `Registry.checkAll` asks every tool for its version (`check_all`, `detect_version`).
-/

namespace Slideshow

/-- The programs that the library uses. -/
inductive Tool where
  | ffmpeg
  | ffprobe
deriving DecidableEq, Repr

namespace Tool

def name : Tool → String
  | .ffmpeg => "ffmpeg"
  | .ffprobe => "ffprobe"

def all : List Tool := [.ffmpeg, .ffprobe]

end Tool

/-- The paths of the tools that were found. -/
structure Registry where
  ffmpeg : Option String := none
  ffprobe : Option String := none
deriving DecidableEq, Repr

/-- A tool and its path. -/
structure ToolConfig where
  name : String
  path : String
deriving DecidableEq, Repr

def ToolConfig.document (t : ToolConfig) : Document :=
  .table [("name", .string t.name), ("path", .string t.path)]

/-- What is known about a tool. -/
structure ToolInfo where
  name : String
  path : Option String
  /-- The first line of what it says about its version. -/
  version : Option String
deriving DecidableEq, Repr

namespace ToolInfo

def isAvailable (t : ToolInfo) : Bool := t.path.isSome

def document (t : ToolInfo) : Document :=
  .table [("name", .string t.name), ("available", .bool t.isAvailable),
    ("version", Document.orNull .string t.version), ("path", Document.orNull .string t.path)]

end ToolInfo

namespace Registry

def path? (r : Registry) : Tool → Option String
  | .ffmpeg => r.ffmpeg
  | .ffprobe => r.ffprobe

/-- The path of a tool with some name, if there is such a tool and it was found. -/
def find? (r : Registry) (name : String) : Option String :=
  (Tool.all.find? (·.name == name)).bind r.path?

def has (r : Registry) (name : String) : Bool := (r.find? name).isSome

/-- The path of a tool, which must have been found. -/
def require (r : Registry) (name : String) : Except Error ToolConfig :=
  match r.find? name with
  | some path => .ok ⟨name, path⟩
  | none => .error (.tool name (name ++ " not found; is it installed and in PATH?"))

/-- The first program with some name in a list of directories. -/
def search (m : Machine) (name : String) : List String → Option String
  | [] => none
  | directory :: rest =>
    let path := Path.join directory name
    match m.programAt path with
    | .ok _ => some path
    | .error _ => search m name rest

/-- Where a tool is: at its configured path if something is there, else where programs are searched
for. -/
def locate (m : Machine) (tool : Tool) (configured : Option String) : Option String :=
  match configured with
  | some path =>
    if m.files.isPresent m.here path then some path else search m tool.name m.searchPath
  | none => search m tool.name m.searchPath

/-- Finds the tools of a machine. -/
def discover (m : Machine) (c : ToolsConfig) : Registry :=
  ⟨locate m .ffmpeg c.ffmpegPath, locate m .ffprobe c.ffprobePath⟩

/-- The first line of what a program says about its version, if it ends well. -/
def version (path : String) : Action (Option String) := do
  match ← Machine.run path ["-version"] false true none with
  | .ok (.finished run) =>
    return if run.ending.isSuccess then
      (Text.lines (Text.decodeLossy run.output)).head?.map String.ofList
    else none
  | _ => return none

/-- What is known about one tool. -/
def check (r : Registry) (tool : Tool) : Action ToolInfo := do
  match r.path? tool with
  | some path => return ⟨tool.name, some path, ← version path⟩
  | none => return ⟨tool.name, none, none⟩

/-- What is known about every tool. -/
def checkAll (r : Registry) : Action (List ToolInfo) := Tool.all.mapM r.check

end Registry

end Slideshow
