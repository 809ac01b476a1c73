import Slideshow.CommandLine.Basic
import Slideshow.Config.File

/-!
# What a command line names

The files that an invocation can look at: those that it names, the settings files, and the places
that the settings name.

* `Invocation.paths` needs the command line only, `Config.paths` the settings.
* `absolute` is where a path leads when nothing on its way is a link.
-/

namespace Slideshow

namespace CommandLine

/-- The files that an order names. -/
def RenderOrder.paths (o : RenderOrder) : List String :=
  o.images ++ o.audio ++
    match o.effects with
    | some (.file path) => [path]
    | _ => []

/-- The files that an instruction names. -/
def Instruction.paths : Instruction → List String
  | .render order => order.paths
  | .probe path _ => [path]
  | .validate path => path.toList
  | _ => []

/-- The files that an invocation names, and where its settings are looked for. -/
def Invocation.paths (i : Invocation) (home : Option String) : List String :=
  i.config.toList ++ Config.usualPaths.map (Config.fromHome home) ++ i.instruction.paths

end CommandLine

/-- The places that settings name. -/
def Config.paths (c : Config) : List String :=
  [c.storage.ledgerPath, c.storage.outputDir, c.storage.workDir] ++ c.tools.ffmpegPath.toList ++
    c.tools.ffprobePath.toList

/-- Where a path leads from a directory; the name `..` goes up. -/
def FileTree.absolute (here : Location) (path : String) : Location :=
  (names path).foldl
    (fun l name => if name == "." then l else if name == ".." then l.dropLast else l ++ [name])
    (start here path)

end Slideshow
