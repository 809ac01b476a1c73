import Slideshow.CommandLine.Run
import Slideshow.CommandLine.Snapshot
import Slideshow.Machine.Change
import Std.Time.DateTime.Timestamp

/-!
# The program

`main` takes a snapshot of the files that a command line can look at, runs the program on it, does
to the disk what was done to the snapshot, and prints the answer. A snapshot has no programs: what
needs a tool says that it is missing.
-/

namespace Slideshow.Main

/-- What is at a path. -/
def nodeAt (path : String) : IO (Option Node) := do
  try
    return some (.file (.ofBytes (← IO.FS.readBinFile path).toList))
  catch _ =>
    try
      let _ ← IO.FS.realPath (path ++ "/.")
      return some .directory
    catch _ => return none

/-- Adds what is at some places, and on the way to them, to a snapshot. -/
def look (t : FileTree) (places : List Location) : IO FileTree :=
  (places.flatMap fun l => (List.range l.length).map fun i => l.take (i + 1)).foldlM
    (fun t l => do
      if (t.get? l).isSome then return t
      match ← nodeAt (FileTree.pathOf l) with
      | some node => return t.put l node
      | none => return t) t

/-- Adds what a command line can look at to the snapshot of a machine. -/
def lookFor (m : Machine) (arguments : List String) : IO Machine := do
  match CommandLine.parse arguments with
  | .error _ => return m
  | .ok i =>
    let files ← look m.files ((i.paths m.home).map (FileTree.absolute m.here))
    let m := { m with files := files }
    match ((Config.loadOrDefault i.config).run m).1 with
    | .error _ => return m
    | .ok c => return { m with files := ← look files (c.paths.map (FileTree.absolute m.here)) }

/-- Does to the disk what was done to a snapshot. A file is written beside its place and then takes
it. -/
def apply : Change → IO Unit
  | .remove l => IO.FS.removeFile (FileTree.pathOf l)
  | .makeDirectory l => IO.FS.createDirAll (FileTree.pathOf l)
  | .write l c => do
    let beside := FileTree.pathOf l ++ ".new"
    IO.FS.writeBinFile beside ⟨c.toBytes.toArray⟩
    IO.FS.rename beside (FileTree.pathOf l)

/-- The circumstances of one run, with some random bytes. -/
def circumstances : IO Circumstances := do
  let bytes ← IO.getRandomBytes 16
  let random := bytes.toList.foldl (fun n b => 256 * n + b.toNat) 0
  let now ← Std.Time.Timestamp.now
  return {
    draw := fun clock attempt => random + 1000003 * clock + attempt
    jobId := fun clock => .ofRandom (random + clock)
    time := fun _ => ⟨now.val.second.val, now.val.nano.val.toNat⟩ }

end Slideshow.Main

open Slideshow

/-- Runs the program on the disk. -/
def main (arguments : List String) : IO UInt32 := do
  let here := (FileTree.names (← IO.FS.realPath ".").toString).filter FileTree.isName
  let m : Machine := {
    files := FileTree.putDirectories {} here
    here := here
    named := List.all_eq_true.mpr fun _ h => (List.mem_filter.mp h).2
    home := ← IO.getEnv "HOME"
    circumstances := ← Main.circumstances }
  let before ← Main.lookFor m arguments
  let (answer, after) := CommandLine.run arguments before
  (before.files.changes after.files).forM Main.apply
  IO.print answer.output
  IO.eprint answer.errors
  return answer.code.toUInt32
