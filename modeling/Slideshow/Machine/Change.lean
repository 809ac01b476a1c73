import Slideshow.Machine.FileTree

/-!
# Differences between trees

* `FileTree.changes` lists what has to be done to a tree so that it becomes another one: what is
  gone is removed, then directories and files are made, each below what was made before it.
-/

namespace Slideshow

/-- What is done at one place of a tree. -/
inductive Change where
  | remove (place : Location)
  | makeDirectory (place : Location)
  | write (place : Location) (content : Content)

namespace FileTree

/-- The removal of a file that another tree does not have. -/
def removal? (after : FileTree) : Location × Node → Option Change
  | (l, .file _) => if (after.get? l).isNone then some (.remove l) else none
  | (_, _) => none

/-- What makes something that another tree does not have, or has otherwise. -/
def addition? (before : FileTree) : Location × Node → Option Change
  | (l, .directory) => if (before.get? l).isNone then some (.makeDirectory l) else none
  | (l, .file c) =>
    match before.get? l with
    | some (.file old) => if old = c then none else some (.write l c)
    | _ => some (.write l c)
  | (_, .program _) => none

/-- What has to be done so that one tree becomes the other. -/
def changes (before after : FileTree) : List Change :=
  before.nodes.filterMap after.removal? ++
    (after.nodes.mergeSort fun a b => a.1.length ≤ b.1.length).filterMap before.addition?

end FileTree

end Slideshow
