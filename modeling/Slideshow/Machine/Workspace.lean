import Slideshow.Machine.Basic

/-!
# Workspaces

A directory with a new name under a root, for what is needed only for a while.

* `Workspace.create` makes one, and the root if it is missing (`new_in`).
* `Workspace.close` removes it with everything in it (`close`, or the end of its scope).
-/

namespace Slideshow

/-- A directory for what is needed only for a while. -/
structure Workspace where
  path : String
deriving DecidableEq, Repr

namespace Workspace

/-- Makes a workspace under a root; its name begins as told. -/
def create (root opening : String) : Trial Workspace := do
  Action.orSystem (Machine.makeDirectories root) ("create work dir " ++ root)
  return ⟨← Action.orSystem (Machine.makeTemporaryDirectory root opening)
    ("create workspace in " ++ root)⟩

/-- The path of a file in a workspace. -/
def file (w : Workspace) (name : String) : String := Path.join w.path name

/-- Removes a workspace and tells of a failure. -/
def close (w : Workspace) : Trial Unit :=
  Action.orSystem (Machine.removeDirectory w.path) ("remove workspace " ++ w.path)

/-- Tries something and then removes the workspace; a failure to remove it is not told. -/
def closingAfter {α : Type} (w : Workspace) (trial : Trial α) : Trial α :=
  ExceptT.mk (do
    let result ← trial.run
    let _ ← w.close.run
    return result)

end Workspace

end Slideshow
