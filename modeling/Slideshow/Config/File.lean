import Slideshow.Config.Document
import Slideshow.Machine.Basic

/-!
# Settings files

* `Config.load` reads a file of settings and refuses what no video can be made with (`load`).
* `Config.loadOrDefault` takes a given file, or the first of the usual ones that is there, or the
  defaults (`load_or_default`).
-/

namespace Slideshow.Config

/-- Reads the settings of a file. -/
def load (path : String) : Trial Config := do
  let text ← Action.orSystem (Machine.readText path) ("read config " ++ path)
  let config ← Trial.ofExcept (ofToml text)
  Trial.ofExcept config.check
  return config

/-- Where settings are looked for, one place after another. -/
def usualPaths : List String :=
  ["./slidecast.toml", "~/.config/slidecast/config.toml", "/etc/slidecast/config.toml"]

/-- A path with the home directory in place of a tilde at its head. -/
def fromHome (home : Option String) (path : String) : String :=
  match home, path.toList with
  | some home, '~' :: '/' :: rest => home ++ "/" ++ String.ofList rest
  | _, _ => path

/-- The first of some paths at which there is something. -/
def firstPresent : List String → Action (Option String)
  | [] => pure none
  | path :: rest => do if ← Machine.isPresent path then pure (some path) else firstPresent rest

/-- The settings of a given file, of the first usual one, or the defaults. -/
def loadOrDefault (path : Option String) : Trial Config := do
  match path with
  | some path => load path
  | none =>
    let home := (← get).home
    match ← (firstPresent (usualPaths.map (fromHome home)) : Action (Option String)) with
    | some path => load path
    | none => return {}

end Slideshow.Config
