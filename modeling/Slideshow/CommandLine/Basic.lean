import Slideshow.CommandLine.Grammar

/-!
# Invocations

What the program can be told to do, and how it is told.

* `Verb` is a word that opens a level, with what may be given there.
* `parse` reads a command line (`parse`, as it is derived for `Cli`).
-/

namespace Slideshow.CommandLine

/-- Where the effects of a render come from. -/
inductive EffectsSource where
  | inline (json : String)
  | file (path : String)
deriving DecidableEq, Repr

/-- What is to be rendered. -/
structure RenderOrder where
  images : List String
  audio : List String
  effects : Option EffectsSource := none
  preset : Option String := none
  json : Bool := false
deriving DecidableEq, Repr

/-- What the program is told to do. -/
inductive Instruction where
  | render (order : RenderOrder)
  | effects (json : Bool)
  | describe (category name : String)
  | preset (name : String)
  | ledger (json : Bool)
  | probe (path : String) (json : Bool)
  | checkTools
  | validate (path : Option String)
  | version
deriving DecidableEq, Repr

/-- A command line: what to do, and with which settings file. -/
structure Invocation where
  config : Option String := none
  instruction : Instruction
deriving DecidableEq, Repr

/-! ## What may be given -/

def config : OptionRule := ⟨"config", some 'c', .one .path⟩

/-- Asks for more to be logged; the answers are the same. -/
def verbose : OptionRule := ⟨"verbose", some 'v', .flag⟩

def help : OptionRule := ⟨"help", some 'h', .help⟩

def json : OptionRule := { name := "json", kind := .flag }

/-- The options of every level that has no settings file of its own. -/
def shared : List OptionRule := [config, verbose, help]

/-- The level of the whole command line. -/
def top : Level where
  options := shared ++ [⟨"version", some 'V', .version⟩]
  isOpening := true

/-- A word that opens a level, and what it means with what was given there. -/
structure Verb where
  name : String
  level : Level
  instruction : Given → Except Stop Instruction

/-- The source of effects: a text, a file, or none, but not both. -/
def effectsSource (g : Given) : Except Stop (Option EffectsSource) :=
  match g.value? "effects", g.value? "effects-file" with
  | some _, some _ => .error .usage
  | some json, none => .ok (some (.inline json))
  | none, some path => .ok (some (.file path))
  | none, none => .ok none

/-- A render needs an image and a narration. -/
def renderOrder (g : Given) : Except Stop RenderOrder :=
  match effectsSource g with
  | .error stop => .error stop
  | .ok effects =>
    if g.flag "image" && g.flag "audio" then
      .ok ⟨g.values "image", g.values "audio", effects, g.value? "preset", g.flag "json"⟩
    else .error .usage

namespace Verb

def render : Verb where
  name := "render"
  level := { options := shared ++ [⟨"image", some 'i', .many .path⟩,
    ⟨"audio", some 'a', .many .path⟩, { name := "effects", kind := .one .text },
    { name := "effects-file", kind := .one .path },
    { name := "preset", kind := .one .text }, json] }
  instruction g := (renderOrder g).map .render

def effects : Verb where
  name := "effects"
  level := { options := shared ++ [json] }
  instruction g := .ok (.effects (g.flag "json"))

def describe : Verb where
  name := "describe"
  level := { options := shared, places := [.text, .text] }
  instruction g :=
    match g.words with
    | [category, name] => .ok (.describe category name)
    | _ => .error .usage

def preset : Verb where
  name := "preset"
  level := { options := shared, places := [.text] }
  instruction g :=
    match g.words with
    | [name] => .ok (.preset name)
    | _ => .error .usage

def ledger : Verb where
  name := "ledger"
  level := { options := shared ++ [json] }
  instruction g := .ok (.ledger (g.flag "json"))

def probe : Verb where
  name := "probe"
  level := { options := shared ++ [json], places := [.path] }
  instruction g :=
    match g.words with
    | [path] => .ok (.probe path (g.flag "json"))
    | _ => .error .usage

def checkTools : Verb where
  name := "check-tools"
  level := { options := shared }
  instruction _ := .ok .checkTools

/-- The settings file to be validated is a word here. -/
def validate : Verb where
  name := "validate"
  level := { options := [verbose, help], places := [.path] }
  instruction g := .ok (.validate g.words.head?)

def version : Verb where
  name := "version"
  level := { options := shared }
  instruction _ := .ok .version

def all : List Verb :=
  [render, effects, describe, preset, ledger, probe, checkTools, validate, version]

def find? (name : String) : Option Verb := all.find? (·.name == name)

end Verb

/-! ## Reading -/

/-- Whether there is help on what some words name: the program, one of its levels or the help
itself. -/
def hasHelp : List String → Bool
  | [] => true
  | [name] => name == "help" || (Verb.find? name).isSome
  | _ => false

/-- Why reading stops at a word that opens no level: it may ask for help. -/
def stopAt (word : String) (rest : List String) : Stop :=
  if word == "help" && hasHelp rest then .help else .usage

/-- Reads a command line. The settings file that is given last counts. -/
def parse (arguments : List String) : Except Stop Invocation :=
  match top.read {} arguments with
  | .error stop => .error stop
  | .ok (_, []) => .error .usage
  | .ok (g, word :: rest) =>
    match Verb.find? word with
    | none => .error (stopAt word rest)
    | some verb =>
      match verb.level.read {} rest with
      | .error stop => .error stop
      | .ok (h, _) =>
        (verb.instruction h).map fun i => ⟨h.value? "config" <|> g.value? "config", i⟩

end Slideshow.CommandLine
