/-!
# Options and words

How the arguments of a command line are read at one level: the level has options, which begin with a
dash, and places for words. Reading goes from left to right and stops at the first thing that is
wrong, or that asks for help or the version.

* `Level.read` reads arguments. At a level that opens others it stops in front of the first word.
* `Given.flag`, `Given.value?` and `Given.values` are what was given for an option.
* What follows two dashes alone is words.
-/

namespace Slideshow.CommandLine

/-- Which values are accepted. -/
inductive ValueKind where
  /-- Any text. -/
  | text
  /-- A path, which is not empty. -/
  | path
deriving DecidableEq, Repr

def ValueKind.accepts : ValueKind → String → Bool
  | .text, _ => true
  | .path, value => !value.isEmpty

/-- What an option does. -/
inductive OptionKind where
  /-- It is there or not. -/
  | flag
  /-- It has a value. -/
  | one (kind : ValueKind)
  /-- It has a value each time it is given. -/
  | many (kind : ValueKind)
  | version
  | help
deriving DecidableEq, Repr

/-- An option: its name behind two dashes, and perhaps its letter behind one. -/
structure OptionRule where
  name : String
  letter : Option Char := none
  kind : OptionKind
deriving DecidableEq, Repr

/-- What may be given at one level. -/
structure Level where
  options : List OptionRule
  /-- The places for words, in order. -/
  places : List ValueKind := []
  /-- Whether a word opens another level. -/
  isOpening : Bool := false
deriving Repr

/-- Why reading stops before the end. -/
inductive Stop where
  | usage
  | version
  | help
deriving DecidableEq, Repr

/-- What was given at one level: options by name with their values, and words. -/
structure Given where
  options : List (String × String) := []
  words : List String := []
deriving DecidableEq, Repr

namespace Given

/-- Whether an option was given. -/
def flag (g : Given) (name : String) : Bool := g.options.any (·.1 == name)

/-- The value of an option. -/
def value? (g : Given) (name : String) : Option String := g.options.lookup name

/-- All values of an option in order. -/
def values (g : Given) (name : String) : List String :=
  (g.options.filter (·.1 == name)).map (·.2)

/-- Adds an option, which may be there already only when it may repeat. -/
def add (g : Given) (name value : String) (mayRepeat : Bool) : Except Stop Given :=
  if g.flag name && !mayRepeat then .error .usage
  else .ok { g with options := g.options ++ [(name, value)] }

/-- Adds a word in its place. -/
def addWord (g : Given) (places : List ValueKind) (word : String) : Except Stop Given :=
  match places[g.words.length]? with
  | some kind =>
    if kind.accepts word then .ok { g with words := g.words ++ [word] } else .error .usage
  | none => .error .usage

/-- Adds words in their places. -/
def addWords (g : Given) (places : List ValueKind) (words : List String) : Except Stop Given :=
  words.foldlM (·.addWord places) g

end Given

/-- What has been read after an option. -/
inductive Reading where
  | done (given : Given)
  /-- The value is the next argument. -/
  | wantsValue (option : OptionRule) (given : Given)

/-- Whether an argument is no option: it does not begin with a dash, or is nothing else. -/
def isWord (argument : String) : Bool :=
  match argument.toList with
  | ['-'] => true
  | '-' :: _ => false
  | _ => true

namespace OptionRule

/-- Gives a value to an option that has one. -/
def withValue (o : OptionRule) (g : Given) (value : String) : Except Stop Given :=
  match o.kind with
  | .one kind => if kind.accepts value then g.add o.name value false else .error .usage
  | .many kind => if kind.accepts value then g.add o.name value true else .error .usage
  | .flag | .version | .help => .error .usage

/-- Takes an option without anything attached to it. -/
def alone (o : OptionRule) (g : Given) : Except Stop Reading :=
  match o.kind with
  | .flag => (g.add o.name "" false).map .done
  | .one _ | .many _ => .ok (.wantsValue o g)
  | .version => .error .version
  | .help => .error .help

end OptionRule

namespace Level

def named? (l : Level) (name : String) : Option OptionRule := l.options.find? (·.name == name)

def lettered? (l : Level) (letter : Char) : Option OptionRule :=
  l.options.find? (·.letter == some letter)

/-- Reads what follows two dashes: a name, and perhaps an equals sign and a value. -/
def long (l : Level) (g : Given) (cs : List Char) : Except Stop Reading :=
  match l.named? (String.ofList (cs.takeWhile (· != '='))) with
  | none => .error .usage
  | some o =>
    match cs.dropWhile (· != '=') with
    | [] => o.alone g
    | _ :: value => (o.withValue g (String.ofList value)).map .done

/-- A value that is attached to a letter; an equals sign may stand between them. -/
def attached : List Char → String
  | '=' :: cs => String.ofList cs
  | cs => String.ofList cs

/-- Reads what follows one dash: letters; what follows the letter of an option with a value is that
value. -/
def short (l : Level) (g : Given) : List Char → Except Stop Reading
  | [] => .ok (.done g)
  | c :: cs =>
    match l.lettered? c with
    | none => .error .usage
    | some o =>
      match o.alone g with
      | .error stop => .error stop
      | .ok (.done g) => l.short g cs
      | .ok (.wantsValue o g) =>
        if cs.isEmpty then .ok (.wantsValue o g) else (o.withValue g (attached cs)).map .done

/-- Reads an argument that is an option. -/
def option (l : Level) (g : Given) (argument : String) : Except Stop Reading :=
  match argument.toList with
  | '-' :: '-' :: cs => l.long g cs
  | _ :: cs => l.short g cs
  | [] => .error .usage

/-- Reads arguments and gives what is left of them, which is nothing unless a word opens another
level. -/
def read (l : Level) (g : Given) : List String → Except Stop (Given × List String)
  | [] => .ok (g, [])
  | argument :: rest =>
    if argument == "--" then (g.addWords l.places rest).map fun g => (g, [])
    else if isWord argument then
      if l.isOpening then .ok (g, argument :: rest)
      else
        match g.addWord l.places argument with
        | .error stop => .error stop
        | .ok g => l.read g rest
    else
      match l.option g argument with
      | .error stop => .error stop
      | .ok (.done g) => l.read g rest
      | .ok (.wantsValue o g) =>
        match rest with
        | [] => .error .usage
        | value :: rest =>
          if isWord value then
            match o.withValue g value with
            | .error stop => .error stop
            | .ok g => l.read g rest
          else .error .usage

end Level

end Slideshow.CommandLine
