import Slideshow.Path
import Slideshow.Text.Blank
import Slideshow.Decimal.Binary

/-!
# Commands

A program with its arguments and the time that it may take.

* `Command.describe` is the line that is told about a command (`describe`): an argument with a blank
  or a semicolon, or an empty one, stands between single quotes.
* `durationText` is how a length of time is told.

Out of scope: programs and arguments that are no texts.
-/

namespace Slideshow

/-- A program to be run. -/
structure Command where
  program : String
  arguments : List String := []
  /-- How many milliseconds it may take. -/
  timeout : Nat := 300000
deriving DecidableEq, Repr

namespace Command

/-- Puts a text between single quotes; a quote inside is written outside of them behind a
backslash. -/
def quoted (cs : List Char) : List Char :=
  '\'' :: cs.flatMap (fun c => if c == '\'' then ['\'', '\\', '\'', '\''] else [c]) ++ ['\'']

/-- Whether an argument stands between quotes. -/
def needsQuotes (cs : List Char) : Bool := cs.isEmpty || cs.any fun c => Text.isBlank c || c == ';'

/-- An argument as it is told. -/
def word (argument : String) : String :=
  if needsQuotes argument.toList then String.ofList (quoted argument.toList) else argument

/-- The line that is told about a command. -/
def describe (c : Command) : String := " ".intercalate (c.program :: c.arguments.map word)

/-- The name by which messages call the program. -/
def name (c : Command) : String := Path.fileNameOrPath c.program

end Command

/-- Removes zeros from the end. -/
def withoutTrailingZeros (cs : List Char) : List Char := (cs.reverse.dropWhile (· == '0')).reverse

/-- A number of milliseconds in the largest unit that it fills. -/
def durationText (milliseconds : Nat) : String :=
  if milliseconds == 0 then "0ns"
  else if milliseconds < 1000 then toString milliseconds ++ "ms"
  else
    let fraction := Decimal.natDigits (milliseconds % 1000)
    let places := withoutTrailingZeros (Decimal.zeros (3 - fraction.length) ++ fraction)
    toString (milliseconds / 1000) ++
      (if places.isEmpty then "" else "." ++ String.ofList places) ++ "s"

end Slideshow
