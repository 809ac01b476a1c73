import Slideshow.Text.Utf8

/-!
# Paths

A path is a text of names between slashes. Empty names and the name `.` behind the first one do not
count.

* `fileName?` and `parent?` take a path apart at its last name; a path has no file name when that is
  `..`.
* `extension?` is what follows the last dot of a file name that does not begin with it.
* `join` puts a path below another one; an absolute path replaces it.
* `OsPath` is a path as the system has it, which need not be a text.
-/

namespace Slideshow.Path

/-- The names between the slashes, with empty ones. -/
def segments : List Char → List (List Char)
  | [] => [[]]
  | c :: r =>
    if c == '/' then [] :: segments r
    else
      match segments r with
      | [] => [[c]]
      | s :: ss => (c :: s) :: ss

def isAbsolute (path : String) : Bool := path.toList.head? == some '/'

def endsInSlash (path : String) : Bool := path.toList.getLast? == some '/'

/-- Names that do not count behind the first one. -/
def isVoid (s : List Char) : Bool := s == [] || s == ['.']

/-- Removes void names from the end of reversed names; the first name of a path stays, and is the
last here. -/
def dropVoid : List (List Char) → List (List Char)
  | [] => []
  | [s] => [s]
  | s :: t :: r => if isVoid s then dropVoid (t :: r) else s :: t :: r

/-- The names of a path up to the last that counts, last first. -/
def reversedNames (path : String) : List (List Char) := dropVoid (segments path.toList).reverse

/-- The file that a path names: its last name, unless that is `.` or `..`. -/
def fileName? (path : String) : Option String :=
  match reversedNames path with
  | s :: _ => if isVoid s || s == ['.', '.'] then none else some (String.ofList s)
  | [] => none

/-- The text of reversed names. -/
def ofReversed (names : List (List Char)) : String :=
  match names with
  | [[]] => "/"
  | _ => String.ofList (List.intercalate ['/'] names.reverse)

/-- A path without its last name; the root and the empty path have none. -/
def parent? (path : String) : Option String :=
  match reversedNames path with
  | [] => none
  | s :: r => if s == [] then none else some (ofReversed (dropVoid r))

/-- The file that a path names, or the whole path. -/
def fileNameOrPath (path : String) : String := (fileName? path).getD path

/-- Reversed, what precedes the last dot, and what follows it; none when there is no dot. -/
def splitLastDot : List Char → Option (List Char × List Char)
  | [] => none
  | c :: r =>
    match splitLastDot r with
    | some (stem, ext) => some (c :: stem, ext)
    | none => if c == '.' then some ([], r) else none

/-- The part of the file name behind its last dot. -/
def extension? (path : String) : Option String := do
  let (stem, ext) ← splitLastDot (← fileName? path).toList
  if stem == [] then none else some (String.ofList ext)

/-- The extension in small letters; empty when there is none. -/
def kind (path : String) : String :=
  String.ofList (((extension? path).getD "").toList.map Char.toLower)

/-- A path below another one. -/
def join (base path : String) : String :=
  if isAbsolute path || base.isEmpty then path
  else if endsInSlash base then base ++ path
  else base ++ "/" ++ path

end Slideshow.Path

namespace Slideshow

/-- A path as the system has it: a text, or bytes that are none. -/
inductive OsPath where
  | text (path : String)
  | bytes (path : List UInt8) (noText : Text.decode? path = none)
deriving DecidableEq

namespace OsPath

def isText : OsPath → Bool
  | .text _ => true
  | .bytes .. => false

/-- A path as it is shown, with a mark for what is no text. -/
def shown : OsPath → String
  | .text path => path
  | .bytes path _ => String.ofList (Text.decodeLossy path)

end OsPath

end Slideshow
