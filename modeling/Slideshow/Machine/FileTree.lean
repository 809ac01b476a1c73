import Slideshow.Path
import Slideshow.Text.Utf8

/-!
# Files

A tree of files, directories and programs, and the operations on it. Each operation names what it
works on by a path, which is followed name by name from the root or from the current directory.

* `FileTree.get?` is the view: what stands at a location.
* `get?_put_self`, `get?_put_of_ne`, `get?_erase`: what the two changes do to the view.
* `OsError` is why an operation was refused.

Out of scope: links, devices, who may do what, the times of files, and names that are no texts.
-/

namespace Slideshow

/-- Why the operating system refused something. -/
inductive OsError where
  | missing
  | denied
  | present
  | notDirectory
  | isDirectory
  | nameTooLong
  | notEmpty
  | busy
  /-- A path with the character that ends texts for the operating system. -/
  | nulInPath
  /-- An argument or program with that character. -/
  | nulByte
  /-- A file that should be text and is not. -/
  | notText
  | other (message : String)
deriving DecidableEq, Repr

def OsError.message : OsError → String
  | .missing => "No such file or directory (os error 2)"
  | .denied => "Permission denied (os error 13)"
  | .present => "File exists (os error 17)"
  | .notDirectory => "Not a directory (os error 20)"
  | .isDirectory => "Is a directory (os error 21)"
  | .nameTooLong => "File name too long (os error 36)"
  | .notEmpty => "Directory not empty (os error 39)"
  | .busy => "Device or resource busy (os error 16)"
  | .nulInPath => "file name contained an unexpected NUL byte"
  | .nulByte => "nul byte found in provided data"
  | .notText => "stream did not contain valid UTF-8"
  | .other message => message

/-- What a file holds: bytes, and a number of zero bytes after them. -/
structure Content where
  bytes : List UInt8
  zeros : Nat := 0
deriving DecidableEq, Repr

namespace Content

def empty : Content := ⟨[], 0⟩

def ofBytes (bytes : List UInt8) : Content := ⟨bytes, 0⟩

def ofText (s : String) : Content := ofBytes (Text.encode s)

def size (c : Content) : Nat := c.bytes.length + c.zeros

def toBytes (c : Content) : List UInt8 := c.bytes ++ List.replicate c.zeros 0

/-- The first bytes of some content. -/
def take (c : Content) (n : Nat) : Content := ⟨c.bytes.take n, min c.zeros (n - c.bytes.length)⟩

theorem toBytes_ofBytes (bytes : List UInt8) : (ofBytes bytes).toBytes = bytes := by
  simp [toBytes, ofBytes]

end Content

/-- How a program came to its end. -/
inductive Ending where
  | exited (code : Nat)
  | killed (signal : Nat)
deriving DecidableEq, Repr

/-- What a program does when it is run: it takes some time, writes to the file that its last
argument names, says something and ends. When it is stopped early, it has done only a part of
that. -/
structure Run where
  /-- How long it takes until it has said everything. -/
  milliseconds : Nat := 0
  /-- How long it goes on after it has said everything. -/
  lingering : Nat := 0
  written : Option Content := none
  output : List UInt8 := []
  errors : List UInt8 := []
  ending : Ending := .exited 0
  /-- What it has written when it is stopped early. -/
  writtenEarly : Option Content := none
  /-- What it has said when it is stopped early. -/
  errorsEarly : List UInt8 := []
deriving DecidableEq, Repr

/-- A program: what it does at its `n`-th call, from zero, with some arguments. -/
abbrev Program := Nat → List String → Run

/-- What stands at a location. -/
inductive Node where
  | file (content : Content)
  | program (program : Program)
  | directory

/-- Where something stands: names from the root. -/
abbrev Location := List String

/-- A tree of files. The root is always there. -/
structure FileTree where
  nodes : List (Location × Node) := []

namespace FileTree

/-! ## The view and the two changes -/

/-- What stands at a location. -/
def get? (t : FileTree) (l : Location) : Option Node :=
  if l = [] then some .directory else (t.nodes.find? (·.1 == l)).map (·.2)

/-- Puts something at a location. -/
def put (t : FileTree) (l : Location) (n : Node) : FileTree :=
  ⟨(l, n) :: t.nodes.filter (·.1 != l)⟩

/-- Removes what stands at a location and below. -/
def erase (t : FileTree) (l : Location) : FileTree := ⟨t.nodes.filter fun e => !l.isPrefixOf e.1⟩

theorem get?_put_self (t : FileTree) {l : Location} (h : l ≠ []) (n : Node) :
    (t.put l n).get? l = some n := by
  simp [get?, put, h]

theorem find?_filter_ne (nodes : List (Location × Node)) {l k : Location} (h : k ≠ l) :
    (nodes.filter (·.1 != l)).find? (·.1 == k) = nodes.find? (·.1 == k) := by
  rw [List.find?_filter]
  congr 1
  funext e
  by_cases hk : e.1 = k
  · simp [hk, h]
  · simp [hk]

theorem get?_put_of_ne (t : FileTree) {l k : Location} (h : k ≠ l) (n : Node) :
    (t.put l n).get? k = t.get? k := by
  unfold get? put
  split
  · rfl
  · have hl : ((l, n).1 == k) = false := by simpa using Ne.symm h
    rw [List.find?_cons, hl]
    simp only [find?_filter_ne t.nodes h]

theorem find?_filter_of_not_below (nodes : List (Location × Node)) {l k : Location}
    (h : l.isPrefixOf k = false) :
    (nodes.filter fun e => !l.isPrefixOf e.1).find? (·.1 == k) = nodes.find? (·.1 == k) := by
  rw [List.find?_filter]
  congr 1
  funext e
  by_cases hk : e.1 = k
  · simp [hk, h]
  · simp [hk]

theorem find?_filter_of_below (nodes : List (Location × Node)) {l k : Location}
    (h : l.isPrefixOf k = true) :
    (nodes.filter fun e => !l.isPrefixOf e.1).find? (·.1 == k) = none := by
  rw [List.find?_filter, List.find?_eq_none]
  intro e _
  by_cases hk : e.1 = k
  · simp [hk, h]
  · simp [hk]

/-- What is erased is gone and all else stays. -/
theorem get?_erase (t : FileTree) {l k : Location} (hk : k ≠ []) :
    (t.erase l).get? k = if l.isPrefixOf k then none else t.get? k := by
  unfold get? erase
  rw [if_neg hk, if_neg hk]
  cases h : l.isPrefixOf k with
  | true => rw [find?_filter_of_below t.nodes h]; rfl
  | false => rw [find?_filter_of_not_below t.nodes h]; rfl

/-- Puts directories at a location and above it, where nothing is yet. -/
def putDirectories (t : FileTree) (l : Location) : FileTree :=
  (List.range (l.length + 1)).foldl
    (fun t i => if (t.get? (l.take i)).isNone then t.put (l.take i) .directory else t) t

/-- Puts something at a location below directories. -/
def plant (t : FileTree) (l : Location) (n : Node) : FileTree :=
  (t.putDirectories l.dropLast).put l n

/-! ## Following paths -/

/-- The longest name of a file, in bytes. -/
def maxNameLength : Nat := 255

/-- Follows names from a location; every name but the last must stand for a directory. A name is
looked at only in a directory, so that one before it that is missing is noticed first. -/
def walk (t : FileTree) (here : Location) : List String → Except OsError Location
  | [] => .ok here
  | name :: rest =>
    match t.get? here with
    | none => .error .missing
    | some .directory =>
      if name.utf8ByteSize > maxNameLength then .error .nameTooLong
      else if name == "." then t.walk here rest
      else if name == ".." then t.walk here.dropLast rest
      else t.walk (here ++ [name]) rest
    | some _ => .error .notDirectory

/-- The longest path, in bytes. -/
def maxPathLength : Nat := 4095

/-- The names of a path between its slashes. -/
def names (path : String) : List String :=
  ((Path.segments path.toList).filter (· != [])).map String.ofList

/-- Whether a text is the name of something in a directory. -/
def isName (name : String) : Bool :=
  name != "" && !name.toList.contains '/' && name != "." && name != ".."

/-- The path of a location. -/
def pathOf (l : Location) : String := "/" ++ "/".intercalate l

/-- Where the names of a path start. -/
def start (here : Location) (path : String) : Location := if Path.isAbsolute path then [] else here

/-- The location that a path names from a current directory. What ends in a slash must be a
directory. -/
def locate (t : FileTree) (here : Location) (path : String) : Except OsError Location :=
  if path.toList.contains '\x00' then .error .nulInPath
  else if path.isEmpty then .error .missing
  else if path.utf8ByteSize > maxPathLength then .error .nameTooLong
  else t.walk (start here path) (names path ++ if Path.endsInSlash path then ["."] else [])

/-- What stands at the place that a path names. -/
def find (t : FileTree) (here : Location) (path : String) : Except OsError (Location × Node) :=
  match t.locate here path with
  | .error e => .error e
  | .ok l =>
    match t.get? l with
    | some n => .ok (l, n)
    | none => .error .missing

/-! ## Operations -/

/-- What is known about a file without reading it. -/
structure Metadata where
  isFile : Bool
  size : Nat
deriving DecidableEq, Repr

/-- The size that is told for a directory. -/
def directorySize : Nat := 4096

def metadata (t : FileTree) (here : Location) (path : String) : Except OsError Metadata :=
  match t.find here path with
  | .error e => .error e
  | .ok (_, .file c) => .ok ⟨true, c.size⟩
  | .ok (_, .program _) => .ok ⟨true, directorySize⟩
  | .ok (_, .directory) => .ok ⟨false, directorySize⟩

def isPresent (t : FileTree) (here : Location) (path : String) : Bool :=
  match t.find here path with
  | .ok _ => true
  | .error _ => false

def isDirectory (t : FileTree) (here : Location) (path : String) : Bool :=
  match t.find here path with
  | .ok (_, .directory) => true
  | _ => false

/-- What a file holds. -/
def read (t : FileTree) (here : Location) (path : String) : Except OsError Content :=
  match t.find here path with
  | .error e => .error e
  | .ok (_, .file c) => .ok c
  | .ok (_, .program _) => .ok .empty
  | .ok (_, .directory) => .error .isDirectory

/-- A path without the slashes at its end. -/
def unslashed (path : String) : String :=
  let cs := (path.toList.reverse.dropWhile (· == '/')).reverse
  if cs.isEmpty then path else String.ofList cs

/-- The location where a file may be written: a file, or nothing in a directory. A path with a slash
at its end names no file; `slash` is how it is refused. -/
def writable (t : FileTree) (here : Location) (slash : OsError) (path : String) :
    Except OsError Location :=
  match t.locate here (unslashed path) with
  | .error e => .error e
  | .ok l =>
    match t.get? l with
    | some .directory => .error .isDirectory
    | _ => if Path.endsInSlash path then .error slash else .ok l

/-- Gives a file new contents. -/
def write (t : FileTree) (here : Location) (path : String) (c : Content) :
    Except OsError FileTree :=
  (t.writable here .isDirectory path).map fun l => t.put l (.file c)

/-- Makes one directory, whose path may end in slashes. -/
def makeDirectory (t : FileTree) (here : Location) (path : String) : Except OsError FileTree :=
  match t.locate here (unslashed path) with
  | .error e => .error e
  | .ok l =>
    match t.get? l with
    | some _ => .error .present
    | none => .ok (t.put l .directory)

/-- Removes a file. -/
def removeFile (t : FileTree) (here : Location) (path : String) : Except OsError FileTree :=
  match t.find here path with
  | .error e => .error e
  | .ok (_, .directory) => .error .isDirectory
  | .ok (l, _) => .ok (t.erase l)

/-- Removes a directory and everything in it. -/
def removeDirectory (t : FileTree) (here : Location) (path : String) : Except OsError FileTree :=
  match t.find here path with
  | .error e => .error e
  | .ok (l, .directory) => .ok (t.erase l)
  | .ok (_, _) => .error .notDirectory

/-- The names in the directory at a location. -/
def children (t : FileTree) (l : Location) : List String :=
  t.nodes.filterMap fun e => if e.1.dropLast == l && e.1 != [] then e.1.getLast? else none

/-- The names in a directory. -/
def list (t : FileTree) (here : Location) (path : String) : Except OsError (List String) :=
  match t.find here path with
  | .error e => .error e
  | .ok (l, .directory) => .ok (t.children l)
  | .ok _ => .error .notDirectory

/-- Whether the last name of a path is no name of its own: it stands for a directory that is known
by another one. -/
def endsInDots (path : String) : Bool :=
  let last := (names path).getLast?
  last == some "." || last == some ".."

/-- Gives a file another name; what had that name is lost, unless it is a directory. -/
def rename (t : FileTree) (here : Location) (source target : String) : Except OsError FileTree :=
  match t.find here source with
  | .error e => .error e
  | .ok (_, .directory) => .error (.other "only files are renamed")
  | .ok (l, n) =>
    match t.writable here .notDirectory target with
    | .error .isDirectory => .error (if endsInDots target then .busy else .isDirectory)
    | .error e => .error e
    | .ok k => .ok ((t.erase l).put k n)

end FileTree

end Slideshow
