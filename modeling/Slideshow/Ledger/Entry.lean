import Slideshow.Effect.Spec
import Slideshow.Error
import Slideshow.JobId
import Slideshow.Json.Parser
import Slideshow.Json.Printer
import Slideshow.Path
import Slideshow.Text.Utf8
import Slideshow.Timestamp

/-!
# Ledger entries

What is recorded about a finished job: its images and narration, its effects, the file it made and
the settings it was made with.

* `LedgerEntry.ofDocument?` and `LedgerEntry.document` read and write an entry. Every field must be
  there.
* `Ledger.classify` is what the bytes of a ledger are (`load`), `Ledger.serialized` the text with a
  list of entries (`store`).

Names of files are texts, as they are recorded; only the path of the video is one that the system
has.
-/

namespace Slideshow

open Document

/-- An image as the ledger has it. -/
structure ImageSummary where
  filename : String
  bytes : Nat
deriving DecidableEq, Repr

namespace ImageSummary

def ofPath (path : String) (bytes : Nat) : ImageSummary := ⟨Path.fileNameOrPath path, bytes⟩

def ofDocument? (d : Document) : Option ImageSummary := do
  let r ← record? .lenient ["filename", "sizeBytes"] d
  return ⟨← r.required 0 string?, ← r.required 1 nat64?⟩

def document (i : ImageSummary) : Document :=
  .table [("filename", .string i.filename), ("sizeBytes", ofNat i.bytes)]

end ImageSummary

/-- A narration as the ledger has it: its parts in order. -/
structure AudioSummary where
  files : List String
  bytes : Nat
  seconds : Float

namespace AudioSummary

def ofPaths (paths : List String) (bytes : Nat) (seconds : Float) : AudioSummary :=
  ⟨paths.map Path.fileNameOrPath, bytes, seconds⟩

def ofDocument? (d : Document) : Option AudioSummary := do
  let r ← record? .lenient ["files", "totalSizeBytes", "durationSeconds"] d
  return ⟨← r.required 0 (listOf? string?), ← r.required 1 nat64?, ← r.required 2 float?⟩

def document (a : AudioSummary) : Document :=
  .table [("files", .list (a.files.map .string)), ("totalSizeBytes", ofNat a.bytes),
    ("durationSeconds", .float a.seconds)]

end AudioSummary

/-- The settings that a video was made with. -/
structure LedgerSettings where
  width : Nat
  height : Nat
  fps : Nat
  videoCodec : String
  crf : Int
  preset : String
  segmentDurations : List Float
  /-- The name of the tier that gave the length of the narration. -/
  durationSource : String

namespace LedgerSettings

def names : List String :=
  ["width", "height", "fps", "videoCodec", "crf", "preset", "segmentDurations", "durationSource"]

def ofDocument? (d : Document) : Option LedgerSettings := do
  let r ← record? .lenient names d
  return {
    width := ← r.required 0 nat32?
    height := ← r.required 1 nat32?
    fps := ← r.required 2 nat32?
    videoCodec := ← r.required 3 string?
    crf := ← r.required 4 int32?
    preset := ← r.required 5 string?
    segmentDurations := ← r.required 6 (listOf? float?)
    durationSource := ← r.required 7 string? }

def document (s : LedgerSettings) : Document :=
  .table (names.zip [ofNat s.width, ofNat s.height, ofNat s.fps, .string s.videoCodec,
    .integer s.crf, .string s.preset, .list (s.segmentDurations.map .float),
    .string s.durationSource])

end LedgerSettings

/-- A finished job. -/
structure LedgerEntry where
  id : JobId
  time : Timestamp
  images : List ImageSummary
  audio : AudioSummary
  effects : EffectSpec Float
  outputFilename : String
  outputPath : OsPath
  processingMs : Nat
  settings : LedgerSettings

namespace LedgerEntry

def names : List String :=
  ["id", "timestamp", "images", "audio", "effects", "outputFilename", "outputPath", "processingMs",
    "settings"]

def ofDocument? (d : Document) : Option LedgerEntry := do
  let r ← record? .lenient names d
  return {
    id := ← r.required 0 fun d => (string? d).bind JobId.parse?
    time := ← r.required 1 fun d => (string? d).bind Timestamp.parse?
    images := ← r.required 2 (listOf? ImageSummary.ofDocument?)
    audio := ← r.required 3 AudioSummary.ofDocument?
    effects := ← r.required 4 EffectSpec.ofDocument?
    outputFilename := ← r.required 5 string?
    outputPath := .text (← r.required 6 string?)
    processingMs := ← r.required 7 nat64?
    settings := ← r.required 8 LedgerSettings.ofDocument? }

/-- The document of an entry; a path that is no text stands there as it is shown, but see
`serialized`. -/
def document (e : LedgerEntry) : Document :=
  .table (names.zip [.string e.id.text, .string e.time.text,
    .list (e.images.map ImageSummary.document), e.audio.document, e.effects.document,
    .string e.outputFilename, .string e.outputPath.shown, ofNat e.processingMs,
      e.settings.document])

end LedgerEntry

/-! ## The text of a ledger -/

namespace Ledger

/-- Reads the entries of a ledger from a text. -/
def parse? [Json.FloatReader] (cs : List Char) : Option (List LedgerEntry) :=
  (Json.parseChars? cs).bind (listOf? LedgerEntry.ofDocument?)

/-- The text of a ledger: a list on many lines. -/
def render (entries : List LedgerEntry) : String :=
  Json.pretty (.list (entries.map LedgerEntry.document))

/-- The text for a ledger's file (`to_vec_pretty`). A path that is no text cannot be written. -/
def serialized (entries : List LedgerEntry) : Except Error String :=
  if entries.all (·.outputPath.isText) then .ok (render entries)
  else .error (.internal "serialize ledger: path contains invalid UTF-8 characters")

/-- What the bytes of a ledger are. -/
inductive Loaded where
  | entries (entries : List LedgerEntry)
  /-- The bytes are no list of entries. -/
  | corrupt

/-- The entries that can be read. -/
def Loaded.readable : Loaded → List LedgerEntry
  | .entries es => es
  | .corrupt => []

/-- The blanks of a ledger without entries. -/
def isBlankByte (b : UInt8) : Bool := b == 32 || b == 9 || b == 10 || b == 12 || b == 13

/-- What bytes hold: blanks alone are a ledger without entries. Bytes that are no text may stand in
strings that nobody reads. -/
def classify [Json.FloatReader] (bytes : List UInt8) : Loaded :=
  if bytes.all isBlankByte then .entries []
  else
    match parse? (Text.decodeWith Json.hole bytes) with
    | some es => .entries es
    | none => .corrupt

end Ledger

end Slideshow
