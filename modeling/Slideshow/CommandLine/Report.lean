import Slideshow.Render.Service

/-!
# What is printed

The texts that the program prints about what it has found or made (`show_effects`, `show_ledger`,
`probe_file`, `check_tools`, `validate_config`, and the end of `render`).
-/

namespace Slideshow.CommandLine

/-- A document on many lines, with the end of the last. -/
def prettyLine (d : Document) : String := Json.pretty d ++ "\n"

/-- Lines with their ends. -/
def linesText (lines : List String) : String := String.join (lines.map (· ++ "\n"))

/-- A name with blanks up to sixteen characters, and a description. -/
def listingLine (name description : String) : String :=
  "  " ++ name ++ String.ofList (List.replicate (16 - name.length) ' ') ++ " " ++ description

/-- The title of each category in listings. -/
def categoryTitle : EffectCategory → String
  | .transition => "Transitions"
  | .motion => "Motions"
  | .color => "Color grades"
  | .overlay => "Overlays"

def categoryLines (c : EffectCategory) : List String :=
  (categoryTitle c ++ ":") :: c.infos.map (fun i => listingLine i.name i.description) ++ [""]

/-- All effects and presets. -/
def effectsText : String :=
  linesText ([EffectCategory.transition, .motion, .color, .overlay].flatMap categoryLines ++
    "Presets:" :: Preset.all.map fun p => listingLine p.name p.description)

/-- All effects and presets as a document. -/
def effectsDocument : Document :=
  Document.sorted (.table [("effects", catalogDocument),
    ("presets", .list (Preset.all.map Preset.document))])

def effectText (category : String) (i : EffectInfo) : String :=
  linesText [i.name ++ " (" ++ category ++ "): " ++ i.description]

/-- What a render has made. -/
def outcomeText (o : RenderOutcome) : String :=
  linesText ["Output: " ++ o.output.path,
    "Duration: " ++ Decimal.fixed 2 o.seconds ++ "s (" ++ o.source.name ++ "), " ++
      toString o.segmentDurations.length ++ " slides of " ++
      Decimal.fixed 2 (o.segmentDurations.head?.getD 0) ++ "s",
    "Processing time: " ++ toString o.processingMs ++ " ms"]

/-- One line for an entry of the ledger. -/
def entryLine (e : LedgerEntry) : String :=
  "  ".intercalate [e.time.spaced, e.id.short, toString e.images.length ++ " images",
    Decimal.fixed 1 e.audio.seconds ++ "s", e.outputFilename]

def ledgerText (path : String) (entries : List LedgerEntry) : String :=
  linesText (if entries.isEmpty then ["No renders recorded in " ++ path] else entries.map entryLine)

def ledgerDocument (entries : List LedgerEntry) : Document :=
  .list (entries.map LedgerEntry.document)

def estimateText (path : String) (e : DurationEstimate) : String :=
  linesText ["File: " ++ path, "Duration: " ++ Decimal.fixed 3 e.seconds ++ "s",
    "Source: " ++ e.source.name]

/-- One line for a tool: its mark, its name, its version and its path. -/
def toolLine (t : ToolInfo) : String :=
  (if t.isAvailable then "✓ " else "✗ ") ++ t.name ++
    (match t.version with
      | some version => " (" ++ version ++ ")"
      | none => "") ++
    (match t.path with
      | some path => " - " ++ path
      | none => "")

def toolsText (tools : List ToolInfo) : String :=
  linesText (["Checking external tools...", ""] ++ tools.map toolLine ++
    ["", if tools.all ToolInfo.isAvailable then "All required tools are available!"
      else "Some tools are missing. Rendering needs both ffmpeg and ffprobe."])

/-- What is said of valid settings. -/
def configText (c : Config) : String :=
  linesText (["✓ Configuration is valid",
    "  Video: " ++ toString c.video.width ++ "x" ++ toString c.video.height ++ " @ " ++
      toString c.video.fps ++ " fps, " ++ c.video.videoCodec ++ " crf " ++ toString c.video.crf ++
      " (" ++ c.video.preset ++ ")",
    "  Output dir: " ++ c.storage.outputDir,
    "  Ledger: " ++ c.storage.ledgerPath,
    "  Max concurrent jobs: " ++ toString c.jobs.maxConcurrent] ++
    c.warnings.map ("  ⚠ " ++ ·))

end Slideshow.CommandLine
