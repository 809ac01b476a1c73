import Slideshow.Ledger.Entry
import Slideshow.Proofs.Document
import Slideshow.Proofs.JobId
import Slideshow.Proofs.Json.Printed
import Slideshow.Proofs.Text
import Slideshow.Proofs.Timestamp

/-!
# Entries that are read back

The text of a ledger is read as its entries, but for their lengths: each is read as what its digits
are read as, and one that is not finite has none.

* `LedgerEntry.Valid` are the bounds of an entry's whole numbers and of its time, which everything
  read keeps.
* `LedgerEntry.HasText`: the path of an entry's video is a text; the entries of a ledger are written
  if all are so.
* `LedgerEntry.Legible` says that the lengths of an entry are read as some numbers,
  `LedgerEntry.Kept` that these are the lengths; `LedgerEntry.readBack` is the entry with them.

Headlines:
* **`LedgerEntry.ofDocument?_document`**: an entry is read back from its document.
* **`Ledger.classify_render`**: the bytes of a ledger are read as its entries.
* `Ledger.serialized_eq_ok_iff`: what is written is the text with the entries, whose paths are
  texts.
-/

namespace Slideshow

open Document

/-! ## Effects -/

theorem Choice.ofDocument?_document {α : Type} [Choice α] {a : α} (h : ofKey? (key a) = some a) :
    ofDocument? (document a) = some a := h

namespace EffectSpec

theorem document_eq (s : EffectSpec Float) :
    s.document = .table (fieldsOf names [s.transition.map Choice.document,
    s.motion.map Choice.document, s.color.map Choice.document, s.overlay.map Choice.document,
    some (.float s.transitionDuration)]) := by
  obtain ⟨transition, motion, color, overlay, duration⟩ := s
  cases transition <;> cases motion <;> cases color <;> cases overlay <;> rfl

theorem ofDocument?_document (s : EffectSpec Float) : ofDocument? s.document = some s := by
  have hnull : ∀ {α : Type} [Choice α] (a : α), Choice.document a ≠ .null := fun _ h => nomatch h
  unfold ofDocument?
  simp only [Option.bind_eq_bind]
  rw [document_eq, record?_fieldsOf (by decide) rfl, Option.bind_some,
    optionalOrNone_map (o := s.transition) rfl
      (fun t => Choice.ofDocument?_document t.ofKey?_key) hnull,
    optionalOrNone_map (o := s.motion) rfl
      (fun m => Choice.ofDocument?_document m.ofKey?_key) hnull,
    optionalOrNone_map (o := s.color) rfl (fun c => Choice.ofDocument?_document c.ofKey?_key) hnull,
    optionalOrNone_map (o := s.overlay) rfl
      (fun o => Choice.ofDocument?_document o.ofKey?_key) hnull]
  rfl

end EffectSpec

/-- A selection with the length that its own is read as. -/
def EffectSpec.readBack [Json.FloatReader] (s : EffectSpec Float) : EffectSpec Float :=
  { s with transitionDuration := Json.rereadOrSame s.transitionDuration }

theorem EffectSpec.readBack_document [Json.FloatReader] (s : EffectSpec Float) :
    Json.readBack s.document = s.readBack.document := by
  obtain ⟨transition, motion, color, overlay, duration⟩ := s
  cases transition <;> cases motion <;> cases color <;> cases overlay <;> rfl

theorem EffectSpec.legible_document [Json.FloatReader] {s : EffectSpec Float}
    (h : (Json.reread? s.transitionDuration).isSome) :
    Json.Legible s.document := by
  rw [document_eq]
  refine Json.legibleFields_iff.mpr fun f hf => ?_
  have hchoice : ∀ {α : Type} [Choice α] {o : Option α}, some f.2 = o.map Choice.document →
      Json.Legible f.2 := by
    intro α _ o ho
    obtain ⟨a, -, ha⟩ := Option.map_eq_some_iff.mp ho.symm
    rw [← ha]
    trivial
  have hvalue := mem_values_of_mem_fieldsOf hf
  simp only [List.mem_cons, List.not_mem_nil, or_false] at hvalue
  rcases hvalue with h | h | h | h | h
  · exact hchoice h
  · exact hchoice h
  · exact hchoice h
  · exact hchoice h
  · rw [Option.some.inj h]
    assumption

/-! ## Summaries and settings -/

namespace ImageSummary

/-- The number of bytes fits in 64 bits. -/
def Valid (i : ImageSummary) : Prop := i.bytes < 2 ^ 64

theorem ofDocument?_document {i : ImageSummary} (h : i.Valid) :
    ofDocument? i.document = some i := by
  have hrecord : record? .lenient ["filename", "sizeBytes"] i.document = some ⟨_⟩ :=
    @record?_zip ["filename", "sizeBytes"] [.string i.filename, ofNat i.bytes] (by decide) rfl
  unfold ofDocument?
  simp only [Option.bind_eq_bind]
  rw [hrecord, Option.bind_some, required_eq rfl, required_eq rfl, nat64?, Nat.pow_eq, nat?_ofNat h]
  rfl

theorem valid_of_ofDocument? {d : Document} {i : ImageSummary} (h : ofDocument? d = some i) :
    i.Valid := by
  simp only [ofDocument?, Option.bind_eq_bind, Option.bind_eq_some_iff] at h
  obtain ⟨r, -, filename, -, bytes, hbytes, h⟩ := h
  obtain ⟨d, hd⟩ := of_required hbytes
  cases h
  exact nat?_lt hd

theorem legible_document [Json.FloatReader] {i : ImageSummary} (h : i.Valid) :
    Json.Legible i.document := by
  unfold Valid at h
  refine ⟨trivial, ⟨?_, ?_⟩, trivial⟩ <;> omega

end ImageSummary

namespace AudioSummary

/-- The number of bytes fits in 64 bits. -/
def Valid (a : AudioSummary) : Prop := a.bytes < 2 ^ 64

theorem ofDocument?_document {a : AudioSummary} (h : a.Valid) :
    ofDocument? a.document = some a := by
  have hrecord : record? .lenient ["files", "totalSizeBytes", "durationSeconds"] a.document =
      some ⟨_⟩ :=
    @record?_zip ["files", "totalSizeBytes", "durationSeconds"]
      [.list (a.files.map .string), ofNat a.bytes, .float a.seconds] (by decide) rfl
  have hfiles : listOf? string? (.list (a.files.map .string)) = some a.files :=
    listOf?_map fun _ _ => rfl
  unfold ofDocument?
  simp only [Option.bind_eq_bind]
  rw [hrecord, Option.bind_some, required_eq rfl, required_eq rfl, required_eq rfl, hfiles, nat64?,
    Nat.pow_eq, nat?_ofNat h]
  rfl

theorem valid_of_ofDocument? {d : Document} {a : AudioSummary} (h : ofDocument? d = some a) :
    a.Valid := by
  simp only [ofDocument?, Option.bind_eq_bind, Option.bind_eq_some_iff] at h
  obtain ⟨r, -, files, -, bytes, hbytes, seconds, -, h⟩ := h
  obtain ⟨d, hd⟩ := of_required hbytes
  cases h
  exact nat?_lt hd

theorem legible_document [Json.FloatReader] {a : AudioSummary} (h : a.Valid)
    (hseconds : (Json.reread? a.seconds).isSome) :
    Json.Legible a.document := by
  have hfiles : Json.LegibleItems (a.files.map .string) := Json.legibleItems_iff.mpr fun d hd => by
    obtain ⟨file, -, rfl⟩ := List.mem_map.mp hd
    trivial
  unfold Valid at h
  refine ⟨hfiles, ⟨?_, ?_⟩, hseconds, trivial⟩ <;> omega

/-- A narration with the length that its own is read as. -/
def readBack [Json.FloatReader] (a : AudioSummary) : AudioSummary :=
  { a with seconds := Json.rereadOrSame a.seconds }

theorem readBack_document [Json.FloatReader] (a : AudioSummary) :
    Json.readBack a.document = a.readBack.document := by
  have hfiles : Json.readBackItems (a.files.map .string) = a.files.map .string := by
    rw [Json.readBackItems_eq_map, List.map_map]
    rfl
  show Document.table [("files", .list (Json.readBackItems (a.files.map .string))), _, _] = _
  rw [hfiles]
  rfl

end AudioSummary

namespace LedgerSettings

/-- The numbers fit in 32 bits. -/
structure Valid (s : LedgerSettings) : Prop where
  width : s.width < 2 ^ 32
  height : s.height < 2 ^ 32
  fps : s.fps < 2 ^ 32
  crf : -2 ^ 31 ≤ s.crf ∧ s.crf < 2 ^ 31

theorem ofDocument?_document {s : LedgerSettings} (h : s.Valid) :
    ofDocument? s.document = some s := by
  have hrecord : record? .lenient names s.document = some ⟨_⟩ := record?_zip (by decide) rfl
  have hdurations : listOf? float? (.list (s.segmentDurations.map .float)) =
      some s.segmentDurations :=
    listOf?_map fun _ _ => rfl
  unfold ofDocument?
  simp only [Option.bind_eq_bind]
  rw [hrecord, Option.bind_some, required_eq rfl, required_eq rfl, required_eq rfl, required_eq rfl,
    required_eq rfl, required_eq rfl, required_eq rfl, required_eq rfl, nat32?, Nat.pow_eq,
    nat?_ofNat h.width, nat?_ofNat h.height, nat?_ofNat h.fps,
    int32?_integer h.crf.1 h.crf.2, hdurations]
  rfl

theorem valid_of_ofDocument? {d : Document} {s : LedgerSettings} (h : ofDocument? d = some s) :
    s.Valid := by
  simp only [ofDocument?, Option.bind_eq_bind, Option.bind_eq_some_iff] at h
  obtain ⟨r, -, width, hwidth, height, hheight, fps, hfps, videoCodec, -, crf, hcrf, preset, -,
    segmentDurations, -, durationSource, -, h⟩ := h
  obtain ⟨_, hwidth⟩ := of_required hwidth
  obtain ⟨_, hheight⟩ := of_required hheight
  obtain ⟨_, hfps⟩ := of_required hfps
  obtain ⟨_, hcrf⟩ := of_required hcrf
  cases h
  exact ⟨nat?_lt hwidth, nat?_lt hheight, nat?_lt hfps, int32?_mem hcrf⟩

theorem legible_document [Json.FloatReader] {s : LedgerSettings} (h : s.Valid)
    (hseconds : ∀ x ∈ s.segmentDurations, (Json.reread? x).isSome) : Json.Legible s.document := by
  have hdurations : Json.LegibleItems (s.segmentDurations.map .float) :=
    Json.legibleItems_iff.mpr fun d hd => by
    obtain ⟨x, hx, rfl⟩ := List.mem_map.mp hd
    exact hseconds x hx
  obtain ⟨hwidth, hheight, hfps, hcrf⟩ := h
  refine ⟨⟨?_, ?_⟩, ⟨?_, ?_⟩, ⟨?_, ?_⟩, trivial, ⟨?_, ?_⟩, trivial, hdurations, trivial,
    trivial⟩ <;> omega

/-- Settings with the lengths that their own are read as. -/
def readBack [Json.FloatReader] (s : LedgerSettings) : LedgerSettings :=
  { s with segmentDurations := s.segmentDurations.map Json.rereadOrSame }

theorem readBack_document [Json.FloatReader] (s : LedgerSettings) :
    Json.readBack s.document = s.readBack.document := by
  have hdurations : Json.readBackItems (s.segmentDurations.map .float) =
      (s.segmentDurations.map Json.rereadOrSame).map .float := by
    rw [Json.readBackItems_eq_map, List.map_map, List.map_map]
    rfl
  show Document.table [_, _, _, _, _, _,
    ("segmentDurations", .list (Json.readBackItems (s.segmentDurations.map .float))), _] = _
  rw [hdurations]
  rfl

end LedgerSettings

/-! ## Entries -/

namespace LedgerEntry

/-- The bounds of an entry's whole numbers and of its time. -/
structure Valid (e : LedgerEntry) : Prop where
  time : e.time.Valid
  images : ∀ i ∈ e.images, i.Valid
  audio : e.audio.Valid
  processingMs : e.processingMs < 2 ^ 64
  settings : e.settings.Valid

/-- The path of an entry's video is a text. -/
def HasText (e : LedgerEntry) : Prop := e.outputPath.isText = true

/-- The lengths of an entry, in seconds. -/
def lengths (e : LedgerEntry) : List Float :=
  e.audio.seconds :: e.effects.transitionDuration :: e.settings.segmentDurations

/-- The lengths of an entry are read as some numbers. -/
def Legible [Json.FloatReader] (e : LedgerEntry) : Prop := ∀ x ∈ e.lengths, (Json.reread? x).isSome

/-- The lengths of an entry are read back. -/
def Kept [Json.FloatReader] (e : LedgerEntry) : Prop := ∀ x ∈ e.lengths, Json.Kept x

theorem Kept.legible [Json.FloatReader] {e : LedgerEntry} (h : e.Kept) : e.Legible := fun x hx =>
  Option.isSome_iff_exists.mpr ⟨x, h x hx⟩

/-- An entry with the lengths that its own are read as. -/
def readBack [Json.FloatReader] (e : LedgerEntry) : LedgerEntry :=
  { e with audio := e.audio.readBack, effects := e.effects.readBack, settings :=
    e.settings.readBack }

theorem Kept.readBack [Json.FloatReader] {e : LedgerEntry} (h : e.Kept) : e.readBack = e := by
  obtain ⟨haudio, h⟩ := List.forall_mem_cons.mp h
  obtain ⟨htransition, hdurations⟩ := List.forall_mem_cons.mp h
  have hmap : e.settings.segmentDurations.map Json.rereadOrSame = e.settings.segmentDurations :=
    List.map_congr_left (fun x hx => Json.rereadOrSame_of_kept (hdurations x hx)) |>.trans
      (List.map_id _)
  rw [LedgerEntry.readBack, AudioSummary.readBack, EffectSpec.readBack, LedgerSettings.readBack,
    Json.rereadOrSame_of_kept haudio, Json.rereadOrSame_of_kept htransition, hmap]

/-- What reads back an entry's document keeps to its bounds. -/
theorem Valid.readBack [Json.FloatReader] {e : LedgerEntry} (h : e.Valid) : e.readBack.Valid :=
  ⟨h.time, h.images, h.audio, h.processingMs,
    ⟨h.settings.width, h.settings.height, h.settings.fps, h.settings.crf⟩⟩

/-- A path that is a text is what is shown of it. -/
theorem HasText.shown {e : LedgerEntry} (h : e.HasText) :
    .text e.outputPath.shown = e.outputPath := by
  rw [HasText] at h
  cases hpath : e.outputPath with
  | text path => rfl
  | bytes path noText =>
    rw [hpath] at h
    cases h

/-- **An entry is read back from its document.** -/
theorem ofDocument?_document {e : LedgerEntry} (h : e.Valid) (htext : e.HasText) :
    ofDocument? e.document = some e := by
  have hrecord : record? .lenient names e.document = some ⟨_⟩ := record?_zip (by decide) rfl
  have himages : listOf? ImageSummary.ofDocument? (.list (e.images.map ImageSummary.document)) =
      some e.images :=
    listOf?_map fun i hi => ImageSummary.ofDocument?_document (h.images i hi)
  unfold ofDocument?
  simp only [Option.bind_eq_bind]
  rw [hrecord, Option.bind_some, required_eq rfl, required_eq rfl, required_eq rfl, required_eq rfl,
    required_eq rfl, required_eq rfl, required_eq rfl, required_eq rfl, required_eq rfl, himages,
    AudioSummary.ofDocument?_document h.audio,
    EffectSpec.ofDocument?_document, nat64?, Nat.pow_eq, nat?_ofNat h.processingMs,
    LedgerSettings.ofDocument?_document h.settings]
  simp only [string?, Option.bind_some, JobId.parse?_text, Timestamp.parse?_text h.time,
    htext.shown]
  rfl

/-- What is read keeps the bounds. -/
theorem valid_of_ofDocument? {d : Document} {e : LedgerEntry} (h : ofDocument? d = some e) :
    e.Valid := by
  simp only [ofDocument?, Option.bind_eq_bind, Option.bind_eq_some_iff] at h
  obtain ⟨r, -, id, -, time, htime, images, himages, audio, haudio, effects, -, outputFilename, -,
    outputPath, -, processingMs, hprocessingMs, settings, hsettings, h⟩ := h
  obtain ⟨_, htime⟩ := of_required htime
  obtain ⟨text, -, htime⟩ := Option.bind_eq_some_iff.mp htime
  obtain ⟨_, himages⟩ := of_required himages
  obtain ⟨_, haudio⟩ := of_required haudio
  obtain ⟨_, hprocessingMs⟩ := of_required hprocessingMs
  obtain ⟨_, hsettings⟩ := of_required hsettings
  cases h
  exact {
    time := Timestamp.valid_of_parse? htime
    images := of_listOf? ImageSummary.valid_of_ofDocument? himages
    audio := AudioSummary.valid_of_ofDocument? haudio
    processingMs := nat?_lt hprocessingMs
    settings := LedgerSettings.valid_of_ofDocument? hsettings }

theorem legible_document [Json.FloatReader] {e : LedgerEntry} (h : e.Valid) (hlegible : e.Legible) :
    Json.Legible e.document := by
  have himages : Json.LegibleItems (e.images.map ImageSummary.document) :=
    Json.legibleItems_iff.mpr fun d hd => by
    obtain ⟨i, hi, rfl⟩ := List.mem_map.mp hd
    exact ImageSummary.legible_document (h.images i hi)
  obtain ⟨haudio, hlegible⟩ := List.forall_mem_cons.mp hlegible
  obtain ⟨htransition, hdurations⟩ := List.forall_mem_cons.mp hlegible
  have hms := h.processingMs
  refine ⟨trivial, trivial, himages, AudioSummary.legible_document h.audio haudio,
    EffectSpec.legible_document htransition, trivial, trivial, ⟨?_, ?_⟩,
    LedgerSettings.legible_document h.settings hdurations, trivial⟩ <;> omega

theorem readBack_document [Json.FloatReader] (e : LedgerEntry) :
    Json.readBack e.document = e.readBack.document := by
  have himages : Json.readBackItems (e.images.map ImageSummary.document) =
      e.images.map ImageSummary.document := by
    rw [Json.readBackItems_eq_map, List.map_map]
    rfl
  show Document.table [_, _,
    ("images", .list (Json.readBackItems (e.images.map ImageSummary.document))),
    ("audio", Json.readBack e.audio.document), ("effects", Json.readBack e.effects.document), _, _,
    _,
    ("settings", Json.readBack e.settings.document)] = _
  rw [himages, AudioSummary.readBack_document, EffectSpec.readBack_document,
    LedgerSettings.readBack_document]
  rfl

end LedgerEntry

/-! ## The text of a ledger -/

namespace Ledger

/-- **What is written is the text with the entries**, whose paths are texts. -/
theorem serialized_eq_ok_iff {entries : List LedgerEntry} {text : String} :
    serialized entries = .ok text ↔ (∀ e ∈ entries, e.HasText) ∧ render entries = text := by
  unfold serialized
  split
  · next h =>
      exact ⟨fun heq => ⟨List.all_eq_true.mp h, Except.ok.inj heq⟩, fun ⟨_, heq⟩ => congrArg _ heq⟩
  · next h =>
      exact ⟨fun heq => (nomatch heq), fun ⟨htext, _⟩ => absurd (List.all_eq_true.mpr htext) h⟩

/-- The text of a ledger is not blank: it begins with a bracket. -/
theorem render_not_blank (entries : List LedgerEntry) :
    (Text.encode (render entries)).all isBlankByte = false := by
  have hbegins : ∃ cs, (render entries).toList = '[' :: cs := by
    rw [render, Json.pretty, String.toList_ofList]
    cases entries <;> exact ⟨_, rfl⟩
  obtain ⟨cs, hcs⟩ := hbegins
  rw [Text.encode, hcs, List.flatMap_cons]
  simp [Text.encodeChar, isBlankByte]

section
variable [Json.FloatReader] {entries : List LedgerEntry} (hvalid : ∀ e ∈ entries, e.Valid)
  (htext : ∀ e ∈ entries, e.HasText) (hlegible : ∀ e ∈ entries, e.Legible)
include hvalid htext hlegible

/-- Entries are read back from the text of their ledger. -/
theorem parse?_render :
    parse? (render entries).toList = some (entries.map LedgerEntry.readBack) := by
  have hdocument : Json.Legible (.list (entries.map LedgerEntry.document)) :=
    Json.legibleItems_iff.mpr fun d hd => by
      obtain ⟨e, he, rfl⟩ := List.mem_map.mp hd
      exact LedgerEntry.legible_document (hvalid e he) (hlegible e he)
  have hreadBack : Json.readBack (.list (entries.map LedgerEntry.document)) =
      .list ((entries.map LedgerEntry.readBack).map LedgerEntry.document) := by
    rw [Json.readBack, Json.readBackItems_eq_map, List.map_map, List.map_map]
    exact congrArg _ (List.map_congr_left fun e _ => e.readBack_document)
  rw [parse?, render, Json.pretty, String.toList_ofList, Json.parseChars?_pretty hdocument,
    hreadBack, Option.bind_some]
  refine listOf?_map fun e he => ?_
  obtain ⟨e, hmem, rfl⟩ := List.mem_map.mp he
  exact LedgerEntry.ofDocument?_document (hvalid e hmem).readBack (htext e hmem)

/-- **The bytes of a ledger are read as its entries**, with their lengths read back. -/
theorem classify_render :
    classify (Text.encode (render entries)) = .entries (entries.map LedgerEntry.readBack) := by
  rw [classify, render_not_blank, if_neg Bool.false_ne_true, Text.decodeWith_encode,
    parse?_render hvalid htext hlegible]

end

theorem map_readBack [Json.FloatReader] {entries : List LedgerEntry} (h : ∀ e ∈ entries, e.Kept) :
    entries.map LedgerEntry.readBack = entries :=
  (List.map_congr_left fun e he => (h e he).readBack).trans (List.map_id entries)

/-- What can be read keeps the bounds. -/
theorem valid_of_readable [Json.FloatReader] {bytes : List UInt8} :
    ∀ e ∈ (classify bytes).readable, e.Valid := by
  unfold classify
  split
  · exact fun e he => absurd he List.not_mem_nil
  · split
    · next entries hentries =>
      obtain ⟨d, -, hd⟩ := Option.bind_eq_some_iff.mp hentries
      exact of_listOf? LedgerEntry.valid_of_ofDocument? hd
    · exact fun e he => absurd he List.not_mem_nil

end Ledger

end Slideshow
