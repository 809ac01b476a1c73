import Mathlib
import Slideshow.Machine.FileTree
import Slideshow.Proofs.Json.Rounded
import Slideshow.Proofs.Ledger.Entry

/-!
# The format of the ledger

Writing a list of entries (`store`) and reading it (`load`) are inverse to each other: the fields,
their names, the strings with all that is escaped in them and the whole numbers for any reader of
numbers, and the lengths for one that rounds correctly.

* `LedgerEntry.Finite` says that the lengths of an entry are finite; the others have no digits.

Headline:
* **`Ledger.format_reads_back`**: the file with a list of entries is read as this list.
-/

namespace Slideshow

open Scalar

/-- The lengths of an entry are finite. -/
def LedgerEntry.Finite (e : LedgerEntry) : Prop := ∀ x ∈ e.lengths, isFinite x = true

/-- A reader that rounds correctly reads the finite lengths of an entry back. -/
theorem LedgerEntry.Finite.kept [r : Json.FloatReader] (hcorrect : r.Correct) {e : LedgerEntry}
    (h : e.Finite) : e.Kept :=
  fun x hx => Json.kept_of_correct hcorrect (h x hx)

namespace Ledger

/-- **The format of the ledger is read back** by whatever rounds numbers correctly: any list of
entries whose paths are texts is written, the text is read as this list, and the bytes of the file
are neither blank nor corrupt but these entries. -/
theorem format_reads_back [r : Json.FloatReader] (hcorrect : r.Correct) {entries : List LedgerEntry}
    (hvalid : ∀ e ∈ entries, e.Valid) (htext : ∀ e ∈ entries, e.HasText)
    (hfinite : ∀ e ∈ entries, e.Finite) :
    serialized entries = .ok (render entries) ∧
      parse? (render entries).toList = some entries ∧
      (Content.ofText (render entries)).toBytes.all isBlankByte = false ∧
      classify (Content.ofText (render entries)).toBytes = .entries entries := by
  have hkept : ∀ e ∈ entries, e.Kept := fun e he => (hfinite e he).kept hcorrect
  have hlegible : ∀ e ∈ entries, e.Legible := fun e he => (hkept e he).legible
  have hparse := parse?_render hvalid htext hlegible
  have hclassify := classify_render hvalid htext hlegible
  rw [map_readBack hkept] at hparse hclassify
  rw [Content.ofText, Content.toBytes_ofBytes]
  exact ⟨serialized_eq_ok_iff.mpr ⟨htext, rfl⟩, hparse, render_not_blank entries, hclassify⟩

/-- An entry with quotes, backslashes, a line feed and a letter of four bytes, three effects and the
least number there is. -/
def quoted : LedgerEntry where
  id := ⟨2 ^ 127 + 5⟩
  time := ⟨1700000000, 123456789⟩
  images := [⟨"\"a\\b\n.jpg", 2 ^ 64 - 1⟩, ⟨"😀.png", 0⟩]
  audio := ⟨["voice.mp3", ""], 480000, 5e-324⟩
  effects := ⟨some .fade, none, some .sepia, some .bokeh, 0.8⟩
  outputFilename := "o\u0001.mp4"
  outputPath := .text "/ö/o.mp4"
  processingMs := 5
  settings := ⟨2 ^ 32 - 1, 1080, 30, "libx264", -2 ^ 31, "medium", [15, 15.5], "probe"⟩

theorem quoted_valid : quoted.Valid where
  time := by
    show Timestamp.Valid ⟨1700000000, 123456789⟩
    exact ⟨by decide, .inl (by decide)⟩
  images := by simp [quoted, ImageSummary.Valid]
  audio := by simp [quoted, AudioSummary.Valid]
  processingMs := by simp [quoted]
  settings := ⟨by simp [quoted], by simp [quoted], by simp [quoted], by simp [quoted]⟩

/-- Such an entry is read back; its lengths are so by the reader of the ledger as well. -/
theorem format_reads_back_quoted : (∀ x ∈ quoted.lengths, Json.Kept x) ∧
    serialized [quoted] = .ok (render [quoted]) ∧
      @parse? Json.rounding (render [quoted]).toList = some [quoted] ∧
      (Content.ofText (render [quoted])).toBytes.all isBlankByte = false ∧
      @classify Json.rounding (Content.ofText (render [quoted])).toBytes = .entries [quoted] := by
  have hfinite : quoted.Finite := by
    show ∀ x ∈ [5e-324, 0.8, 15, 15.5], isFinite x = true
    decide +kernel
  refine ⟨?_,
    @format_reads_back Json.rounding Json.rounding_correct
      _ (List.forall_mem_singleton.mpr quoted_valid)
    (List.forall_mem_singleton.mpr (show quoted.HasText from rfl))
      (List.forall_mem_singleton.mpr hfinite)⟩
  show ∀ x ∈ [5e-324, 0.8, 15, 15.5], Json.Kept x
  decide +kernel

end Ledger

end Slideshow
