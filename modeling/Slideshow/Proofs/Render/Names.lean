import Slideshow.JobId
import Slideshow.Proofs.Numeral
import Slideshow.Proofs.Render.Places
import Slideshow.Render.Job

/-!
# The names that are made

The names of videos and of files in workspaces are names of their own, whatever the job and the time
are, so that a path below a directory leads into that directory.

* `isName_nameFor`, `WorkFile.isName`: videos and files in workspaces.
* `WorkFile.ne_nameFor`: no file in a workspace has the name of a video.
-/

namespace Slideshow

open FileTree Decimal

/-! ## Digits are no slashes -/

theorem slash_not_mem_of_digits {cs : List Char} (h : ∀ c ∈ cs, isDigit c = true) : '/' ∉ cs :=
  fun hmem =>
  absurd (h '/' hmem) (by decide)

theorem slash_not_mem_padded (width n : Nat) : '/' ∉ (padded width n).toList :=
  slash_not_mem_of_digits fun _ => isDigit_of_mem_padded

namespace Timestamp

theorem slash_not_mem_yearText (year : Int) : '/' ∉ (yearText year).toList := by
  unfold yearText
  split
  · exact slash_not_mem_padded _ _
  · split <;> simp [slash_not_mem_padded]

theorem slash_not_mem_compact (t : Timestamp) : '/' ∉ t.compact.toList := by
  simp [compact, dateText, clockText, slash_not_mem_padded, slash_not_mem_yearText]

end Timestamp

theorem slash_not_mem_short (id : JobId) : '/' ∉ id.short.toList := by
  have hdigit : ∀ n, n < 16 → Json.hexDigit n ≠ '/' := by decide
  have hdigits : '/' ∉ id.digits := fun h => by
    obtain ⟨i, -, hi⟩ := List.mem_map.mp h
    exact hdigit _ (Nat.mod_lt _ (by decide)) hi
  rw [JobId.short, String.toList_ofList]
  exact fun h => hdigits (List.mem_of_mem_take h)

/-- What does not begin with a dot and has no slash is a name. -/
theorem isName_of_toList {name : String} {c : Char} {cs : List Char} (h : name.toList = c :: cs)
    (hc : c ≠ '.') (hslash : '/' ∉ c :: cs) : IsName name := by
  have hname : name = String.ofList (c :: cs) := by rw [← h, String.ofList_toList]
  have hdot : ∀ ds, name ≠ String.ofList ('.' :: ds) := fun ds hds =>
    hc (List.cons.inj (String.ofList_injective (hname.symm.trans hds))).1
  have hempty : name ≠ "" := fun he => by
    rw [he] at h
    cases h
  exact ⟨hempty, h ▸ hslash, hdot [], hdot ['.']⟩

/-! ## Videos -/

theorem toList_nameFor (id : JobId) (asked : Timestamp) :
    ∃ cs, (OutputFile.nameFor id asked).toList = 's' :: 'l' :: cs ∧ '/' ∉ cs := by
  refine ⟨"ideshow_".toList ++ asked.compact.toList ++ '_' :: id.short.toList ++ ".mp4".toList, ?_,
    ?_⟩
  · simp [OutputFile.nameFor]
  · simp [asked.slash_not_mem_compact, slash_not_mem_short id]

theorem isName_nameFor (id : JobId) (asked : Timestamp) : IsName (OutputFile.nameFor id asked) := by
  obtain ⟨cs, hcs, hslash⟩ := toList_nameFor id asked
  exact isName_of_toList hcs (by decide) (by simpa using hslash)

/-! ## Files in workspaces -/

theorem toList_partName (i : Nat) : ∃ cs, (partName i).toList = 'p' :: 'a' :: cs ∧ '/' ∉ cs := by
  refine ⟨"rt".toList ++ (padded 3 i).toList ++ ".wav".toList, ?_, ?_⟩
  · simp [partName]
  · simp [slash_not_mem_padded]

namespace WorkFile

theorem isName {name : String} (h : WorkFile name) : IsName name := by
  cases h with
  | narration => exact ⟨by decide, by decide, by decide, by decide⟩
  | manifest => exact ⟨by decide, by decide, by decide, by decide⟩
  | part i =>
    obtain ⟨cs, hcs, hslash⟩ := toList_partName i
    exact isName_of_toList hcs (by decide) (by simpa using hslash)

/-- No file in a workspace has the name of a video. -/
theorem ne_nameFor {name : String} (h : WorkFile name) (id : JobId) (asked : Timestamp) :
    name ≠ OutputFile.nameFor id asked := by
  rintro rfl
  obtain ⟨cs, hcs, -⟩ := toList_nameFor id asked
  generalize OutputFile.nameFor id asked = name at h hcs
  cases h with
  | narration => cases hcs
  | manifest => cases hcs
  | part i =>
    obtain ⟨ds, hds, -⟩ := toList_partName i
    rw [hds] at hcs
    cases hcs

end WorkFile

end Slideshow
