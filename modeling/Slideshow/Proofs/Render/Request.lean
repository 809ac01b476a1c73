import Mathlib.Data.List.Forall2
import Slideshow.Proofs.Effect.Options
import Slideshow.Render.Request

/-!
# Which requests are accepted

A request is checked (`validate`) in one sequence that ends with the first thing that is wrong: the
numbers of files, the effects, and then file after file. What is accepted is told here without an
order, by what each path has to be.

* `SameLetter` are letters that differ at most in their case, and `Typed` is a path with an allowed
  extension.
* `Usable` is a path that may be given, with the size of its file.
* `Renderable` are the requests that are accepted, and `Matches` is what is made of one.

Headlines:
* `checkFile_eq_ok_iff`, `validate_eq_ok_iff`: what is accepted, and as what.
* **`accepts_renderable`**: a request is accepted exactly when it is renderable, is refused as
  invalid otherwise, and stays what it was.
-/

namespace Slideshow

section
variable {α β : Type} {R : α → β → Prop} {xs : List α} {ys : List β}

theorem exists_forall₂ (h : ∀ x ∈ xs, ∃ y, R x y) : ∃ ys, List.Forall₂ R xs ys := by
  induction xs with
  | nil => exact ⟨[], .nil⟩
  | cons x xs ih =>
    obtain ⟨⟨y, hy⟩, hxs⟩ := List.forall_mem_cons.mp h
    obtain ⟨ys, hys⟩ := ih hxs
    exact ⟨y :: ys, .cons hy hys⟩

theorem forall_of_forall₂ (h : List.Forall₂ R xs ys) : ∀ x ∈ xs, ∃ y, R x y := by
  induction h with
  | nil => exact List.forall_mem_nil _
  | cons hxy _ ih => exact List.forall_mem_cons.mpr ⟨⟨_, hxy⟩, ih⟩

end

namespace RenderRequest

/-! ## Extensions -/

/-- A capital letter of the alphabet and its small one. -/
def Capital (a b : Char) : Prop := (65 ≤ a.toNat ∧ a.toNat ≤ 90) ∧ b.toNat = a.toNat + 32

/-- Two letters that differ at most in their case. -/
def SameLetter (a b : Char) : Prop := a = b ∨ Capital a b ∨ Capital b a

/-- A path with an allowed extension, in any case. One that has no extension counts as one with the
empty extension. -/
def Typed (allowed : List String) (path : String) : Prop :=
  ∃ a ∈ allowed, List.Forall₂ SameLetter a.toList ((Path.extension? path).getD "").toList

theorem toNat_toLower (c : Char) :
    c.toLower.toNat = if 65 ≤ c.toNat ∧ c.toNat ≤ 90 then c.toNat + 32 else c.toNat := by
  have hrange : (c.val ≥ 'A'.val ∧ c.val ≤ 'Z'.val) ↔ 65 ≤ c.toNat ∧ c.toNat ≤ 90 := by
    rw [ge_iff_le, UInt32.le_iff_toNat_le, UInt32.le_iff_toNat_le]
    rfl
  unfold Char.toLower
  split
  · next h =>
    have hcode := hrange.mp h
    have hsmall : c.val.toNat + 32 < 2 ^ 32 := by
      show c.toNat + 32 < 2 ^ 32
      omega
    have hsum : (c.val + ('a'.val - 'A'.val)).toNat = c.val.toNat + 32 :=
      UInt32.toNat_add _ _ |>.trans (Nat.mod_eq_of_lt hsmall)
    rw [if_pos hcode]
    exact hsum
  · next h => rw [if_neg (mt hrange.mpr h)]

theorem toLower_eq_iff (a b : Char) : a.toLower = b.toLower ↔ SameLetter a b := by
  rw [← Char.toNat_inj, toNat_toLower, toNat_toLower]
  unfold SameLetter Capital
  rw [← Char.toNat_inj]
  split_ifs <;> omega

theorem toLower_toLower (c : Char) : c.toLower.toLower = c.toLower := by
  rw [← Char.toNat_inj, toNat_toLower, toNat_toLower]
  split_ifs <;> omega

/-- The check of an extension, which compares small letters. -/
theorem isAllowed_iff (allowed : List String) (path : String) :
    isAllowed allowed path = true ↔ Typed allowed path := by
  have hkind : lowered (Path.kind path) =
      ((Path.extension? path).getD "").toList.map Char.toLower := by
    rw [lowered, Path.kind, String.toList_ofList, List.map_map]
    exact List.map_congr_left fun c _ => toLower_toLower c
  have hsame : ∀ a, lowered a = lowered (Path.kind path) ↔
      List.Forall₂ SameLetter a.toList ((Path.extension? path).getD "").toList := by
    intro a
    rw [hkind, lowered, ← List.forall₂_eq_eq_eq, List.forall₂_map_left_iff,
      List.forall₂_map_right_iff]
    simp only [toLower_eq_iff]
  simp only [isAllowed, Typed, List.any_eq_true, beq_iff_eq, hsame]

/-! ## Files -/

/-- A path that may be given: of an allowed type, and a file with something in it. -/
structure Usable (t : FileTree) (here : Location) (allowed : List String) (path : String)
    (size : Nat) : Prop where
  typed : Typed allowed path
  file : t.metadata here path = .ok ⟨true, size⟩
  filled : 0 < size

variable {t : FileTree} {here : Location} {kind path : String} {allowed : List String}

theorem fileSize_eq_ok_iff {size : Nat} :
    fileSize t here path = .ok size ↔ t.metadata here path = .ok ⟨true, size⟩ ∧ 0 < size := by
  unfold fileSize
  cases t.metadata here path with
  | error e => simp
  | ok info =>
    obtain ⟨isFile, n⟩ := info
    cases isFile with
    | false => simp
    | true =>
      by_cases hn : n = 0
      · subst hn
        simp
        omega
      · simp [hn]
        omega

theorem checkFile_eq_ok_iff {size : Nat} :
    checkFile t here kind allowed path = .ok size ↔ Usable t here allowed path size := by
  have hsize : ∀ e : FileFault → Error, (fileSize t here path).mapError e = .ok size ↔
      fileSize t here path = .ok size := by
    intro e
    cases fileSize t here path <;> simp [Except.mapError]
  unfold checkFile
  split
  · next htyped =>
    rw [hsize, fileSize_eq_ok_iff]
    exact ⟨fun h => ⟨(isAllowed_iff allowed path).mp htyped, h.1, h.2⟩, fun h => ⟨h.file, h.filled⟩⟩
  · next htyped =>
    exact ⟨fun h => (nomatch h), fun h => absurd ((isAllowed_iff allowed path).mpr h.typed) htyped⟩

theorem checkFile_error {e : Error} (h : checkFile t here kind allowed path = .error e) :
    ∃ message, e = .validation message := by
  unfold checkFile at h
  split at h
  · cases hsize : fileSize t here path with
    | ok n =>
      rw [hsize] at h
      cases h
    | error f =>
      rw [hsize] at h
      exact ⟨_, (Except.error.inj h).symm⟩
  · exact ⟨_, (Except.error.inj h).symm⟩

/-! ## Requests -/

theorem countFault?_eq_none_iff (r : RenderRequest) (most : Nat) :
    r.countFault? most = none ↔ r.images ≠ [] ∧ r.images.length ≤ most ∧ r.audio ≠ [] := by
  unfold countFault?
  simp only [List.isEmpty_iff]
  split_ifs with himages hmost haudio
  · simp [himages]
  · simpa [himages] using fun h => absurd h (Nat.not_le.mpr hmost)
  · simp [haudio]
  · simpa [himages, haudio] using hmost

/-- A selection is what the effects of a request give, with the length that is asked for or else the
default. -/
def Selects (r : RenderRequest) (default : Float) (s : EffectSpec Float) : Prop :=
  match r.effects with
  | some o => (∀ f, ¬o.Bad f) ∧ ∃ p, o.Follows default p s
  | none => s = .plain default

theorem resolveEffects_eq_ok_iff (r : RenderRequest) (default : Float) (s : EffectSpec Float) :
    r.resolveEffects default = .ok s ↔ r.Selects default s := by
  unfold resolveEffects Selects
  cases r.effects with
  | none => exact ⟨fun h => (Except.ok.inj h).symm, fun h => congrArg Except.ok h.symm⟩
  | some o => exact o.resolve_iff default s

theorem resolveEffects_error {r : RenderRequest} {default : Float} {e : Error}
    (h : r.resolveEffects default = .error e) :
    ∃ message, e = .validation message := by
  unfold resolveEffects at h
  cases heffects : r.effects with
  | none =>
    rw [heffects] at h
    cases h
  | some o =>
    rw [heffects] at h
    cases hvalid : o.isValid with
    | false =>
      exact ⟨_, (Except.error.inj ((o.resolve_of_not_valid default hvalid).symm.trans h)).symm⟩
    | true =>
      obtain ⟨p, s, hs, -⟩ := o.resolve_of_good default (o.isValid_iff.mp hvalid)
      cases hs.symm.trans h

/-- A request that can be rendered. -/
structure Renderable (r : RenderRequest) (t : FileTree) (here : Location) (input : InputConfig) :
    Prop where
  images : r.images ≠ []
  most : r.images.length ≤ input.maxImages
  audio : r.audio ≠ []
  effects : ∀ o, r.effects = some o → ∀ f, ¬o.Bad f
  imageFiles : ∀ path ∈ r.images, ∃ size, Usable t here input.imageExtensions path size
  audioFiles : ∀ path ∈ r.audio, ∃ size, Usable t here input.audioExtensions path size

/-- What is made of a request. -/
structure Matches (r : RenderRequest) (t : FileTree) (here : Location) (input : InputConfig)
    (config : EffectsConfig) (v : ValidatedRequest) : Prop where
  images : v.images = r.images
  imageSizes : List.Forall₂ (Usable t here input.imageExtensions) r.images v.imageSizes
  audio : v.audio = r.audio
  /-- The sizes together are a number of 64 bits. -/
  audioBytes : ∃ sizes, List.Forall₂ (Usable t here input.audioExtensions) r.audio sizes ∧
    (sizes.sum < 2 ^ 64 → v.audioBytes = sizes.sum)
  effects : r.Selects config.defaultTransitionDuration v.effects

variable {r : RenderRequest} {input : InputConfig} {config : EffectsConfig}

/-- What is accepted, and as what. -/
theorem validate_eq_ok_iff {v : ValidatedRequest} :
    r.validate t here input config = .ok v ↔ r.countFault? input.maxImages = none ∧
      ∃ imageSizes audioSizes s,
        List.Forall₂ (Usable t here input.imageExtensions) r.images imageSizes ∧
        List.Forall₂ (Usable t here input.audioExtensions) r.audio audioSizes ∧
        r.Selects config.defaultTransitionDuration s ∧
            v = ⟨r.images, imageSizes, r.audio, totalBytes audioSizes, s⟩ := by
  have hfiles : ∀ kind allowed paths sizes, paths.mapM (checkFile t here kind allowed) = .ok sizes ↔
      List.Forall₂ (Usable t here allowed) paths sizes := by
    intro kind allowed paths sizes
    simp only [mapM_eq_ok_iff, checkFile_eq_ok_iff]
  unfold validate
  constructor
  · intro h
    split at h
    · cases h
    · next hcount =>
      obtain ⟨s, hs, h⟩ := of_bind_ok h
      obtain ⟨imageSizes, himages, h⟩ := of_bind_ok h
      obtain ⟨audioSizes, haudio, h⟩ := of_bind_ok h
      exact ⟨hcount, imageSizes, audioSizes, s, (hfiles _ _ _ _).mp himages,
        (hfiles _ _ _ _).mp haudio, (r.resolveEffects_eq_ok_iff _ s).mp hs, (Except.ok.inj h).symm⟩
  · rintro ⟨hcount, imageSizes, audioSizes, s, himages, haudio, hs, rfl⟩
    rw [hcount, (r.resolveEffects_eq_ok_iff _ s).mpr hs, (hfiles _ _ _ _).mpr himages,
      (hfiles _ _ _ _).mpr haudio]
    rfl

theorem validate_error {e : Error} (h : r.validate t here input config = .error e) :
    ∃ message, e = .validation message := by
  unfold validate at h
  split at h
  · exact ⟨_, (Except.error.inj h).symm⟩
  · rcases of_bind_error h with h | ⟨s, -, h⟩
    · exact resolveEffects_error h
    · rcases of_bind_error h with h | ⟨imageSizes, -, h⟩
      · obtain ⟨path, -, hpath⟩ := exists_of_mapM_error h
        exact checkFile_error hpath
      · rcases of_bind_error h with h | ⟨audioSizes, -, h⟩
        · obtain ⟨path, -, hpath⟩ := exists_of_mapM_error h
          exact checkFile_error hpath
        · cases h

theorem exists_selects (h : ∀ o, r.effects = some o → ∀ f, ¬o.Bad f) (default : Float) :
    ∃ s, r.Selects default s := by
  unfold Selects
  cases heffects : r.effects with
  | none => exact ⟨_, rfl⟩
  | some o =>
    obtain ⟨p, s, -, hs⟩ := o.resolve_of_good default (h o heffects)
    exact ⟨s, h o heffects, p, hs⟩

/-- Renderable requests are accepted. -/
theorem Renderable.accepted (h : r.Renderable t here input) :
    ∃ v, r.validate t here input config = .ok v := by
  obtain ⟨imageSizes, himages⟩ := exists_forall₂ h.imageFiles
  obtain ⟨audioSizes, haudio⟩ := exists_forall₂ h.audioFiles
  obtain ⟨s, hs⟩ := exists_selects h.effects config.defaultTransitionDuration
  have hcount := (r.countFault?_eq_none_iff input.maxImages).mpr ⟨h.images, h.most, h.audio⟩
  exact ⟨_, validate_eq_ok_iff.mpr ⟨hcount, imageSizes, audioSizes, s, himages, haudio, hs, rfl⟩⟩

/-- Other requests are not. -/
theorem renderable_of_accepted {v : ValidatedRequest} (h : r.validate t here input config = .ok v) :
    r.Renderable t here input := by
  obtain ⟨hcount, imageSizes, audioSizes, s, himageFiles, haudioFiles, hselects, -⟩ :=
    validate_eq_ok_iff.mp h
  obtain ⟨himages, hmost, haudio⟩ := (r.countFault?_eq_none_iff input.maxImages).mp hcount
  refine ⟨himages, hmost, haudio, fun o ho => ?_, forall_of_forall₂ himageFiles,
    forall_of_forall₂ haudioFiles⟩
  unfold Selects at hselects
  rw [ho] at hselects
  exact hselects.1

theorem matches_of_accepted {v : ValidatedRequest} (h : r.validate t here input config = .ok v) :
    r.Matches t here input config v := by
  obtain ⟨-, imageSizes, audioSizes, s, himages, haudio, hs, rfl⟩ := validate_eq_ok_iff.mp h
  refine ⟨rfl, himages, rfl, ⟨audioSizes, haudio, fun hsmall => ?_⟩, hs⟩
  show audioSizes.foldl (· + ·) 0 % 2 ^ 64 = audioSizes.sum
  rw [← List.sum_eq_foldl, Nat.mod_eq_of_lt hsmall]

/-- **Exactly the renderable requests are accepted**, and all others are refused as invalid. What is
accepted has the paths of the request in their order, the size of each image in the place of the
image, the sizes of the parts together where they are a number of 64 bits, and the effects that the
request selects, with the default length where it asks for none. -/
theorem accepts_renderable (r : RenderRequest) (t : FileTree) (here : Location)
    (input : InputConfig) (config : EffectsConfig) :
    ((∃ v, r.validate t here input config = .ok v) ↔ r.Renderable t here input) ∧
    (∀ e, r.validate t here input config = .error e → ∃ message, e = .validation message) ∧
    ∀ v, r.validate t here input config = .ok v → r.Matches t here input config v := by
  refine ⟨⟨?_, Renderable.accepted⟩, fun e he => validate_error he, fun v hv =>
    matches_of_accepted hv⟩
  rintro ⟨v, hv⟩
  exact renderable_of_accepted hv

/-- A path without an extension is accepted where the empty extension is allowed, and the sizes
together may be more than fit. -/
theorem accepts_nameless :
    let half : Node := .file ⟨[], Nat.pow 2 63 - 1⟩
    let t : FileTree := ⟨[(["scan"], .file ⟨[0], 0⟩), (["voice.mp3"], half)]⟩
    (∃ v, (RenderRequest.mk ["/scan"] ["/voice.mp3"] none).validate t
      [] { imageExtensions := [""] } {} = .ok v) ∧
    Path.extension? "/scan" = none ∧
    ∃ v, (RenderRequest.mk ["/scan"] ["/voice.mp3", "/voice.mp3", "/voice.mp3"] none).validate t
      [] { imageExtensions := [""] } {} =
      .ok v ∧ v.audioBytes ≠ 3 * (Nat.pow 2 63 - 1) := by
  refine ⟨⟨_, rfl⟩, by decide, ⟨_, rfl, ?_⟩⟩
  decide

end RenderRequest

end Slideshow
