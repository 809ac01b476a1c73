import Slideshow.Proofs.Render.Names
import Slideshow.Proofs.Render.Request
import Slideshow.Proofs.Render.Standing

/-!
# What a failed render leaves behind

The video is written by the encoder and by nothing else, and it is removed when encoding fails
(`produce`). So no video is left when a render fails, unless it fails after the encoding: then only
the ledger can have refused the entry, and the video stays.

* `NoFile here path t`: no file stands at a path. `Vacant l t`: none stands at a place.

Headlines:
* **`encode_cleans`**: a failed encoding leaves no video.
* **`render_cleans`**: a failed render leaves no video, except when the ledger refused it.
-/

namespace Slideshow

open FileTree Machine

namespace FileTree

/-- No file stands at a path. -/
def NoFile (here : Location) (path : String) (t : FileTree) : Prop :=
  ∀ l n, t.find here path = .ok (l, n) → n = .directory

/-- No file stands at a place. -/
def Vacant (l : Location) (t : FileTree) : Prop := ∀ n, t.get? l = some n → n = .directory

variable {here : Location} {path : String} {t : FileTree}

theorem Vacant.noFile (h : Vacant (place here path) t) : NoFile here path t := fun _ n hfind =>
  h n (find_place hfind).2

/-- Nothing comes to a path when something is removed. -/
theorem NoFile.erase (h : NoFile here path t) (l : Location) : NoFile here path (t.erase l) := by
  intro k n hfind
  obtain ⟨hlocate, hget⟩ := find_eq_ok_iff.mp hfind
  obtain ⟨hk, hpath, hshort, hway⟩ := locate_eq_ok_iff.mp hlocate
  have hlocate' : t.locate here path = .ok k :=
    locate_eq_ok_iff.mpr ⟨hk, hpath, hshort, fun s hs => get?_of_erase (hway s hs)⟩
  exact h k n (find_eq_ok_iff.mpr ⟨hlocate', get?_of_erase hget⟩)

/-- Only what is written at a place comes to stand there as a file. -/
theorem vacant_kept (here l : Location) :
    Kept here (· ≠ l) (fun _ => True) (fun _ => True) (Vacant l) where
  write := by
    intro t u path c ht hne hu n hn
    obtain ⟨-, -, -, rfl⟩ := write_eq_ok hu
    rw [get?_put_of_ne t hne.symm] at hn
    exact ht n hn
  makeDirectory := by
    intro t u path ht _ hu n hn
    obtain ⟨-, hnone, rfl⟩ := makeDirectory_eq_ok hu
    have hne : place here path ≠ [] := ne_nil_of_get? (t := t) (by simp [hnone])
    by_cases hl : l = place here path
    · subst hl
      rw [get?_put_self t hne] at hn
      exact (Option.some.inj hn).symm
    · rw [get?_put_of_ne t hl] at hn
      exact ht n hn
  erase ht _ n hn := ht n (get?_of_erase hn)

/-- No file is left where one was removed. -/
theorem noFile_of_removeFile_ok {u : FileTree} (h : t.removeFile here path = .ok u) :
    NoFile here path u := by
  obtain ⟨hnode, rfl⟩ := removeFile_eq_ok h
  intro l n hfind
  obtain ⟨rfl, hgone⟩ := find_place hfind
  rw [get?_erase _ (ne_nil_of_get? hnode), if_pos (by simp)] at hgone
  cases hgone

/-- No file was where none could be removed. -/
theorem noFile_of_removeFile_error {e : OsError} (h : t.removeFile here path = .error e) :
    NoFile here path t := by
  intro l n hfind
  unfold FileTree.removeFile at h
  rw [hfind] at h
  cases n with
  | directory => rfl
  | file | program => cases h

end FileTree

/-- **Removing a file leaves none**, whatever stands at its path, if the removal is not refused. -/
theorem Machine.removeFile_cleans (path : String) {here : Location} {c : Circumstances}
    (hremoval : ∀ clock, c.removal clock = none) {I : FileTree → Prop} :
    Ensures (Holds here c I) (removeFile path) fun _ => Holds here c (NoFile here path) := by
  intro m hm
  have hallowed : m.tick.circumstances.removal m.tick.clock = none := hm.circumstances ▸ hremoval _
  have hhere : m.tick.here = here := hm.here
  unfold removeFile
  dsimp only
  rw [hallowed]
  dsimp only
  cases hfiles : m.tick.files.removeFile m.tick.here path with
  | ok u => exact hm.tick.replace (noFile_of_removeFile_ok (hhere ▸ hfiles))
  | error e => exact ⟨hm.here, hm.circumstances, noFile_of_removeFile_error (hhere ▸ hfiles)⟩

namespace Service

variable {start : Service} {here : Location} {c : Circumstances}
  (hremoval : ∀ clock, c.removal clock = none)

include hremoval in
/-- **A failed encoding leaves no video.** -/
theorem encode_cleans (id : JobId) (r : EncodeRequest) {I : FileTree → Prop} :
    Tries (Standing start (Holds here c I)) (encode id r)
      (fun _ => Standing start (Holds here c fun _ => True))
      fun _ => Standing start (Holds here c (NoFile here r.output)) := by
  have hany : Kept here (fun _ => True) (fun _ => True) (fun _ => True) fun _ => True :=
    ⟨fun _ _ _ => trivial, fun _ _ _ => trivial, fun _ _ => trivial⟩
  have hstart : ∀ m, Holds here c I m → Holds here c (fun _ => True) m := fun m hm =>
    ⟨hm.here, hm.circumstances, trivial⟩
  unfold encode
  refine Ensures.get_bind fun s₀ _ => ?_
  have hencoder := (encoder_holds hany (c := c) s₀.encoder (r := r) trivial).mono hstart
    fun _ _ hm => hm
  refine .bind (onMachine_standing hencoder) fun encoded => ?_
  refine .bind (relays_standing id encoded.events) fun _ => ?_
  split
  · exact .pure _ fun _ hs => hs
  · exact .bind (onMachine_standing (removeFile_cleans r.output hremoval)) fun _ =>
      .pure _ fun _ hs => hs

/-- The ledger refused the entry of a job. -/
def RefusedBy (l : Ledger) (id : JobId) (output : OutputFile) (e : Error) : Prop :=
  ∃ entry m, entry.id = id ∧ entry.outputPath = .text output.path ∧ (l.append entry m).1 = .error e

/-- No video is left after an error, unless the ledger made it. -/
def Cleaned (start : Service) (here : Location) (c : Circumstances) (id : JobId)
    (output : OutputFile) (h : Halt) (s : Service) : Prop :=
  Standing start (Holds here c (NoFile here output.path)) s ∨
    ∃ e, h = .failed e ∧ RefusedBy start.ledger id output e

section
variable {id : JobId} {output : OutputFile}

theorem Standing.cleaned {h : Halt} {s : Service}
    (hs : Standing start (Holds here c (Vacant (place here output.path))) s) :
    Cleaned start here c id output h s :=
  .inl ⟨hs.config, hs.tools, hs.machine.here, hs.machine.circumstances, hs.machine.files.noFile⟩

/-- Only the ledger can leave the video of a failed job. -/
theorem append_cleans {entry : LedgerEntry} (hid : entry.id = id)
    (hpath : entry.outputPath = .text output.path) {pre : Service → Prop} :
    Tries pre (tryOnMachine (start.ledger.append entry)) (fun _ _ => True)
      (Cleaned start here c id output) := by
  intro s _
  show Either _ _ (((start.ledger.append entry).run s.machine).1.mapError Halt.failed) _
  cases h : ((start.ledger.append entry).run s.machine).1 with
  | ok u => trivial
  | error e => exact .inr ⟨e, rfl, entry, s.machine, hid, hpath, h⟩

/-- Closing the workspace brings no video back. -/
theorem close_cleans (w : Workspace) (h : Halt) :
    Ensures (Cleaned start here c id output h) (onMachine w.close.run) fun _ =>
      Cleaned start here c id output h :=
  .orElse (onMachine_standing (Workspace.close_holds fun h => h.erase _).run)

end

/-! ## Everything before the encoding -/

section
variable {id : JobId} {output : OutputFile}

/-- A video has the name that is made for it. -/
def IsVideo (id : JobId) (output : OutputFile) : Prop :=
  ∃ base asked, output.path = Path.join base (OutputFile.nameFor id asked)

theorem isVideo_nextOutput (s : Service) : IsVideo s.nextJob s.nextOutput :=
  ⟨s.config.storage.outputDir, (now (newJobId s.machine).2).1, by rw [nextOutput]⟩

theorem IsVideo.room (h : IsVideo id output) (root opening : String) :
    Room here c root opening (· ≠ place here output.path) (fun _ => True) fun _ => True where
  made _ := trivial
  removed _ := trivial
  filled := by
    obtain ⟨base, asked, hpath⟩ := h
    intro path name _ hname heq
    rw [hpath, place_join_name here hname.isName,
      place_join_name here (isName_nameFor id asked)] at heq
    exact hname.ne_nameFor id asked (List.cons.inj (List.append_inj' heq rfl).2).1

variable {r : ValidatedRequest} (hremoval : ∀ clock, c.removal clock = none)
  (hvideo : IsVideo id output) (hparts : ∀ p ∈ r.audio, place here p ≠ place here output.path)
include hremoval hvideo hparts

theorem produce_cleans {w : Workspace} {opening : String}
    (hw : DrawnIn here c start.config.storage.workDir opening w.path) :
    Tries (Standing start (Holds here c (Vacant (place here output.path)))) (produce id r output w)
      (fun _ _ => True) (Cleaned start here c id output) := by
  have hvacant := vacant_kept here (place here output.path)
  have hparent : Keeps (Holds here c (Vacant (place here output.path)))
      (Merger.makeParent (w.file "narration.wav") "create") :=
    Merger.makeParent_keeps hvacant "create" fun _ _ _ _ => trivial
  have hnarration : Keeps (Standing start (Holds here c (Vacant (place here output.path))))
      (narration id r.audio w) :=
    narration_standing hvacant id hparts ((hvideo.room _ opening).filled hw .narration)
      (hvideo.room _ "concat-") (fun _ _ => trivial) (fun _ hm => hm) hparent
  refine produce_tries (Q := Holds here c fun _ => True) holds_timeless
    (fun _ hm => hm.circumstances)
    (hnarration.bad_mono fun _ _ => Standing.cleaned) (fun _ _ => Standing.cleaned) ?_ ?_ ?_
  · exact (makeOutputDirectory_standing hvacant fun _ _ _ _ => trivial).bad_mono fun _ _ =>
      Standing.cleaned
  · intro request hrequest
    exact (encode_cleans hremoval id request).bad_mono fun _ _ hs => .inl (hrequest ▸ hs)
  · intro n durations now later
    exact append_cleans rfl rfl

theorem run_cleans :
    Tries (Standing start (Holds here c (Vacant (place here output.path)))) (run id r output)
      (fun _ _ => True) (Cleaned start here c id output) := by
  have hvacant := vacant_kept here (place here output.path)
  have hcreate := Workspace.create_holds hvacant (c := c) start.config.storage.workDir
    ("job-" ++ id.short ++ "-") (fun _ _ => trivial) fun _ _ => trivial
  refine run_tries holds_timeless (fun _ _ => Standing.cleaned) hcreate fun w => ?_
  refine assume_standing fun hw => ?_
  exact closingAfter_tries (produce_cleans hremoval hvideo hparts hw) (fun _ => .any _) fun e =>
    close_cleans w e

end

/-! ## A whole render -/

theorem exists_error {ε α : Type} {result : Except ε α} (h : result.isOk = false) :
    ∃ e, result = .error e := by
  cases result with
  | ok _ => cases h
  | error e => exact ⟨e, rfl⟩

theorem exists_of_metadata {t : FileTree} {path : String} {m : Metadata}
    (h : t.metadata here path = .ok m) :
    ∃ n, t.get? (place here path) = some n := by
  unfold FileTree.metadata at h
  cases hfind : t.find here path with
  | error e =>
    rw [hfind] at h
    cases h
  | ok p => exact ⟨p.2, (find_place hfind).2⟩

/-- What a request was checked for: each part of the narration is there. -/
theorem accepts_audio {s : Service} {request : RenderRequest} {r : ValidatedRequest}
    (h : s.accepts? request = .ok r) :
    ∀ p ∈ r.audio, ∃ n, s.machine.files.get? (place s.machine.here p) = some n := by
  obtain ⟨-, imageSizes, audioSizes, spec, -, haudio, -, rfl⟩ :=
    RenderRequest.validate_eq_ok_iff.mp h
  intro p hp
  obtain ⟨size, hsize⟩ := forall_of_forall₂ haudio p hp
  exact exists_of_metadata hsize.file

/-- **A failed render leaves no video**, unless the ledger refused its entry. What is there can be
removed. -/
theorem render_cleans (s : Service) (request : RenderRequest) {r : ValidatedRequest} {e : Halt}
    (h : s.accepts? request = .ok r)
    (hnew : s.machine.files.get? (place s.machine.here s.nextOutput.path) = none)
    (hremoval : ∀ clock, s.machine.circumstances.removal clock = none)
    (he : (render request s).1 = .error e) :
    NoFile s.machine.here s.nextOutput.path (render request s).2.machine.files ∨
      ∃ refusal, e = .failed refusal ∧ RefusedBy s.ledger s.nextJob s.nextOutput refusal := by
  have hparts : ∀ p ∈ r.audio, place s.machine.here p ≠ place s.machine.here s.nextOutput.path := by
    intro p hp heq
    obtain ⟨n, hn⟩ := accepts_audio h p hp
    rw [heq, hnew] at hn
    cases hn
  have hrender := render_tries s request h (P := Holds s.machine.here s.machine.circumstances
    (Vacant (place s.machine.here s.nextOutput.path)))
    ⟨rfl, rfl, fun n hn => by rw [hnew] at hn; cases hn⟩
    holds_timeless (run_cleans hremoval s.isVideo_nextOutput hparts) (fun _ => .any _) fun e =>
      .orElse (conclude_standing holds_timeless s.nextJob _)
  rw [he] at hrender
  exact hrender.imp_left fun hs => hs.machine.files

/-- A service whose encoder writes a part of the video, and then fails. -/
def failing : Service := idle {} { studio with
  files := ⟨[(["a.png"], .file (.ofText "picture")), (["n.mp3"], .file (.ofText "sound")),
    (["bin"], .directory),
    (["bin", "ffprobe"], .program fun _ _ => { output := Text.encode "10" }),
    (["bin", "ffmpeg"], .program fun _ _ =>
      { written := some (.ofText "vid"), ending := .exited 1 })]⟩ }

theorem render_fails_failing : (render single failing).1.isOk = false := by decide +kernel

theorem render_cleans_failing : ∃ r e, failing.accepts? single = .ok r ∧
    failing.machine.files.get? (place failing.machine.here failing.nextOutput.path) = none ∧
    (∀ clock, failing.machine.circumstances.removal clock = none) ∧
    (render single failing).1 = .error e ∧
    (NoFile failing.machine.here failing.nextOutput.path (render single failing).2.machine.files ∨
      ∃ refusal, e = .failed refusal ∧
        RefusedBy failing.ledger failing.nextJob failing.nextOutput refusal) := by
  obtain ⟨e, he⟩ := exists_error render_fails_failing
  exact ⟨_, e, rfl, rfl, fun _ => rfl, he, render_cleans failing single rfl rfl (fun _ => rfl) he⟩

/-- A service whose ledger would have to stand below a file. -/
def refusing : Service :=
  { small with config := { small.config with storage := { ledgerPath := "/a.png/ledger.json" } } }

/-- **The video of a job that the ledger refused stays.** -/
theorem refused_video_stays :
    ((render single refusing).1 matches .error _) = true ∧
      refusing.machine.files.isPresent [] refusing.nextOutput.path = false ∧
      (render single refusing).2.machine.files.isPresent [] refusing.nextOutput.path = true := by
  decide +kernel

end Service

end Slideshow
