import Slideshow.Proofs.Ledger.Replacement
import Slideshow.Proofs.Machine.Scratch
import Slideshow.Proofs.Render.Cleanup

/-!
# What is left in the root of the workspaces

A job works in a workspace (`run`, `JobWorkspace`), and while it does so the parts of its narration
are joined in another one under the same root. Both are removed on every way out, whatever has
failed in them and whenever the token fires. So a run leaves nothing in the root but what it is
asked to leave there: its output or its video, the ledger, and directories on the way to these.

* `FileTree.Entry t root k`: something stands at `k`, below the root.
* `Merger.Asked`, `Service.Asked`: where a run is asked to leave something.
* `Ledger.append_tidies`, `Merger.merge_tidies`, `Service.produce_tidies`: the parts of a run.

Headlines:
* **`Service.scratch_removed`**: the entries of the root are those from before, but for what was
  asked for.
* **`Service.merged_in_root`**: an output that is asked for in the root stays there, and so does a
  temporary file of the ledger that cannot be removed.

Out of scope: files that programs write besides the one that they are given, and directories that
cannot be removed.
-/

namespace Slideshow

open FileTree Machine

/-- Something stands at a place below a root. -/
def FileTree.Entry (t : FileTree) (root k : Location) : Prop :=
  root.isPrefixOf k = true ∧ k ≠ root ∧ (t.get? k).isSome = true

instance (t : FileTree) (root k : Location) : Decidable (t.Entry root k) :=
  inferInstanceAs (Decidable (_ ∧ _ ∧ _))

variable {here : Location} {c : Circumstances} {asked : Location → Prop} {t u : FileTree}

theorem FileTree.Tidy.entry_iff (h : Tidy asked t u) (root : Location) {k : Location}
    (hk : ¬asked k) :
    u.Entry root k ↔ t.Entry root k := by
  simp only [Entry, h.entries k hk]

/-- A file in a workspace is inside of it. -/
theorem WorkFile.inside {name : String} (h : WorkFile name) (w : Workspace) :
    FileTree.inside asked (place here w.path) (place here (w.file name)) := by
  rw [show w.file name = Path.join w.path name from rfl, place_join_name here h.isName]
  simp [FileTree.inside]

/-! ## The ledger -/

namespace Ledger

/-- Where an addition may leave something: the ledger, what is moved aside for it, the directories
above it, and a temporary file that may not be removed. -/
inductive Asked (l : Ledger) (here : Location) (c : Circumstances) : Location → Prop
  /-- The ledger itself. -/
  | file : Asked l here c (place here l.path)
  /-- A file that is no ledger is moved here. -/
  | aside : Asked l here c (place here l.asidePath)
  /-- The directory of the ledger is made, with those above it. -/
  | above {p : String} (h : Upward l.directory p) : Asked l here c (place here p)
  /-- A temporary file stays when removing a file is refused. -/
  | temporary {p : String} {clock : Nat} {e : OsError} (h : DrawnIn here c l.directory ".tmp" p)
      (hrefused : c.removal clock = some e) : Asked l here c (place here p)

variable {l : Ledger} (hasked : ∀ k, l.Asked here c k → asked k)
include hasked

theorem tidy_endures (t : FileTree) : Endures l here (Tidy asked t) where
  rooted h := h.rooted
  alike h halike :=
    ⟨h.rooted.alike halike, fun k hk => (halike k).trans (h.directories k hk), fun k hk => by
      rw [halike k, h.entries k hk]⟩
  directories p hp _ _ h hu := h.makeDirectory (.inl (hasked _ (.above hp))) hu

/-- A replacement leaves nothing else, also when its temporary file stays. -/
theorem replace_keeps {clock : Nat} {e : OsError} (hrefused : c.removal clock = some e)
    (content : Content) :
    Keeps (Machine.Holds here c (Tidy asked t)) (l.replace content) := by
  have hfile : asked (place here l.path) := hasked _ .file
  have hmake : Ensures (Machine.Holds here c (Tidy asked t)) (makeDirectories l.directory) fun _ =>
      Machine.Holds here c (Tidy asked t) :=
    makeDirectories_ensures fun p hp _ _ h hu => h.makeDirectory (.inl (hasked _ (.above hp))) hu
  have htemporary : Tries (Machine.Holds here c (Tidy asked t))
      (Action.orSystem (makeTemporaryFile l.directory) ("write ledger " ++ l.path))
      (fun path m => DrawnIn here c l.directory ".tmp" path ∧ m.Holds here c (Tidy asked t))
      fun _ => Machine.Holds here c (Tidy asked t) :=
    Action.orSystem_either (makeTemporary_holds l.directory ".tmp" fun hpath _ h hu =>
      h.write (.inl (hasked _ (.temporary hpath hrefused))) hu) _
  refine (Action.orSystem_tries hmake _).bind fun _ => htemporary.bind fun temporary =>
    .assume fun hpath => ?_
  have hthere : asked (place here temporary) := hasked _ (.temporary hpath hrefused)
  have hwrite : Ensures (Machine.Holds here c (Tidy asked t)) (write temporary content) fun _ =>
      Machine.Holds here c (Tidy asked t) := writing_holds fun h hu => h.write (.inl hthere) hu
  have hsync : Ensures (Machine.Holds here c (Tidy asked t)) sync fun _ =>
      Machine.Holds here c (Tidy asked t) := step_holds fun h hu => by cases hu; exact h
  have hrename : Ensures (Machine.Holds here c (Tidy asked t)) (rename temporary l.path) fun _ =>
      Machine.Holds here c (Tidy asked t) := step_holds fun h hu => h.rename hthere hfile hu
  have hfill := (Action.orSystem_tries hwrite ("write ledger " ++ l.path)).bind fun _ =>
    (Action.orSystem_tries hsync ("write ledger " ++ l.path)).bind fun _ =>
      Action.orSystem_tries hrename ("write ledger " ++ l.path)
  refine Ensures.bind hfill.run fun r => ?_
  cases r with
  | ok _ => exact .pure _ fun _ hm => hm
  | error e =>
    exact .bind (removeFile_holds temporary fun h hu => h.removeFile hthere hu) fun _ =>
      .pure _ fun _ hm => hm

/-- **A replacement leaves nothing but the ledger**: no temporary file stays that may be removed. -/
theorem replace_tidies (content : Content) :
    Keeps (Machine.Holds here c (Tidy asked t)) (l.replace content) := by
  by_cases hremoval : ∀ clock, c.removal clock = none
  · refine (replace_writes (tidy_endures hasked t) hremoval content).mono
      (fun _ hm => hm) ?_ fun _ _ hm => hm
    rintro _ m ⟨hhere, hc, s, v, hs, hv, halike⟩
    exact ⟨hhere, hc, (tidy_endures hasked t).alike (hs.write (.inl (hasked _ .file)) hv) halike⟩
  · obtain ⟨clock, hclock⟩ := not_forall.mp hremoval
    obtain ⟨e, hrefused⟩ := Option.ne_none_iff_exists'.mp hclock
    exact replace_keeps hasked hrefused content

/-- **An addition leaves nothing but the ledger and what is moved aside for it**: no temporary file
stays that may be removed. -/
theorem append_tidies (entry : LedgerEntry) :
    Keeps (Machine.Holds here c (Tidy asked t)) (l.append entry) := by
  have hload : Keeps (Machine.Holds here c (Tidy asked t)) l.load := by
    intro m hm
    show Either _ _ (l.load.run m).1 (l.load.run m).2
    rw [l.load_tick m]
    cases (l.load.run m).1 <;> exact hm.tick
  have hmove : Ensures (Machine.Holds here c (Tidy asked t)) l.moveAside fun _ =>
      Machine.Holds here c (Tidy asked t) :=
    .bind (step_holds fun h hu => h.rename (hasked _ .file) (hasked _ .aside) hu) fun _ =>
      .pure _ fun _ hm => hm
  have hstore : ∀ entries, Keeps (Machine.Holds here c (Tidy asked t)) (l.store entries) :=
    fun entries =>
    store_tries (fun h => h) (replace_tidies hasked _)
  refine hload.bind fun loaded => ?_
  cases loaded with
  | entries es => exact hstore _
  | corrupt => exact .bind (.lift hmove) fun _ => hstore _

end Ledger

/-! ## Joining -/

namespace Merger

/-- Where joining may leave something: the output, the directories above it, and the root of the
workspaces. -/
inductive Asked (g : Merger) (here : Location) (output : String) : Location → Prop
  /-- The output itself. -/
  | output : Asked g here output (place here output)
  /-- The directory of the output is made, with those above it. -/
  | above {d p : String} (hd : Path.parent? output = some d) (h : Upward d p) :
    Asked g here output (place here p)
  /-- The root of the workspaces is made, with the directories that its path names on the way. -/
  | root {p : String} (h : Upward g.workRoot p) : Asked g here output (place here p)

variable {g : Merger} (hg : g.Confined) {output : String} (houtput : asked (place here output))
  (hroot : ∀ p, Upward g.workRoot p → asked (place here p))
include hg houtput

/-- What is done in the workspace stays in it, but for the output. -/
theorem join_tidies {w : Workspace} {v : FileTree} (parts : List String) :
    Keeps (Holds here c (Tidy (inside asked (place here w.path)) v)) (g.join parts output w) :=
  join_keeps (tidy_kept here _ v) hg.transcoder (fun hname => .inl (hname.inside w)) parts
    (.inl (.inl houtput))

variable (hparent : ∀ d, Path.parent? output = some d → ∀ p, Upward d p →
  asked (place here p) ∨ t.get? (place here p) = some .directory)
include hroot hparent

/-- **Joining leaves nothing but its output**, also when it fails. -/
theorem produce_tidies (parts : List String) :
    Keeps (Holds here c (Tidy asked t)) (g.produce parts output) := by
  have hkept := tidy_kept here asked t
  unfold produce
  refine .bind (checkParts_keeps parts) fun _ => .bind (makeParent_keeps hkept _ hparent) fun _ =>
    ?_
  split
  · exact copySingle_keeps hkept _ (.inl houtput)
  · refine .bind (Workspace.create_opens "concat-" hroot) fun w => ?_
    -- from here on the tree is compared with the one in which the workspace was made
    rintro m ⟨hhere, hc, u, hu, hopen⟩
    have hwork : Tries (Holds here c (Tidy (inside asked (place here w.path)) m.files))
        (w.closingAfter (g.join parts output w)) (fun _ => Holds here c (Tidy asked t)) fun _ =>
          Holds here c (Tidy asked t) :=
      Ensures.bind (join_tidies hg houtput parts).run fun r =>
        .bind (Workspace.close_tidies hu hopen) fun _ =>
        .pure _ fun m hm => by cases r <;> exact hm
    exact hwork m ⟨hhere, hc, .refl hopen.rooted⟩

/-- Measuring the output leaves nothing more. -/
theorem merge_tidies (parts : List String) :
    Keeps (Holds here c (Tidy asked t)) (g.merge parts output) := by
  unfold merge
  refine .bind (produce_tidies hg houtput hroot hparent parts) fun _ => ?_
  have hestimate :=
    Probe.estimate_holds (c := c) (tidy_kept here asked t) hg.probe g.duration true g.fallback
      (.inl houtput)
  refine .bind (.lift hestimate) fun told => ?_
  split
  · exact .throw _ fun _ hm => hm
  · exact .pure _ fun _ hm => hm

end Merger

/-! ## Rendering -/

namespace Service

/-- Where a render is asked to leave something: its video, the directories above it, the root of the
workspaces, and where adding to the ledger does. -/
inductive Asked (s : Service) : Location → Prop
  /-- The video of the job. -/
  | video : Asked s (place s.machine.here s.nextOutput.path)
  /-- The directory of the video is made, with those above it. -/
  | above {d p : String} (hd : Path.parent? s.nextOutput.path = some d) (h : Upward d p) :
    Asked s (place s.machine.here p)
  /-- The root of the workspaces is made, with the directories that its path names on the way. -/
  | root {p : String} (h : Upward s.config.storage.workDir p) : Asked s (place s.machine.here p)
  /-- The entry of the job is added to the ledger. -/
  | ledger {k : Location} (h : s.ledger.Asked s.machine.here s.machine.circumstances k) : Asked s k

/-- The machine of a service, whose files are those of a tree but for what was asked for. -/
abbrev Tidying (s : Service) (asked : Location → Prop) (t : FileTree) : Machine → Prop :=
  Holds s.machine.here s.machine.circumstances (Tidy asked t)

variable {s : Service} {r : ValidatedRequest} {w : Workspace} {u v : FileTree}

/-- What was there when a request came still is when the workspace of its job was made, or was asked
for. -/
theorem part_there (hu : Tidy s.Asked s.machine.files u) (hopen : Opened s.machine.here w.path u v)
    {p : String} (hp : ∃ n, s.machine.files.get? (place s.machine.here p) = some n) :
    s.Asked (place s.machine.here p) ∨ (v.get? (place s.machine.here p)).isSome = true := by
  obtain ⟨n, hn⟩ := hp
  by_cases hasked : s.Asked (place s.machine.here p)
  · exact .inl hasked
  · have hthere := hu.entries _ hasked
    rw [hn] at hthere
    refine .inr ?_
    rw [hopen.others _ fun heq => ?_, hthere]
    · rfl
    · rw [heq, hopen.vacant] at hthere
      cases hthere

/-- The machine of a service, in whose files something is done in a workspace. -/
abbrev Working (s : Service) (w : Workspace) (v : FileTree) : Machine → Prop :=
  s.Tidying (inside s.Asked (place s.machine.here w.path)) v

/-- **The work on a job leaves nothing outside of its workspace** but what was asked for. -/
theorem produce_tidies (id : JobId) (hopen : Opened s.machine.here w.path u v)
    (hparts : ∀ p ∈ r.audio, s.Asked (place s.machine.here p) ∨
      (v.get? (place s.machine.here p)).isSome = true) :
    Keeps (Standing s (s.Working w v)) (produce id r s.nextOutput w) := by
  have hvideo : inside s.Asked (place s.machine.here w.path)
    (place s.machine.here s.nextOutput.path) := .inl .video
  have habove : ∀ d, Path.parent? s.nextOutput.path = some d → ∀ p, Upward d p →
      inside s.Asked (place s.machine.here w.path) (place s.machine.here p) :=
        fun d hd p hp => .inl (.above hd hp)
  -- what the video is called does not matter
  generalize s.nextOutput = output at hvideo habove ⊢
  have hkept := tidy_kept s.machine.here (inside s.Asked (place s.machine.here w.path)) v
  have hc : ∀ m, s.Working w v m → m.circumstances = s.machine.circumstances :=
    fun _ hm => hm.circumstances
  have hnarration : Keeps (Standing s (s.Working w v)) (narration id r.audio w) := by
    refine narration_tries id (fun part hpart => ?_) fun _ =>
      Merger.merge_tidies s.merger_confined (WorkFile.narration.inside w) (fun p hp => ?_)
        (fun d hd p hp => ?_) r.audio
    · have hthere := hparts part (hpart ▸ List.mem_cons_self)
      exact (Probe.estimate_holds hkept s.merger_confined.probe _ true
        _ (hthere.imp_left .inl)).mono (fun _ hm => hm)
        fun told _ hm => by cases told <;> exact hm
    · exact .inl (.root hp)
    · exact .inr (hopen.above_file WorkFile.narration.isName hd hp)
  refine produce_tries holds_timeless hc hnarration (fun _ _ hs => hs) ?_ ?_ ?_
  · exact makeOutputDirectory_standing hkept fun d hd p hp => .inl (habove d hd p hp)
  · intro request hrequest
    rw [← hrequest] at hvideo
    exact encode_standing hkept id (.inl hvideo) fun h hu => h.removeFile hvideo hu
  · exact fun _ _ _ _ =>
      tryOnMachine_standing (Ledger.append_tidies (fun k hk => .inl (.ledger hk)) _)

/-- A job leaves nothing but what was asked for, whether or not it comes to have a workspace. -/
theorem run_tidies (id : JobId)
    (hparts : ∀ p ∈ r.audio, ∃ n, s.machine.files.get? (place s.machine.here p) = some n) :
    Keeps (Standing s (s.Tidying s.Asked s.machine.files)) (run id r s.nextOutput) := by
  have hcreate :=
    Workspace.create_opens (c := s.machine.circumstances) (t := s.machine.files)
      ("job-" ++ id.short ++ "-")
    fun p (hp : Upward s.config.storage.workDir p) => Asked.root hp
  refine run_tries holds_timeless (fun _ _ hs => hs) hcreate fun w => ?_
  -- from here on the tree is compared with the one in which the workspace was made
  rintro s' ⟨hconfig, htools, hhere, hc, u, hu, hopen⟩
  have hclose : Ensures (Standing s (s.Working w s'.machine.files)) (onMachine w.close.run) fun _ =>
      Standing s (s.Tidying s.Asked s.machine.files) :=
        onMachine_standing (Workspace.close_tidies hu hopen)
  have hwork :=
    closingAfter_tries (produce_tidies id hopen fun p hp => part_there hu hopen (hparts p hp))
    (fun _ => hclose) fun _ => hclose
  exact hwork s' ⟨hconfig, htools, hhere, hc, .refl hopen.rooted⟩

/-- **A render leaves nothing but what was asked for**, on every way out. -/
theorem render_tidies (s : Service) (request : RenderRequest) (hroot : Rooted s.machine.files) :
    Tidy s.Asked s.machine.files (render request s).2.machine.files := by
  have hself : Tidy s.Asked s.machine.files s.machine.files := .refl hroot
  cases haccepts : s.accepts? request with
  | error e =>
    rw [show render request s = _ from s.render_refused request haccepts]
    exact hself
  | ok r =>
    have hrender := render_tries s request haccepts ⟨rfl, rfl, hself⟩ holds_timeless
      (run_tidies s.nextJob (accepts_audio haccepts))
      (fun _ => conclude_standing holds_timeless _ _) fun _ => conclude_standing holds_timeless _ _
    cases hr : (render request s).1 <;> rw [hr] at hrender <;> exact hrender.machine.files

/-- **No run leaves anything of its own in the root of the workspaces.** For every render and every
joining of parts, whatever is refused or fails at any step and whenever the token fires: what stands
below the root when it returns is what stood there before, but for what it was asked to leave there.
That is its video or its output, the ledger and the file that is moved aside for it, directories on
the way to these and to the root, and a temporary file of the ledger where removing that is refused.

It is assumed that nothing else is written by what runs outside: a program writes the file that its
last argument names and no other (`Machine.receive`), and so do the transcoder and the probe of a
joining (`Merger.Confined`). Removing a directory that is there is not refused
(`Machine.removeDirectory`). -/
theorem scratch_removed :
    (∀ (s : Service) (request : RenderRequest), Rooted s.machine.files → ∀ k, ¬s.Asked k →
      ((render request s).2.machine.files.Entry (place s.machine.here s.config.storage.workDir) k ↔
        s.machine.files.Entry (place s.machine.here s.config.storage.workDir) k)) ∧
    ∀ (g : Merger) (parts : List String) (output : String) (m : Machine), Rooted m.files →
      g.Confined →
      ∀ k, ¬g.Asked m.here output k →
        (((g.merge parts output).run m).2.files.Entry (place m.here g.workRoot) k ↔
          m.files.Entry (place m.here g.workRoot) k) := by
  constructor
  · intro s request hroot k hk
    exact (render_tidies s request hroot).entry_iff _ hk
  · intro g parts output m hroot hg k hk
    have hmerge :=
      Merger.merge_tidies (c := m.circumstances) (t := m.files) hg
        (.output : g.Asked m.here output _)
      (fun p hp => .root hp) (fun d hd p hp => .inl (.above hd hp)) parts
    exact (hmerge.run m ⟨rfl, rfl, .refl hroot⟩).files.entry_iff _ hk

theorem rooted_small : Rooted small.machine.files :=
  rooted_of_nodes (by simp [small, idle, studio, get?])

theorem scratch_removed_small : Rooted small.machine.files ∧ small.merger.Confined ∧
    (∀ k, ¬small.Asked k →
      ((render single small).2.machine.files.Entry
        (place small.machine.here small.config.storage.workDir) k ↔
      small.machine.files.Entry (place small.machine.here small.config.storage.workDir) k)) ∧
    ∀ k, ¬small.merger.Asked small.machine.here "/joined.mp3" k →
      (((small.merger.merge ["/n.mp3", "/n.mp3"] "/joined.mp3").run small.machine).2.files.Entry
        (place small.machine.here small.merger.workRoot) k ↔
        small.machine.files.Entry (place small.machine.here small.merger.workRoot) k) :=
  ⟨rooted_small, small.merger_confined, scratch_removed.1 small single rooted_small,
    scratch_removed.2 small.merger
      ["/n.mp3", "/n.mp3"] "/joined.mp3" small.machine rooted_small small.merger_confined⟩

/-- A service whose workspaces stand in `/work`. -/
def working : Service :=
  { small with config := { small.config with storage := { workDir := "/work" } } }

/-- A service whose ledger stands in `/work` too, on a machine that refuses to write it, the step of
clock 18, and to remove its temporary file. -/
def littered : Service :=
  { working with
    config := { working.config with
      storage := { workDir := "/work", ledgerPath := "/work/ledger.json", outputDir := "/out" } }
    machine := { studio with circumstances := { studio.circumstances with
      refusal := fun clock => if clock = 18 then some .denied else none
      truthful := fun clock => by split <;> simp
      removal := fun _ => some .denied } } }

/-- **An output that is asked for in the root stays there**, as the joined narration of a job does
in its workspace until that is closed. **And so does a temporary file of the ledger that cannot be
removed.** -/
theorem merged_in_root :
    (¬∀ k,
      ((working.merger.merge ["/n.mp3", "/n.mp3"] "/work/merged.mp3").run
        working.machine).2.files.Entry
      (place working.machine.here working.merger.workRoot) k ↔
        working.machine.files.Entry (place working.machine.here working.merger.workRoot) k) ∧
    ¬∀ k, k ≠ place littered.machine.here littered.ledger.path →
      ((render single littered).2.machine.files.Entry
        (place littered.machine.here littered.config.storage.workDir) k ↔
        littered.machine.files.Entry
            (place littered.machine.here littered.config.storage.workDir) k) := by
  constructor
  · intro h
    exact absurd ((h ["work", "merged.mp3"]).mp (by decide +kernel)) (by decide +kernel)
  · intro h
    exact absurd ((h ["work", ".tmp000000"] (by decide +kernel)).mp (by decide +kernel))
      (by decide +kernel)

end Service

end Slideshow
