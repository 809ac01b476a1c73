import Slideshow.Proofs.Ledger.Refusal
import Slideshow.Proofs.Render.Names
import Slideshow.Proofs.Render.Standing

/-!
# All that is told of a render agrees

What a render returns (`render`), the record of its job, the events and the ledger are changed apart
from each other, on many ways out (`run`, `produce`). They agree on each of them, whatever the tools
and the system do and whenever the token fires, as long as the ledger's file is not something else
as well: a directory that a render makes, its video, or one of the files it is given. The lengths in
an entry are listed as its reader reads them.

* `Service.StandsApart` says that the ledger is none of these. `Service.Fits` says that the numbers
  of a job fit their types.
* `Records entry outcome` says that an entry tells of what was made.
* `narration_tells`, `produce_records`, `run_records`: the parts of the work.

Headlines:
* **`render_agrees`**: a request that is refused leaves no trace; for every other one all four views
  agree.
* **`views_disagree`**: they do not when the videos go where the ledger should be, nor in a length
  that is not read back.

Out of scope: other renders of the same service meanwhile.
-/

namespace Slideshow

open FileTree Machine

/-- Clocks show moments that have a text, and numbers of 64 bits. -/
structure Circumstances.Proper (c : Circumstances) : Prop where
  times : ∀ clock, (c.time clock).Valid
  elapsed : ∀ clock, c.elapsed clock < 2 ^ 64

/-- The lengths of what a job has made, in seconds. -/
def RenderOutcome.lengths (o : RenderOutcome) : List Float :=
  o.seconds :: o.effects.transitionDuration :: o.segmentDurations

namespace Service

/-- The openings of what a render draws a name for in the root of the workspaces: the workspace of
the job, and that of its narration. -/
def openings (s : Service) : List String := ["job-" ++ s.nextJob.short ++ "-", "concat-"]

/-- The ledger stands apart from all that a render is given, makes and removes. -/
structure StandsApart (s : Service) (r : ValidatedRequest) : Prop where
  /-- Where it is missing, its path goes only down behind the directories that are there. -/
  reachable : s.ledger.Reachable s.machine.here s.machine.files
  /-- It is no part of the narration. -/
  parts : ∀ p ∈ r.audio, Off s.machine.here s.ledger.path (place s.machine.here p)
  /-- It is not the video, … -/
  video : Off s.machine.here s.ledger.path (place s.machine.here s.nextOutput.path)
  /-- … and not above it, -/
  aboveVideo : place s.machine.here s.ledger.path ∉ way s.machine.here s.nextOutput.path
  /-- nor is it the root of the workspaces or above that, -/
  aboveWork : place s.machine.here s.ledger.path ∉
    place s.machine.here s.config.storage.workDir :: way s.machine.here s.config.storage.workDir
  /-- nor in a workspace that is made. -/
  workspaces : ∀ opening ∈ s.openings, ∀ path,
    DrawnIn s.machine.here s.machine.circumstances s.config.storage.workDir opening path →
      Off s.machine.here s.ledger.path (place s.machine.here path)
  /-- It is not called like a temporary file of its own. -/
  temporary : s.ledger.Apart s.machine.here s.machine.circumstances

/-- The numbers of a job fit their types. -/
structure Fits (s : Service) (r : ValidatedRequest) : Prop where
  imageSizes : ∀ n ∈ r.imageSizes, n < 2 ^ 64
  audioBytes : r.audioBytes < 2 ^ 64
  width : s.config.video.width < 2 ^ 32
  height : s.config.video.height < 2 ^ 32
  fps : s.config.video.fps < 2 ^ 32
  crf : -2 ^ 31 ≤ s.config.video.crf ∧ s.config.video.crf < 2 ^ 31

/-- An entry tells of what a job has made. -/
structure Records (entry : LedgerEntry) (o : RenderOutcome) : Prop where
  id : entry.id = o.job
  effects : entry.effects = o.effects
  outputFilename : entry.outputFilename = o.output.filename
  outputPath : entry.outputPath = .text o.output.path
  segmentDurations : entry.settings.segmentDurations = o.segmentDurations
  seconds : entry.audio.seconds = o.seconds
  durationSource : entry.settings.durationSource = o.source.name

/-! ## What a ledger that stands apart is spared -/

theorem slash_not_mem_openings {s : Service} : ∀ opening ∈ s.openings, '/' ∉ opening.toList := by
  have hshort := slash_not_mem_short s.nextJob
  simp [openings, hshort]

section
variable {s : Service} {r : ValidatedRequest} (h : s.StandsApart r)

namespace StandsApart

include h

/-- There is room for workspaces. -/
theorem room {opening : String} (hopening : opening ∈ s.openings) :
    Room s.machine.here s.machine.circumstances s.config.storage.workDir opening
      (Off s.machine.here s.ledger.path)
      (fun p => s.ledger.path = "" ∨ p ≠ place s.machine.here s.ledger.path)
      (Off s.machine.here s.ledger.path) where
  made hpath := .inr ((h.workspaces opening hopening _ hpath).ne List.mem_cons_self).symm
  removed hpath := h.workspaces opening hopening _ hpath
  filled hpath hname := by
    rw [place_join_name _ hname.isName]
    exact (h.workspaces opening hopening _ hpath).below _

theorem root (p : String) (hp : Upward s.config.storage.workDir p) :
    s.ledger.path = "" ∨ place s.machine.here p ≠ place s.machine.here s.ledger.path :=
  .inr fun heq => h.aboveWork (heq ▸ hp.place_mem)

end StandsApart

/-! ## The parts of the work -/

/-- The machine of a service, with a ledger that holds some entries. -/
abbrev Holding (s : Service) (entries : List LedgerEntry) : Machine → Prop :=
  Holds s.machine.here s.machine.circumstances (s.ledger.Tells s.machine.here entries)

/-- The machine of a service, with a ledger that some entries were written to. -/
abbrev Written (s : Service) (entries : List LedgerEntry) : Machine → Prop :=
  Holds s.machine.here s.machine.circumstances (s.ledger.Stored s.machine.here entries)

/-- An entry was added that tells of what was made. -/
def Recorded (s : Service) (before : List LedgerEntry) (o : RenderOutcome) (after : Service) :
    Prop :=
  ∃ entry, Records entry o ∧ entry.Valid ∧ Standing s (s.Written (before ++ [entry])) after

variable {before : List LedgerEntry}

/-- The directory of a file in a workspace is there. -/
theorem makeParent_spares {w : Workspace} {opening : String} (hopening : opening ∈ s.openings)
    (hw : DrawnIn s.machine.here s.machine.circumstances s.config.storage.workDir opening w.path)
    {name : String} (hname : IsName name) {I : FileTree → Prop} :
    Tries (Holds s.machine.here s.machine.circumstances fun t => I t ∧
      Stands s.machine.here w.path t)
      (Merger.makeParent (w.file name) "create")
      (fun _ => Holds s.machine.here s.machine.circumstances I)
      fun _ => Holds s.machine.here s.machine.circumstances I := by
  obtain ⟨clock, attempt, hpath⟩ := hw
  have hdrawn := isName_drawn (slash_not_mem_openings opening hopening)
    (s.machine.circumstances.draw clock attempt)
  have hparent : Path.parent? (w.file name) = some w.path := by
    rw [Workspace.file, hpath]
    exact Path.parent?_join_name _ hdrawn hname
  have hslash : Path.endsInSlash w.path = false := by
    rw [hpath]
    exact Path.endsInSlash_join_name _ hdrawn
  unfold Merger.makeParent
  rw [hparent]
  dsimp only
  split
  · exact .pure _ fun m hm => ⟨hm.here, hm.circumstances, hm.files.1⟩
  · exact Action.orSystem_tries (makeDirectories_spares hslash) _

include h in
theorem narration_tells {w : Workspace} {opening : String} (hopening : opening ∈ s.openings)
    (hw : DrawnIn s.machine.here s.machine.circumstances s.config.storage.workDir opening w.path)
    (id : JobId) :
    Tries (Standing s (Holds s.machine.here s.machine.circumstances fun t =>
        s.ledger.Tells s.machine.here before t ∧ Stands s.machine.here w.path t))
      (narration id r.audio w) (fun _ => Standing s (s.Holding before)) fun _ =>
        Standing s (s.Holding before) := by
  have hkept := Ledger.tells_kept s.ledger s.machine.here before
  have hmerged := (h.room hopening).filled hw .narration
  have hconcat : "concat-" ∈ s.openings := by simp [openings]
  have hparent := makeParent_spares hopening hw WorkFile.narration.isName
    (I := s.ledger.Tells s.machine.here before)
  have hpre : ∀ m, Holds s.machine.here s.machine.circumstances (fun t =>
      s.ledger.Tells s.machine.here before t ∧ Stands s.machine.here w.path t) m →
          s.Holding before m :=
    fun m hm => ⟨hm.here, hm.circumstances, hm.files.1⟩
  exact narration_standing hkept id h.parts hmerged (h.room hconcat) h.root hpre hparent

section
variable (hproper : s.machine.circumstances.Proper) (hfits : s.Fits r)
include hproper hfits

/-- The numbers of an entry fit their types. -/
theorem valid_entryFor (id : JobId) (output : OutputFile) (n : Narration) (durations : List Float)
    (now later : Nat) :
    (entryFor s.config id r output n durations (s.machine.circumstances.time later)
      (s.machine.circumstances.elapsed now)).Valid where
  time := hproper.times later
  images := by
    intro i hi
    rw [entryFor, ← List.map_uncurry_zip_eq_zipWith] at hi
    obtain ⟨⟨path, bytes⟩, hmem, rfl⟩ := List.mem_map.mp hi
    exact hfits.imageSizes _ (List.of_mem_zip hmem).2
  audio := hfits.audioBytes
  processingMs := hproper.elapsed now
  settings := ⟨hfits.width, hfits.height, hfits.fps, hfits.crf⟩

include h

/-- **The work on a job adds an entry that tells of it**, or leaves the ledger as it was. -/
theorem produce_records {w : Workspace} {opening : String} (hopening : opening ∈ s.openings)
    (hw : DrawnIn s.machine.here s.machine.circumstances s.config.storage.workDir opening w.path)
    (id : JobId) :
    Tries (Standing s (Holds s.machine.here s.machine.circumstances fun t =>
        s.ledger.Tells s.machine.here before t ∧ Stands s.machine.here w.path t))
      (produce id r s.nextOutput w) (Recorded s before) fun _ => Standing s (s.Holding before) := by
  have hkept := Ledger.tells_kept s.ledger s.machine.here before
  have hvideo := h.video
  have habove := h.aboveVideo
  -- what the video is called does not matter
  generalize s.nextOutput = output at hvideo habove ⊢
  refine produce_tries (Q := s.Holding before) holds_timeless (fun _ hm => hm.circumstances)
    (narration_tells h hopening hw id) (fun _ _ hs => hs) ?_ ?_ ?_
  · refine makeOutputDirectory_standing hkept fun d hd p hp => .inr fun heq => habove ?_
    rw [← heq]
    exact hp.place_mem_way hd
  · intro request hrequest
    rw [← hrequest] at hvideo
    exact encode_standing hkept id hvideo fun ht hu =>
      (removeFile_eq_ok hu).2 ▸ hkept.erase ht hvideo
  · intro n durations now later
    have hsurvives := Ledger.tells_survives s.ledger before s.machine.named h.temporary
    have hvalid := valid_entryFor hproper hfits id output n durations now later
    have happend : ∀ entry, Tries (s.Holding before) (s.ledger.append entry)
        (fun _ => s.Written (before ++ [entry])) fun _ => s.Holding before := fun entry =>
      (Ledger.append_tries hsurvives entry).mono
        (fun _ hm => ⟨hm.here, hm.circumstances, hm.files, hm.files.contents⟩)
          (fun _ _ hm => hm) fun _ _ hm => hm
    exact (tryOnMachine_standing (happend _)).mono (fun _ hs => hs)
      (fun _ _ hs => ⟨_, ⟨rfl, rfl, rfl, rfl, rfl, rfl, rfl⟩, hvalid, hs⟩) fun _ _ hs => hs

theorem run_records :
    Tries (Standing s (s.Holding before)) (run s.nextJob r s.nextOutput)
    (Recorded s before) fun _ =>
      Standing s (s.Holding before) := by
  have hopening : "job-" ++ s.nextJob.short ++ "-" ∈ s.openings := by simp [openings]
  have hkept := Ledger.tells_kept s.ledger s.machine.here before
  have hcreate :=
    Workspace.create_tries hkept (c := s.machine.circumstances) s.config.storage.workDir
    ("job-" ++ s.nextJob.short ++ "-") h.root fun path hpath => (h.room hopening).made hpath
  refine run_tries holds_timeless (fun _ _ hs => hs) hcreate fun w => ?_
  refine assume_standing fun hw => ?_
  have hoff := h.workspaces _ hopening _ hw
  refine closingAfter_tries (produce_records h hproper hfits hopening hw s.nextJob)
    (fun o => ?_) fun _ => ?_
  · rintro s' ⟨entry, hrecords, hvalid, hs'⟩
    exact ⟨entry, hrecords, hvalid, onMachine_standing (Workspace.close_holds fun ht =>
      ⟨ht.1, (reads_kept _ _ _).erase ht.2 hoff⟩).run s' hs'⟩
  · exact onMachine_standing (Workspace.close_holds fun ht => hkept.erase ht hoff).run

end

end

/-! ## A whole render -/

theorem Records.lengths {entry : LedgerEntry} {o : RenderOutcome} (h : Records entry o) :
    entry.lengths = o.lengths := by
  rw [LedgerEntry.lengths, h.seconds, h.effects, h.segmentDurations, RenderOutcome.lengths]

/-- The ledger lists some entries, unless reading it is refused. -/
def Lists (s : Service) (entries : List LedgerEntry) : Prop :=
  s.machine.circumstances.refusal (s.machine.clock + 1) = none →
    (s.ledger.list.run s.machine).1 = .ok entries

theorem lists_of_contents {s : Service} {entries : List LedgerEntry}
    (h : s.ledger.contents s.machine.files s.machine.here = .ok entries) : s.Lists entries :=
  fun hread => by
  rw [s.ledger.list_run hread, h]

/-- How the ledger agrees with a result. -/
inductive LedgerAgrees (before : List LedgerEntry) (after : Service) :
    Except Halt RenderOutcome → Prop
  /-- There is one entry more, which tells of what was made. The ledger lists what the lengths of
  its entries are read as, if they can be read. -/
  | grown {o : RenderOutcome} (entry : LedgerEntry) (records : Records entry o)
    (stored : after.ledger.Stored after.machine.here (before ++ [entry]) after.machine.files)
    (lists : (∀ e ∈ before ++ [entry], e.Legible) →
      after.Lists ((before ++ [entry]).map LedgerEntry.readBack)) :
    LedgerAgrees before after (.ok o)
  /-- There is none. -/
  | same {e : Halt} (lists : after.Lists before) : LedgerAgrees before after (.error e)

theorem Standing.contents {s after : Service} {P : Machine → Prop} (h : Standing s P after)
    (hhere : after.machine.here = s.machine.here) :
    after.ledger.contents after.machine.files after.machine.here =
        s.ledger.contents after.machine.files s.machine.here := by
  rw [hhere, ledger, h.config]
  rfl

/-- What the work does to the ledger is what the ledger agrees on. -/
theorem ledgerAgrees_of_either {s after : Service} {before : List LedgerEntry}
    {result : Except Halt RenderOutcome}
    (hbefore : s.ledger.contents s.machine.files s.machine.here = .ok before)
    (h : Either (Recorded s before) (fun _ => Standing s (s.Holding before)) result after) :
    LedgerAgrees before after result := by
  cases result with
  | error e =>
    refine .same (lists_of_contents ?_)
    rw [h.contents h.machine.here]
    exact h.machine.files.contents
  | ok o =>
    obtain ⟨entry, hrecords, hvalid, hs⟩ := h
    have hall : ∀ e ∈ before ++ [entry], e.Valid := List.forall_mem_append.mpr
      ⟨Ledger.valid_of_contents hbefore, List.forall_mem_singleton.mpr hvalid⟩
    have hledger : after.ledger = s.ledger := by rw [ledger, hs.config, ledger]
    refine .grown entry hrecords ?_ fun hlegible => lists_of_contents ?_
    · rw [hledger, hs.machine.here]
      exact hs.machine.files
    · rw [hs.contents hs.machine.here]
      exact (hs.machine.files.readBack hall hlegible).2

section
variable (s : Service) (request : RenderRequest) {before : List LedgerEntry}
  (hroot : Rooted s.machine.files)
  (hproper : s.machine.circumstances.Proper)
  (hbefore : s.ledger.contents s.machine.files s.machine.here = .ok before)
include hroot hproper hbefore

/-- What is held of the ledger is held after a request that is valid, with one entry more if it
succeeds. -/
theorem render_holds {r : ValidatedRequest} (haccepts : s.accepts? request = .ok r)
    (h : s.StandsApart r) (hfits : s.Fits r) :
    Either (Recorded s before) (fun _ => Standing s (s.Holding before)) (render request s).1
      (render request s).2 := by
  have htells : s.Holding before s.machine :=
    ⟨rfl, rfl, Ledger.tells_of_reachable hroot h.reachable hbefore⟩
  exact render_tries s request haccepts htells holds_timeless (run_records h hproper hfits)
    (fun o s' ⟨entry, hrecords, hvalid, hs'⟩ => ⟨entry, hrecords, hvalid,
      conclude_standing holds_timeless s.nextJob (.ok o) s' hs'⟩)
    fun e => conclude_standing holds_timeless s.nextJob (.error e)

/-- **The ledger agrees with the result** of a request that is valid. -/
theorem render_ledger {r : ValidatedRequest} (haccepts : s.accepts? request = .ok r)
    (h : s.StandsApart r) (hfits : s.Fits r) :
    LedgerAgrees before (render request s).2 (render request s).1 :=
  ledgerAgrees_of_either hbefore (s.render_holds request hroot hproper hbefore haccepts h hfits)

/-- The circumstances of the machine stay. -/
theorem render_circumstances {r : ValidatedRequest} (haccepts : s.accepts? request = .ok r)
    (h : s.StandsApart r) (hfits : s.Fits r) :
    (render request s).2.machine.circumstances = s.machine.circumstances := by
  have hheld := s.render_holds request hroot hproper hbefore haccepts h hfits
  cases hresult : (render request s).1 with
  | ok o =>
    rw [hresult] at hheld
    obtain ⟨_, _, _, hs⟩ := hheld
    exact hs.machine.circumstances
  | error e =>
    rw [hresult] at hheld
    exact hheld.machine.circumstances

/-- **A request that is refused leaves no trace. For every other one there is one job more, and the
result, its record, its last event and the ledger agree**: after a success the job has succeeded,
with all progress, and the ledger holds one entry more, which tells of what was made, and lists its
entries with the lengths that its reader reads; after a failure the job has failed with that error,
and the ledger lists what it listed. The ledger has to be readable and to stand apart. -/
theorem render_agrees :
    (∀ e, s.accepts? request = .error e → (render request).run s = (.error (.failed e), s)) ∧
      ∀ r, s.accepts? request = .ok r → s.StandsApart r → s.Fits r →
        ∃ older job told, (render request s).2.jobs = older ++ [job] ∧
          older.length = s.jobs.length ∧
          older.filter (·.id != s.nextJob) = s.jobs.filter (·.id != s.nextJob) ∧
          job.id = s.nextJob ∧
          (render request s).2.events = told.foldl EventBus.broadcast s.events ∧
          AgreesWith s.nextJob told job (render request s).1 ∧
          LedgerAgrees before (render request s).2 (render request s).1 := by
  constructor
  · exact fun e he => s.render_refused request he
  · intro r haccepts h hfits
    obtain ⟨told, job, hcourse, -, hagrees⟩ := render_course s request haccepts
    obtain ⟨older, hjobs, hlength, hothers⟩ := hcourse.records
    exact ⟨older, job, told, hjobs, hlength, hothers, hcourse.named, hcourse.events, hagrees,
      render_ledger s request hroot hproper hbefore haccepts h hfits⟩

end

/-- A service on a machine whose clock stands still, with a recording of 3.16 seconds. -/
def still : Service := idle {} { studio with
  files := ⟨[(["a.png"], .file (.ofText "picture")), (["n.mp3"], .file (.ofText "sound")),
    (["bin"], .directory),
    (["bin", "ffprobe"], .program fun _ _ => { output := Text.encode "3.16" }),
    (["bin", "ffmpeg"], .program fun _ _ => { written := some (.ofText "video") })]⟩
  circumstances := { studio.circumstances with time := fun _ => ⟨0, 0⟩ } }

theorem still_rooted : Rooted still.machine.files :=
  rooted_of_nodes (by simp [still, idle, get?])

theorem still_proper : still.machine.circumstances.Proper where
  times _ := show Timestamp.Valid ⟨0, 0⟩ from ⟨by decide, .inl (by decide)⟩
  elapsed _ := show 0 < 2 ^ 64 by decide

theorem still_contents : still.ledger.contents still.machine.files still.machine.here = .ok [] := by
  have hmissing : still.machine.files.read still.machine.here still.ledger.path =
      .error .missing := rfl
  rw [Ledger.contents, hmissing]
  rfl

theorem still_direct : Direct still.machine.here still.ledger.path still.machine.files :=
  ⟨[], [".", "data", "ledger.json"], [], rfl, rfl, rfl, by decide, by
    unfold Short; decide⟩

theorem still_standsApart {r : ValidatedRequest} (h : r.audio = ["/n.mp3"]) :
    still.StandsApart r where
  reachable _ := still_direct
  parts := by
    rw [h]
    unfold Off
    decide +kernel
  video := by
    unfold Off
    decide +kernel
  aboveVideo := by decide +kernel
  aboveWork := by decide +kernel
  workspaces := by
    have hdrawn : ∀ opening ∈ still.openings,
        Off still.machine.here still.ledger.path (place still.machine.here (Path.join
          (Path.join (pathOf still.machine.here) still.config.storage.workDir)
              (opening ++ drawn 0))) := by
      unfold Off
      decide +kernel
    rintro opening hopening _ ⟨_, _, rfl⟩
    exact hdrawn opening hopening
  temporary := by
    have hdrawn : place still.machine.here (Path.join (Path.join (pathOf still.machine.here)
        still.ledger.directory) (".tmp" ++ drawn 0)) ≠
            place still.machine.here still.ledger.path := by
      decide +kernel
    rintro _ ⟨_, _, rfl⟩
    exact hdrawn

/-- A first render is listed. -/
theorem render_agrees_still : ∃ r, still.accepts? single = .ok r ∧
    ((render single still).1 matches .ok _) = true ∧
    ∃ older job told, (render single still).2.jobs = older ++ [job] ∧
      older.length = still.jobs.length ∧
      older.filter (·.id != still.nextJob) = still.jobs.filter (·.id != still.nextJob) ∧
      job.id = still.nextJob ∧
      (render single still).2.events = told.foldl EventBus.broadcast still.events ∧
      AgreesWith still.nextJob told job (render single still).1 ∧
      LedgerAgrees [] (render single still).2 (render single still).1 :=
  ⟨_, rfl, by
    decide +kernel, (render_agrees still single still_rooted still_proper still_contents).2 _ rfl
    (still_standsApart rfl) ⟨by decide, by decide, by decide, by decide, by decide, by decide⟩⟩

/-! ## Views that do not agree -/

/-- A service whose videos go where its ledger should be. -/
def crossed : Service :=
  { small with config :=
    { small.config with storage := { ledgerPath := "/x", outputDir := "/x", workDir := "/work" } } }

/-- A ledger that does not stand apart is lost: a render makes a directory of it, fails, and nothing
is listed any more. -/
theorem crossed_ledger :
    (crossed.config.check matches .ok ()) = true ∧
      (crossed.ledger.contents crossed.machine.files crossed.machine.here matches .ok []) = true ∧
      ((render single crossed).1 matches .error _) = true ∧
      (((render single crossed).2.ledger.list.run (render single crossed).2.machine).1 matches .ok
          _) = false := by
  decide +kernel

/-- A request for three pictures with one recording. -/
def triple : RenderRequest := { images := ["/a.png", "/a.png", "/a.png"], audio := ["/n.mp3"] }

theorem triple_accepted : ∃ r, still.accepts? triple = .ok r ∧ r.audio = ["/n.mp3"] ∧
    still.Fits r :=
  ⟨_, rfl, rfl, by decide, by decide, by decide, by decide, by decide, by decide⟩

/-- The lengths of what was made, if something was. -/
def lengthsMade : Except Halt RenderOutcome → List Float
  | .ok o => o.lengths
  | .error _ => []

theorem triple_made : lengthsMade (render triple still).1 =
    [3.16, 0.8, Ledger.drifting, Ledger.drifting, Ledger.drifting] := by
  decide +kernel

/-- The ledger lists other lengths than were returned. -/
theorem listed_drifts : ∃ o entry, (render triple still).1 = .ok o ∧
    ((render triple still).2.ledger.list.run (render triple still).2.machine).1 = .ok [entry] ∧
    entry.settings.segmentDurations ≠ o.segmentDurations := by
  obtain ⟨r, hr, haudio, hfits⟩ := triple_accepted
  have hapart := still_standsApart haudio
  have hledger :=
    render_ledger still triple still_rooted still_proper still_contents hr hapart hfits
  have hallowed : (render triple still).2.machine.circumstances.refusal
      ((render triple still).2.machine.clock + 1) = none := by
    rw [render_circumstances still triple still_rooted still_proper still_contents hr hapart hfits]
    rfl
  have hlengths := triple_made
  cases hresult : (render triple still).1 with
  | error e =>
    rw [hresult] at hlengths
    cases hlengths
  | ok o =>
    rw [hresult] at hlengths hledger
    change o.lengths = _ at hlengths
    obtain ⟨entry, hrecords, -, hlists⟩ | _ := hledger
    have hlegible : ∀ e ∈ [] ++ [entry], e.Legible := List.forall_mem_singleton.mpr (by
      show ∀ x ∈ entry.lengths, _
      rw [hrecords.lengths, hlengths]
      decide +kernel)
    have hread : ∀ x ∈ [Ledger.drifting, Ledger.drifting, Ledger.drifting],
        Json.rereadOrSame x ≠ x := by
      decide +kernel
    refine ⟨o, entry.readBack, rfl, hlists hlegible hallowed, ?_⟩
    rw [show entry.readBack.settings.segmentDurations =
      entry.settings.segmentDurations.map Json.rereadOrSame from rfl, hrecords.segmentDurations,
      (List.cons.inj (List.cons.inj hlengths).2).2]
    exact fun h => hread _ List.mem_cons_self (List.cons.inj h).1

/-- **The views do not always agree**: with a ledger that does not stand apart, and with a length
that is not read back. -/
theorem views_disagree :
    ((crossed.config.check matches .ok ()) = true ∧
      (crossed.ledger.contents crossed.machine.files crossed.machine.here matches .ok []) = true ∧
      ((render single crossed).1 matches .error _) = true ∧
      (((render single crossed).2.ledger.list.run (render single crossed).2.machine).1 matches .ok
        _) = false) ∧
    ∃ o entry, (render triple still).1 = .ok o ∧
      ((render triple still).2.ledger.list.run (render triple still).2.machine).1 = .ok [entry] ∧
      entry.settings.segmentDurations ≠ o.segmentDurations :=
  ⟨crossed_ledger, listed_drifts⟩

end Service

end Slideshow
