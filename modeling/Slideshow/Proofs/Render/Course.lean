import Slideshow.Proofs.Graph.Stages
import Slideshow.Proofs.Render.Progress
import Slideshow.Render.Service

/-!
# The course of a job

While a job is worked on (`render`, `run`, `produce`), its record, the bus and what others have seen
of both go together. `Course start id told job s` says how they stand in the service `s` when the
job was added to the service `start`, `told` are the events so far and `job` is the record. Each
step of the service keeps a course, and each part of the work is such steps. The work can stop with
an error, after which the job ends; or it panics while its graph is compiled, and then nothing more
is told.

* `Trace`: what others have seen: each progress told is that of the record, which never falls.
* `Lifecycle` is the grammar of what is told, `Left` what is left of a job whose work has stopped
  early.
* `Overwide start r`: a flare is asked for that is too wide for words of 32 bits.

Headlines:
* `broadcast_course`, `updateJob_course`, `addJob_course`: one lemma for each step.
* **`encode_course`**, **`run_course`**, **`conclude_course`**: the parts of the work.
* **`render_lifecycle`**: every run on a valid request follows the grammar, or panics after it was
  announced.
* **`flare_breaks_grammar`**: a run can panic, and its job does not end then.
-/

namespace Slideshow

/-- The progress that the record at some place shows. -/
def Moment.progress? (m : Moment) (place : Nat) : Option Float := m.jobs[place]?.map (·.progress)

/-- What others have seen of a job whose record is at some place. -/
structure Trace (id : JobId) (place : Nat) (seen : List Moment) : Prop where
  /-- The record is always there. -/
  present : ∀ m ∈ seen, (m.progress? place).isSome = true
  /-- When progress is told, the record shows it. -/
  agrees : ∀ m ∈ seen, ∀ f, m.told = some (.progress id f) → m.progress? place = some f
  /-- The progress of the record never falls. -/
  rising : (seen.filterMap (·.progress? place)).Pairwise (· ≤ ·)

namespace Trace

variable {id : JobId} {place : Nat} {seen : List Moment}

theorem nil : Trace id place [] := ⟨by simp, by simp, .nil⟩

/-- One more moment, whose progress is not below that of any other. -/
theorem concat (h : Trace id place seen) {m : Moment} {p : Float} (hp : m.progress? place = some p)
    (hle : ∀ q ∈ seen.filterMap (·.progress? place), q ≤ p)
    (htold : ∀ f, m.told = some (.progress id f) → p = f) : Trace id place (seen ++ [m]) where
  present := List.forall_mem_append.mpr ⟨h.present, List.forall_mem_singleton.mpr (by rw [hp]; rfl)⟩
  agrees := List.forall_mem_append.mpr
    ⟨h.agrees, List.forall_mem_singleton.mpr fun f hf => by rw [hp, htold f hf]⟩
  rising := by
    rw [List.filterMap_append, List.pairwise_append]
    refine ⟨h.rising, by simp [hp], ?_⟩
    intro q hq r hr
    obtain rfl : r = p := by simpa [hp] using hr
    exact hle q hq

end Trace

/-- What others have seen since a service: the events and the record, whose progress has come as far
as `progress`. -/
def Seen (start : Service) (id : JobId) (told : List Event) (progress : Float)
    (moments : List Moment) : Prop :=
  ∃ seen, moments = start.moments ++ seen ∧ seen.filterMap (·.told) = told ∧
    Trace id start.jobs.length seen ∧
    ∀ q ∈ seen.filterMap (·.progress? start.jobs.length), q ≤ progress

namespace Seen

variable {start : Service} {id : JobId}

theorem nil (p : Float) : Seen start id [] p start.moments :=
  ⟨[], (List.append_nil _).symm, rfl, .nil, by simp⟩

theorem concat {told : List Event} {p : Float} {moments : List Moment}
    (h : Seen start id told p moments) {m : Moment} {q : Float}
    (hm : m.progress? start.jobs.length = some q) (hpq : p ≤ q)
    (htold : ∀ f, m.told = some (.progress id f) → q = f) :
    Seen start id (told ++ m.told.toList) q (moments ++ [m]) := by
  obtain ⟨seen, rfl, rfl, htrace, hle⟩ := h
  have hle' : ∀ r ∈ seen.filterMap (·.progress? start.jobs.length), r ≤ q := fun r hr =>
    float_le_trans (hle r hr) hpq
  refine ⟨seen ++ [m], List.append_assoc _ _ _, ?_, htrace.concat hm hle' htold, ?_⟩
  · rw [List.filterMap_append, List.filterMap_cons]
    cases m.told <;> rfl
  · intro r hr
    rw [List.filterMap_append, List.mem_append] at hr
    rcases hr with hr | hr
    · exact hle' r hr
    · obtain rfl : r = q := by simpa [hm] using hr
      exact float_refl hpq

end Seen

/-- How a service stands to the one that a job was added to. -/
structure Course (start : Service) (id : JobId) (told : List Event) (job : RenderJob)
    (s : Service) :
    Prop where
  config : s.config = start.config
  tools : s.tools = start.tools
  named : job.id = id
  /-- The record of the job is the last one, and those of jobs with other names are as before. -/
  records : ∃ older, s.jobs = older ++ [job] ∧ older.length = start.jobs.length ∧
    older.filter (·.id != id) = start.jobs.filter (·.id != id)
  events : s.events = told.foldl EventBus.broadcast start.events
  moments : Seen start id told job.progress s.moments
  /-- The progress is a number. -/
  number : job.progress ≤ job.progress

namespace Service

/-- The work has failed with an error, and something holds for it. -/
def Failing (bad : Error → Service → Prop) (h : Halt) (s : Service) : Prop :=
  ∃ e, h = .failed e ∧ bad e s

theorem Failing.always {I : Service → Prop} {h : Halt} {s : Service}
    (hs : Failing (fun _ => I) h s) : I s := by
  obtain ⟨_, -, hs⟩ := hs
  exact hs

/-- What is tried on the machine fails with errors only. -/
theorem tryOnMachine_tries {α : Type} {pre : Service → Prop} {good : α → Service → Prop}
    {bad : Error → Service → Prop} {trial : Slideshow.Trial α}
    (h : Ensures pre (onMachine trial.run) (Either good bad)) :
    Tries pre (tryOnMachine trial) good (Failing bad) :=
  Ensures.bind h fun r => .pure _ fun s hs => by
    cases r with
    | ok a => exact hs
    | error e => exact ⟨e, rfl, hs⟩

/-- What only the machine does not matter for. -/
def Apart (I : Service → Prop) : Prop := ∀ s m, I s → I { s with machine := m }

section
variable {I : Service → Prop} {α : Type} (hI : Apart I)
include hI

theorem onMachine_apart (action : Slideshow.Action α) : Ensures I (onMachine action) fun _ => I :=
  fun s hs => hI s _ hs

/-- The machine says something about the result. -/
theorem onMachine_ensures {action : Slideshow.Action α} {P : α → Prop}
    (h : Ensures (fun _ => True) action fun x _ => P x) :
    Ensures I (onMachine action) fun x s => P x ∧ I s :=
  fun s hs => ⟨h s.machine trivial, hI s _ hs⟩

theorem tryOnMachine_apart (trial : Slideshow.Trial α) :
    Tries I (tryOnMachine trial) (fun _ => I) (Failing fun _ => I) :=
  tryOnMachine_tries ((onMachine_apart hI trial.run).mono (fun _ h => h) fun r _ h => by
    cases r <;> exact h)

end

/-! ## Steps -/

section
variable {start : Service} {id : JobId} {told : List Event} {job : RenderJob}

theorem course_apart : Apart (Course start id told job) :=
  fun _ _ h => ⟨h.config, h.tools, h.named, h.records, h.events, h.moments, h.number⟩

theorem progress?_concat {older : List RenderJob} {place : Nat} (h : older.length = place)
    (e : Option Event) (job : RenderJob) :
    (⟨e, older ++ [job]⟩ : Moment).progress? place = some job.progress := by
  show (older ++ [job])[place]?.map (·.progress) = _
  rw [← h, List.getElem?_concat_length]
  rfl

/-- **Telling something keeps the course**; only the progress of the record is told as progress. -/
theorem broadcast_course (e : Event) (he : ∀ f, e = .progress id f → job.progress = f) :
    Ensures (Course start id told job) (broadcast e) fun _ =>
      Course start id (told ++ [e]) job := by
  intro s h
  obtain ⟨older, hjobs, hlength, -⟩ := h.records
  have hp := progress?_concat hlength (some e) job
  rw [← hjobs] at hp
  refine ⟨h.config, h.tools, h.named, h.records, ?_, ?_, h.number⟩
  · show s.events.broadcast e = _
    rw [h.events, List.foldl_append]
    rfl
  · exact h.moments.concat hp h.number fun f hf => he f (Option.some.inj hf)

/-- A change that keeps names leaves the records of other jobs alone. -/
theorem filter_map_change (change : RenderJob → RenderJob) (hid : ∀ j, (change j).id = j.id)
    (jobs : List RenderJob) :
    (jobs.map fun j => if j.id == id then change j else j).filter (·.id != id) =
      jobs.filter (·.id != id) := by
  induction jobs with
  | nil => rfl
  | cons j jobs ih =>
    by_cases h : j.id = id
    · simpa [h, hid] using ih
    · simpa [h] using ih

/-- **Changing the record keeps the course**, if its progress does not fall. -/
theorem updateJob_course (change : RenderJob → RenderJob) (hid : ∀ j, (change j).id = j.id)
    (hle : job.progress ≤ (change job).progress) :
    Ensures (Course start id told job) (updateJob id change) fun _ =>
      Course start id told (change job) := by
  intro s h
  obtain ⟨older, hjobs, hlength, hothers⟩ := h.records
  have hself : (if job.id == id then change job else job) = change job := by simp [h.named]
  have hjobs' : (s.jobs.map fun j => if j.id == id then change j else j) =
      (older.map fun j => if j.id == id then change j else j) ++ [change job] := by
    rw [hjobs, List.map_append, List.map_singleton, hself]
  have hlength' : (older.map fun j => if j.id == id then change j else j).length =
      start.jobs.length := by
    rw [List.length_map, hlength]
  have hp := progress?_concat hlength' none (change job)
  rw [← hjobs'] at hp
  refine ⟨h.config, h.tools, (hid job).trans h.named, ⟨_, hjobs', hlength', ?_⟩, h.events, ?_,
    float_refl hle⟩
  · exact (filter_map_change change hid older).trans hothers
  · have := h.moments.concat hp hle fun f hf => nomatch hf
    rwa [Option.toList_none, List.append_nil] at this

/-- A service has done nothing that others could see. -/
def Unmoved (start s : Service) : Prop :=
  s.config = start.config ∧ s.tools = start.tools ∧ s.jobs = start.jobs ∧ s.events = start.events ∧
    s.moments = start.moments

/-- Adding a job begins its course. -/
theorem addJob_course (hid : job.id = id) (hp : job.progress ≤ job.progress) :
    Ensures (Unmoved start) (addJob job) fun _ => Course start id [] job := by
  rintro s ⟨hconfig, htools, hjobs, hevents, hmoments⟩
  have hnil : Seen start id [] job.progress start.moments := .nil job.progress
  have hseen := hnil.concat (progress?_concat rfl none job) hp fun f hf => nomatch hf
  refine ⟨hconfig, htools, hid, ⟨start.jobs, ?_, rfl, rfl⟩, hevents, ?_, hp⟩
  · exact congrArg (· ++ [job]) hjobs
  · show Seen _ _ _ _ (s.moments ++ [⟨none, s.jobs ++ [job]⟩])
    rw [hmoments, hjobs]
    exact hseen

end

/-! ## The work on a job -/

section
variable {start : Service} {id : JobId} {told : List Event} {job : RenderJob}

theorem narration_apart {I : Service → Prop} (hI : Apart I) (parts : List String) (w : Workspace) :
    Tries I (narration id parts w) (fun _ => I) (Failing fun _ => I) := by
  unfold narration
  refine .get_bind fun s₀ _ => ?_
  split
  · refine .bind (.lift (onMachine_apart hI _)) fun e => ?_
    split
    · exact .throw _ fun _ h => ⟨_, rfl, h⟩
    · exact .pure _ fun _ h => h
  · exact .bind (tryOnMachine_apart hI _) fun _ => .pure _ fun _ h => h

/-- Fractions that climb are told one by one, and the record shows the last of them. -/
theorem relay_course (fractions : List Float) : ∀ {told : List Event} {job : RenderJob},
    job.status = .running → Climbs job.progress fractions →
    Ensures (Course start id told job)
    ((fractions.map EncodeEvent.progress).forM (relay id)) fun _ =>
      Course start id (told ++ fractions.map (.progress id))
        { job with progress := fractions.getLastD job.progress } := by
  induction fractions with
  | nil =>
    intro told job _ _
    refine .pure _ fun s h => ?_
    rw [List.map_nil, List.append_nil]
    exact h
  | cons f fractions ih =>
    intro told job hstatus hclimbs
    have hupdate : job.updateProgress f = { job with progress := f } := by
      have hlt : f > job.progress := hclimbs.1
      simp [RenderJob.updateProgress, hstatus, hlt, minimum_one hclimbs.2.1]
    show Ensures _ ((updateJob id (·.updateProgress f) >>= fun _ => broadcast (.progress id f)) >>=
      fun _ => (fractions.map EncodeEvent.progress).forM (relay id)) _
    have hid : ∀ j : RenderJob, (j.updateProgress f).id = j.id := fun j => by
      unfold RenderJob.updateProgress
      split <;> rfl
    refine .bind (.bind (updateJob_course _ hid ?_) fun _ => broadcast_course _ ?_) fun _ => ?_
    · rw [hupdate]
      exact float_le_of_lt hclimbs.1
    · intro g hg
      rw [hupdate]
      cases hg
      rfl
    · rw [hupdate]
      have htold : told ++ (f :: fractions).map (.progress id) =
          told ++ [.progress id f] ++ fractions.map (.progress id) := by
        rw [List.append_assoc, List.singleton_append, List.map_cons]
      rw [List.getLastD_cons, htold]
      exact @ih _ { job with progress := f } hstatus hclimbs.2.2

/-- The events of a run of the encoder, from its start to its end, of which nothing is told, are
told. -/
theorem relay_run_course (line : String) {fractions : List Float} {last : EncodeEvent}
    (hstatus : job.status = .running) (hclimbs : Climbs job.progress fractions)
    (hlast : relay id last = Pure.pure ()) :
    Ensures (Course start id told job)
      ((.started line :: fractions.map EncodeEvent.progress ++ [last]).forM (relay id)) fun _ =>
      Course start id (told ++ .started id line :: fractions.map (.progress id))
        { job with progress := fractions.getLastD job.progress } := by
  have hstarted : Ensures (Course start id told job) (relay id (.started line)) fun _ =>
      Course start id (told ++ [.started id line]) job :=
    broadcast_course _ fun f hf => nomatch hf
  have htold : told ++ .started id line :: fractions.map (.progress id) =
      told ++ [.started id line] ++ fractions.map (.progress id) := by
    rw [List.append_assoc, List.singleton_append]
  rw [htold]
  refine .forM_append (.bind hstarted fun _ => relay_course fractions hstatus hclimbs) ?_
  show Ensures _ (relay id last >>= fun _ => Pure.pure ()) _
  rw [hlast]
  exact fun _ h => h

end

/-- What is told of a job from its beginning to its end. -/
inductive Lifecycle (id : JobId) : List Event → Prop
  /-- It never began to encode. -/
  | refused (images : Nat) (kind : ErrorKind) (error : String) :
      Lifecycle id [.queued id images, .failed id kind error]
  /-- It failed after it began to encode. -/
  | failed (images : Nat) (line : String) (fractions : List Float) (kind : ErrorKind)
  (error : String) (rising : Rising fractions) :
      Lifecycle id (.queued id images :: .started id line :: fractions.map (.progress id) ++
        [.failed id kind error])
  /-- It came to its end, and the last progress told is one. -/
  | completed (images : Nat) (line : String) (fractions : List Float) (filename : String)
      (rising : Rising fractions) (last : fractions.getLast? = some 1) :
      Lifecycle id (.queued id images :: .started id line :: fractions.map (.progress id) ++
        [.completed id filename])

/-- What begins comes to an end. -/
theorem Lifecycle.two_le_length {id : JobId} {told : List Event} (h : Lifecycle id told) :
    2 ≤ told.length := by
  cases h <;> simp

/-- What was told of a job before its end, and its record. -/
inductive Ongoing (id : JobId) : List Event → RenderJob → Prop
  | waiting {images : Nat} {job : RenderJob} (status : job.status.isTerminal = false)
      (still : job.progress = 0) : Ongoing id [.queued id images] job
  | encoding {images : Nat} {line : String} {fractions : List Float} {job : RenderJob}
      (status : job.status = .running) (climbs : Climbs 0 fractions)
      (reached : job.progress = fractions.getLastD 0) :
      Ongoing id (.queued id images :: .started id line :: fractions.map (.progress id)) job

/-- What was told of a job that is encoded, and its record. -/
inductive Finished (id : JobId) : List Event → RenderJob → Prop
  | intro {images : Nat} {line : String} {fractions : List Float} {job : RenderJob}
      (status : job.status = .running) (climbs : Climbs 0 fractions)
      (last : fractions.getLastD 0 = 1) (reached : job.progress = 1) :
      Finished id (.queued id images :: .started id line :: fractions.map (.progress id)) job

/-- A job is in its course, with events and a record of some kind. -/
def Going (start : Service) (id : JobId) (P : List Event → RenderJob → Prop) (s : Service) : Prop :=
  ∃ told job, Course start id told job s ∧ P told job

section
variable {start : Service} {id : JobId}

theorem going_apart {P : List Event → RenderJob → Prop} : Apart (Going start id P) :=
  fun s m ⟨told, job, hcourse, h⟩ => ⟨told, job, course_apart s m hcourse, h⟩

/-- A flare is asked for that is too wide for words of 32 bits. -/
def Overwide (start : Service) (r : ValidatedRequest) : Prop :=
  Graph.TooWide (.ofConfig start.config) r.effects

/-- What was told of a job that has started and not begun to encode. -/
def Running (id : JobId) (told : List Event) (job : RenderJob) : Prop :=
  ∃ images, told = [.queued id images] ∧ job.status = .running ∧ job.progress = 0

theorem Running.ongoing {told : List Event} {job : RenderJob} (h : Running id told job) :
    Ongoing id told job := by
  obtain ⟨images, rfl, hstatus, hprogress⟩ := h
  exact .waiting (by rw [hstatus]; rfl) hprogress

/-- What is left of a job whose work has stopped early: after an error it can end, and a panic
leaves it as it was when its graph was compiled. -/
def Left (start : Service) (r : ValidatedRequest) (id : JobId) (told : List Event)
    (job : RenderJob) :
    Halt → Prop
  | .failed _ => Ongoing id told job
  | .panicked reason => Running id told job ∧ start.Overwide r ∧ .panicked reason = Halt.multiplied

/-- The work on a job has stopped early in its course. -/
def Halting (start : Service) (r : ValidatedRequest) (id : JobId) (h : Halt) (s : Service) : Prop :=
  Going start id (fun told job => start.Left r id told job h) s

theorem halting_of_failing {r : ValidatedRequest} {h : Halt} {s : Service}
    (hs : Failing (fun _ => Going start id (Ongoing id)) h s) : Halting start r id h s := by
  obtain ⟨_, rfl, hs⟩ := hs
  exact hs

theorem encode_course (r : EncodeRequest) :
    Tries (Going start id (Running id)) (encode id r) (fun _ => Going start id (Finished id))
      (Failing fun _ => Going start id (Ongoing id)) := by
  unfold encode
  refine Ensures.get_bind fun s₀ _ => ?_
  refine Ensures.bind (onMachine_ensures going_apart (s₀.encoder.encode_tells r)) fun encoded => ?_
  rintro s ⟨htells, told, job, hcourse, images, rfl, hstatus, hprogress⟩
  cases htells with
  | unstarted states e =>
    exact ⟨_, rfl, _, _, course_apart _ _ hcourse, .waiting (by rw [hstatus]; rfl) hprogress⟩
  | failed line fractions states e climbs =>
    rw [← hprogress] at climbs
    have h :=
      relay_run_course line hstatus climbs (rfl : relay id (.failed e.message) = _) s hcourse
    rw [hprogress] at climbs
    refine ⟨_, rfl, _, _, course_apart _ _ h, .encoding hstatus climbs ?_⟩
    exact congrArg (fractions.getLastD ·) hprogress
  | succeeded line fractions states output summary climbs last =>
    rw [← hprogress] at climbs
    have h :=
      relay_run_course line hstatus climbs (rfl : relay id (.succeeded output) = _) s hcourse
    rw [hprogress] at climbs
    refine ⟨_, _, h, .intro hstatus climbs last ?_⟩
    exact (congrArg (fractions.getLastD ·) hprogress).trans last

/-! ## From the start of a job to its end -/

theorem makeOutputDirectory_apart {I : Service → Prop} (hI : Apart I) (output : OutputFile) :
    Tries I (makeOutputDirectory output) (fun _ => I) (Failing fun _ => I) := by
  unfold makeOutputDirectory
  split
  · exact tryOnMachine_apart hI _
  · exact .pure _ fun _ h => h

theorem setTiming_running (path : String) (durations : List Float) :
    Ensures (Going start id (Running id)) (updateJob id (·.setTiming path durations)) fun _ =>
      Going start id (Running id) := by
  rintro s ⟨told, job, hcourse, hrunning⟩
  exact ⟨told, job.setTiming path durations,
    updateJob_course (·.setTiming path durations) (fun _ => rfl) hcourse.number s hcourse, hrunning⟩

theorem running_ongoing (s : Service) :
    Going start id (Running id) s → Going start id (Ongoing id) s :=
  fun ⟨told, job, hcourse, h⟩ => ⟨told, job, hcourse, h.ongoing⟩

theorem finished_ongoing (s : Service) :
    Going start id (Finished id) s → Going start id (Ongoing id) s := by
  rintro ⟨_, job, hcourse, ⟨hstatus, hclimbs, hlast, hreached⟩⟩
  exact ⟨_, job, hcourse, .encoding hstatus hclimbs (hreached.trans hlast.symm)⟩

/-- Compiling fails with an error, or panics for a flare that is too wide. -/
theorem compile_halting (r : ValidatedRequest) (durations : List Float) {s₀ : Service}
    (hconfig : s₀.config = start.config) {h : Halt}
    (hcompile : Graph.compile r.images durations (.ofConfig s₀.config) r.effects = .error h)
    (s : Service) (hs : Going start id (Running id) s) : Halting start r id h s := by
  cases h with
  | failed e => exact running_ongoing s hs
  | panicked reason =>
    obtain ⟨-, hwide, hreason⟩ := Graph.compile_eq_panicked_iff.mp hcompile
    obtain ⟨told, job, hcourse, hrunning⟩ := hs
    rw [hconfig] at hwide
    exact ⟨told, job, hcourse, hrunning, hwide, hreason⟩

theorem produce_course (r : ValidatedRequest) (output : OutputFile) (w : Workspace) :
    Tries (Going start id (Running id)) (produce id r output w)
    (fun _ => Going start id (Finished id)) (Halting start r id) := by
  have hfailing : ∀ {P}, (∀ s, Going start id P s → Going start id (Ongoing id) s) → ∀ h s,
      Failing (fun _ => Going start id P) h s → Halting start r id h s := by
    rintro P hP h s ⟨e, rfl, hs⟩
    exact hP s hs
  unfold produce
  refine .bind ((narration_apart going_apart r.audio w).bad_mono (hfailing running_ongoing))
    fun narration => ?_
  refine .bind (.ofExcept (fun _ _ _ h => h) fun h hsplit s hs => ?_) fun durations => ?_
  · obtain ⟨e, -, rfl⟩ := of_mapError_error hsplit
    exact running_ongoing s hs
  refine .bind (.lift (setTiming_running narration.path durations)) fun _ => ?_
  refine .get_bind fun s₀ hs₀ => ?_
  obtain ⟨_, _, hcourse, -⟩ := hs₀
  refine .bind (.ofExcept (fun _ _ _ h => h) fun h => compile_halting r durations hcourse.config)
    fun graph => ?_
  refine .bind ((makeOutputDirectory_apart going_apart output).bad_mono (hfailing running_ongoing))
    fun _ => ?_
  refine .bind ((encode_course _).bad_mono fun _ _ => halting_of_failing) fun _ => ?_
  refine .bind (.lift (onMachine_apart going_apart _)) fun processingMs => ?_
  refine .bind (.lift (onMachine_apart going_apart _)) fun recorded => ?_
  refine .get_bind fun s₁ _ => ?_
  refine .bind ((tryOnMachine_apart going_apart _).bad_mono (hfailing finished_ongoing)) fun _ => ?_
  exact .pure _ fun _ h => h

/-- A job waits, and has told only that. -/
def Waiting (id : JobId) (told : List Event) (job : RenderJob) : Prop :=
  ∃ images, told = [.queued id images] ∧ job.status = .queued ∧ job.progress = 0

theorem waiting_ongoing (s : Service) :
    Going start id (Waiting id) s → Going start id (Ongoing id) s := by
  rintro ⟨_, job, hcourse, images, rfl, hstatus, hprogress⟩
  exact ⟨_, job, hcourse, .waiting (by rw [hstatus]; rfl) hprogress⟩

/-- A move that the job can make. -/
theorem moveJob_course {told : List Event} {job moved : RenderJob}
    {move : RenderJob → Except Error RenderJob} (hid : ∀ j k, move j = .ok k → k.id = j.id)
    (hmove : move job = .ok moved) (hle : job.progress ≤ moved.progress) :
    Ensures (Course start id told job) (moveJob id move) fun _ => Course start id told moved := by
  have hkeep : ∀ j, ((move j).toOption.getD j).id = j.id := fun j => by
    cases hm : move j with
    | error e => rfl
    | ok k => exact hid j k hm
  have hmoved : (move job).toOption.getD job = moved := by rw [hmove]; rfl
  intro s hcourse
  have hstep :=
    updateJob_course (fun j => (move j).toOption.getD j) hkeep (by rwa [hmoved]) s hcourse
  rwa [hmoved] at hstep

theorem start_running (now : Timestamp) :
    Ensures (Going start id (Waiting id)) (moveJob id (·.start now)) fun _ =>
      Going start id (Running id) := by
  rintro s ⟨_, job, hcourse, images, rfl, hstatus, hprogress⟩
  have hstart : job.start now = .ok { job with status := .running, startedAt := some now } := by
    simp [RenderJob.start, hstatus]
  have hid : ∀ j k : RenderJob, j.start now = .ok k → k.id = j.id := fun j k h => by
    unfold RenderJob.start at h
    split at h <;> cases h
    rfl
  exact ⟨_, _, moveJob_course hid hstart hcourse.number s hcourse, images, rfl, rfl, hprogress⟩

/-- What holds after something was tried, and what that becomes when the workspace is closed. -/
theorem closingAfter_tries {α : Type} {pre : Service → Prop} {good good' : α → Service → Prop}
    {bad bad' : Halt → Service → Prop} {w : Workspace} {trial : Trial α}
    (h : Tries pre trial good bad)
    (hgood : ∀ a, Ensures (good a) (onMachine w.close.run) fun _ => good' a)
    (hbad : ∀ e, Ensures (bad e) (onMachine w.close.run) fun _ => bad' e) :
    Tries pre (closingAfter w trial) good' bad' :=
  Ensures.bind h fun result => by
    cases result with
    | ok a => exact (hgood a).bind fun _ => .pure _ fun _ hs => hs
    | error e => exact (hbad e).bind fun _ => .pure _ fun _ hs => hs

theorem run_course (r : ValidatedRequest) (output : OutputFile) :
    Tries (Going start id (Waiting id)) (run id r output) (fun _ => Going start id (Finished id))
      (Halting start r id) := by
  unfold run
  refine .bind (.lift (onMachine_apart going_apart _)) fun cancelled => ?_
  dsimp only
  split
  · exact .throw_bind _ waiting_ongoing
  · refine .bind (.lift (onMachine_apart going_apart _)) fun now => ?_
    refine .bind (.lift (start_running now)) fun _ => ?_
    refine .get_bind fun s₀ _ => ?_
    refine .bind ((tryOnMachine_apart going_apart _).bad_mono ?_) fun w => ?_
    · rintro _ s ⟨e, rfl, hs⟩
      exact running_ongoing s hs
    exact closingAfter_tries (produce_course r output w) (fun _ => onMachine_apart going_apart _)
      fun _ => onMachine_apart going_apart _

/-- How the record and the last event of a job agree with its result: a panic is told to nobody. -/
def AgreesWith (id : JobId) (told : List Event) (job : RenderJob) : Except Halt RenderOutcome → Prop
  | .ok outcome => job.status = .succeeded ∧ job.progress = 1 ∧
      told.getLast? = some (.completed id outcome.output.filename)
  | .error (.failed e) => job.status = .failed ∧ job.error = some e.message ∧
      told.getLast? = some (.failed id e.kind e.message)
  | .error (.panicked _) => Running id told job

/-- A job has ended with a result, or panicked for a flare that is too wide. -/
def Ended (start : Service) (r : ValidatedRequest) (id : JobId) (result : Except Halt RenderOutcome)
    (told : List Event) (job : RenderJob) : Prop :=
  (Lifecycle id told ∨ result = .error .multiplied ∧ start.Overwide r) ∧
    AgreesWith id told job result

theorem succeed_id (now : Timestamp) (j k : RenderJob) (h : j.succeed now = .ok k) :
    k.id = j.id := by
  unfold RenderJob.succeed at h
  split at h <;> cases h
  rfl

theorem fail_id (error : String) (now : Timestamp) (j k : RenderJob)
    (h : j.fail error now = .ok k) :
    k.id = j.id := by
  unfold RenderJob.fail at h
  split at h <;> cases h
  rfl

/-- The end of a job is told. -/
theorem tell_end {r : ValidatedRequest} {told : List Event} {job moved : RenderJob}
    {move : RenderJob → Except Error RenderJob} (e : Event) (result : Except Halt RenderOutcome)
    (hid : ∀ j k, move j = .ok k → k.id = j.id) (hmove : move job = .ok moved)
    (hle : job.progress ≤ moved.progress) (he : ∀ f, e ≠ .progress id f)
    (hend : start.Ended r id result (told ++ [e]) moved) :
    Ensures (Course start id told job) (do moveJob id move; broadcast e) fun _ =>
      Going start id (start.Ended r id result) :=
  .bind (moveJob_course hid hmove hle) fun _ s hs =>
    ⟨_, _, broadcast_course e (fun f hf => absurd hf (he f)) s hs, hend⟩

theorem Ongoing.lifecycle {told : List Event} {job : RenderJob} (h : Ongoing id told job)
    (kind : ErrorKind) (error : String) : Lifecycle id (told ++ [.failed id kind error]) := by
  cases h with
  | waiting _ _ => exact .refused _ kind error
  | encoding _ climbs _ => exact .failed _ _ _ kind error (climbs.rising float_zero_le_zero)

theorem Ongoing.notTerminal {told : List Event} {job : RenderJob} (h : Ongoing id told job) :
    job.status.isTerminal = false := by
  cases h with
  | waiting status _ => exact status
  | encoding status _ _ => rw [status]; rfl

/-- **The end of the work on a job is the end of its course**, unless it has panicked. -/
theorem conclude_course (r : ValidatedRequest) (result : Except Halt RenderOutcome) :
    Ensures (Either (fun _ => Going start id (Finished id)) (Halting start r id) result)
    (conclude id result)
      fun _ => Going start id (start.Ended r id result) := by
  match result with
  | .ok outcome =>
    refine .bind (onMachine_apart going_apart _) fun now => ?_
    rintro s ⟨_, job, hcourse, ⟨hstatus, hclimbs, hlast, hreached⟩⟩
    have hmove : job.succeed now =
        .ok { job with status := .succeeded, progress := 1, completedAt := some now } := by
      simp [RenderJob.succeed, hstatus]
    have hrising := hclimbs.rising float_zero_le_zero
    have hle : job.progress ≤ 1 := by
      rw [hreached]
      exact float_one_le_one
    exact tell_end (.completed id outcome.output.filename) (.ok outcome) (succeed_id now)
      hmove hle (fun _ h => nomatch h)
      ⟨.inl (.completed _ _ _ _ hrising (getLast?_of_getLastD hlast)), rfl, rfl,
        List.getLast?_concat⟩
      s hcourse
  | .error (.failed e) =>
    refine .bind (onMachine_apart going_apart _) fun now => ?_
    rintro s ⟨told, job, hcourse, hongoing⟩
    have hmove : job.fail e.message now =
        .ok { job with status := .failed, error := some e.message, completedAt := some now } := by
      simp [RenderJob.fail, Ongoing.notTerminal hongoing]
    exact tell_end (.failed id e.kind e.message) (.error (.failed e)) (fail_id e.message now) hmove
      hcourse.number (fun _ h => nomatch h)
      ⟨.inl (Ongoing.lifecycle hongoing _ _), rfl, rfl, List.getLast?_concat⟩ s hcourse
  | .error (.panicked reason) =>
    refine .pure _ ?_
    rintro s ⟨told, job, hcourse, hrunning, hwide, hreason⟩
    exact ⟨told, job, hcourse, .inr ⟨congrArg Except.error hreason, hwide⟩, hrunning⟩

/-! ## The course of a request -/

/-- The name of the job that a request becomes. -/
def nextJob (s : Service) : JobId := (Machine.newJobId s.machine).1

/-- The video of the job that a request becomes. -/
def nextOutput (s : Service) : OutputFile :=
  let filename := OutputFile.nameFor s.nextJob (Machine.now (Machine.newJobId s.machine).2).1
  ⟨filename, Path.join s.config.storage.outputDir filename⟩

/-- Whether a service would accept a request as it is. -/
def accepts? (s : Service) (request : RenderRequest) : Except Error ValidatedRequest :=
  request.validate s.machine.files s.machine.here s.config.input s.config.effects

/-- The record of the job that a request becomes. -/
def newJob (s : Service) (r : ValidatedRequest) : RenderJob :=
  { id := s.nextJob, images := r.images, effects := r.effects, output := s.nextOutput }

/-- The service when a request has become a job and that was told. -/
def admitted (s : Service) (r : ValidatedRequest) : Service :=
  (broadcast (.queued s.nextJob r.images.length) (addJob (s.newJob r)
    { s with machine := (Machine.now (Machine.newJobId s.machine).2).2 }).2).2

/-- A request that is refused leaves no trace. -/
theorem render_refused (s : Service) (request : RenderRequest) {e : Error}
    (h : s.accepts? request = .error e) :
    (render request).run s = (.error (.failed e), s) := by
  have hrefused : Ensures (· = s) (render request).run fun result after =>
      (result, after) = (.error (.failed e), s) := by
    unfold accepts? at h
    unfold render
    refine .get_bind ?_
    rintro _ rfl
    rw [h]
    exact .pure _ fun _ hs => by rw [hs]
  exact hrefused s rfl

/-- **A request that is valid ends as the work on its job does**, and then the job ends. -/
theorem render_ends (s : Service) (request : RenderRequest) {r : ValidatedRequest}
    {pre : Service → Prop} {good : RenderOutcome → Service → Prop} {bad : Halt → Service → Prop}
    {post : Except Halt RenderOutcome → Service → Prop} (h : s.accepts? request = .ok r)
    (hpre : pre (s.admitted r))
    (hrun : Tries pre (run s.nextJob r s.nextOutput) good bad)
    (hend : ∀ result, Ensures (Either good bad result) (conclude s.nextJob result) fun _ =>
      post result) :
    post (render request s).1 (render request s).2 := by
  have hrender : Ensures (· = s) (render request).run fun result after => (result, after) = ((do
      let result ← (run s.nextJob r s.nextOutput).run
      conclude s.nextJob result
      return result) : Action _) (s.admitted r) := by
    unfold accepts? at h
    unfold render
    refine .get_bind ?_
    rintro _ rfl
    rw [h]
    rintro _ rfl
    rfl
  have hwork : Ensures pre (run s.nextJob r s.nextOutput).run (Either good bad) := hrun
  rw [show render request s = _ from hrender s rfl]
  exact hwork.bind (fun result => (hend result).bind fun _ => .pure result fun _ hs => hs)
    (s.admitted r) hpre

/-- A request that is valid becomes a job that waits. -/
theorem admitted_waiting (s : Service) (r : ValidatedRequest) :
    Going s s.nextJob (Waiting s.nextJob) (s.admitted r) := by
  have hadded : Ensures (Unmoved s)
      (do addJob (s.newJob r); broadcast (.queued s.nextJob r.images.length)) fun _ =>
      Course s s.nextJob ([] ++ [.queued s.nextJob r.images.length]) (s.newJob r) :=
    .bind (addJob_course rfl float_zero_le_zero) fun _ => broadcast_course _ fun f hf => nomatch hf
  exact ⟨_, _, hadded { s with machine := _ } ⟨rfl, rfl, rfl, rfl, rfl⟩, _, rfl, rfl, rfl⟩

/-- **A request that is valid becomes a job that runs its course.** -/
theorem render_course (s : Service) (request : RenderRequest) {r : ValidatedRequest}
    (h : s.accepts? request = .ok r) :
    Going s s.nextJob (s.Ended r s.nextJob (render request s).1) (render request s).2 :=
  render_ends s request h (s.admitted_waiting r) (run_course r _) (conclude_course r)

/-- Only a flare that is too wide makes a render panic. -/
theorem render_panics (s : Service) (request : RenderRequest) {reason : String}
    (hpanic : (render request s).1 = .error (.panicked reason)) :
    Halt.panicked reason = .multiplied ∧ ∃ r, s.accepts? request = .ok r ∧ s.Overwide r := by
  cases haccepts : s.accepts? request with
  | error e =>
    rw [show render request s = _ from s.render_refused request haccepts] at hpanic
    cases hpanic
  | ok r =>
    have hend : ∀ result, Ensures
        (Either (fun _ => Going s s.nextJob (Finished s.nextJob)) (Halting s r s.nextJob) result)
        (conclude s.nextJob result) fun _ _ =>
          ∀ reason, result = .error (.panicked reason) → s.Overwide r ∧
              .panicked reason = Halt.multiplied := by
      rintro result s' hs' reason rfl
      obtain ⟨told, job, -, -, hwide, hreason⟩ := hs'
      exact ⟨hwide, hreason⟩
    obtain ⟨hwide, hreason⟩ :=
      render_ends s request haccepts (s.admitted_waiting r) (run_course r _) hend reason hpanic
    exact ⟨hreason, r, rfl, hwide⟩

/-- **What is told of a job follows one grammar**: it is announced; it may begin to encode, with
fractions that rise from zero to at most one; it ends once, with a last fraction of one if it
succeeds. Whenever progress is told the record shows it, and the progress of the record never falls.
Only a panic breaks the grammar: a render that asks for a flare too wide for words of 32 bits can
end in one, and nothing is told then but that the job was announced. -/
theorem render_lifecycle (s : Service) (request : RenderRequest) {r : ValidatedRequest}
    (h : s.accepts? request = .ok r) :
    ∃ seen told, (render request s).2.moments = s.moments ++ seen ∧ seen.filterMap (·.told) = told ∧
      (render request s).2.events = told.foldl EventBus.broadcast s.events ∧
      Trace s.nextJob s.jobs.length seen ∧
      (Lifecycle s.nextJob told ∨
        (render request s).1 = .error .multiplied ∧ s.Overwide r ∧
            ∃ images, told = [.queued s.nextJob images]) := by
  obtain ⟨told, job, hcourse, hended, hagrees⟩ := render_course s request h
  obtain ⟨seen, hmoments, htold, htrace, -⟩ := hcourse.moments
  refine ⟨seen, told, hmoments, htold, hcourse.events, htrace, hended.imp_right ?_⟩
  rintro ⟨hpanic, hwide⟩
  rw [hpanic] at hagrees
  obtain ⟨images, htold, -⟩ := hagrees
  exact ⟨hpanic, hwide, images, htold⟩

end

/-- A machine with a picture, a recording and both tools. -/
def studio : Machine where
  files := ⟨[(["a.png"], .file (.ofText "picture")), (["n.mp3"], .file (.ofText "sound")),
    (["bin"], .directory),
    (["bin", "ffprobe"], .program fun _ _ => { output := Text.encode "10" }),
    (["bin", "ffmpeg"], .program fun _ _ => { written := some (.ofText "video") })]⟩
  searchPath := ["/bin"]
  circumstances := { draw := fun _ _ => 0, jobId := .ofRandom, time := fun n => ⟨n, 0⟩ }

/-- A service there. -/
def small : Service := idle {} studio

/-- A request for one picture with one recording. -/
def single : RenderRequest := { images := ["/a.png"], audio := ["/n.mp3"] }

theorem render_lifecycle_single : ∃ r, small.accepts? single = .ok r ∧
    ∃ seen told, (render single small).2.moments = small.moments ++ seen ∧
      seen.filterMap (·.told) = told ∧
      (render single small).2.events = told.foldl EventBus.broadcast small.events ∧
      Trace small.nextJob small.jobs.length seen ∧
      (Lifecycle small.nextJob told ∨ (render single small).1 = .error .multiplied ∧
        small.Overwide r ∧ ∃ images, told = [.queued small.nextJob images]) :=
  ⟨_, rfl, render_lifecycle small single rfl⟩

/-- A service for videos that are too wide for a flare. -/
def broad : Service := idle { video := { width := 1073741824 } } studio

/-- The same request with a flare over the picture. -/
def flared : RenderRequest := { single with effects := some { overlay := some "lens_flare" } }

/-- Why work was stopped, if it was. -/
def stopped? {α : Type} : Except Halt α → Option Halt
  | .ok _ => none
  | .error h => some h

theorem stopped?_eq_some {α : Type} {result : Except Halt α} {h : Halt}
    (hstopped : stopped? result = some h) :
    result = .error h := by
  cases result with
  | ok _ => cases hstopped
  | error _ => rw [Option.some.inj hstopped]

/-- **A flare can break the grammar.** The settings pass their check and the request is valid; then
the work panics, nothing is told but that the job was announced, and its record says for ever that
it runs. -/
theorem flare_breaks_grammar :
    (broad.config.check matches .ok _) = true ∧ (broad.accepts? flared matches .ok _) = true ∧
      (render flared broad).1 = .error .multiplied ∧
      ((render flared broad).2.moments.filterMap (·.told) matches [Event.queued _ 1]) = true ∧
      ¬Lifecycle broad.nextJob ((render flared broad).2.moments.filterMap (·.told)) ∧
      (render flared broad).2.jobs.map (·.status) = [.running] := by
  have hlength : ((render flared broad).2.moments.filterMap (·.told)).length = 1 := by
    decide +kernel
  refine ⟨rfl, rfl, stopped?_eq_some (by decide +kernel), by
    decide +kernel,
    fun hcourse => ?_, by decide +kernel⟩
  have hmore := hcourse.two_le_length
  omega

end Service

end Slideshow
