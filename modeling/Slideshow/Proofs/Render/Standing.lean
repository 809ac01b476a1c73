import Slideshow.Proofs.Render.Course
import Slideshow.Proofs.Render.Places

/-!
# What the work on a job does to the machine

The steps of the service that only tell something leave the machine alone; the others work at known
places: the parts of the narration, the workspaces, the directory of the video and the video itself.

* `Standing start P s`: the settings are those of the service `start`, and `P` holds of the machine.

Headlines:
* **`narration_standing`**, **`encode_standing`**: the two parts of the work that run programs.
* **`produce_tries`**, `run_tries`, `render_tries`: the work on a job, from what its encoding and
  its entry in the ledger do.
-/

namespace Slideshow.Service

open FileTree Machine

/-- The settings and the tools stay, and something holds of the machine. -/
structure Standing (start : Service) (P : Machine → Prop) (s : Service) : Prop where
  config : s.config = start.config
  tools : s.tools = start.tools
  machine : P s.machine

section
variable {start : Service} {P : Machine → Prop} {α : Type}

theorem Standing.probe {s : Service} (h : Standing start P s) : s.probe = start.probe := by
  simp only [Service.probe, h.config, h.tools]

theorem Standing.merger {s : Service} (h : Standing start P s) : s.merger = start.merger := by
  simp only [Service.merger, h.probe, h.config, h.tools]

theorem onMachine_standing {action : Slideshow.Action α} {Q : α → Machine → Prop}
    (h : Ensures P action Q) :
    Ensures (Standing start P) (onMachine action) fun x => Standing start (Q x) :=
  fun s hs => ⟨hs.config, hs.tools, h s.machine hs.machine⟩

/-- A step that only asks the clock. -/
theorem onClock_standing (hP : Timeless P) {action : Slideshow.Action α}
    (haction : ∀ m, (action m).2 = m.tick) :
    Ensures (Standing start P) (onMachine action) fun _ => Standing start P :=
  onMachine_standing fun m hm => by
    rw [haction]
    exact hP.tick m hm

/-- A look at the token. -/
theorem onToken_standing (hP : Timeless P) :
    Ensures (Standing start P) (onMachine isCancelled) fun _ => Standing start P :=
  onMachine_standing fun m hm => hP.await m hm

theorem tryOnMachine_failing {trial : Slideshow.Trial α} {good : α → Machine → Prop}
    {bad : Error → Machine → Prop} (h : Tries P trial good bad) :
    Tries (Standing start P) (tryOnMachine trial) (fun x => Standing start (good x))
      (Failing fun e => Standing start (bad e)) :=
  tryOnMachine_tries ((onMachine_standing h).mono (fun _ hs => hs) fun r _ hs => by
    cases r <;> exact ⟨hs.config, hs.tools, hs.machine⟩)

theorem tryOnMachine_standing {trial : Slideshow.Trial α} {good : α → Machine → Prop}
    {Q : Machine → Prop} (h : Tries P trial good fun _ => Q) :
    Tries (Standing start P) (tryOnMachine trial) (fun x => Standing start (good x)) fun _ =>
      Standing start Q :=
  (tryOnMachine_failing h).bad_mono fun _ _ hs => hs.always

/-- What does not depend on the machine can be assumed. -/
theorem assume_standing {p : Prop} {trial : Trial α} {good : α → Service → Prop}
    {bad : Halt → Service → Prop} (h : p → Tries (Standing start P) trial good bad) :
    Tries (Standing start fun m => p ∧ P m) trial good bad :=
  fun s hs => h hs.machine.1 s ⟨hs.config, hs.tools, hs.machine.2⟩

theorem broadcast_standing (e : Event) :
    Ensures (Standing start P) (broadcast e) fun _ => Standing start P :=
  fun _ hs => ⟨hs.config, hs.tools, hs.machine⟩

theorem updateJob_standing (id : JobId) (change : RenderJob → RenderJob) :
    Ensures (Standing start P) (updateJob id change) fun _ => Standing start P :=
  fun _ hs => ⟨hs.config, hs.tools, hs.machine⟩

theorem relay_standing (id : JobId) (e : EncodeEvent) :
    Ensures (Standing start P) (relay id e) fun _ => Standing start P := by
  cases e with
  | started line => exact broadcast_standing _
  | progress fraction => exact .bind (updateJob_standing id _) fun _ => broadcast_standing _
  | succeeded output => exact .pure _ fun _ hs => hs
  | failed message => exact .pure _ fun _ hs => hs

theorem relays_standing (id : JobId) (events : List EncodeEvent) :
    Ensures (Standing start P) (events.forM (relay id)) fun _ => Standing start P := by
  induction events with
  | nil => exact .pure _ fun _ hs => hs
  | cons e events ih => exact .bind (relay_standing id e) fun _ => ih

end

/-! ## The parts of the work -/

theorem merger_confined (s : Service) : s.merger.Confined :=
  ⟨Transcoder.ofTools_confined _ _, Probe.ofTools_confined _ _ _⟩

/-- The work on a narration is to measure its only part, or to join its parts in the workspace. -/
theorem narration_tries {start : Service} {pre P Q : Machine → Prop} (id : JobId)
    {parts : List String} {w : Workspace} (hsingle : ∀ part, parts = [part] → Ensures pre
      (start.probe.estimate start.config.duration true part start.config.duration.fallbackSeconds)
          fun told m =>
        match told with
        | none => Q m
        | some _ => P m)
    (hmerge : (∀ part, parts ≠ [part]) →
      Tries pre (start.merger.merge parts (w.file "narration.wav")) (fun _ => P) fun _ => Q) :
    Tries (Standing start pre) (narration id parts w) (fun _ => Standing start P) fun _ =>
      Standing start Q := by
  unfold narration
  refine .get_bind fun s₀ hs₀ => ?_
  rw [hs₀.merger, hs₀.probe, hs₀.config]
  split
  · refine .bind (.lift (onMachine_standing (hsingle _ rfl))) fun told => ?_
    cases told with
    | none => exact .throw _ fun _ hs => hs
    | some e => exact .pure _ fun _ hs => hs
  · next hparts =>
    exact .bind (tryOnMachine_standing (hmerge fun part => hparts part)) fun merged =>
      .pure _ fun _ hs => hs

section
variable {start : Service} {here : Location} {c : Circumstances} {I : FileTree → Prop}
  {written made removed : Location → Prop} (hI : Kept here written made removed I)
include hI

/-- **The work on the narration** touches nothing but its parts and workspaces. -/
theorem narration_standing (id : JobId) {parts : List String} {w : Workspace} {pre : Machine → Prop}
    (hparts : ∀ p ∈ parts, written (place here p))
    (hmerged : written (place here (w.file "narration.wav")))
    (hroom : Room here c start.config.storage.workDir "concat-" written made removed)
    (hroot : ∀ p, Upward start.config.storage.workDir p → made (place here p))
    (hpre : ∀ m, pre m → m.Holds here c I)
    (hparent : Tries pre (Merger.makeParent (w.file "narration.wav") "create")
      (fun _ => Holds here c I) fun _ => Holds here c I) :
    Tries (Standing start pre) (narration id parts w) (fun _ => Standing start (Holds here c I))
      fun _ => Standing start (Holds here c I) := by
  refine narration_tries id (fun part hpart => ?_) fun _ =>
    Merger.merge_keeps hI start.merger_confined hroom hparent hpre hmerged hroot parts
  have hwritten : written (place here part) := hparts part (hpart ▸ List.mem_cons_self)
  exact (Probe.estimate_holds hI start.merger_confined.probe _ true _ hwritten).mono hpre
      fun told _ hm => by
    cases told <;> exact hm

omit hI in
theorem outputSize_holds (output : String) :
    Ensures (Holds here c I) (Encoder.outputSize output) fun _ => Holds here c I :=
  .bind (metadata_holds output) fun info => by
    split
    · exact .pure _ fun _ hm => hm
    · split <;> exact .pure _ fun _ hm => hm

/-- The encoder writes nothing but the video. -/
theorem encoder_holds (e : Encoder) {r : EncodeRequest} (h : written (place here r.output)) :
    Ensures (Holds here c I) (e.encode r) fun _ => Holds here c I := by
  have hlast : (r.arguments e.settings).getLast? = some r.output := List.getLast?_concat
  unfold Encoder.encode
  split
  · exact .pure _ fun _ hm => hm
  · next tool _ =>
    refine .bind (Command.follow_holds hI true ?_) fun ⟨said, outcome⟩ => ?_
    · intro path hpath _
      rw [show (e.command tool.path r).arguments = r.arguments e.settings from rfl, hlast] at hpath
      cases hpath
      exact h
    · dsimp only
      split
      · exact .pure _ fun _ hm => hm
      · refine .bind (outputSize_holds r.output) fun size => ?_
        split <;> exact .pure _ fun _ hm => hm

/-- **Encoding touches nothing but the video**, also when it fails and the video is removed. -/
theorem encode_standing (id : JobId) {r : EncodeRequest} (h : written (place here r.output))
    (hremoved : ∀ {t u}, I t → t.removeFile here r.output = .ok u → I u) :
    Keeps (Standing start (Holds here c I)) (encode id r) := by
  unfold encode
  refine Ensures.get_bind fun s₀ _ => ?_
  refine .bind (onMachine_standing (encoder_holds hI s₀.encoder h)) fun encoded => ?_
  refine .bind (relays_standing id encoded.events) fun _ => ?_
  split
  · exact .pure _ fun _ hs => hs
  · exact .bind (onMachine_standing (removeFile_holds r.output hremoved)) fun _ =>
      .pure _ fun _ hs => hs

theorem makeOutputDirectory_standing {output : OutputFile}
    (h : ∀ d, Path.parent? output.path = some d → ∀ p, Upward d p → made (place here p)) :
    Keeps (Standing start (Holds here c I)) (makeOutputDirectory output) := by
  unfold makeOutputDirectory
  split
  · next d hd =>
    exact tryOnMachine_standing (Action.orSystem_tries (makeDirectories_holds hI (h d hd)) _)
  · exact .pure _ fun _ hs => hs

end

/-! ## The work in a workspace -/

section
variable {start : Service} {c : Circumstances} {P Q pre : Machine → Prop}
  {good : RenderOutcome → Service → Prop} {bad : Halt → Service → Prop}

/-- What a job has made, when its parts are known. -/
def outcomeOf (id : JobId) (r : ValidatedRequest) (output : OutputFile) (n : Narration)
    (durations : List Float) (processingMs : Nat) : RenderOutcome :=
  ⟨id, output, r.effects, durations, n.seconds, n.source, processingMs⟩

/-- **The work on a job is that of its narration, its directory, its encoding and its entry**: the
rest leaves the machine alone but for its clock. -/
theorem produce_tries {id : JobId} {r : ValidatedRequest} {output : OutputFile} {w : Workspace}
    (hQ : Timeless Q) (hc : ∀ m, Q m → m.circumstances = c)
    (hnarration : Tries (Standing start pre) (narration id r.audio w)
      (fun _ => Standing start P) bad)
    (hbad : ∀ e s, Standing start P s → bad e s)
    (hdirectory : Tries (Standing start P) (makeOutputDirectory output)
      (fun _ => Standing start P) bad)
    (hencode : ∀ request, request.output = output.path →
      Tries (Standing start P) (encode id request) (fun _ => Standing start Q) bad)
    (happend : ∀ n durations now later, Tries (Standing start Q)
      (tryOnMachine (start.ledger.append
        (entryFor start.config id r output n durations (c.time later) (c.elapsed now))))
      (fun _ => good (outcomeOf id r output n durations (c.elapsed now))) bad) :
    Tries (Standing start pre) (produce id r output w) good bad := by
  have helapsed : Ensures Q elapsed fun ms m => (∃ now, ms = c.elapsed now) ∧ Q m := fun m hm =>
    ⟨⟨m.clock + 1, by rw [← hc m hm]; rfl⟩, hQ.tick m hm⟩
  have hnow : Ensures Q now fun time m => (∃ later, time = c.time later) ∧ Q m := fun m hm =>
    ⟨⟨m.clock + 1, by rw [← hc m hm]; rfl⟩, hQ.tick m hm⟩
  unfold produce
  refine hnarration.bind fun n => ?_
  refine .bind (.ofExcept (fun _ _ _ hs => hs) fun e _ => hbad e) fun durations => ?_
  refine .bind (.lift (updateJob_standing id _)) fun _ => ?_
  refine .get_bind fun s₀ hs₀ => ?_
  refine .bind (.ofExcept (fun _ _ _ hs => hs) fun e _ => hbad e) fun graph => ?_
  refine hdirectory.bind fun _ => ?_
  refine (hencode _ rfl).bind fun _ => ?_
  refine .bind (.lift (onMachine_standing helapsed)) fun ms => assume_standing ?_
  rintro ⟨now, rfl⟩
  refine .bind (.lift (onMachine_standing hnow)) fun recorded => assume_standing ?_
  rintro ⟨later, rfl⟩
  refine .get_bind fun s₁ hs₁ => ?_
  have hledger : s₁.ledger = start.ledger :=
    congrArg (fun k : Config => (⟨k.storage.ledgerPath⟩ : Ledger)) hs₁.config
  rw [hledger, hs₀.config]
  exact (happend n durations now later).bind fun _ => .pure _ fun _ hs => hs

/-- A job that starts has its workspace. -/
theorem run_tries {id : JobId} {r : ValidatedRequest} {output : OutputFile}
    {room : Workspace → Machine → Prop} (hP : Timeless P)
    (hbad : ∀ e s, Standing start P s → bad e s)
    (hcreate : Tries P (Workspace.create start.config.storage.workDir ("job-" ++ id.short ++ "-"))
      room
      fun _ => P)
    (hwork : ∀ w, Tries (Standing start (room w))
      (closingAfter w (produce id r output w)) good bad) :
    Tries (Standing start P) (run id r output) good bad := by
  unfold run
  refine .bind (.lift (onToken_standing hP)) fun cancelled => ?_
  dsimp only
  split
  · exact .throw_bind _ fun s hs => hbad _ s hs
  · refine .bind (.lift (onClock_standing hP fun _ => rfl)) fun now => ?_
    refine .bind (.lift (updateJob_standing id _)) fun _ => ?_
    refine .get_bind fun s₀ hs₀ => ?_
    rw [hs₀.config]
    exact .bind ((tryOnMachine_standing hcreate).bad_mono hbad) fun w => hwork w

/-- Ending a job leaves the machine alone but for its clock. -/
theorem conclude_standing (hP : Timeless P) (id : JobId) (result : Except Halt RenderOutcome) :
    Ensures (Standing start P) (conclude id result) fun _ => Standing start P := by
  match result with
  | .ok _ | .error (.failed _) =>
    exact .bind (onClock_standing hP fun _ => rfl) fun now =>
      .bind (updateJob_standing id _) fun _ => broadcast_standing _
  | .error (.panicked _) => exact .pure _ fun _ hs => hs

/-- **A request that is valid ends as the work on its job does.** -/
theorem render_tries (s : Service) (request : RenderRequest) {r : ValidatedRequest}
    (h : s.accepts? request = .ok r) (hs : P s.machine) (hP : Timeless P)
    (hrun : Tries (Standing s P) (run s.nextJob r s.nextOutput) good bad)
    (hgood : ∀ outcome, Ensures (good outcome) (conclude s.nextJob (.ok outcome)) fun _ =>
      good outcome)
    (hbad : ∀ e, Ensures (bad e) (conclude s.nextJob (.error e)) fun _ => bad e) :
    Either good bad (render request s).1 (render request s).2 := by
  refine render_ends s request h ⟨rfl, rfl, hP.tick _ (hP.tick _ hs)⟩ hrun fun result => ?_
  cases result with
  | ok outcome => exact hgood outcome
  | error e => exact hbad e

end

end Slideshow.Service
