import Slideshow.Proofs.Ledger.Replacement
import Slideshow.Proofs.Narration.Duration
import Slideshow.Proofs.Render.Cleanup

/-!
# What validation leaves to later

A request is validated before it becomes a job (`render`), and what is checked again while the job
is worked on was checked then: its files are still there, and a length that was measured can be
split. All but one thing: a part of a length can be rounded to nothing, and nothing is refused as
the length of a segment.

* `Acquits a`: whatever fails in `a`, it is not validation.
* `Supplied here parts t`: there are parts, and each is a file that is not empty.

Headlines:
* `supplied_kept`: directories that are made leave the parts where they are.
* `merge_acquits`, `encode_acquits`, `append_acquits`: one lemma for each part of the work.
* **`render_validates_first`**: a job fails in validation only when the parts of its narration's
  length vanish.
-/

namespace Slideshow

open FileTree Machine

/-- Work is not stopped by validation. -/
def Halt.Acquitted (h : Halt) : Prop := ∀ e, h = .failed e → e.kind ≠ .validation

theorem Halt.acquitted_failed {e : Error} (h : e.kind ≠ .validation) :
    (Halt.failed e).Acquitted := by
  rintro _ ⟨⟩
  exact h

/-- A result is none of validation's errors. -/
def Acquitted {α : Type} (x : Except Error α) : Prop := ∀ e, x = .error e → e.kind ≠ .validation

/-- Whatever fails, it is not validation. -/
def Acquits {σ α : Type} (a : ExceptT Error (StateM σ) α) : Prop :=
  Tries (fun _ => True) a (fun _ _ => True) fun e _ => e.kind ≠ .validation

section
variable {σ α β : Type} {a : ExceptT Error (StateM σ) α} {e : Error}

theorem acquitted_error (h : e.kind ≠ .validation) : Acquitted (.error e : Except Error α) := by
  rintro _ ⟨⟩
  exact h

theorem acquitted_ok (x : α) : Acquitted (.ok x) := fun _ h => nomatch h

theorem Acquitted.map {x : Except Error α} (h : Acquitted x) (f : α → β) : Acquitted (x.map f) := by
  cases x with
  | ok x => exact acquitted_ok _
  | error e => exact acquitted_error (h e rfl)

namespace Acquits

theorem pure (x : α) : Acquits (Pure.pure x : ExceptT Error (StateM σ) α) := fun _ _ => trivial

theorem throw (h : e.kind ≠ .validation) :
    Acquits (MonadExcept.throw e : ExceptT Error (StateM σ) α) := fun _ _ => h

theorem lift (b : StateM σ α) : Acquits (liftM b : ExceptT Error (StateM σ) α) := fun _ _ => trivial

theorem bind {f : α → ExceptT Error (StateM σ) β} (ha : Acquits a) (hf : ∀ x, Acquits (f x)) :
    Acquits (a >>= f) :=
  Tries.bind ha hf

/-- An action whose result is an error or not. -/
theorem mk {b : StateM σ (Except Error α)} (h : Ensures (fun _ => True) b fun x _ => Acquitted x) :
    Acquits (ExceptT.mk b) := by
  refine Ensures.mono h (fun _ h => h) fun x _ hx => ?_
  cases x with
  | ok x => trivial
  | error e => exact hx e rfl

theorem run (h : Acquits a) : Ensures (fun _ => True) a.run fun x _ => Acquitted x :=
  Ensures.mono h (fun _ h => h) fun x _ hx => by
    cases x with
    | ok x => exact acquitted_ok x
    | error e => exact acquitted_error hx

theorem ofExcept {x : Except Error α} (h : Acquitted x) :
    Acquits (ExceptT.mk (Pure.pure x) : ExceptT Error (StateM σ) α) :=
  mk fun _ _ => h

end Acquits

end

/-! ## Steps and programs -/

theorem orSystem_acquits {α : Type} (action : Action (Except OsError α)) (context : String) :
    Acquits (Action.orSystem action context) :=
  .mk (.bind (.any action) fun r => .pure _ fun _ _ => by
    cases r with
    | ok x => exact acquitted_ok x
    | error e => exact acquitted_error ErrorKind.noConfusion)

namespace Command

variable {k : Command}

theorem checked_acquitted (o : ToolOutput) : Acquitted (k.checked o) := by
  unfold checked
  split
  · exact acquitted_ok _
  · exact acquitted_error ErrorKind.noConfusion

theorem followed_acquitted (r : Except OsError Outcome) : Acquitted (k.followed r) := by
  rcases r with _ | (run | _ | _)
  case ok.finished =>
    unfold followed
    dsimp only
    split
    · exact checked_acquitted _
    · exact acquitted_error ErrorKind.noConfusion
  all_goals exact acquitted_error ErrorKind.noConfusion

theorem follow_acquitted (watched : Bool) :
    Ensures (fun _ => True) (k.follow watched) fun x _ => Acquitted x.2 :=
  .bind (.any _) fun r => .pure _ fun _ _ => followed_acquitted r

end Command

theorem Registry.require_acquitted (tools : Registry) (name : String) :
    Acquitted (tools.require name) := by
  unfold require
  split
  · exact acquitted_ok _
  · exact acquitted_error ErrorKind.noConfusion

namespace Transcoder

theorem runToEnd_acquits (k : Command) : Acquits (runToEnd k) :=
  .mk ((Command.follow_acquitted true).bind fun _ => .pure _ fun _ h => h.map _)

theorem normalize_acquits (tools : Registry) (timeout : Nat) (input output : String)
    (format : CanonicalAudio) :
    Acquits ((ofTools tools timeout).normalize input output format) :=
  .bind (.ofExcept (tools.require_acquitted _)) fun _ => runToEnd_acquits _

theorem concat_acquits (tools : Registry) (timeout : Nat) (manifest output codec : String) :
    Acquits ((ofTools tools timeout).concat manifest output codec) :=
  .bind (.ofExcept (tools.require_acquitted _)) fun _ => runToEnd_acquits _

end Transcoder

/-! ## Workspaces and joining -/

theorem Workspace.create_acquits (root opening : String) : Acquits (create root opening) :=
  .bind (orSystem_acquits _ _) fun _ => .bind (orSystem_acquits _ _) fun _ => .pure _

theorem Workspace.closingAfter_acquits {α : Type} (w : Workspace) {trial : Trial α}
    (h : Acquits trial) :
    Acquits (w.closingAfter trial) :=
  .mk (h.run.bind fun _ => .bind (.fact _) fun _ => .pure _ fun _ hx => hx)

/-- There are parts, and each is a file that is not empty. -/
def Supplied (here : Location) (parts : List String) (t : FileTree) : Prop :=
  parts ≠ [] ∧ ∀ p ∈ parts, ∃ n, fileSize t here p = .ok n

/-- **Directories that are made leave the parts where they are.** -/
theorem supplied_kept (here : Location) (parts : List String) :
    Kept here (fun _ => False) (fun _ => True) (fun _ => False) (Supplied here parts) where
  write _ h := h.elim
  makeDirectory := by
    intro t u path ht _ hu
    obtain ⟨-, hnone, rfl⟩ := makeDirectory_eq_ok hu
    refine ⟨ht.1, fun p hp => ?_⟩
    obtain ⟨n, hn⟩ := ht.2 p hp
    have hthere : t.find here p ≠ .error .missing := by
      intro hmissing
      rw [fileSize, FileTree.metadata, hmissing] at hn
      cases hn
    have hstays : ∀ k node, t.get? k = some node →
        (t.put (place here path) .directory).get? k = some node := by
      intro k node hk
      rw [get?_put_of_ne t (by rintro rfl; rw [hnone] at hk; cases hk), hk]
    refine ⟨n, ?_⟩
    rw [fileSize, FileTree.metadata, find_mono hstays hthere]
    exact hn
  erase _ h := h.elim

namespace Merger

/-- Parts that are there are not refused. -/
theorem checkParts_supplied {here : Location} {c : Circumstances} {parts : List String} :
    Tries (Holds here c (Supplied here parts)) (checkParts parts) (fun _ _ => True) fun e _ =>
      e.kind ≠ .validation := by
  intro m hm
  obtain ⟨hparts, hsize⟩ := hm.files
  have hfault : partsFault? m.files m.here parts = none := by
    rw [partsFault?, if_neg (by simpa using hparts), List.findSome?_eq_none_iff, hm.here]
    intro p hp
    obtain ⟨n, hn⟩ := hsize p hp
    rw [hn]
  show Either _ _ (checkParts parts m).1 _
  rw [checkParts, hfault]
  trivial

theorem unlessCancelled_acquits (stage : String) : Acquits (unlessCancelled stage) := by
  refine .bind (.lift isCancelled) fun stopped => ?_
  split
  · exact .throw ErrorKind.noConfusion
  · exact .pure _

theorem makeParent_acquits (path context : String) : Acquits (makeParent path context) := by
  unfold makeParent
  split
  · split
    · exact .pure _
    · exact orSystem_acquits _ _
  · exact .pure _

theorem copySingle_acquits (part output : String) : Acquits (copySingle part output) := by
  refine .bind (.lift _) fun same => ?_
  split
  · exact orSystem_acquits _ _
  · exact .pure _

section
variable {g : Merger} {tools : Registry} {timeout : Nat}
    (hg : g.transcoder = .ofTools tools timeout)
include hg

theorem convert_acquits (w : Workspace) (parts : List String) :
    ∀ i, Acquits (g.convert w i parts) := by
  induction parts with
  | nil => exact fun _ => .pure _
  | cons path rest ih =>
    intro i
    refine .bind (unlessCancelled_acquits _) fun _ => .bind ?_ fun _ => .bind (ih (i + 1)) fun _ =>
      .pure _
    rw [hg]
    exact Transcoder.normalize_acquits _ _ _ _ _

theorem join_acquits (parts : List String) (output : String) (w : Workspace) :
    Acquits (g.join parts output w) := by
  refine .bind (convert_acquits hg w parts 0) fun names => .bind (orSystem_acquits _ _) fun _ => ?_
  refine .bind (unlessCancelled_acquits _) fun _ => ?_
  rw [hg]
  exact Transcoder.concat_acquits _ _ _ _ _

/-- **Parts that are there are joined, and the result has a positive length**, or something fails
that is not validation. -/
theorem merge_acquits {here : Location} {c : Circumstances} {parts : List String} (output : String)
    (hrate : g.duration.referenceBitrate < 2 ^ 64) :
    Tries (Holds here c (Supplied here parts)) (g.merge parts output)
      (fun merged _ => Scalar.isPositive merged.seconds = true) fun e _ =>
        e.kind ≠ .validation := by
  have hproduce : Tries (Holds here c (Supplied here parts)) (g.produce parts output)
    (fun _ _ => True)
      fun e _ => e.kind ≠ .validation := by
    refine checkParts_supplied.bind fun _ => (makeParent_acquits output "create").bind fun _ => ?_
    split
    · exact copySingle_acquits _ _
    · exact .bind (Workspace.create_acquits _ _) fun w =>
        Workspace.closingAfter_acquits w (join_acquits hg _ _ _)
  refine hproduce.bind fun _ =>
    .bind (.lift (g.probe.estimate_isPositive hrate true output g.fallback)) fun told => ?_
  split
  · exact .throw _ fun _ _ => ErrorKind.noConfusion
  · next e => exact .pure _ fun _ hpositive => hpositive e rfl

end

end Merger

/-! ## Encoding and the ledger -/

namespace Encoder

theorem ofToolError_acquitted {e : Error} (h : e.kind ≠ .validation) :
    (ofToolError e).kind ≠ .validation := by
  cases e
  case tool => exact ErrorKind.noConfusion
  all_goals exact h

theorem outputSize_acquitted (output : String) :
    Ensures (fun _ => True) (outputSize output) fun x _ => Acquitted x := by
  refine .bind (.any _) fun info => ?_
  split
  · exact .pure _ fun _ _ => acquitted_error ErrorKind.noConfusion
  · split
    · exact .pure _ fun _ _ => acquitted_error ErrorKind.noConfusion
    · exact .pure _ fun _ _ => acquitted_ok _

theorem encode_acquitted (e : Encoder) (r : EncodeRequest) :
    Ensures (fun _ => True) (e.encode r) fun encoded _ => Acquitted encoded.result := by
  unfold encode
  split
  · next missing hmissing =>
    exact .pure _ fun _ _ => acquitted_error (e.tools.require_acquitted _ missing hmissing)
  · refine (Command.follow_acquitted true).bind fun ⟨said, outcome⟩ => ?_
    dsimp only
    split
    · next _ failure =>
      refine .pure _ fun _ hfailure => acquitted_error ?_
      exact ofToolError_acquitted (hfailure failure rfl)
    · refine (outputSize_acquitted r.output).anywhere.bind fun size => ?_
      split
      · next failure => exact .pure _ fun _ hfailure => acquitted_error (hfailure failure rfl)
      · exact .pure _ fun _ _ => acquitted_ok _

end Encoder

namespace Ledger

theorem load_acquits (l : Ledger) : Acquits l.load :=
  .mk (.bind (.any _) fun c => .pure _ fun _ _ => by
    unfold loaded
    split
    · exact acquitted_ok _
    · exact acquitted_ok _
    · exact acquitted_error ErrorKind.noConfusion)

theorem serialized_acquitted (entries : List LedgerEntry) : Acquitted (serialized entries) := by
  unfold serialized
  split
  · exact acquitted_ok _
  · exact acquitted_error ErrorKind.noConfusion

theorem replace_acquits (l : Ledger) (c : Content) : Acquits (l.replace c) := by
  refine .bind (orSystem_acquits _ _) fun _ => .bind (orSystem_acquits _ _) fun temporary => ?_
  have hfill :=
    (orSystem_acquits (Machine.write temporary c) ("write ledger " ++ l.path)).bind fun _ =>
    (orSystem_acquits sync ("write ledger " ++ l.path)).bind fun _ =>
      orSystem_acquits (Machine.rename temporary l.path) ("write ledger " ++ l.path)
  refine .mk (hfill.run.bind fun stored => ?_)
  split
  · exact .pure _ fun _ _ => acquitted_ok _
  · next e => exact .bind (.fact _) fun _ => .pure _ fun _ he => acquitted_error (he e rfl)

theorem store_acquits (l : Ledger) (entries : List LedgerEntry) : Acquits (l.store entries) :=
  .bind (.ofExcept (serialized_acquitted entries)) fun _ => l.replace_acquits _

theorem append_acquits (l : Ledger) (entry : LedgerEntry) : Acquits (l.append entry) := by
  refine .bind l.load_acquits fun read => ?_
  split
  · exact l.store_acquits _
  · exact .bind (.lift _) fun _ => l.store_acquits _

end Ledger

namespace Service

/-- What is said of every machine is said of that of a service. -/
theorem onMachine_anywhere {α : Type} {action : Slideshow.Action α} {P : α → Prop}
    (h : Ensures (fun _ => True) action fun x _ => P x) {pre : Service → Prop} :
    Ensures pre (onMachine action) fun x _ => P x := fun s _ => h s.machine trivial

/-- Whatever stops the work, it is not validation. -/
def Excuses {α : Type} (trial : Trial α) : Prop :=
  Tries (fun _ => True) trial (fun _ _ => True) fun h _ => h.Acquitted

theorem Excuses.pure {α : Type} (x : α) : Excuses (Pure.pure x : Trial α) := fun _ _ => trivial

theorem Excuses.bind {α β : Type} {trial : Trial α} {f : α → Trial β} (h : Excuses trial)
    (hf : ∀ x, Excuses (f x)) : Excuses (trial >>= f) := Tries.bind h hf

theorem tryOnMachine_excuses {α : Type} {trial : Slideshow.Trial α} (h : Acquits trial) :
    Excuses (tryOnMachine trial) :=
  Ensures.bind (onMachine_anywhere h.run) fun r => .pure _ fun _ hr => by
    cases r with
    | ok a => trivial
    | error e => exact Halt.acquitted_failed (hr e rfl)

theorem makeOutputDirectory_excuses (output : OutputFile) :
    Excuses (makeOutputDirectory output) := by
  unfold makeOutputDirectory
  split
  · exact tryOnMachine_excuses (orSystem_acquits _ _)
  · exact .pure _

theorem encode_excuses (id : JobId) (r : EncodeRequest) : Excuses (encode id r) := by
  refine Ensures.get_bind fun s₀ _ => ?_
  refine .bind (onMachine_anywhere (s₀.encoder.encode_acquitted r)) fun encoded =>
    .bind (.fact _) fun _ => ?_
  split
  · exact .pure _ fun _ _ => trivial
  · next e he => exact .bind (.fact _) fun _ => .pure _ fun _ h => Halt.acquitted_failed (h e he)

/-! ## The work on a job -/

section
variable {start : Service} {id : JobId} {here : Location} {c : Circumstances}

/-- **A narration whose parts are there has a positive length**, or something fails that is not
validation. -/
theorem narration_excuses {parts : List String} (w : Workspace)
    (hrate : start.config.duration.referenceBitrate < 2 ^ 64) :
    Tries (Standing start (Holds here c (Supplied here parts))) (narration id parts w)
      (fun n _ => Scalar.isPositive n.seconds = true) fun h _ => h.Acquitted := by
  unfold narration
  refine .get_bind fun s₀ hs₀ => ?_
  rw [← hs₀.config] at hrate
  split
  · next part =>
    have hestimate :=
      s₀.probe.estimate_isPositive hrate true part s₀.config.duration.fallbackSeconds
    refine .bind (.lift (onMachine_anywhere hestimate)) fun told => ?_
    split
    · exact .throw _ fun _ _ => Halt.acquitted_failed ErrorKind.noConfusion
    · next e => exact .pure _ fun _ hpositive => hpositive e rfl
  · have hmerge : Tries _ (s₀.merger.merge parts (w.file "narration.wav")) _ _ :=
      @Merger.merge_acquits _ _ _ rfl here c _ (w.file "narration.wav") hrate
    have hmerged : Tries (Standing start (Holds here c (Supplied here parts)))
        (tryOnMachine (s₀.merger.merge parts (w.file "narration.wav")))
        (fun merged => Standing start fun _ => Scalar.isPositive merged.seconds = true) fun h _ =>
          h.Acquitted :=
      (tryOnMachine_failing hmerge).bad_mono fun _ _ ⟨_, hfailed, hs⟩ =>
        hfailed ▸ Halt.acquitted_failed hs.machine
    exact hmerged.bind fun merged => .pure _ fun _ hs => hs.machine

/-- The error of a job whose parts vanish. -/
def vanished : Error := .validation "segment duration must be positive, got 0"

/-- Only a job whose parts vanish fails in validation; they are in its record. -/
def Blames (start : Service) (id : JobId) (count : Nat) (P : List Event → RenderJob → Prop)
    (h : Halt) (s : Service) : Prop :=
  ∀ e, h = .failed e → e.kind = .validation →
    e = vanished ∧
      Going start id (fun told job => P told job ∧ job.segmentDurations = List.replicate count 0) s

theorem blames_of_acquitted {count : Nat} {P : List Event → RenderJob → Prop} {h : Halt}
    {s : Service} (hacquitted : h.Acquitted) : Blames start id count P h s := fun e he hkind =>
  absurd hkind (hacquitted e he)

theorem Excuses.blames {α : Type} {trial : Trial α} {pre : Service → Prop} {count : Nat}
    {P : List Event → RenderJob → Prop} (h : Excuses trial) :
    Tries pre trial (fun _ _ => True) (Blames start id count P) :=
  Tries.mono h (fun _ _ => trivial) (fun _ _ h => h) fun _ _ => blames_of_acquitted

/-- A job is in its course, and the parts of its narration are there. -/
def Provided (start : Service) (id : JobId) (here : Location) (c : Circumstances)
    (parts : List String) (P : List Event → RenderJob → Prop) (s : Service) : Prop :=
  Going start id P s ∧ Standing start (Holds here c (Supplied here parts)) s

/-- The lengths of the segments are recorded before anything is compiled. -/
theorem setTiming_recorded (path : String) (durations : List Float) :
    Ensures (Going start id (Running id)) (updateJob id (·.setTiming path durations)) fun _ =>
      Going start id fun told job => Running id told job ∧ job.segmentDurations = durations := by
  rintro s ⟨told, job, hcourse, hrunning⟩
  exact ⟨told, job.setTiming path durations,
    updateJob_course (·.setTiming path durations) (fun _ => rfl) hcourse.number s hcourse, hrunning,
      rfl⟩

theorem produce_blames {r : ValidatedRequest} (himages : r.images ≠ []) (output : OutputFile)
    (w : Workspace) (hrate : start.config.duration.referenceBitrate < 2 ^ 64) :
    Tries (Provided start id here c r.audio (Running id)) (produce id r output w) (fun _ _ => True)
      (Blames start id r.images.length (Ongoing id)) := by
  have hcount := List.length_pos_iff.mpr himages
  have hnarration : Tries (Provided start id here c r.audio (Running id)) (narration id r.audio w)
      (fun n s => Scalar.isPositive n.seconds = true ∧ Going start id (Running id) s)
      (Blames start id r.images.length (Ongoing id)) :=
    ((narration_apart going_apart r.audio w).and (narration_excuses w hrate)).mono (fun _ hs => hs)
      (fun _ _ hs => hs.symm) fun _ _ hs => blames_of_acquitted hs.2
  have hsplit : ∀ {seconds : Float}, Scalar.isPositive seconds = true →
      Tries (Going start id (Running id))
        (ExceptT.mk (Pure.pure ((segmentDurations seconds r.images.length).mapError Halt.failed)))
        (fun durations s =>
          durations = List.replicate r.images.length (seconds / Float.ofNat r.images.length) ∧
          Going start id (Running id) s) (Blames start id r.images.length (Ongoing id)) := by
    intro seconds hpositive
    rw [segmentDurations_of_isPositive hpositive hcount]
    exact .pure _ fun _ hs => ⟨rfl, hs⟩
  unfold produce
  refine hnarration.bind fun n => .assume fun hpositive => (hsplit hpositive).bind fun durations =>
    .assume ?_
  rintro rfl
  refine Tries.bind (.lift (setTiming_recorded n.path _)) fun _ => .get_bind fun s₀ _ => ?_
  have hcompile := compile_split himages hpositive (.ofConfig s₀.config) r.effects
  refine .bind (.ofExcept (fun _ _ _ _ => trivial) ?_) fun graph => Excuses.blames ?_
  · -- where the parts vanish they are refused, and they stand in the record
    rintro _ he s hs e rfl -
    obtain ⟨fault, hfault, rfl⟩ := Graph.compile_eq_failed_iff.mp he
    rcases hcompile with ⟨-, haccepted⟩ | ⟨hvanishes, hrefused⟩
    · rw [Graph.inputFault?_eq_none_iff.mpr haccepted] at hfault
      cases hfault
    · obtain ⟨told, job, hcourse, hrunning, hrecorded⟩ := hs
      refine ⟨Halt.failed.inj (Except.error.inj (he.symm.trans hrefused)), told, job, hcourse,
        hrunning.ongoing, ?_⟩
      rw [hrecorded, show n.seconds / Float.ofNat r.images.length = 0 from hvanishes]
  · refine .bind (makeOutputDirectory_excuses output) fun _ => .bind (encode_excuses id _) fun _ =>
      ?_
    refine Tries.bind (.lift (.any _)) fun _ => Tries.bind (.lift (.any _)) fun _ =>
      .get_bind fun _ _ => ?_
    exact .bind (tryOnMachine_excuses (Ledger.append_acquits _ _)) fun _ => Excuses.pure _

/-- A workspace leaves the parts where they are. -/
theorem createWorkspace_provided {parts : List String} {P : List Event → RenderJob → Prop}
    (root opening : String) :
    Tries (Provided start id here c parts P) (tryOnMachine (Workspace.create root opening))
      (fun _ => Provided start id here c parts P) fun h _ => h.Acquitted := by
  have hcreate : Keeps (Holds here c (Supplied here parts)) (Workspace.create root opening) :=
    (Workspace.create_holds (supplied_kept here parts) root opening (fun _ _ => trivial) fun _ _ =>
      trivial).mono
      (fun _ hm => hm) (fun _ _ hm => hm.2) fun _ _ hm => hm
  have hapart : Apart (Going start id P) := going_apart
  have hgoing := tryOnMachine_apart hapart (Workspace.create root opening)
  have hstanding : Keeps (Standing start (Holds here c (Supplied here parts)))
      (tryOnMachine (Workspace.create root opening)) := tryOnMachine_standing hcreate
  have hexcuses : Excuses (tryOnMachine (Workspace.create root opening)) :=
    tryOnMachine_excuses (Workspace.create_acquits root opening)
  exact ((hgoing.and hstanding).and hexcuses).mono (fun _ hs => ⟨hs, trivial⟩)
    (fun _ _ hs => hs.1) fun _ _ hs => hs.2

theorem run_blames {r : ValidatedRequest} (himages : r.images ≠ []) (output : OutputFile)
    (hrate : start.config.duration.referenceBitrate < 2 ^ 64) :
    Tries (Provided start id here c r.audio (Waiting id)) (run id r output) (fun _ _ => True)
      (Blames start id r.images.length (Ongoing id)) := by
  have hclose : ∀ (w : Workspace) e,
    Ensures (Blames start id r.images.length (Ongoing id) e) (onMachine w.close.run)
      fun _ => Blames start id r.images.length (Ongoing id) e := fun _ _ s hs e he hkind =>
    ⟨(hs e he hkind).1, going_apart _ _ (hs e he hkind).2⟩
  unfold run
  refine .bind (.lift ((onMachine_apart going_apart _).and (onToken_standing holds_timeless)))
    fun cancelled => ?_
  dsimp only
  split
  · exact .throw_bind _ fun _ _ => blames_of_acquitted (Halt.acquitted_failed ErrorKind.noConfusion)
  · refine .bind
      (.lift ((onMachine_apart going_apart _).and (onClock_standing holds_timeless fun _ => rfl)))
      fun now => ?_
    refine .bind (.lift ((start_running now).and (updateJob_standing id _))) fun _ =>
      .get_bind fun s₀ _ => ?_
    refine .bind ((createWorkspace_provided _ _).bad_mono fun _ _ => blames_of_acquitted) fun w =>
      ?_
    exact closingAfter_tries (produce_blames himages output w hrate) (fun _ => .any _) (hclose w)

/-- A job that fails keeps the lengths of its segments. -/
theorem conclude_blames {count : Nat} (e : Error) :
    Ensures (Blames start id count (Ongoing id) (.failed e))
    (conclude id (.error (.failed e))) fun _ =>
      Blames start id count (fun _ _ => True) (.failed e) := by
  have hnow : Ensures (Blames start id count (Ongoing id) (.failed e)) (onMachine now) fun _ =>
      Blames start id count (Ongoing id) (.failed e) :=
    fun s hs e' he hkind => ⟨(hs e' he hkind).1, going_apart _ _ (hs e' he hkind).2⟩
  refine hnow.bind fun now s hs => ?_
  rintro _ ⟨⟩ hkind
  obtain ⟨hvanished, told, job, hcourse, hongoing, hrecorded⟩ := hs e rfl hkind
  have hmove : job.fail e.message now =
      .ok { job with status := .failed, error := some e.message, completedAt := some now } := by
    simp [RenderJob.fail, hongoing.notTerminal]
  have hended := broadcast_course (.failed id e.kind e.message) (by rintro _ ⟨⟩) _
    (moveJob_course (fail_id e.message now) hmove hcourse.number s hcourse)
  exact ⟨hvanished, _, _, hended, trivial, hrecorded⟩

end

/-- What a request was checked for: there are images, and the parts of the narration are files that
are not empty. -/
theorem accepts_supplied {s : Service} {request : RenderRequest} {r : ValidatedRequest}
    (h : s.accepts? request = .ok r) :
    r.images ≠ [] ∧ Supplied s.machine.here r.audio s.machine.files := by
  obtain ⟨hcount, imageSizes, audioSizes, spec, -, hfiles, -, rfl⟩ :=
    RenderRequest.validate_eq_ok_iff.mp h
  obtain ⟨himages, -, haudio⟩ := (request.countFault?_eq_none_iff _).mp hcount
  refine ⟨himages, haudio, fun p hp => ?_⟩
  obtain ⟨size, hsize⟩ := forall_of_forall₂ hfiles p hp
  exact ⟨size, RenderRequest.fileSize_eq_ok_iff.mpr ⟨hsize.file, hsize.filled⟩⟩

/-- What holds of an error, when there is one. -/
theorem conclude_blames_error {start : Service} {id : JobId} {count : Nat}
    (result : Except Halt RenderOutcome) :
    Ensures (Either (fun _ _ => True) (Blames start id count (Ongoing id)) result)
    (conclude id result) fun _ s =>
      ∀ h, result = .error h → Blames start id count (fun _ _ => True) h s := by
  match result with
  | .ok outcome => exact fun _ _ h he => nomatch he
  | .error (.failed e) =>
    refine (conclude_blames e).mono (fun _ hs => hs) fun _ s hs h he => ?_
    rwa [← Except.error.inj he]
  | .error (.panicked reason) =>
    rintro s - _ ⟨⟩ e he
    cases he

/-- **A job fails in validation only when the parts of its narration's length vanish**: they stand
in its record as nothing. A positive length can always be split; its parts are compiled unless they
vanish, which they do when they are at most half of the least positive number. (A flare that is too
wide stops the compilation in another way.) -/
theorem render_validates_first (s : Service) (request : RenderRequest) {r : ValidatedRequest}
    (h : s.accepts? request = .ok r) (hrate : s.config.duration.referenceBitrate < 2 ^ 64) :
    (∀ reason, (render request s).1 = .error (.failed (.validation reason)) →
      reason = "segment duration must be positive, got 0" ∧
        ∃ job, (render request s).2.jobs.getLast? = some job ∧ job.id = s.nextJob ∧
          job.segmentDurations = List.replicate r.images.length 0) ∧
    ∀ seconds settings, Scalar.isPositive seconds = true →
      ∃ durations, segmentDurations seconds r.images.length = .ok durations ∧
        ((∃ graph, Graph.compile r.images durations settings r.effects = .ok graph) ∨
            Graph.compile r.images durations settings r.effects = .error .multiplied ∧
              Graph.TooWide settings r.effects ↔
          ¬Vanishes seconds r.images.length) ∧
        ∀ m e, Decimal.Parts.ofFloat seconds = .finite false m e → 0 < m →
          r.images.length < 2 ^ 53 →
          (Vanishes seconds r.images.length ↔
              Decimal.magnitude m e ≤ r.images.length * 2 ^ (-1075 : ℤ)) := by
  obtain ⟨himages, hsupplied⟩ := accepts_supplied h
  have hcount := List.length_pos_iff.mpr himages
  refine ⟨fun reason hreason => ?_, fun seconds settings hpositive => ?_⟩
  · have hprovided : Provided s s.nextJob s.machine.here s.machine.circumstances r.audio
      (Waiting s.nextJob)
        (s.admitted r) := ⟨s.admitted_waiting r, rfl, rfl, rfl, rfl, hsupplied⟩
    obtain ⟨hvanished, told, job, hcourse, -, hrecorded⟩ :=
      render_ends s request h hprovided
        (run_blames himages s.nextOutput hrate) conclude_blames_error _ hreason _
        rfl rfl
    obtain ⟨older, hjobs, -⟩ := hcourse.records
    refine ⟨Error.validation.inj hvanished, job, ?_, hcourse.named, hrecorded⟩
    rw [hjobs, List.getLast?_concat]
  · refine ⟨_, segmentDurations_of_isPositive hpositive hcount, ?_, fun m e hparts hm hexact =>
      vanishes_iff hparts hm hcount hexact⟩
    rcases compile_split himages hpositive settings
      r.effects with ⟨hnot, haccepted⟩ | ⟨hvanishes, hrefused⟩
    · exact iff_of_true ((Graph.compile_accepted haccepted).imp_left fun hgraph => ⟨_, hgraph⟩) hnot
    · refine iff_of_false ?_ fun hnot => hnot hvanishes
      rw [hrefused]
      rintro (⟨graph, hgraph⟩ | ⟨hpanic, -⟩)
      · cases hgraph
      · cases hpanic

/-- A request for two pictures with one recording. -/
def double : RenderRequest := { images := ["/a.png", "/a.png"], audio := ["/n.mp3"] }

/-- A service whose probe prints the least positive number. -/
def fleeting : Service := idle {} {
  small.machine with
  files := ⟨[(["a.png"], .file (.ofText "picture")), (["n.mp3"], .file (.ofText "sound")),
    (["bin"], .directory),
    (["bin", "ffprobe"], .program fun _ _ => { output := Text.encode "5e-324" }),
    (["bin", "ffmpeg"], .program fun _ _ => { written := some (.ofText "video") })]⟩ }

theorem fleeting_stopped : stopped? (render double fleeting).1 = some (.failed vanished) := by
  decide +kernel

/-- The parts of the least positive number vanish, and those of ten seconds are compiled. -/
theorem render_validates_first_fleeting : ∃ r, fleeting.accepts? double = .ok r ∧
    fleeting.config.duration.referenceBitrate < 2 ^ 64 ∧
    (render double fleeting).1 = .error (.failed vanished) ∧
    (∃ job, (render double fleeting).2.jobs.getLast? = some job ∧ job.id = fleeting.nextJob ∧
      job.segmentDurations = List.replicate r.images.length 0) ∧
    Scalar.isPositive (10 : Float) = true ∧
    ∃ durations, segmentDurations (10 : Float) r.images.length = .ok durations ∧
      ((∃ graph, Graph.compile r.images durations (.ofConfig fleeting.config) r.effects =
        .ok graph) ∨
          Graph.compile r.images durations (.ofConfig fleeting.config) r.effects =
            .error .multiplied ∧
            Graph.TooWide (.ofConfig fleeting.config) r.effects ↔
        ¬Vanishes (10 : Float) r.images.length) ∧
      ∀ m e, Decimal.Parts.ofFloat 10 = .finite false m e → 0 < m → r.images.length < 2 ^ 53 →
        (Vanishes (10 : Float) r.images.length ↔
            Decimal.magnitude m e ≤ r.images.length * 2 ^ (-1075 : ℤ)) := by
  have hfails := stopped?_eq_some fleeting_stopped
  have hpositive : Scalar.isPositive (10 : Float) = true := rfl
  have haccepts : ∃ r, fleeting.accepts? double = .ok r := ⟨_, rfl⟩
  obtain ⟨r, hr⟩ := haccepts
  obtain ⟨hlate, hsplits⟩ := render_validates_first fleeting double hr (by decide)
  exact ⟨r, hr, by decide, hfails, (hlate _ hfails).2, hpositive, hsplits 10 _ hpositive⟩

/-- **A job of a request that is valid can fail in validation.** -/
theorem late_validation :
    (fleeting.config.check matches .ok _) = true ∧ (fleeting.accepts? double matches .ok _) = true ∧
      (render double fleeting).1 =
        .error (.failed (.validation "segment duration must be positive, got 0")) ∧
      (render double fleeting).2.jobs.map (·.status) = [.failed] :=
  ⟨rfl, rfl, stopped?_eq_some fleeting_stopped, by decide +kernel⟩

end Service

end Slideshow
