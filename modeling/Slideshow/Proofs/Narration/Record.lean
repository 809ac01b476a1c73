import Slideshow.Narration.Merge
import Slideshow.Proofs.Narration.Estimate

/-!
# A record of a merge

A merge asks its transcoder and its probe, which may do anything to the machine. To say what it
asks, and when, the same text is run on a logbook, in which every request is entered with the
machine before and after it.

* `Request` is what a merge asks; `Exchange` is an entry about it, `Logbook` a machine with the
  entries so far.
* `Recorded.ask`, `token`, `noticed`, `own`, `silently`: the only ways in which the text touches the
  machine.
* `Recorded.merge` is the text of `Merger.merge`, and `Merger.record` what it gives from an empty
  logbook on.

Headlines:
* `estimate_ensures`: measuring looks at the token first, goes by what was seen of it while a
  request was answered, and looks again when it has read a size.
* **`merge_eq_record`**: a merge does what its record says. `record_ends`: how it can end.
-/

namespace Slideshow.Merger

/-! ## Logbooks -/

/-- What a merge asks of its transcoder and its probe. -/
inductive Request where
  | normalize (input output : String) (format : CanonicalAudio)
  | concat (list output codec : String)
  | duration (path : String)
  | scan (path : String)

namespace Request

/-- What a request is answered with. -/
@[reducible]
def Answer : Request → Type
  | normalize .. | concat .. => Unit
  | duration _ | scan _ => Float

/-- Whether a request is a pass of the transcoder. -/
def isPass : Request → Bool
  | normalize .. | concat .. => true
  | duration _ | scan _ => false

end Request

/-- The transcoder answers passes, and the probe what is asked about a length. -/
def serve (g : Merger) : (r : Request) → Trial r.Answer
  | .normalize input output format => g.transcoder.normalize input output format
  | .concat list output codec => g.transcoder.concat list output codec
  | .duration path => g.probe.duration path
  | .scan path => g.probe.scan path

/-- A request that was made: how it failed, if it did, and the machine before and after it. -/
structure Exchange where
  request : Request
  before : Machine
  failure : Option Error
  after : Machine

/-- A machine, and what a merge has done on it. -/
structure Logbook where
  machine : Machine
  exchanges : List Exchange := []
  /-- Whether the token was found to have fired. -/
  alarmed : Bool := false
  /-- Whether a step of the merge's own was refused. -/
  refused : Bool := false

/-- The passes of the transcoder. -/
def Logbook.passes (b : Logbook) : List Exchange := b.exchanges.filter (·.request.isPass)

/-- Something done on a machine with a logbook. -/
abbrev Recorded (α : Type) := StateM Logbook α

/-- Something tried on a machine with a logbook. -/
abbrev RecordedTrial (α : Type) := ExceptT Error (StateM Logbook) α

/-! ## The text of a merge -/

namespace Recorded

variable {α β : Type}

/-- Does something that is not entered. -/
def silently (action : Action α) : Recorded α :=
  fun b => ((action b.machine).1, { b with machine := (action b.machine).2 })

/-- A step of the merge's own. -/
def own (action : Action (Except OsError α)) (context : String) : RecordedTrial α :=
  ExceptT.mk fun b =>
  ((action b.machine).1.mapError fun e => .system context e.message,
    { b with machine := (action b.machine).2, refused := b.refused || !(action b.machine).1.isOk })

/-- Looks whether the token has fired. -/
def token : Recorded Bool := fun b =>
  ((Machine.isCancelled b.machine).1,
    { b with machine := (Machine.isCancelled b.machine).2, alarmed :=
      b.alarmed || (Machine.isCancelled b.machine).1 })

/-- Whether the token was found to have fired while an answer was waited for. -/
def noticed : Recorded Bool := fun b =>
  (b.machine.noticed, { b with alarmed := b.alarmed || b.machine.noticed })

/-- The error of something that failed. -/
def failure? : Except Error α → Option Error
  | .ok _ => none
  | .error e => some e

/-- The entry about a request that is made on a machine. -/
def entry (g : Merger) (r : Request) (m : Machine) : Exchange :=
  ⟨r, m, failure? ((g.serve r).run m).1, ((g.serve r).run m).2⟩

/-- Makes a request. -/
def ask (g : Merger) (r : Request) : RecordedTrial r.Answer := ExceptT.mk fun b =>
  (((g.serve r).run b.machine).1,
    { b with machine := ((g.serve r).run b.machine).2, exchanges :=
      b.exchanges ++ [entry g r b.machine] })

def unlessCancelled (stage : String) : RecordedTrial Unit := do
  if ← (token : Recorded Bool) then throw (cancelled stage)

def convert (g : Merger) (w : Workspace) (i : Nat) : List String → RecordedTrial (List String)
  | [] => return []
  | path :: rest => do
    unlessCancelled "converting narration parts"
    ask g (.normalize path (w.file (partName i)) g.format)
    return partName i :: (← convert g w (i + 1) rest)

def join (g : Merger) (parts : List String) (output : String) (w : Workspace) :
    RecordedTrial Unit := do
  let names ← convert g w 0 parts
  let list := w.file manifestName
  own (Machine.write list (.ofText (manifest names))) ("write manifest " ++ list)
  unlessCancelled "joining narration parts"
  ask g (.concat list output (outputCodec output))

def copySingle (part output : String) : RecordedTrial Unit := do
  if !(← (silently (Machine.isSameFile part output) : Recorded Bool)) then
    own (Machine.copy part output) ("copy " ++ part ++ " to " ++ output)

def makeParent (path context : String) : RecordedTrial Unit :=
  match Path.parent? path with
  | some parent =>
    if parent.isEmpty then pure ()
    else own (Machine.makeDirectories parent) (context ++ " " ++ parent)
  | none => pure ()

def checkParts (parts : List String) : RecordedTrial Unit :=
  ExceptT.mk (silently (Merger.checkParts parts).run)

def create (root opening : String) : RecordedTrial Workspace := do
  own (Machine.makeDirectories root) ("create work dir " ++ root)
  return ⟨← own (Machine.makeTemporaryDirectory root opening) ("create workspace in " ++ root)⟩

def closingAfter (w : Workspace) (trial : RecordedTrial α) : RecordedTrial α :=
  ExceptT.mk (do
    let result ← trial.run
    let _ ← silently w.close.run
    return result)

def produce (g : Merger) (parts : List String) (output : String) : RecordedTrial Unit := do
  checkParts parts
  makeParent output "create"
  match parts with
  | [part] => copySingle part output
  | _ =>
    let w ← create g.workRoot "concat-"
    closingAfter w (join g parts output w)

def estimate (g : Merger) (path : String) : Recorded (Option DurationEstimate) := do
  if ← token then return none
  let told ← (ask g (.duration path)).run
  if ← noticed then return none
  match usable? told with
  | some seconds => return some ⟨seconds, .probe⟩
  | none =>
    let printed ← (ask g (.scan path)).run
    if ← noticed then return none
    match usable? printed with
    | some seconds => return some ⟨seconds, .diagnostic⟩
    | none =>
      let size ← silently (Probe.sizeOf path)
      if ← token then return none
      return some (unprobedEstimate size g.duration g.fallback)

def merge (g : Merger) (parts : List String) (output : String) : RecordedTrial Merged := do
  produce g parts output
  match ← (estimate g output : Recorded _) with
  | none => throw (cancelled "measuring merged narration")
  | some e => return ⟨output, e.seconds, parts.length, e.source⟩

end Recorded

/-- The result of a merge, and its logbook. -/
def record (g : Merger) (parts : List String) (output : String) (m : Machine) :
    Except Error Merged × Logbook :=
  (Recorded.merge g parts output).run { machine := m }

/-! ## What the record says -/

namespace Recorded

variable {α β : Type}

/-- What is recorded does to the machine what an action does. -/
def Mirrors (x : Recorded α) (action : Action α) : Prop :=
  ∀ b, action b.machine = ((x b).1, (x b).2.machine)

/-- The same of what can fail. -/
abbrev TrialMirrors (x : RecordedTrial α) (trial : Trial α) : Prop := Mirrors x.run trial.run

theorem mirrors_silently (action : Action α) : Mirrors (silently action) action := fun _ => rfl

theorem mirrors_token : Mirrors token Machine.isCancelled := fun _ => rfl

theorem mirrors_noticed : Mirrors noticed (Probe.wasStopped true) := fun b =>
  congrArg (·, b.machine) (Bool.true_and b.machine.noticed)

theorem mirrors_own (action : Action (Except OsError α)) (context : String) :
    TrialMirrors (own action context) (Action.orSystem action context) := fun _ => rfl

theorem mirrors_ask (g : Merger) (r : Request) : TrialMirrors (ask g r) (g.serve r) := fun _ => rfl

namespace Mirrors

theorem pure (x : α) : Mirrors (Pure.pure x) (Pure.pure x) := fun _ => rfl

theorem bind {x : Recorded α} {action : Action α} {f : α → Recorded β} {h : α → Action β}
    (hx : Mirrors x action) (hf : ∀ a, Mirrors (f a) (h a)) : Mirrors (x >>= f) (action >>= h) :=
  fun b => by
  show h (action b.machine).1 (action b.machine).2 = _
  rw [hx b]
  exact hf _ _

end Mirrors

namespace TrialMirrors

theorem pure (x : α) : TrialMirrors (Pure.pure x) (Pure.pure x) := fun _ => rfl

theorem throw (e : Error) : TrialMirrors (throw e : RecordedTrial α) (throw e) := fun _ => rfl

theorem bind {x : RecordedTrial α} {trial : Trial α} {f : α → RecordedTrial β} {h : α → Trial β}
    (hx : TrialMirrors x trial) (hf : ∀ a, TrialMirrors (f a) (h a)) :
    TrialMirrors (x >>= f) (trial >>= h) :=
  Mirrors.bind (f := ExceptT.bindCont f) (h := ExceptT.bindCont h) hx fun r => by
    cases r with
    | ok a => exact hf a
    | error e => exact .pure _

theorem lift {x : Recorded α} {action : Action α} (h : Mirrors x action) :
    TrialMirrors (liftM x : RecordedTrial α) (liftM action : Trial α) :=
  Mirrors.bind h fun _ => .pure _

end TrialMirrors

theorem unlessCancelled_mirrors (stage : String) :
    TrialMirrors (unlessCancelled stage) (Merger.unlessCancelled stage) := by
  refine .bind (.lift mirrors_token) fun fired => ?_
  cases fired with
  | true => exact .throw _
  | false => exact .pure _

section
variable (g : Merger)

theorem convert_mirrors (w : Workspace) (parts : List String) :
    ∀ i, TrialMirrors (convert g w i parts) (g.convert w i parts) := by
  induction parts with
  | nil => exact fun _ => .pure _
  | cons part rest ih =>
    exact fun i => .bind (unlessCancelled_mirrors _) fun _ => .bind (mirrors_ask g _) fun _ =>
      .bind (ih (i + 1)) fun _ => .pure _

theorem join_mirrors (parts : List String) (output : String) (w : Workspace) :
    TrialMirrors (join g parts output w) (g.join parts output w) :=
  .bind (convert_mirrors g w parts 0) fun _ => .bind (mirrors_own _ _) fun _ =>
    .bind (unlessCancelled_mirrors _) fun _ =>
    mirrors_ask g _

theorem copySingle_mirrors (part output : String) :
    TrialMirrors (copySingle part output) (Merger.copySingle part output) := by
  refine .bind (.lift (mirrors_silently _)) fun same => ?_
  cases same with
  | true => exact .pure _
  | false => exact mirrors_own _ _

theorem makeParent_mirrors (path context : String) :
    TrialMirrors (makeParent path context) (Merger.makeParent path context) := by
  unfold makeParent Merger.makeParent
  cases Path.parent? path with
  | none => exact .pure _
  | some parent =>
    dsimp only
    split
    · exact .pure _
    · exact mirrors_own _ _

theorem create_mirrors (root opening : String) :
    TrialMirrors (create root opening) (Workspace.create root opening) :=
  .bind (mirrors_own _ _) fun _ => .bind (mirrors_own _ _) fun _ => .pure _

theorem closingAfter_mirrors (w : Workspace) {x : RecordedTrial α} {trial : Trial α}
    (h : TrialMirrors x trial) :
    TrialMirrors (closingAfter w x) (w.closingAfter trial) :=
  Mirrors.bind h fun _ => .bind (mirrors_silently _) fun _ => .pure _

theorem produce_mirrors (parts : List String) (output : String) :
    TrialMirrors (produce g parts output) (g.produce parts output) := by
  refine .bind (mirrors_silently _) fun _ => .bind (makeParent_mirrors _ _) fun _ => ?_
  have hjoin (parts : List String) : TrialMirrors
      (create g.workRoot "concat-" >>= fun w => closingAfter w (join g parts output w))
      (Workspace.create g.workRoot "concat-" >>= fun w => w.closingAfter (g.join parts output w)) :=
    .bind (create_mirrors _ _) fun w => closingAfter_mirrors w (join_mirrors g parts output w)
  match parts with
  | [part] => exact copySingle_mirrors _ _
  | [] => exact hjoin _
  | _ :: _ :: _ => exact hjoin _

theorem estimate_mirrors (path : String) :
    Mirrors (estimate g path) (g.probe.estimate g.duration true path g.fallback) := by
  refine .bind mirrors_token fun fired => ?_
  cases fired with
  | true => exact .pure _
  | false =>
    refine .bind (mirrors_ask g (.duration path)) fun told => .bind mirrors_noticed fun stopped =>
      ?_
    cases stopped with
    | true => exact .pure _
    | false =>
      cases usable? told with
      | some seconds => exact .pure _
      | none =>
        refine .bind (mirrors_ask g (.scan path)) fun printed =>
          .bind mirrors_noticed fun stopped => ?_
        cases stopped with
        | true => exact .pure _
        | false =>
          cases usable? printed with
          | some seconds => exact .pure _
          | none =>
            refine .bind (mirrors_silently _) fun _ => .bind mirrors_token fun fired => ?_
            cases fired with
            | true => exact .pure _
            | false => exact .pure _

theorem merge_mirrors (parts : List String) (output : String) :
    TrialMirrors (merge g parts output) (g.merge parts output) := by
  refine .bind (produce_mirrors g parts output) fun _ =>
    .bind (.lift (estimate_mirrors g output)) fun told => ?_
  cases told with
  | none => exact .throw _
  | some e => exact .pure _

end

end Recorded

/-! ## Looking at the token -/

/-- The work stops if the token has fired, and what was seen is entered. -/
theorem Recorded.unlessCancelled_run (stage : String) (b : Logbook) :
    (Recorded.unlessCancelled stage).run b =
      (if b.machine.await.noticed then .error (cancelled stage) else .ok (),
        { b with machine := b.machine.await, alarmed :=
            b.alarmed || b.machine.await.noticed }) := by
  show ((if b.machine.await.noticed = true then throw (cancelled stage) else pure () :
    RecordedTrial Unit)).run _ = _
  split <;> rfl

/-! ## Measuring -/

/-- Looking at the size of a file changes nothing. -/
theorem silently_sizeOf (path : String) (b : Logbook) :
    (Recorded.silently (Probe.sizeOf path) b).2 = b := by
  show { b with machine := (Probe.sizeOf path b.machine).2 } = b
  rw [Probe.sizeOf_run]

/-- **Measuring looks at the token** first, goes by what was seen of it while a request was
answered, and looks again when it has read a size. What is kept by looking, and by requests to the
probe when the token was not found to have fired, is kept; `J` is what holds when a request was
answered. `A` holds if there is no answer, and `C` if there is one. -/
theorem estimate_ensures {g : Merger} {I J A C : Logbook → Prop}
    (htoken : Ensures I Recorded.token fun fired b => I b ∧ if fired then A b else C b)
    (hask : ∀ r : Request, r.isPass = false →
      Ensures (fun b => I b ∧ C b) (Recorded.ask g r).run fun _ => J)
    (hnoticed : Ensures J Recorded.noticed fun stopped b => I b ∧ if stopped then A b else C b)
    (path : String) :
    Ensures I (Recorded.estimate g path) fun told b => I b ∧ if told.isNone then A b else C b := by
  have hstop : Ensures (fun b => I b ∧ A b)
      (pure none : Recorded (Option DurationEstimate)) fun told b =>
      I b ∧ if told.isNone then A b else C b := .pure _ fun _ hb => hb
  have hanswer (e : DurationEstimate) :
      Ensures (fun b => I b ∧ C b)
          (pure (some e) : Recorded (Option DurationEstimate)) fun told b =>
        I b ∧ if told.isNone then A b else C b := .pure _ fun _ hb => hb
  unfold Recorded.estimate
  refine htoken.bind fun fired => ?_
  cases fired with
  | true => exact hstop
  | false =>
    refine Ensures.bind (hask (.duration path) rfl) fun told => hnoticed.bind fun stopped => ?_
    cases stopped with
    | true => exact hstop
    | false =>
      cases usable? told with
      | some seconds => exact hanswer _
      | none =>
        refine Ensures.bind (hask (.scan path) rfl) fun printed => hnoticed.bind fun stopped => ?_
        cases stopped with
        | true => exact hstop
        | false =>
          cases usable? printed with
          | some seconds => exact hanswer _
          | none =>
            have hsize : Ensures (fun b => I b ∧ C b)
                (Recorded.silently (Probe.sizeOf path)) fun _ => I :=
              fun b hb => (silently_sizeOf path b).symm ▸ hb.1
            refine hsize.bind fun _ => htoken.bind fun fired => ?_
            cases fired with
            | true => exact hstop
            | false => exact hanswer _

/-! ## The whole merge -/

/-- **A merge does what its record says.** -/
theorem merge_eq_record (g : Merger) (parts : List String) (output : String) (m : Machine) :
    (g.merge parts output).run m =
        ((g.record parts output m).1, (g.record parts output m).2.machine) :=
  Recorded.merge_mirrors g parts output { machine := m }

/-- How a merge can end. -/
inductive Ends (g : Merger) (parts : List String) (output : String) (m : Machine) :
    Except Error Merged → Logbook → Prop
  | unmade {e : Error} {b : Logbook}
  (h : (Recorded.produce g parts output).run { machine := m } = (.error e, b)) :
      Ends g parts output m (.error e) b
  | unmeasured {b b' : Logbook}
  (h : (Recorded.produce g parts output).run { machine := m } = (.ok (), b))
  (hestimate : Recorded.estimate g output b = (none, b')) :
      Ends g parts output m (.error (cancelled "measuring merged narration")) b'
  | measured {b b' : Logbook} {e : DurationEstimate}
  (h : (Recorded.produce g parts output).run { machine := m } = (.ok (), b))
  (hestimate : Recorded.estimate g output b = (some e, b')) :
      Ends g parts output m (.ok ⟨output, e.seconds, parts.length, e.source⟩) b'

theorem record_ends (g : Merger) (parts : List String) (output : String) (m : Machine) :
    Ends g parts output m (g.record parts output m).1 (g.record parts output m).2 := by
  unfold record Recorded.merge
  cases hproduce : (Recorded.produce g parts output).run { machine := m } with
  | mk result b =>
    cases result with
    | error e =>
      rw [run_bind_error hproduce]
      exact .unmade hproduce
    | ok _ =>
      rw [run_bind_ok hproduce]
      cases hestimate : Recorded.estimate g output b with
      | mk told b' =>
        have hlift : (liftM (Recorded.estimate g output) : RecordedTrial _).run b =
            (.ok told, b') := by
          show ((Except.ok (Recorded.estimate g output b).1, (Recorded.estimate g output b).2) :
            Except Error _ × Logbook) = _
          rw [hestimate]
        rw [run_bind_ok hlift]
        cases told with
        | none => exact .unmeasured hproduce hestimate
        | some e => exact .measured hproduce hestimate

end Slideshow.Merger
