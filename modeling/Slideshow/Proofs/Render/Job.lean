import Slideshow.Proofs.Order
import Slideshow.Proofs.Trial
import Slideshow.Render.Job

/-!
# What becomes of the record of a job

A record (`RenderJob`) is made for a job that waits. It is started, told how far it has come, and
ends once; every operation may be tried at any time, and one that is not allowed is refused.
Whatever is tried, and in whatever order, the fields of the record go together.

* `Operation` is what can be tried, `RenderJob.through` a record after some of it.
* `Operation.inPlace` is the same in place, one write after another, so that what was written before
  a refusal would stay.
* `JobStatus.Moves`: how a status can change; `Coherent`: how the fields go together; `Later`: what
  no operation takes back.

Headlines:
* `inPlace_run`: done in place, an operation that is refused has written nothing.
* `after_step`: what an operation can do; `Step.moves`, `Step.coherent`, `Step.later`: what each of
  them keeps to.
* **`record_disciplined`**: the same of every sequence of operations on a record that was just made.
-/

namespace Slideshow

/-- How a status can change. -/
inductive JobStatus.Moves : JobStatus → JobStatus → Prop
  | start : Moves .queued .running
  | succeed : Moves .running .succeeded
  | fail : Moves .running .failed
  /-- A job that waits is given up. -/
  | abandon : Moves .queued .failed

namespace RenderJob

/-- What can be tried with a record. -/
inductive Operation where
  | start (now : Timestamp)
  | setTiming (audio : String) (durations : List Float)
  | updateProgress (fraction : Float)
  | succeed (now : Timestamp)
  | fail (error : String) (now : Timestamp)

/-- The record that an operation gives, or why it is refused. -/
def perform (j : RenderJob) : Operation → Except Error RenderJob
  | .start now => j.start now
  | .setTiming audio durations => .ok (j.setTiming audio durations)
  | .updateProgress fraction => .ok (j.updateProgress fraction)
  | .succeed now => j.succeed now
  | .fail error now => j.fail error now

/-- The record after an operation was tried. -/
def after (j : RenderJob) (op : Operation) : RenderJob := (j.perform op).toOption.getD j

/-- The record after some operations were tried, one after another. -/
def through (j : RenderJob) (ops : List Operation) : RenderJob := ops.foldl after j

/-- A record that was just made. -/
def made (id : JobId) (images : List String) (effects : EffectSpec Float) (output : OutputFile) :
    RenderJob :=
  { id := id, images := images, effects := effects, output := output }

/-- One of some operations was a start, and was not refused. -/
def Started (j : RenderJob) (ops : List Operation) : Prop :=
  ∃ earlier now later started, ops = earlier ++ .start now :: later ∧
    (j.through earlier).start now = .ok started

/-! ## In place -/

/-- Work on a record in place. -/
abbrev Writing (α : Type) := ExceptT Error (StateM RenderJob) α

/-- Moves the status on, if it is the one that a move begins with. -/
def transition (source target : JobStatus) : Writing Unit := do
  let j ← get
  if j.status = source then modify fun j => { j with status := target }
  else throw (Misstep.transition j.id j.status target).error

/-- An operation in place, write by write. -/
def Operation.inPlace : Operation → Writing Unit
  | .start now => do
    transition .queued .running
    modify fun j => { j with startedAt := some now }
  | .setTiming audio durations => do
    modify fun j => { j with audio := some audio }
    modify fun j => { j with segmentDurations := durations }
  | .updateProgress fraction => do
    let j ← get
    if j.status = .running ∧ j.progress < fraction then
      modify fun j => { j with progress := Scalar.minimum fraction 1 }
  | .succeed now => do
    transition .running .succeeded
    modify fun j => { j with progress := 1 }
    modify fun j => { j with completedAt := some now }
  | .fail error now => do
    let j ← get
    if j.status.isTerminal then throw (Misstep.failure j.id j.status).error
    else
      modify fun j => { j with status := .failed }
      modify fun j => { j with error := some error }
      modify fun j => { j with completedAt := some now }

/-- A refusal and the record as it was, or the record that was made. -/
def settled (j : RenderJob) : Except Error RenderJob → Except Error Unit × RenderJob
  | .ok k => (.ok (), k)
  | .error e => (.error e, j)

theorem settled_eq_error {j k : RenderJob} {r : Except Error RenderJob} {e : Error}
    (h : j.settled r = (.error e, k)) :
    k = j ∧ r = .error e := by
  cases r with
  | ok _ => cases h
  | error _ =>
    cases h
    exact ⟨rfl, rfl⟩

theorem settled_eq_ok {j k : RenderJob} {r : Except Error RenderJob}
    (h : j.settled r = (.ok (), k)) : r = .ok k := by
  cases r with
  | ok _ =>
    cases h
    rfl
  | error _ => cases h

theorem transition_ok {source target : JobStatus} {j : RenderJob} (h : j.status = source) :
    (transition source target).run j = (.ok (), { j with status := target }) := by
  show ((if j.status = source then _ else _ : Writing Unit)).run j = _
  rw [if_pos h]
  rfl

theorem transition_error {source target : JobStatus} {j : RenderJob} (h : j.status ≠ source) :
    (transition source target).run j =
        (.error (Misstep.transition j.id j.status target).error, j) := by
  show ((if j.status = source then _ else _ : Writing Unit)).run j = _
  rw [if_neg h]
  rfl

/-- **Done in place, an operation gives the same record**, and one that is refused has written
nothing. -/
theorem inPlace_run (j : RenderJob) (op : Operation) :
    op.inPlace.run j = j.settled (j.perform op) := by
  cases op with
  | start now =>
    by_cases h : j.status = .queued
    · rw [perform, start, if_pos (beq_iff_eq.mpr h)]
      exact run_bind_ok (transition_ok h)
    · rw [perform, start, if_neg (fun heq => h (beq_iff_eq.mp heq))]
      exact run_bind_error (transition_error h)
  | setTiming audio durations => rfl
  | updateProgress fraction =>
    rw [perform, RenderJob.updateProgress]
    show ((if j.status = .running ∧ j.progress < fraction then _ else _ : Writing Unit)).run j = _
    by_cases h : j.status = .running ∧ j.progress < fraction
    · rw [if_pos h, if_pos (by simpa using h)]
      rfl
    · rw [if_neg h, if_neg (by simpa using h)]
      rfl
  | succeed now =>
    by_cases h : j.status = .running
    · rw [perform, succeed, if_pos (beq_iff_eq.mpr h)]
      exact run_bind_ok (transition_ok h)
    · rw [perform, succeed, if_neg (fun heq => h (beq_iff_eq.mp heq))]
      exact run_bind_error (transition_error h)
  | fail error now =>
    rw [perform, RenderJob.fail]
    show ((if j.status.isTerminal = true then _ else _ : Writing Unit)).run j = _
    by_cases h : j.status.isTerminal = true
    · rw [if_pos h, if_pos h]
      rfl
    · rw [if_neg h, if_neg h]
      rfl

/-! ## What an operation keeps to -/

/-- How the fields of a record go together, when one of the operations on it was a start that was
not refused, or none was. -/
structure Coherent (started : Prop) (j : RenderJob) : Prop where
  nonneg : 0 ≤ j.progress
  atMostOne : j.progress ≤ 1
  unstarted : ¬started → j.progress = 0
  whole : j.status = .succeeded → j.progress = 1
  failed : j.error.isSome = true ↔ j.status = .failed
  ended : j.completedAt.isSome = true ↔ j.status.isTerminal = true
  begun : j.startedAt.isSome = true ↔ started
  /-- Only a job that was started runs. -/
  running : j.status = .running → started
  /-- A job that was started waits no more. -/
  waiting : j.status = .queued → ¬started

/-- What no operation takes back: how far a job has come, and how it ended. -/
structure Later (j k : RenderJob) : Prop where
  progress : j.progress ≤ k.progress
  terminal : j.status.isTerminal = true → k.status = j.status ∧ k.progress = j.progress ∧
    k.error = j.error ∧
    k.startedAt = j.startedAt ∧ k.completedAt = j.completedAt

theorem Later.refl {j : RenderJob} (h : j.progress ≤ j.progress) : Later j j :=
  ⟨h, fun _ => ⟨rfl, rfl, rfl, rfl, rfl⟩⟩

/-- As long as a job has not ended, only how far it has come matters. -/
theorem Later.unended {j k : RenderJob} (hle : j.progress ≤ k.progress)
    (h : j.status.isTerminal = false) : Later j k :=
  ⟨hle, fun hterminal => absurd (h.symm.trans hterminal) Bool.false_ne_true⟩

theorem Later.trans {i j k : RenderJob} (h : Later i j) (h' : Later j k) : Later i k where
  progress := float_le_trans h.progress h'.progress
  terminal hi := by
    obtain ⟨hstatus, hprogress, herror, hstarted, hcompleted⟩ := h.terminal hi
    obtain ⟨hstatus', hprogress', herror', hstarted', hcompleted'⟩ := h'.terminal (hstatus ▸ hi)
    exact ⟨hstatus'.trans hstatus, hprogress'.trans hprogress, herror'.trans herror,
      hstarted'.trans hstarted, hcompleted'.trans hcompleted⟩

/-- All that an operation can do to a record. -/
inductive Step (j : RenderJob) : Operation → RenderJob → Prop
  /-- It is refused or left out. A start is refused unless the job waits. -/
  | none {op : Operation} (h : ∀ now, op = .start now → j.status ≠ .queued) : Step j op j
  | start (now : Timestamp) (h : j.status = .queued) :
    Step j (.start now) { j with status := .running, startedAt := some now }
  | setTiming (audio : String) (durations : List Float) :
    Step j (.setTiming audio durations)
    { j with audio := some audio, segmentDurations := durations }
  | updateProgress (fraction : Float) (h : j.status = .running) (hlt : j.progress < fraction) :
    Step j (.updateProgress fraction) { j with progress := Scalar.minimum fraction 1 }
  | succeed (now : Timestamp) (h : j.status = .running) :
    Step j (.succeed now) { j with status := .succeeded, progress := 1, completedAt := some now }
  | fail (error : String) (now : Timestamp) (h : j.status.isTerminal = false) :
    Step j (.fail error now)
    { j with status := .failed, error := some error, completedAt := some now }

/-- The smaller of one and what is above a number that is at most one lies between the two. -/
theorem minimum_one_between {p x : Float} (hlt : p < x) (hp : p ≤ 1) :
    p ≤ Scalar.minimum x 1 ∧ Scalar.minimum x 1 ≤ 1 := by
  have hx : x ≤ x := float_refl (float_le_of_lt hlt)
  by_cases hone : 1 < x
  · have hminimum : Scalar.minimum x 1 = 1 := by
      have hless : Scalar.less 1 x = true := decide_eq_true hone
      rw [Scalar.minimum, isNaN_of_le hx, if_neg Bool.false_ne_true, isNaN_of_le float_one_le_one,
        if_neg Bool.false_ne_true, hless, if_pos rfl]
    rw [hminimum]
    exact ⟨hp, float_one_le_one⟩
  · have hle : x ≤ 1 := float_le_of_not_lt hx float_one_le_one hone
    rw [minimum_one hle]
    exact ⟨float_le_of_lt hlt, hle⟩

section
variable {j k : RenderJob} {op : Operation}

/-- **An operation does one of a few things.** -/
theorem after_step (j : RenderJob) (op : Operation) : Step j op (j.after op) := by
  cases op with
  | start now =>
    by_cases h : j.status = .queued
    · have hafter : j.after (.start now) =
          { j with status := .running, startedAt := some now } := by
        rw [after, perform, RenderJob.start, if_pos (beq_iff_eq.mpr h)]
        rfl
      exact hafter ▸ .start now h
    · have hafter : j.after (.start now) = j := by
        rw [after, perform, RenderJob.start, if_neg (fun heq => h (beq_iff_eq.mp heq))]
        rfl
      exact hafter.symm ▸ .none fun _ _ => h
  | setTiming audio durations => exact .setTiming audio durations
  | updateProgress fraction =>
    by_cases h : j.status = .running ∧ j.progress < fraction
    · have hafter : j.after (.updateProgress fraction) =
          { j with progress := Scalar.minimum fraction 1 } := by
        show j.updateProgress fraction = _
        rw [RenderJob.updateProgress, if_pos (by simpa using h)]
      exact hafter ▸ .updateProgress fraction h.1 h.2
    · have hafter : j.after (.updateProgress fraction) = j := by
        show j.updateProgress fraction = _
        rw [RenderJob.updateProgress, if_neg (by simpa using h)]
      exact hafter.symm ▸ .none nofun
  | succeed now =>
    by_cases h : j.status = .running
    · have hafter : j.after (.succeed now) =
          { j with status := .succeeded, progress := 1, completedAt := some now } := by
        rw [after, perform, RenderJob.succeed, if_pos (beq_iff_eq.mpr h)]
        rfl
      exact hafter ▸ .succeed now h
    · have hafter : j.after (.succeed now) = j := by
        rw [after, perform, RenderJob.succeed, if_neg (fun heq => h (beq_iff_eq.mp heq))]
        rfl
      exact hafter.symm ▸ .none nofun
  | fail error now =>
    cases h : j.status.isTerminal with
    | true =>
      have hafter : j.after (.fail error now) = j := by
        rw [after, perform, RenderJob.fail, if_pos h]
        rfl
      exact hafter.symm ▸ .none nofun
    | false =>
      have hafter : j.after (.fail error now) =
          { j with status := .failed, error := some error, completedAt := some now } := by
        rw [after, perform, RenderJob.fail, if_neg (Bool.eq_false_iff.mp h)]
        rfl
      exact hafter ▸ .fail error now h

/-- A status stays, or changes as it can. -/
theorem Step.moves (hstep : Step j op k) : k.status = j.status ∨ j.status.Moves k.status := by
  cases hstep with
  | none _ => exact .inl rfl
  | start _ h => exact .inr (h ▸ .start)
  | setTiming _ _ => exact .inl rfl
  | updateProgress _ _ _ => exact .inl rfl
  | succeed _ h => exact .inr (h ▸ .succeed)
  | fail _ _ h =>
    right
    cases hstatus : j.status with
    | queued => exact .abandon
    | running => exact .fail
    | succeeded => rw [hstatus] at h; cases h
    | failed => rw [hstatus] at h; cases h

variable {started : Prop} (hj : Coherent started j)
include hj

theorem Coherent.le_self : j.progress ≤ j.progress := float_refl hj.nonneg

/-- **Nothing is taken back.** -/
theorem Step.later (hstep : Step j op k) : Later j k := by
  cases hstep with
  | none _ => exact .refl hj.le_self
  | start _ h => exact .unended hj.le_self (h ▸ rfl)
  | setTiming _ _ => exact ⟨hj.le_self, fun _ => ⟨rfl, rfl, rfl, rfl, rfl⟩⟩
  | updateProgress _ h hlt => exact .unended (minimum_one_between hlt hj.atMostOne).1 (h ▸ rfl)
  | succeed _ h => exact .unended hj.atMostOne (h ▸ rfl)
  | fail _ _ h => exact .unended hj.le_self h

/-- **The fields go on to go together.** The job was started if it was before, or if it waited and
this is a start. -/
theorem Step.coherent {started' : Prop} (hstep : Step j op k)
    (hstarted : started' ↔ started ∨ j.status = .queued ∧ ∃ now, op = .start now) :
    Coherent started' k := by
  have hother : (∀ now, op ≠ .start now) → started' = started := fun h =>
    propext (hstarted.trans (or_iff_left fun ⟨_, now, hop⟩ => h now hop))
  cases hstep with
  | none h =>
    obtain rfl : started' = started :=
      propext (hstarted.trans (or_iff_left fun ⟨hqueued, now, hop⟩ => h now hop hqueued))
    exact hj
  | start now h =>
    have hnow : started' := hstarted.mpr (.inr ⟨h, now, rfl⟩)
    have hfailed := hj.failed
    have hended := hj.ended
    rw [h] at hfailed hended
    exact {
      nonneg := hj.nonneg
      atMostOne := hj.atMostOne
      unstarted := fun hnot => absurd hnow hnot
      whole := nofun
      failed := hfailed.trans (iff_of_false nofun nofun)
      ended := hended
      begun := iff_of_true rfl hnow
      running := fun _ => hnow
      waiting := nofun }
  | setTiming audio durations =>
    obtain rfl := hother nofun
    exact { hj with }
  | updateProgress fraction h hlt =>
    obtain rfl := hother nofun
    obtain ⟨hle, hone⟩ := minimum_one_between hlt hj.atMostOne
    exact { hj with
      nonneg := float_le_trans hj.nonneg hle
      atMostOne := hone
      unstarted := fun hnot => absurd (hj.running h) hnot
      whole := fun hsucceeded => by cases h.symm.trans hsucceeded }
  | succeed now h =>
    obtain rfl := hother nofun
    have hfailed := hj.failed
    rw [h] at hfailed
    exact {
      nonneg := float_zero_le_one
      atMostOne := float_one_le_one
      unstarted := fun hnot => absurd (hj.running h) hnot
      whole := fun _ => rfl
      failed := hfailed.trans (iff_of_false nofun nofun)
      ended := iff_of_true rfl rfl
      begun := hj.begun
      running := nofun
      waiting := nofun }
  | fail error now h =>
    obtain rfl := hother nofun
    exact { hj with
      whole := nofun
      failed := iff_of_true rfl rfl
      ended := iff_of_true rfl rfl
      running := nofun
      waiting := nofun }

end

/-! ## Sequences of operations -/

section
variable {j : RenderJob} {ops : List Operation}

theorem through_append (j : RenderJob) (ops more : List Operation) :
    j.through (ops ++ more) = (j.through ops).through more := List.foldl_append

theorem through_concat (j : RenderJob) (ops : List Operation) (op : Operation) :
    j.through (ops ++ [op]) = (j.through ops).after op := through_append j ops [op]

theorem start_isOk {now : Timestamp} :
    (∃ started, j.start now = .ok started) ↔ j.status = .queued := by
  rw [RenderJob.start]
  split
  · next h => exact iff_of_true ⟨_, rfl⟩ (beq_iff_eq.mp h)
  · next h =>
    refine iff_of_false ?_ fun heq => h (beq_iff_eq.mpr heq)
    rintro ⟨started, hstarted⟩
    cases hstarted

/-- One more operation is the start of a job, or it was started before. -/
theorem started_concat {op : Operation} : Started j (ops ++ [op]) ↔
    Started j ops ∨ (j.through ops).status = .queued ∧ ∃ now, op = .start now := by
  constructor
  · rintro ⟨earlier, now, later, started, heq, hstart⟩
    rcases List.eq_nil_or_concat later with rfl | ⟨later, last, rfl⟩
    · obtain ⟨rfl, hop⟩ := List.append_inj' heq rfl
      exact .inr ⟨start_isOk.mp ⟨started, hstart⟩, now, (List.cons.inj hop).1⟩
    · rw [List.concat_eq_append, ← List.cons_append, ← List.append_assoc] at heq
      exact .inl ⟨earlier, now, later, started, (List.append_inj' heq rfl).1, hstart⟩
  · rintro (⟨earlier, now, later, started, rfl, hstart⟩ | ⟨hqueued, now, rfl⟩)
    · exact ⟨earlier, now, later ++ [op], started, by
        rw [List.append_assoc, List.cons_append], hstart⟩
    · obtain ⟨started, hstart⟩ := start_isOk.mpr hqueued
      exact ⟨ops, now, [], started, rfl, hstart⟩

/-- The fields of a record that was just made go together. -/
theorem made_coherent (id : JobId) (images : List String) (effects : EffectSpec Float)
    (output : OutputFile) :
    Coherent (Started (made id images effects output) []) (made id images effects output) := by
  have hnot : ¬Started (made id images effects output) [] := fun ⟨_, _, _, _, heq, _⟩ => by
    simp at heq
  exact {
    nonneg := float_zero_le_zero
    atMostOne := float_zero_le_one
    unstarted := fun _ => rfl
    whole := nofun
    failed := iff_of_false nofun nofun
    ended := iff_of_false nofun nofun
    begun := iff_of_false nofun hnot
    running := nofun
    waiting := fun _ => hnot }

/-- **The fields of a record go together**, whatever was tried with it. -/
theorem through_coherent (hj : Coherent (Started j []) j) (ops : List Operation) :
    Coherent (Started j ops) (j.through ops) := by
  induction ops using List.reverseRecOn with
  | nil => exact hj
  | append_singleton ops op ih =>
    rw [through_concat]
    exact (after_step _ op).coherent ih started_concat

/-- **Nothing is taken back**, whatever is tried later. -/
theorem through_later (hj : Coherent (Started j []) j) (ops more : List Operation) :
    Later (j.through ops) (j.through (ops ++ more)) := by
  induction more using List.reverseRecOn with
  | nil =>
    rw [List.append_nil]
    exact .refl (through_coherent hj ops).le_self
  | append_singleton more op ih =>
    rw [← List.append_assoc, through_concat]
    exact ih.trans ((after_step _ op).later (through_coherent hj _))

/-- A record keeps to its rules when operations were tried with it. -/
structure Disciplined (first : RenderJob) (ops : List Operation) : Prop where
  coherent : Coherent (Started first ops) (first.through ops)
  moves : ∀ op, (first.through (ops ++ [op])).status = (first.through ops).status ∨
    (first.through ops).status.Moves (first.through (ops ++ [op])).status
  later : ∀ more, Later (first.through ops) (first.through (ops ++ more))
  /-- In place, an operation that is refused has written nothing. -/
  refused : ∀ op e k, op.inPlace.run (first.through ops) = (.error e, k) →
    k = first.through ops ∧ (first.through ops).perform op = .error e
  performed : ∀ op k, op.inPlace.run (first.through ops) = (.ok (), k) →
    (first.through ops).perform op = .ok k

/-- **The record of a job keeps to its rules**, whatever is tried with it, and in whatever order,
since it was made: its fields go together, its status changes only as it can, nothing is taken back,
and an operation that is refused has written nothing. -/
theorem record_disciplined (id : JobId) (images : List String) (effects : EffectSpec Float)
    (output : OutputFile) (ops : List Operation) :
    Disciplined (made id images effects output) ops := by
  have hmade := made_coherent id images effects output
  refine ⟨through_coherent hmade ops, fun op => ?_, through_later hmade ops, fun op e k hrun => ?_,
    fun op k hrun => ?_⟩
  · rw [through_concat]
    exact (after_step _ op).moves
  · exact settled_eq_error ((inPlace_run _ op).symm.trans hrun)
  · exact settled_eq_ok ((inPlace_run _ op).symm.trans hrun)

end

end RenderJob

end Slideshow
