import Slideshow.Proofs.Ledger.Format
import Slideshow.Proofs.Ledger.Shared

/-!
# Additions that are given up

An addition (`append`) hands the work on files over, job by job, and waits for each. It may be given
up whenever it waits. It then gives the lock back at once, but the job that it waits for goes on: a
ledger may still be written over by an addition that is no more, while another one has the lock.

* `Errand` is work that is handed over job by job; `Ledger.adding` is an addition as an errand, and
  `jobs_adding`: its jobs are the steps of the addition.
* `Ledger.Crowd` is where everybody is, `Ledger.Crowd.Step` what can be next, where some states
  allow nobody to take the lock.
* `Ledger.Crowd.Settled`: no job of an addition that was given up goes on.
* `Ledger.Crowd.Phase`: nobody works on the files, or one does, with the lock or given up.
* `Step.consistent`: what every step keeps.

Headlines:
* **`Ledger.additions_stay`**: what was added stays, if the lock is taken in settled states only.
* **`Ledger.addition_undone`**: an addition that succeeds and is undone by one that was given up
  before.
-/

namespace Slideshow

open Thread

/-- Work that is handed over, one job after another, by somebody who waits for each. -/
inductive Errand (α : Type) : Type 1
  | done (a : α)
  | await {β : Type} (job : Thread β) (next : β → Errand α)

namespace Errand

variable {α β : Type}

def bind : Errand α → (α → Errand β) → Errand β
  | done a, f => f a
  | await job next, f => await job fun b => (next b).bind f

instance : Monad Errand where
  pure := done
  bind := bind

/-- One job. -/
def handed (job : ExceptT Error Thread α) : ExceptT Error Errand α :=
  ExceptT.mk (await job.run done)

/-- A value or an error as something tried, without a job. -/
def ofExcept (r : Except Error α) : ExceptT Error Errand α := ExceptT.mk (done r)

/-- All jobs, one after another. -/
def thread : Errand α → Thread α
  | done a => .done a
  | await job next => job.bind fun b => (next b).thread

/-- What is tried in all jobs. -/
def jobs (x : ExceptT Error Errand α) : ExceptT Error Thread α := ExceptT.mk (thread x.run)

theorem thread_bind (x : Errand α) (f : α → Errand β) :
    (x >>= f).thread = x.thread >>= fun a => (f a).thread := by
  show (x.bind f).thread = x.thread.bind _
  induction x with
  | done a => rfl
  | await job next ih =>
    rw [bind, thread, thread, Thread.bind_bind]
    exact congrArg job.bind (funext ih)

theorem jobs_handed (job : ExceptT Error Thread α) : jobs (handed job) = job :=
  Thread.bind_done job.run

theorem jobs_ofExcept (r : Except Error α) : jobs (ofExcept r) = Thread.ofExcept r := rfl

theorem jobs_bind (x : ExceptT Error Errand α) (f : α → ExceptT Error Errand β) :
    jobs (x >>= f) = jobs x >>= fun a => jobs (f a) := by
  have hcont : ∀ r : Except Error α,
      thread (ExceptT.bindCont f r) = ExceptT.bindCont (fun a => jobs (f a)) r := fun r => by
    cases r <;> rfl
  show thread (x.run >>= ExceptT.bindCont f) = thread x.run >>= ExceptT.bindCont fun a => jobs (f a)
  rw [thread_bind, funext hcont]

end Errand

namespace Ledger

open FileTree Machine
open Shared (Told Sound)

/-- A ledger is stored, with the work on files handed over. -/
def saving (l : Ledger) (entries : List LedgerEntry) : ExceptT Error Errand Unit := do
  Errand.handed (l.replacing (.ofText (← Errand.ofExcept (serialized entries))))

/-- An addition, with the work on files handed over. -/
def adding (l : Ledger) (entry : LedgerEntry) : ExceptT Error Errand Unit := do
  match ← Errand.handed (attempt l.load) with
  | .entries es => l.saving (es ++ [entry])
  | .corrupt =>
    Errand.handed (attempt (l.moveAside : Action Unit))
    l.saving [entry]

theorem jobs_saving (l : Ledger) (entries : List LedgerEntry) :
    Errand.jobs (l.saving entries) = l.storing entries := by
  rw [saving, storing, Errand.jobs_bind, Errand.jobs_ofExcept]
  exact congrArg (_ >>= ·) (funext fun _ => Errand.jobs_handed _)

/-- **The jobs of an addition are its steps.** -/
theorem jobs_adding (l : Ledger) (entry : LedgerEntry) :
    Errand.jobs (l.adding entry) = l.appending entry := by
  rw [adding, appending, Errand.jobs_bind, Errand.jobs_handed]
  refine congrArg (_ >>= ·) (funext fun found => ?_)
  cases found with
  | entries es => exact l.jobs_saving _
  | corrupt =>
    dsimp only
    rw [Errand.jobs_bind, Errand.jobs_handed]
    exact congrArg (_ >>= ·) (funext fun _ => l.jobs_saving _)

/-- Where an addition is. -/
inductive Visit : Type 1
  /-- It waits for the lock. -/
  | waiting
  /-- It has the lock, and this to do. -/
  | running (rest : Errand (Except Error Unit))
  /-- It has given the lock back. -/
  | returned (r : Except Error Unit)
  /-- It was given up, and this of a job is still to do. -/
  | left {β : Type} (job : Thread β)

/-- Nothing is done for an addition. -/
def Visit.Still : Visit → Prop
  | .waiting | .returned _ => True
  | .running _ => False
  | .left job => ∃ a, job = .done a

/-- A ledger and those who add to it, any of whom may leave. -/
structure Crowd (ι : Type) where
  machine : Machine
  /-- Who has the lock. -/
  holder : Option ι
  visit : ι → Visit

namespace Crowd

variable {ι : Type} {l : Ledger} {entry : ι → LedgerEntry} {here : Location} {c : Circumstances}
  {initial es : List LedgerEntry} {may : Crowd ι → Prop} {s s' : Crowd ι}

/-- Nobody has begun. -/
def fresh (m : Machine) : Crowd ι := ⟨m, none, fun _ => .waiting⟩

/-- Nobody who was given up has a job that goes on. -/
def Settled (s : Crowd ι) : Prop :=
  ∀ i {β : Type} (job : Thread β), s.visit i = .left job → ∃ a, job = .done a

/-- Somebody's next step. The lock is taken only where that is allowed. -/
inductive Step [DecidableEq ι] (l : Ledger) (entry : ι → LedgerEntry) (may : Crowd ι → Prop) :
    Crowd ι → Crowd ι → Prop
  /-- An addition takes the lock, if that is free. -/
  | take {s : Crowd ι} (i : ι) (free : s.holder = none) (waiting : s.visit i = .waiting)
  (allowed : may s) :
      Step l entry may s { s with
        holder := some i
        visit := Function.update s.visit i (.running (l.adding (entry i)).run) }
  /-- The job that it waits for is done by a step. -/
  | work {s : Crowd ι} (i : ι) {β γ : Type} {action : Action γ} {job : γ → Thread β}
    {next : β → Errand (Except Error Unit)}
      (running : s.visit i = .running (.await (.step action job) next)) :
      Step l entry may s { s with
        machine := (action s.machine).2
        visit := Function.update s.visit i (.running (.await (job (action s.machine).1) next)) }
  /-- It goes on after a job. -/
  | resume {s : Crowd ι} (i : ι) {β : Type} {b : β} {next : β → Errand (Except Error Unit)}
      (running : s.visit i = .running (.await (.done b) next)) :
      Step l entry may s { s with visit := Function.update s.visit i (.running (next b)) }
  /-- It gives the lock back. -/
  | release {s : Crowd ι} (i : ι) {r : Except Error Unit}
    (finished : s.visit i = .running (.done r)) :
      Step l entry may s { s with holder := none, visit := Function.update s.visit i (.returned r) }
  /-- It is given up before it has had the lock. -/
  | depart {s : Crowd ι} (i : ι) (waiting : s.visit i = .waiting) :
      Step l entry may s { s with visit := Function.update s.visit i (.left (.done ())) }
  /-- It is given up while it waits for a job, and the lock is free. -/
  | leave {s : Crowd ι} (i : ι) {β : Type} {job : Thread β} {next : β → Errand (Except Error Unit)}
      (running : s.visit i = .running (.await job next)) :
      Step l entry may s { s with holder := none, visit := Function.update s.visit i (.left job) }
  /-- The job of one that was given up is done by a step. -/
  | settle {s : Crowd ι} (i : ι) {β γ : Type} {action : Action γ} {job : γ → Thread β}
      (left : s.visit i = .left (.step action job)) :
      Step l entry may s { s with
        machine := (action s.machine).2
        visit := Function.update s.visit i (.left (job (action s.machine).1)) }
  /-- Somebody reads, with or without the lock taken. -/
  | read {s : Crowd ι} : Step l entry may s { s with machine := (l.list.run s.machine).2 }

/-- Any number of steps. -/
abbrev Steps [DecidableEq ι] (l : Ledger) (entry : ι → LedgerEntry) (may : Crowd ι → Prop) :
    Crowd ι → Crowd ι → Prop :=
  Relation.ReflTransGen (Step l entry may)

/-! ## What holds at any time -/

/-- A ledger that says some entries says what it said first, nothing that is not read back, and all
that was added. -/
structure Keeps (entry : ι → LedgerEntry) (initial es : List LedgerEntry) (s : Crowd ι) : Prop where
  first : initial <+: es
  sound : ∀ e ∈ es, e.Valid ∧ e.Kept
  added : ∀ i, s.visit i = .returned (.ok ()) → entry i ∈ es

/-- Nobody works on the files, or one does, who has the lock or was given up. -/
inductive Phase (l : Ledger) (entry : ι → LedgerEntry) (here : Location) (c : Circumstances)
    (es : List LedgerEntry) (s : Crowd ι) : Prop
  | quiet (holder : s.holder = none) (still : ∀ i, (s.visit i).Still)
  (told : Told l here c es s.machine)
  | held (i : ι) (rest : Errand (Except Error Unit)) (holder : s.holder = some i)
  (running : s.visit i = .running rest) (others : ∀ j, j ≠ i → (s.visit j).Still)
      (guards : rest.thread.Guards (Told l here c es)
        (Either (fun _ => Told l here c (es ++ [entry i])) fun _ => Told l here c es) s.machine)
  | left (i : ι) {β : Type} (job : Thread β) (holder : s.holder = none)
  (left : s.visit i = .left job) (others : ∀ j, j ≠ i → (s.visit j).Still)
      (guards : job.Guards (Told l here c es)
        (fun _ m => Told l here c es m ∨ Told l here c (es ++ [entry i]) m) s.machine)

/-- What holds after any number of steps. -/
def Consistent (l : Ledger) (entry : ι → LedgerEntry) (here : Location) (c : Circumstances)
    (initial : List LedgerEntry) (s : Crowd ι) : Prop :=
  ∃ es, Keeps entry initial es s ∧ Phase l entry here c es s

/-- One more entry. -/
theorem Keeps.concat (h : Keeps entry initial es s) {e : LedgerEntry} (he : e.Valid ∧ e.Kept) :
    Keeps entry initial (es ++ [e]) s where
  first := h.first.trans (List.prefix_append es [e])
  sound := List.forall_mem_append.mpr ⟨h.sound, List.forall_mem_singleton.mpr he⟩
  added i hi := List.mem_append_left _ (h.added i hi)

section
variable [DecidableEq ι] {i : ι} {x : Visit}

/-- What somebody does next who does not return adds nothing. -/
theorem Keeps.update {m : Machine} {holder : Option ι} (h : Keeps entry initial es s)
    (hx : x = .returned (.ok ()) → entry i ∈ es) :
    Keeps entry initial es ⟨m, holder, Function.update s.visit i x⟩ where
  first := h.first
  sound := h.sound
  added j hj := by
    dsimp only at hj
    by_cases hij : j = i
    · subst hij
      rw [Function.update_self] at hj
      exact hx hj
    · rw [Function.update_of_ne hij] at hj
      exact h.added j hj

/-- Nothing is done for somebody after what one does next. -/
theorem still_update {j : ι} (hj : j ≠ i → (s.visit j).Still) (hx : j = i → x.Still) :
    (Function.update s.visit i x j).Still := by
  by_cases hij : j = i
  · subst hij
    rw [Function.update_self]
    exact hx rfl
  · rw [Function.update_of_ne hij]
    exact hj hij

theorem others_update (hothers : ∀ j, j ≠ i → (s.visit j).Still) (j : ι) (hij : j ≠ i) :
    (Function.update s.visit i x j).Still :=
  still_update (hothers j) fun h => absurd h hij

end

/-- **Whatever goes on, the ledger says all that was added.** -/
theorem Consistent.told (hsound : Sound l entry here c initial)
    (h : Consistent l entry here c initial s) :
    ∃ es, Keeps entry initial es s ∧ Told l here c es s.machine := by
  obtain ⟨es, hkeeps, hphase⟩ := h
  have hmore := fun i => hkeeps.concat ⟨hsound.valid.2 i, hsound.kept.2 i⟩
  cases hphase with
  | quiet _ _ told => exact ⟨es, hkeeps, told⟩
  | held i rest _ _ _ guards =>
    rcases guards.now with told | ⟨_ | _, told⟩
    · exact ⟨es, hkeeps, told⟩
    · exact ⟨es, hkeeps, told⟩
    · exact ⟨_, hmore i, told⟩
  | left i job _ _ _ guards =>
    rcases guards.now with told | ⟨_, told | told⟩
    · exact ⟨es, hkeeps, told⟩
    · exact ⟨es, hkeeps, told⟩
    · exact ⟨_, hmore i, told⟩

/-! ## What every step keeps -/

section
variable (h : Consistent l entry here c initial s)
include h

/-- Where the lock is free and no job goes on, nobody works on the files. -/
theorem Consistent.still (free : s.holder = none) (hsettled : s.Settled) (i : ι) :
    (s.visit i).Still := by
  obtain ⟨es, -, hphase⟩ := h
  cases hphase with
  | quiet _ still _ => exact still i
  | held j _ holder => cases free.symm.trans holder
  | left j job _ left others _ =>
    by_cases hij : i = j
    · rw [hij, left]
      exact hsettled j job left
    · exact others i hij

/-- The one that runs has the lock. -/
theorem Consistent.held {i : ι} {rest : Errand (Except Error Unit)}
    (running : s.visit i = .running rest) :
    ∃ es, Keeps entry initial es s ∧ s.holder = some i ∧ (∀ j, j ≠ i → (s.visit j).Still) ∧
      rest.thread.Guards (Told l here c es)
      (Either (fun _ => Told l here c (es ++ [entry i])) fun _ => Told l here c es)
        s.machine := by
  have hactive : ¬ (s.visit i).Still := by
    rw [running]
    exact id
  obtain ⟨es, hkeeps, hphase⟩ := h
  refine ⟨es, hkeeps, ?_⟩
  cases hphase with
  | quiet _ still _ => exact absurd (still i) hactive
  | held j rest' holder running' others guards =>
    obtain rfl : i = j := by_contra fun hij => hactive (others i hij)
    obtain rfl : rest' = rest := Visit.running.inj (running'.symm.trans running)
    exact ⟨holder, others, guards⟩
  | left j job _ left others _ =>
    obtain rfl : i = j := by_contra fun hij => hactive (others i hij)
    cases left.symm.trans running

theorem Consistent.take [DecidableEq ι] (hsound : Sound l entry here c initial) {i : ι}
    (free : s.holder = none) (hsettled : s.Settled) : Consistent l entry here c initial { s with
      holder := some i
      visit := Function.update s.visit i (.running (l.adding (entry i)).run) } := by
  obtain ⟨es, hkeeps, htold⟩ := h.told hsound
  have hmore := (hkeeps.concat ⟨hsound.valid.2 i, hsound.kept.2 i⟩).sound
  have hjobs : (l.adding (entry i)).run.thread = (l.appending (entry i)).run :=
    l.jobs_adding (entry i)
  refine ⟨es, hkeeps.update fun hx => (nomatch hx), .held i _ rfl (Function.update_self ..) ?_ ?_⟩
  · exact others_update fun j _ => h.still free hsettled j
  · rw [hjobs]
    exact Shared.appending_told hsound.apart (fun e he => (hmore e he).1)
      (fun e he => (hmore e he).2) htold

theorem Consistent.work [DecidableEq ι] {i : ι} {β γ : Type} {action : Action γ}
    {job : γ → Thread β} {next : β → Errand (Except Error Unit)}
    (running : s.visit i = .running (.await (.step action job) next)) :
    Consistent l entry here c initial { s with
      machine := (action s.machine).2
      visit := Function.update s.visit i (.running (.await (job (action s.machine).1) next)) } := by
  obtain ⟨es, hkeeps, holder, others, guards⟩ := h.held running
  refine ⟨es, hkeeps.update fun hx => (nomatch hx),
    .held i _ holder (Function.update_self ..) (others_update others) ?_⟩
  exact guards.2 s.machine (.refl _)

theorem Consistent.resume [DecidableEq ι] {i : ι} {β : Type} {b : β}
    {next : β → Errand (Except Error Unit)}
    (running : s.visit i = .running (.await (.done b) next)) :
    Consistent l entry here c initial
        { s with visit := Function.update s.visit i (.running (next b)) } := by
  obtain ⟨es, hkeeps, holder, others, guards⟩ := h.held running
  exact ⟨es, hkeeps.update fun hx => (nomatch hx),
    .held i _ holder (Function.update_self ..) (others_update others) guards⟩

theorem Consistent.release [DecidableEq ι] (hsound : Sound l entry here c initial) {i : ι}
    {r : Except Error Unit} (finished : s.visit i = .running (.done r)) :
    Consistent l entry here c initial
        { s with holder := none, visit := Function.update s.visit i (.returned r) } := by
  obtain ⟨es, hkeeps, -, others, guards⟩ := h.held finished
  have hstill : ∀ j, (Function.update s.visit i (.returned r) j).Still := fun j =>
    still_update (others j) fun _ => trivial
  cases r with
  | ok _ =>
    have hmore := hkeeps.concat ⟨hsound.valid.2 i, hsound.kept.2 i⟩
    exact ⟨es ++ [entry i], hmore.update fun _ => by simp, .quiet rfl hstill guards⟩
  | error e => exact ⟨es, hkeeps.update fun hx => (nomatch hx), .quiet rfl hstill guards⟩

theorem Consistent.depart [DecidableEq ι] {i : ι} (waiting : s.visit i = .waiting) :
    Consistent l entry here c initial
        { s with visit := Function.update s.visit i (.left (.done ())) } := by
  obtain ⟨es, hkeeps, hphase⟩ := h
  refine ⟨es, hkeeps.update fun hx => (nomatch hx), ?_⟩
  have hstill : (Visit.left (.done ())).Still := ⟨(), rfl⟩
  have hothers : ∀ {j : ι}, (∀ k, k ≠ j → (s.visit k).Still) → ∀ k, k ≠ j →
      (Function.update s.visit i (.left (.done ())) k).Still := fun others k hk =>
    still_update (fun _ => others k hk) fun _ => hstill
  cases hphase with
  | quiet holder still told =>
    exact .quiet holder (fun k => still_update (fun _ => still k) fun _ => hstill) told
  | held j rest holder running others guards =>
    have hij : j ≠ i := fun hij => nomatch (hij ▸ running).symm.trans waiting
    exact .held j rest holder ((Function.update_of_ne hij ..).trans running) (hothers others) guards
  | left j job holder left others guards =>
    have hij : j ≠ i := fun hij => nomatch (hij ▸ left).symm.trans waiting
    exact .left j job holder ((Function.update_of_ne hij ..).trans left) (hothers others) guards

/-- Up to its last step a job changes nothing, and then it adds the entry or nothing. -/
theorem Consistent.leave [DecidableEq ι] {i : ι} {β : Type} {job : Thread β}
    {next : β → Errand (Except Error Unit)} (running : s.visit i = .running (.await job next)) :
    Consistent l entry here c initial
        { s with holder := none, visit := Function.update s.visit i (.left job) } := by
  obtain ⟨es, hkeeps, -, others, guards⟩ := h.held running
  refine ⟨es, hkeeps.update fun hx => (nomatch hx),
    .left i job rfl (Function.update_self ..) (others_update others) ?_⟩
  have hjob : (job.bind fun b => (next b).thread).Guards _ _ s.machine := guards
  refine hjob.of_bind.mono fun b m hb => ?_
  rcases hb.now with told | ⟨_ | _, told⟩
  · exact .inl told
  · exact .inl told
  · exact .inr told

theorem Consistent.settle [DecidableEq ι] {i : ι} {β γ : Type} {action : Action γ}
    {job : γ → Thread β} (left : s.visit i = .left (.step action job)) :
    Consistent l entry here c initial { s with
      machine := (action s.machine).2
      visit := Function.update s.visit i (.left (job (action s.machine).1)) } := by
  have hactive : ¬ (s.visit i).Still := by
    rw [left]
    exact fun ⟨_, hdone⟩ => nomatch hdone
  obtain ⟨es, hkeeps, hphase⟩ := h
  refine ⟨es, hkeeps.update fun hx => (nomatch hx), ?_⟩
  cases hphase with
  | quiet _ still _ => exact absurd (still i) hactive
  | held j rest _ running others _ =>
    obtain rfl : i = j := by_contra fun hij => hactive (others i hij)
    cases left.symm.trans running
  | left j job' holder left' others guards =>
    obtain rfl : i = j := by_contra fun hij => hactive (others i hij)
    cases left'.symm.trans left
    exact .left i _ holder (Function.update_self ..) (others_update others)
      (guards.2 s.machine (.refl _))

theorem Consistent.read :
    Consistent l entry here c initial { s with machine := (l.list.run s.machine).2 } := by
  have hidle : Idle s.machine (l.list.run s.machine).2 := by
    rw [l.list_tick]
    exact ⟨rfl, rfl, rfl⟩
  obtain ⟨es, hkeeps, hphase⟩ := h
  refine ⟨es, ⟨hkeeps.first, hkeeps.sound, hkeeps.added⟩, ?_⟩
  cases hphase with
  | quiet holder still told => exact .quiet holder still (holds_stable _ _ hidle told)
  | held i rest holder running others guards =>
    refine .held i rest holder running others (guards.idle holds_stable (fun r => ?_) hidle)
    cases r <;> exact holds_stable
  | left i job holder left others guards =>
    refine .left i job holder left others (guards.idle holds_stable (fun _ m m' hm => ?_) hidle)
    exact Or.imp (holds_stable m m' hm) (holds_stable m m' hm)

end

/-- **What every step keeps.** -/
theorem Step.consistent [DecidableEq ι] (hsound : Sound l entry here c initial)
    (hstep : Step l entry Settled s s') (h : Consistent l entry here c initial s) :
    Consistent l entry here c initial s' := by
  cases hstep with
  | take i free _ hsettled => exact h.take hsound free hsettled
  | work i running => exact h.work running
  | resume i running => exact h.resume running
  | release i finished => exact h.release hsound finished
  | depart i waiting => exact h.depart waiting
  | leave i running => exact h.leave running
  | settle i left => exact h.settle left
  | read => exact h.read

theorem fresh_consistent (hsound : Sound l entry here c initial) {m : Machine}
    (hm : Told l here c initial m) :
    Consistent l entry here c initial (fresh m : Crowd ι) := by
  refine ⟨initial, ⟨List.prefix_rfl, fun e he => ?_, fun i hi => (nomatch hi)⟩,
    .quiet rfl (fun _ => trivial) hm⟩
  exact ⟨hsound.valid.1 e he, hsound.kept.1 e he⟩

/-- **What any number of steps keeps.** -/
theorem Steps.consistent [DecidableEq ι] (hsound : Sound l entry here c initial)
    (hrun : Steps l entry Settled s s') (h : Consistent l entry here c initial s) :
    Consistent l entry here c initial s' := by
  induction hrun with
  | refl => exact h
  | tail _ hstep ih => exact hstep.consistent hsound ih

/-- Who has returned has returned. -/
theorem Step.returned [DecidableEq ι] (hstep : Step l entry may s s') {i : ι}
    {r : Except Error Unit} (h : s.visit i = .returned r) : s'.visit i = .returned r := by
  have hother : ∀ {j : ι} {x : Visit}, s.visit j ≠ .returned r →
      Function.update s.visit j x i = .returned r :=
    fun {j x} hj => by rwa [Function.update_of_ne fun hij : i = j => hj (hij ▸ h)]
  cases hstep with
  | take j _ waiting => exact hother fun hj => nomatch waiting.symm.trans hj
  | work j running => exact hother fun hj => nomatch running.symm.trans hj
  | resume j running => exact hother fun hj => nomatch running.symm.trans hj
  | release j finished => exact hother fun hj => nomatch finished.symm.trans hj
  | depart j waiting => exact hother fun hj => nomatch waiting.symm.trans hj
  | leave j running => exact hother fun hj => nomatch running.symm.trans hj
  | settle j left => exact hother fun hj => nomatch left.symm.trans hj
  | read => exact h

theorem Steps.returned [DecidableEq ι] (hrun : Steps l entry may s s') {i : ι}
    {r : Except Error Unit} (h : s.visit i = .returned r) : s'.visit i = .returned r := by
  induction hrun with
  | refl => exact h
  | tail _ hstep ih => exact hstep.returned ih

/-! ## Runs that nobody comes between -/

section
variable [DecidableEq ι] {i : ι} {β : Type}

/-- The job that somebody waits for may be done before anybody else does a step. -/
theorem steps_job {job : Thread β} {next : β → Errand (Except Error Unit)} : ∀ {s : Crowd ι},
    s.visit i = .running (.await job next) → Steps l entry may s { s with
      machine := (job.run s.machine).2
      visit := Function.update s.visit i (.running (next (job.run s.machine).1)) } := by
  induction job with
  | done b => exact fun hrunning => .single (.resume i hrunning)
  | step action job ih =>
    intro s hrunning
    refine .head (.work i hrunning) ?_
    have hsteps := ih (action s.machine).1 (s := { s with
      machine := (action s.machine).2
      visit := Function.update s.visit i (.running (.await (job (action s.machine).1) next)) })
        (Function.update_self ..)
    rwa [Function.update_idem] at hsteps

/-- The job of one that was given up may be done before anybody else does a step. -/
theorem steps_left {job : Thread β} :
    ∀ {s : Crowd ι}, s.visit i = .left job → Steps l entry may s { s with
    machine := (job.run s.machine).2
    visit := Function.update s.visit i (.left (.done (job.run s.machine).1)) } := by
  induction job with
  | done b =>
    intro s hleft
    have hself : Function.update s.visit i (.left (.done b)) = s.visit := by
      rw [← hleft, Function.update_eq_self]
    show Steps l entry may s { s with visit := Function.update s.visit i (.left (.done b)) }
    rw [hself]
  | step action job ih =>
    intro s hleft
    refine .head (.settle i hleft) ?_
    have hsteps := ih (action s.machine).1 (s := { s with
      machine := (action s.machine).2
      visit := Function.update s.visit i (.left (job (action s.machine).1)) })
        (Function.update_self ..)
    rwa [Function.update_idem] at hsteps

/-- So may all jobs of the one with the lock. -/
theorem steps_errand {rest : Errand (Except Error Unit)} :
    ∀ {s : Crowd ι}, s.visit i = .running rest →
    Steps l entry may s { s with
      machine := (rest.thread.run s.machine).2
      visit := Function.update s.visit i (.running (.done (rest.thread.run s.machine).1)) } := by
  induction rest with
  | done r =>
    intro s hrunning
    have hself : Function.update s.visit i (.running (.done r)) = s.visit := by
      rw [← hrunning, Function.update_eq_self]
    show Steps l entry may s { s with visit := Function.update s.visit i (.running (.done r)) }
    rw [hself]
  | await job next ih =>
    intro s hrunning
    refine (steps_job hrunning).trans ?_
    have hsteps := ih (job.run s.machine).1 (s := { s with
      machine := (job.run s.machine).2
      visit := Function.update s.visit i (.running (next (job.run s.machine).1)) })
        (Function.update_self ..)
    rw [Function.update_idem] at hsteps
    have hrun : (Errand.await job next).thread.run = job.run >>= fun b => (next b).thread.run :=
      Thread.run_bind job _
    rw [hrun]
    exact hsteps

/-- An addition that nobody disturbs is an addition. -/
theorem steps_addition {s : Crowd ι} (free : s.holder = none) (waiting : s.visit i = .waiting)
    (allowed : may s) :
    Steps l entry may s { s with
      machine := ((l.append (entry i)).run s.machine).2
      visit := Function.update s.visit i (.returned ((l.append (entry i)).run s.machine).1) } := by
  have hjobs : (l.adding (entry i)).run.thread = (l.appending (entry i)).run :=
    l.jobs_adding (entry i)
  have hrun : Thread.run (l.adding (entry i)).run.thread = (l.append (entry i)).run := by
    rw [hjobs, ← Thread.run_alone, l.alone_appending]
  refine .head (.take i free waiting allowed)
    (.trans (steps_errand (i := i) (Function.update_self ..)) (.trans
    (.single (.release i (Function.update_self ..))) ?_))
  simp only [Function.update_idem, hrun, ← free]
  exact .refl

end

end Crowd

open Crowd in
/-- **What was added stays, if the lock is taken in settled states only.** Any number of additions
go on at once, and any of them may be given up at any time. As long as nobody takes the lock while a
job of one that was given up goes on, every reader whom the system does not refuse is told what was
there first and the entry of every addition that has succeeded by then. -/
theorem additions_stay {ι : Type} [DecidableEq ι] (l : Ledger) (entry : ι → LedgerEntry)
    {m : Machine} {initial : List LedgerEntry} {s s' : Crowd ι} (hroot : Rooted m.files)
    (hreach : l.Reachable m.here m.files) (hinitial : l.contents m.files m.here = .ok initial)
    (hsound : Sound l entry m.here m.circumstances initial)
    (hrun : Steps l entry Settled (fresh m) s) (hlater : Steps l entry Settled s s')
    (hrefusal : s'.machine.circumstances.refusal (s'.machine.clock + 1) = none) :
    ∃ es, (l.list.run s'.machine).1 = .ok es ∧ initial <+: es ∧
        ∀ i, s.visit i = .returned (.ok ()) → entry i ∈ es := by
  have hfresh : Consistent l entry m.here m.circumstances initial (fresh m : Crowd ι) :=
    fresh_consistent hsound ⟨rfl, rfl, tells_of_reachable hroot hreach hinitial⟩
  obtain ⟨es, hkeeps, htold⟩ := (Steps.consistent hsound (hrun.trans hlater) hfresh).told hsound
  refine ⟨es, ?_, hkeeps.first, fun i hi => hkeeps.added i (hlater.returned hi)⟩
  rw [l.list_run hrefusal, htold.here, htold.files.contents]

/-- The entries of two additions to a ledger that is not there. -/
theorem sound_bare : Sound plain pair bare.here bare.circumstances [] :=
  sound_pair rfl _ (fun _ h => absurd h List.not_mem_nil) fun _ h => absurd h List.not_mem_nil

/-- An addition reads the ledger and then replaces it. -/
theorem adding_run (l : Ledger) (entry : LedgerEntry) :
    ∃ next, (l.adding entry).run = .await (attempt l.load).run next ∧
    ∀ es, (∀ e ∈ es ++ [entry], e.HasText) →
      next (.ok (.entries es)) =
          .await (l.replacing (.ofText (render (es ++ [entry])))).run .done := by
  refine ⟨_, rfl, fun es htext => ?_⟩
  have hserialized := serialized_eq_ok_iff.mpr ⟨htext, rfl⟩
  show (l.saving (es ++ [entry])).run = _
  rw [saving, hserialized]
  rfl

namespace Crowd

section
variable {ι : Type} [DecidableEq ι] {l : Ledger} {entry : ι → LedgerEntry} {may : Crowd ι → Prop}
  {s : Crowd ι} {i : ι}
  (free : s.holder = none) (waiting : s.visit i = .waiting) (allowed : may s)
include free waiting allowed

/-- An addition takes the lock and is given up while it reads. -/
theorem steps_given_up : Steps l entry may s { s with
    machine := (l.load.run s.machine).2
    visit := Function.update s.visit i (.left (.done (l.load.run s.machine).1)) } := by
  obtain ⟨next, hnext, -⟩ := adding_run l (entry i)
  have htake : Steps l entry may s _ := .single (.take i free waiting allowed)
  rw [hnext] at htake
  have hleave :=
    htake.tail
      (.leave i (Function.update_self i (Visit.running (.await (attempt l.load).run next)) s.visit))
  simp only [Function.update_idem, ← free] at hleave
  have hleft :=
    hleave.trans (steps_left (Function.update_self i (Visit.left (attempt l.load).run) s.visit))
  rwa [Function.update_idem] at hleft

/-- An addition takes the lock, reads the ledger and is given up when it begins to replace it. -/
theorem steps_given_up_late {es : List LedgerEntry} (htext : ∀ e ∈ es ++ [entry i], e.HasText)
    (hload : (l.load.run s.machine).1 = .ok (.entries es)) :
    Steps l entry may s { s with
      machine := (l.load.run s.machine).2
      visit := Function.update s.visit i
          (.left (l.replacing (.ofText (render (es ++ [entry i])))).run) } := by
  obtain ⟨next, hnext, hentries⟩ := adding_run l (entry i)
  have htake : Steps l entry may s _ := .single (.take i free waiting allowed)
  rw [hnext] at htake
  have hread :=
    htake.trans
      (steps_job
        (Function.update_self i (Visit.running (.await (attempt l.load).run next)) s.visit))
  have hrun : Thread.run (attempt l.load).run s.machine = l.load.run s.machine := rfl
  simp only [hrun, hload, hentries es htext, Function.update_idem] at hread
  have hleave :=
    hread.tail (.leave i (Function.update_self i (Visit.running (.await _ .done)) s.visit))
  simp only [Function.update_idem, ← free] at hleave
  exact hleave

end

/-- Where the lock may always be taken, the job of an addition that was given up may go on behind
another addition. -/
theorem steps_overtaken {ι : Type} [DecidableEq ι] {l : Ledger} {entry : ι → LedgerEntry}
    {s : Crowd ι} {i j : ι} (hij : i ≠ j) (free : s.holder = none) (first : s.visit i = .waiting)
    (second : s.visit j = .waiting) {es : List LedgerEntry}
    (htext : ∀ e ∈ es ++ [entry i], e.HasText)
    (hload : (l.load.run s.machine).1 = .ok (.entries es)) :
    ∃ s', Steps l entry (fun _ => True) s s' ∧
      s'.machine = ((l.replace (.ofText (render (es ++ [entry i])))).run
        ((l.append (entry j)).run s.machine.tick).2).2 ∧
      s'.visit j = .returned ((l.append (entry j)).run s.machine.tick).1 := by
  have hlate : Steps l entry (fun _ => True) s _ :=
    steps_given_up_late free first trivial htext hload
  rw [l.load_tick] at hlate
  have hadd :=
    hlate.trans
      (steps_addition (i := j) free ((Function.update_of_ne hij.symm ..).trans second) trivial)
  have hleft :=
    hadd.trans
      (steps_left ((Function.update_of_ne hij ..).trans (Function.update_self i _ s.visit)))
  have halone : ∀ content, Thread.run (l.replacing content).run = (l.replace content).run :=
    fun content => by
    rw [← Thread.run_alone, l.alone_replacing]
  refine ⟨_, hleft, ?_, (Function.update_of_ne hij.symm ..).trans (Function.update_self ..)⟩
  exact congrArg (fun replace => (replace ((l.append (entry j)).run s.machine.tick).2).2) (halone _)

end Crowd

open Crowd in
/-- Behind an addition that was given up while it read, another one succeeds and stays. -/
theorem additions_stay_given_up : ∃ s : Crowd Bool, Steps plain pair Settled (fresh bare) s ∧
    s.visit true = .returned (.ok ()) ∧
    ∃ es, (plain.list.run s.machine).1 = .ok es ∧ [] <+: es ∧ ∀ i, s.visit i = .returned (.ok ()) →
        pair i ∈ es := by
  have hleft : Steps plain pair Settled (fresh bare) _ :=
    steps_given_up (i := false) rfl rfl fun _ _ _ h => nomatch h
  have hadd := hleft.trans (steps_addition (i := true) rfl rfl ?_)
  · refine ⟨_, hadd, ?_, additions_stay plain pair rooted_bare
      (reachable_plain _ _) contents_bare sound_bare hadd .refl ?_⟩
    · dsimp only
      rw [Function.update_self]
      exact congrArg Visit.returned rfl
    · rfl
  · intro i β job h
    cases i with
    | true => cases h
    | false =>
      dsimp only at h
      rw [Function.update_self] at h
      cases h
      exact ⟨_, rfl⟩

/-- A replaced ledger lists the entries that were written. -/
theorem list_replaced (l : Ledger) {m : Machine} {es : List LedgerEntry} (hroot : Rooted m.files)
    (hallowed : ∀ clock, m.circumstances.refusal clock = none) (hvalid : ∀ e ∈ es, e.Valid)
    (htext : ∀ e ∈ es, e.HasText) (hkept : ∀ e ∈ es, e.Kept)
    (hok : ((l.replace (.ofText (render es))).run m).1 = .ok ()) :
    (l.list.run ((l.replace (.ofText (render es))).run m).2).1 = .ok es := by
  have hreplace :=
    (replacing_tried (rooted_survives l m.here m.circumstances) (.ofText (render es))).tries
  rw [l.alone_replacing] at hreplace
  have hstate := hreplace.of_ok ⟨rfl, rfl, hroot⟩ hok
  have hread : ((l.replace (.ofText (render es))).run m).2.circumstances.refusal
      (((l.replace (.ofText (render es))).run m).2.clock + 1) = none := by
    rw [hstate.circumstances]
    exact hallowed _
  rw [l.list_run hread, hstate.here,
    contents_of_read hvalid (fun e he => (hkept e he).legible) htext hstate.files.read,
    map_readBack hkept]

/-- What becomes of the machine when the job of the first addition goes on behind the second
addition. -/
def overtaken : Machine :=
  ((plain.replace (.ofText (render [pair false]))).run
    ((plain.append (pair true)).run bare.tick).2).2

theorem list_overtaken : (plain.list.run overtaken).1 = .ok [pair false] := by
  have hadded : ((plain.append (pair true)).run bare.tick).1 = .ok () := rfl
  have hreplaced : ((plain.replace (.ofText (render [pair false]))).run
      ((plain.append (pair true)).run bare.tick).2).1 = .ok () := rfl
  obtain ⟨-, hcircumstances, -, hreads⟩ :=
    (append_tries (rooted_survives plain bare.here bare.circumstances)
    (pair true)).of_ok (s := bare.tick) ⟨rfl, rfl, rooted_bare, contents_bare⟩ hadded
  refine plain.list_replaced hreads.rooted (fun clock => ?_)
    (List.forall_mem_singleton.mpr (sound_bare.valid.2 false))
    (List.forall_mem_singleton.mpr rfl)
      (List.forall_mem_singleton.mpr (sound_bare.kept.2 false)) hreplaced
  rw [hcircumstances]
  rfl

/-- An entry with a length that is not read back is listed with another one. -/
theorem list_drifting : ∃ es, (plain.list.run ((plain.append (entryOf drifting)).run bare).2).1 =
    .ok es ∧ entryOf drifting ∉ es := by
  have hsurvives : Survives plain bare.here bare.circumstances Rooted := rooted_survives _ _ _
  have hvalid : ∀ e ∈ [] ++ [entryOf drifting], e.Valid :=
    List.forall_mem_singleton.mpr (entryOf_valid drifting)
  have hlengths : ∀ x ∈ (entryOf drifting).lengths, (Json.reread? x).isSome = true := by
    decide +kernel
  have hlegible : ∀ e ∈ [] ++ [entryOf drifting], e.Legible :=
    List.forall_mem_singleton.mpr hlengths
  have hok : ((plain.append (entryOf drifting)).run bare).1 = .ok () := rfl
  have hstate :=
    (append_adds hsurvives hvalid hlegible).of_ok ⟨rfl, rfl, rooted_bare, contents_bare⟩ hok
  have hrefusal : ∀ clock,
      ((plain.append (entryOf drifting)).run bare).2.circumstances.refusal clock = none := by
    rw [hstate.circumstances]
    exact fun _ => rfl
  refine ⟨([] ++ [entryOf drifting]).map LedgerEntry.readBack, ?_, fun h => ?_⟩
  · rw [plain.list_run (hrefusal _), hstate.here, hstate.files.2]
  · rw [List.nil_append, List.map_singleton, List.mem_singleton] at h
    have hentry : (entryOf drifting).readBack = entryOf drifting := h.symm
    have hseconds : Json.rereadOrSame drifting = drifting :=
      (List.cons.inj (congrArg (·.settings.segmentDurations) hentry)).1
    exact absurd hseconds (by decide +kernel)

open Crowd in
/-- **Otherwise an addition is undone**: one that was given up while it replaced the ledger goes on
behind another one that has succeeded, and the ledger lists only the entry that nobody waits for.
Nor is an entry listed, with nobody given up, of which a length is not read back. -/
theorem addition_undone : (Sound plain pair bare.here bare.circumstances [] ∧
    ∃ s : Crowd Bool, Steps plain pair (fun _ => True) (fresh bare) s ∧
      s.visit true = .returned (.ok ()) ∧
      ∃ es, (plain.list.run s.machine).1 = .ok es ∧ pair true ∉ es) ∧
    (entryOf drifting).Finite ∧
    ∃ s : Crowd Unit, Steps plain (fun _ => entryOf drifting) Settled (fresh bare) s ∧
      s.visit () = .returned (.ok ()) ∧
      ∃ es, (plain.list.run s.machine).1 = .ok es ∧ entryOf drifting ∉ es := by
  refine ⟨⟨sound_bare, ?_⟩, ?_, ?_⟩
  · have hload : (plain.load.run bare).1 = .ok (.entries []) := by
      have hmissing : bare.files.read bare.here plain.path = .error .missing := rfl
      rw [plain.load_run rfl, hmissing]
      rfl
    have hok : ((plain.append (pair true)).run bare.tick).1 = .ok () := rfl
    obtain ⟨s, hrun, hmachine, hvisit⟩ :=
      @steps_overtaken Bool _ plain pair (fresh bare) false true Bool.false_ne_true rfl rfl rfl []
        (List.forall_mem_singleton.mpr rfl) hload
    rw [List.nil_append] at hmachine
    have hlist : (plain.list.run s.machine).1 = .ok [pair false] := hmachine ▸ list_overtaken
    refine ⟨s, hrun, hvisit.trans (congrArg Visit.returned hok), _, hlist, fun h => ?_⟩
    have hseconds := congrArg (·.settings.segmentDurations) (List.mem_singleton.mp h)
    exact absurd hseconds (by decide)
  · show ∀ x ∈ (entryOf drifting).lengths, Scalar.isFinite x = true
    decide +kernel
  · have hok : ((plain.append (entryOf drifting)).run bare).1 = .ok () := rfl
    have hrun : Steps plain (fun _ => entryOf drifting) Settled (fresh bare) _ :=
      steps_addition (i := ()) rfl rfl fun _ _ _ h => nomatch h
    refine ⟨_, hrun, ?_, list_drifting⟩
    dsimp only
    rw [Function.update_self]
    exact congrArg Visit.returned hok

end Ledger

end Slideshow
