import Mathlib.Data.List.Infix
import Mathlib.Data.List.Nodup
import Mathlib.Logic.Function.Basic
import Mathlib.Logic.Relation
import Slideshow.Proofs.Ledger.Refusal
import Slideshow.Proofs.Ledger.Store

/-!
# A ledger that several add to

Any number of additions (`append`) go on at once, one step at a time and in any order, but each has
to take the lock before its first step and gives it back after its last; readers (`list`) need no
lock. An addition reads the list and writes a longer one, so that without the lock one would undo
the other. With it readers see the entries of the additions that succeed, in the order in which
these had the lock, and ever more of them.

* `Ledger.Shared` is where everybody is, `Ledger.Shared.Step` what can be next.
* `Ledger.Shared.added` are the entries that were added, `Ledger.Shared.readings` what readers were
  told.
* `Ledger.Shared.Phase`: nobody has the lock, or one does, and nothing but its last step changes
  what the ledger says.
* `Step.consistent`: what every step keeps.

Headlines:
* **`Ledger.shared_ledger_consistent`**: readers see prefixes of what is added, and nothing is lost.
* **`Ledger.shared_ledger_refused`**: where the path goes up again a reader is refused, and where
  the ledger has a name that is drawn for a temporary file one sees an entry that is not added.
-/

namespace Slideshow.Ledger

open FileTree Machine Thread

/-- Where an addition is. -/
inductive Stage : Type 1
  /-- It has not had the lock. -/
  | waiting
  /-- It has the lock, and this to do. -/
  | running (rest : Thread (Except Error Unit))
  /-- It has given the lock back. -/
  | returned (r : Except Error Unit)

/-- An addition has succeeded, and may have to give the lock back. -/
def Stage.succeeded : Stage → Bool
  | .running (.done (.ok _)) => true
  | .returned (.ok _) => true
  | _ => false

/-- A ledger, those who add to it and those who read it. -/
structure Shared (ι : Type) where
  machine : Machine
  /-- Who has the lock. -/
  holder : Option ι
  stage : ι → Stage
  /-- Who has had the lock, in this order. -/
  order : List ι
  /-- What readers were told, each with the reason why the system refused to read, if it did. -/
  seen : List (Option OsError × Except Error (List LedgerEntry))

namespace Shared

variable {ι : Type} {l : Ledger} {entry : ι → LedgerEntry} {here : Location} {c : Circumstances}
  {initial : List LedgerEntry} {s s' : Shared ι}

/-- Nobody has begun. -/
def fresh (m : Machine) : Shared ι := ⟨m, none, fun _ => .waiting, [], []⟩

@[simp] theorem machine_fresh (m : Machine) : (fresh m : Shared ι).machine = m := rfl

/-- Somebody's next step. -/
inductive Step [DecidableEq ι] (l : Ledger) (entry : ι → LedgerEntry) : Shared ι → Shared ι → Prop
  /-- An addition takes the lock, if that is free. -/
  | take {s : Shared ι} (i : ι) (free : s.holder = none) (waiting : s.stage i = .waiting) :
      Step l entry s { s with
        holder := some i
        stage := Function.update s.stage i (.running (l.appending (entry i)).run)
        order := s.order ++ [i] }
  /-- The one with the lock does one step. -/
  | work {s : Shared ι} (i : ι) {β : Type} {action : Action β}
    {next : β → Thread (Except Error Unit)}
      (running : s.stage i = .running (.step action next)) :
      Step l entry s { s with
        machine := (action s.machine).2
        stage := Function.update s.stage i (.running (next (action s.machine).1)) }
  /-- It gives the lock back. -/
  | release {s : Shared ι} (i : ι) {r : Except Error Unit}
    (finished : s.stage i = .running (.done r)) :
      Step l entry s { s with holder := none, stage := Function.update s.stage i (.returned r) }
  /-- Somebody reads, with or without the lock taken. -/
  | read {s : Shared ι} :
      Step l entry s { s with
        machine := (l.list.run s.machine).2
        seen := s.seen ++
          [(s.machine.circumstances.refusal (s.machine.clock + 1), (l.list.run s.machine).1)] }

/-- The entries of those additions that have succeeded. -/
def addedBy (entry : ι → LedgerEntry) (stage : ι → Stage) (order : List ι) : List LedgerEntry :=
  (order.filter fun i => (stage i).succeeded).map entry

/-- The entries of the additions that have succeeded, in the order in which these had the lock. -/
def added (entry : ι → LedgerEntry) (s : Shared ι) : List LedgerEntry :=
  addedBy entry s.stage s.order

/-- What readers were told whom the system did not refuse. -/
def readings (s : Shared ι) : List (Except Error (List LedgerEntry)) :=
  s.seen.filterMap fun x => if x.1.isNone then some x.2 else none

/-! ## Entries that were added -/

theorem addedBy_concat (entry : ι → LedgerEntry) (stage : ι → Stage) (before : List ι) (i : ι) :
    addedBy entry stage (before ++ [i]) = addedBy entry stage before ++
        if (stage i).succeeded then [entry i] else [] := by
  rw [addedBy, List.filter_append, List.map_append, addedBy]
  cases h : (stage i).succeeded <;> simp [h]

theorem addedBy_update [DecidableEq ι] (entry : ι → LedgerEntry) (stage : ι → Stage)
    {before : List ι} {i : ι} (h : i ∉ before) (x : Stage) :
    addedBy entry (Function.update stage i x) before = addedBy entry stage before := by
  rw [addedBy, addedBy]
  congr 1
  refine List.filter_congr fun j hj => ?_
  rw [Function.update_of_ne (fun heq : j = i => h (heq ▸ hj))]

/-! ## What holds at any time -/

/-- What the files of a machine say. -/
abbrev Told (l : Ledger) (here : Location) (c : Circumstances) (entries : List LedgerEntry) :
    Machine → Prop :=
  Machine.Holds here c (l.Tells here entries)

/-- Nobody has the lock, or one does; the ledger says what has been added by then. -/
inductive Phase (l : Ledger) (entry : ι → LedgerEntry) (here : Location) (c : Circumstances)
    (initial : List LedgerEntry) (s : Shared ι) : Prop
  | free (holder : s.holder = none) (quiet : ∀ i rest, s.stage i ≠ .running rest)
      (told : Told l here c (initial ++ s.added entry) s.machine)
  | held (i : ι) (before : List ι) (rest : Thread (Except Error Unit)) (holder : s.holder = some i)
      (order : s.order = before ++ [i]) (running : s.stage i = .running rest)
      (quiet : ∀ j, j ≠ i → ∀ rest, s.stage j ≠ .running rest)
      (guards : rest.Guards (Told l here c (initial ++ addedBy entry s.stage before))
        (Either (fun _ => Told l here c (initial ++ addedBy entry s.stage before ++ [entry i]))
            fun _ =>
          Told l here c (initial ++ addedBy entry s.stage before)) s.machine)

/-- **Whoever has the lock, the ledger says what has been added.** -/
theorem Phase.told (h : Phase l entry here c initial s) :
    Told l here c (initial ++ s.added entry) s.machine := by
  cases h with
  | free _ _ told => exact told
  | held i before rest _ order running _ guards =>
    rw [added, order, addedBy_concat, running]
    cases rest with
    | done r =>
      cases r with
      | ok _ => rwa [← List.append_assoc]
      | error e =>
        rwa [show (if (Stage.running (.done (.error e))).succeeded = true then [entry i] else []) =
          [] from rfl,
          List.append_nil]
    | step action next =>
      rw [show (if (Stage.running (.step action next)).succeeded = true then [entry i] else []) =
        [] from rfl, List.append_nil]
      exact guards.1

/-- What holds after any number of steps. -/
structure Consistent (l : Ledger) (entry : ι → LedgerEntry) (here : Location) (c : Circumstances)
    (initial : List LedgerEntry) (s : Shared ι) : Prop where
  nodup : s.order.Nodup
  taken : ∀ i, i ∈ s.order ↔ s.stage i ≠ .waiting
  phase : Phase l entry here c initial s
  read : ∃ ps : List (List LedgerEntry), s.readings = ps.map (fun p => .ok (initial ++ p)) ∧
    ps.Pairwise (· <+: ·) ∧
    ∀ p ∈ ps, p <+: s.added entry

/-- What is assumed of the system and of the entries: no temporary file gets the name of the ledger,
and all entries are read back. -/
structure Sound (l : Ledger) (entry : ι → LedgerEntry) (here : Location) (c : Circumstances)
    (initial : List LedgerEntry) :
    Prop where
  apart : l.Apart here c
  valid : (∀ e ∈ initial, e.Valid) ∧ ∀ i, (entry i).Valid
  kept : (∀ e ∈ initial, e.Kept) ∧ ∀ i, (entry i).Kept

theorem mem_addedBy (stage : ι → Stage) (order : List ι) {P : LedgerEntry → Prop}
    (h : (∀ e ∈ initial, P e) ∧ ∀ i, P (entry i)) (i : ι) :
    ∀ e ∈ initial ++ addedBy entry stage order ++ [entry i], P e := by
  intro e he
  rcases List.mem_append.mp he with he | he
  · rcases List.mem_append.mp he with he | he
    · exact h.1 e he
    · obtain ⟨j, -, rfl⟩ := List.mem_map.mp he
      exact h.2 j
  · rw [List.mem_singleton.mp he]
    exact h.2 i

/-- **The steps of an addition change nothing but in the end**: up to there the ledger says what it
said. -/
theorem appending_told (hapart : l.Apart here c) {es : List LedgerEntry} {e : LedgerEntry}
    (hvalid : ∀ x ∈ es ++ [e], x.Valid) (hkept : ∀ x ∈ es ++ [e], x.Kept) {m : Machine}
    (h : Told l here c es m) :
    (l.appending e).run.Guards (Told l here c es)
      (Either (fun _ => Told l here c (es ++ [e])) fun _ => Told l here c es) m := by
  have hhere : here.all isName = true := h.here ▸ m.named
  have htried := appending_tried (tells_survives l es hhere hapart) e m
    ⟨h.here, h.circumstances, h.files, h.files.contents⟩
  refine htried.mono fun r m hm => ?_
  cases r with
  | error e => exact hm
  | ok _ =>
    have hsays := hm.files.readBack hvalid fun x hx => (hkept x hx).legible
    rw [map_readBack hkept] at hsays
    exact ⟨hm.here, hm.circumstances, tells_of_contents hsays.1 hm.files.2.direct hsays.2⟩

theorem appending_guards (hsound : Sound l entry here c initial) (stage : ι → Stage)
    (order : List ι) (i : ι) {m : Machine}
    (h : Told l here c (initial ++ addedBy entry stage order) m) :
    (l.appending (entry i)).run.Guards (Told l here c (initial ++ addedBy entry stage order))
      (Either (fun _ => Told l here c (initial ++ addedBy entry stage order ++ [entry i])) fun _ =>
        Told l here c (initial ++ addedBy entry stage order)) m :=
  appending_told hsound.apart (mem_addedBy stage order hsound.valid i)
    (mem_addedBy stage order hsound.kept i) h

/-! ## What every step keeps -/

/-- Readers have been told no more than is added later. -/
theorem read_grows (hread : ∃ ps : List (List LedgerEntry),
    s.readings = ps.map (fun p => .ok (initial ++ p)) ∧ ps.Pairwise (· <+: ·) ∧
      ∀ p ∈ ps, p <+: s.added entry) (hseen : s'.seen = s.seen)
        (h : s.added entry <+: s'.added entry) :
    ∃ ps : List (List LedgerEntry), s'.readings = ps.map (fun p => .ok (initial ++ p)) ∧
      ps.Pairwise (· <+: ·) ∧
      ∀ p ∈ ps, p <+: s'.added entry := by
  obtain ⟨ps, hps, hpairwise, hfirst⟩ := hread
  exact ⟨ps, by rw [readings, hseen]; exact hps, hpairwise, fun p hp => (hfirst p hp).trans h⟩

section
variable (h : Consistent l entry here c initial s)
include h

/-- What somebody who had the lock does next is no matter for who had it. -/
theorem Consistent.taken_update [DecidableEq ι] {i : ι} (hi : i ∈ s.order) {x : Stage}
    (hx : x ≠ .waiting) (j : ι) :
    j ∈ s.order ↔ Function.update s.stage i x j ≠ .waiting := by
  by_cases hj : j = i
  · subst hj
    rw [Function.update_self]
    exact iff_of_true hi hx
  · rw [Function.update_of_ne hj]
    exact h.taken j

/-- The one that runs has the lock. -/
theorem Consistent.held {i : ι} {rest : Thread (Except Error Unit)}
    (hrunning : s.stage i = .running rest) :
    ∃ before, s.holder = some i ∧ s.order = before ++ [i] ∧ i ∉ before ∧
      (∀ j, j ≠ i → ∀ rest, s.stage j ≠ .running rest) ∧
      rest.Guards (Told l here c (initial ++ addedBy entry s.stage before))
        (Either (fun _ => Told l here c (initial ++ addedBy entry s.stage before ++ [entry i]))
            fun _ =>
          Told l here c (initial ++ addedBy entry s.stage before)) s.machine := by
  cases h.phase with
  | free _ quiet _ => exact absurd hrunning (quiet i rest)
  | held j before rest' holder order running quiet guards =>
    obtain rfl : i = j := by_contra fun hne => quiet i hne rest hrunning
    obtain rfl : rest' = rest := Stage.running.inj (running.symm.trans hrunning)
    have hnodup := h.nodup
    rw [order] at hnodup
    have hnew : i ∉ before := fun hmem =>
      (List.nodup_append.mp hnodup).2.2 i hmem i List.mem_cons_self rfl
    exact ⟨before, holder, order, hnew, quiet, guards⟩

theorem Consistent.take [DecidableEq ι] (hsound : Sound l entry here c initial) {i : ι}
    (free : s.holder = none) (waiting : s.stage i = .waiting) :
    Consistent l entry here c initial { s with
      holder := some i
      stage := Function.update s.stage i (.running (l.appending (entry i)).run)
      order := s.order ++ [i] } := by
  have hnew : i ∉ s.order := fun hi => (h.taken i).mp hi waiting
  have hadded : addedBy entry (Function.update s.stage i (.running (l.appending (entry i)).run))
      s.order = s.added entry :=
    addedBy_update entry s.stage hnew _
  refine ⟨?_, fun j => ?_, ?_, read_grows h.read rfl ?_⟩
  · exact List.nodup_append.mpr ⟨h.nodup, List.nodup_singleton i, fun a ha b hb heq =>
      hnew (List.mem_singleton.mp hb ▸ heq ▸ ha)⟩
  · by_cases hj : j = i
    · simp [hj]
    · simpa [hj] using h.taken j
  · cases h.phase with
    | held _ _ _ holder => rw [free] at holder; cases holder
    | free _ quiet told =>
      refine .held i s.order _ rfl rfl (Function.update_self ..) (fun j hj rest => ?_) ?_
      · dsimp only
        rw [Function.update_of_ne hj]
        exact quiet j rest
      · dsimp only
        rw [hadded]
        exact appending_guards hsound s.stage s.order i told
  · show s.added entry <+: addedBy entry _ (s.order ++ [i])
    rw [addedBy_concat, hadded]
    exact List.prefix_append _ _

theorem Consistent.work [DecidableEq ι] {i : ι} {β : Type} {action : Action β}
    {next : β → Thread (Except Error Unit)} (running : s.stage i = .running (.step action next)) :
    Consistent l entry here c initial { s with
      machine := (action s.machine).2
      stage := Function.update s.stage i (.running (next (action s.machine).1)) } := by
  obtain ⟨before, holder, order, hnew, quiet, guards⟩ := h.held running
  have hadded : ∀ x, addedBy entry (Function.update s.stage i x) before =
      addedBy entry s.stage before :=
    addedBy_update entry s.stage hnew
  refine ⟨h.nodup, h.taken_update (by rw [order]; simp) (fun h => nomatch h), ?_,
    read_grows h.read rfl ?_⟩
  · refine .held i before _ holder order (Function.update_self ..) (fun j hj rest => ?_) ?_
    · dsimp only
      rw [Function.update_of_ne hj]
      exact quiet j hj rest
    · dsimp only
      rw [hadded]
      exact guards.2 s.machine (.refl _)
  · have hbefore : s.added entry = addedBy entry s.stage before := by
      rw [added, order, addedBy_concat, running]
      exact List.append_nil _
    show s.added entry <+: addedBy entry _ s.order
    rw [hbefore, order, addedBy_concat, hadded]
    exact List.prefix_append _ _

theorem Consistent.release [DecidableEq ι] {i : ι} {r : Except Error Unit}
    (finished : s.stage i = .running (.done r)) :
    Consistent l entry here c initial
        { s with holder := none, stage := Function.update s.stage i (.returned r) } := by
  obtain ⟨before, -, order, hnew, quiet, -⟩ := h.held finished
  have hadded : addedBy entry (Function.update s.stage i (.returned r)) s.order =
      s.added entry := by
    rw [added, order, addedBy_concat, addedBy_concat, addedBy_update entry s.stage hnew,
      Function.update_self, finished]
    cases r <;> rfl
  refine ⟨h.nodup, h.taken_update (by rw [order]; simp) (fun h => nomatch h), ?_,
    read_grows h.read rfl (hadded ▸ List.prefix_rfl)⟩
  refine .free rfl (fun j rest => ?_) ?_
  · dsimp only
    by_cases hj : j = i
    · subst hj
      rw [Function.update_self]
      exact fun h => nomatch h
    · rw [Function.update_of_ne hj]
      exact quiet j hj rest
  · rw [added, hadded]
    exact h.phase.told

theorem Consistent.reads : Consistent l entry here c initial { s with
    machine := (l.list.run s.machine).2
    seen := s.seen ++
        [(s.machine.circumstances.refusal (s.machine.clock + 1), (l.list.run s.machine).1)] } := by
  have hidle : Idle s.machine (l.list.run s.machine).2 := by
    rw [l.list_tick]
    exact ⟨rfl, rfl, rfl⟩
  refine ⟨h.nodup, h.taken, ?_, ?_⟩
  · cases h.phase with
    | free holder quiet told => exact .free holder quiet (holds_stable _ _ hidle told)
    | held i before rest holder order running quiet guards =>
      refine .held i before rest holder order running quiet
        (guards.idle holds_stable (fun r => ?_) hidle)
      cases r <;> exact holds_stable
  · obtain ⟨ps, hps, hpairwise, hfirst⟩ := h.read
    cases hrefusal : s.machine.circumstances.refusal (s.machine.clock + 1) with
    | some e =>
      refine ⟨ps, ?_, hpairwise, hfirst⟩
      rw [← hps]
      simp [readings, List.filterMap_append]
    | none =>
      refine ⟨ps ++ [s.added entry], ?_, ?_, ?_⟩
      · have htold := h.phase.told
        rw [l.list_run hrefusal, htold.here, htold.files.contents, List.map_append, ← hps]
        simp [readings, List.filterMap_append]
      · exact List.pairwise_append.mpr ⟨hpairwise, List.pairwise_singleton _ _, fun p hp q hq =>
          List.mem_singleton.mp hq ▸ hfirst p hp⟩
      · exact List.forall_mem_append.mpr ⟨hfirst, List.forall_mem_singleton.mpr List.prefix_rfl⟩

end

/-- **What every step keeps.** -/
theorem Step.consistent [DecidableEq ι] (hsound : Sound l entry here c initial)
    (hstep : Step l entry s s') (h : Consistent l entry here c initial s) :
    Consistent l entry here c initial s' := by
  cases hstep with
  | take i free waiting => exact h.take hsound free waiting
  | work i running => exact h.work running
  | release i finished => exact h.release finished
  | read => exact h.reads

theorem fresh_consistent {m : Machine} (hm : Told l here c initial m) :
    Consistent l entry here c initial (fresh m : Shared ι) where
  nodup := List.nodup_nil
  taken _ := by simp [fresh]
  phase := .free rfl (fun _ _ h => nomatch h) (by
    rw [added, addedBy]
    exact (List.append_nil initial).symm ▸ hm)
  read := ⟨[], rfl, .nil, fun _ h => absurd h List.not_mem_nil⟩

/-- **What any number of steps keeps.** -/
theorem run_consistent [DecidableEq ι] (hsound : Sound l entry here c initial) {m : Machine}
    (hm : Told l here c initial m) (hrun : Relation.ReflTransGen (Step l entry) (fresh m) s) :
    Consistent l entry here c initial s := by
  induction hrun with
  | refl => exact fresh_consistent hm
  | tail _ hstep ih => exact hstep.consistent hsound ih

/-! ## Additions that nobody disturbs -/

section
variable [DecidableEq ι]

/-- The one with the lock may do a first part of its steps before anybody else does one. -/
theorem steps_part {β : Type} {i : ι} {part : Thread β} {next : β → Thread (Except Error Unit)} :
    ∀ {s : Shared ι}, s.stage i = .running (part.bind next) →
      Relation.ReflTransGen (Step l entry) s { s with
      machine := (part.run s.machine).2
      stage := Function.update s.stage i (.running (next (part.run s.machine).1)) } := by
  induction part with
  | done b =>
    intro s hrunning
    have hself : Function.update s.stage i (.running (next b)) = s.stage := by
      rw [show Stage.running (next b) = s.stage i from hrunning.symm, Function.update_eq_self]
    show Relation.ReflTransGen _ s { s with stage := Function.update s.stage i (.running (next b)) }
    rw [hself]
  | step action part ih =>
    intro s hrunning
    refine .head (.work i hrunning) ?_
    have hsteps := ih (action s.machine).1 (s := { s with
      machine := (action s.machine).2
      stage := Function.update s.stage i (.running ((part (action s.machine).1).bind next)) })
        (Function.update_self ..)
    rwa [Function.update_idem] at hsteps

/-- So it may do all its steps. -/
theorem steps_alone {i : ι} {rest : Thread (Except Error Unit)} {s : Shared ι}
    (hrunning : s.stage i = .running rest) :
    Relation.ReflTransGen (Step l entry) s { s with
      machine := (rest.run s.machine).2
      stage := Function.update s.stage i (.running (.done (rest.run s.machine).1)) } :=
  steps_part (hrunning.trans (congrArg Stage.running rest.bind_done.symm))

/-- An addition that nobody disturbs is an addition. -/
theorem append_alone {i : ι} {s : Shared ι} (free : s.holder = none)
    (waiting : s.stage i = .waiting) :
    Relation.ReflTransGen (Step l entry) s { s with
      machine := ((l.append (entry i)).run s.machine).2
      stage := Function.update s.stage i (.returned ((l.append (entry i)).run s.machine).1)
      order := s.order ++ [i] } := by
  have hrun : Thread.run (l.appending (entry i)).run = (l.append (entry i)).run :=
    congrArg ExceptT.run (l.alone_appending (entry i))
  refine .head (.take i free waiting)
    (.trans (steps_alone (i := i) (Function.update_self ..)) (.trans (.single (.release i
    (Function.update_self ..))) ?_))
  simp only [Function.update_idem, hrun, ← free]
  exact .refl

end

end Shared

open Shared in
/-- **Nothing is lost, and nobody sees half of an addition.** Any number of additions go on at once,
with any number of readers. Every reader whom the system does not refuse is told what was there
first and the entries of the first additions that succeed, in the order in which they had the lock,
and no fewer than a reader before. Once all additions have succeeded, the ledger lists what was
there first and every entry once, in this order. -/
theorem shared_ledger_consistent {ι : Type} [DecidableEq ι] (l : Ledger) (entry : ι → LedgerEntry)
    {m : Machine} {initial : List LedgerEntry} {s : Shared ι} (hroot : Rooted m.files)
    (hreach : l.Reachable m.here m.files) (hinitial : l.contents m.files m.here = .ok initial)
    (hsound : Sound l entry m.here m.circumstances initial)
    (hrun : Relation.ReflTransGen (Step l entry) (fresh m) s) :
    (∃ ps : List (List LedgerEntry),
      s.readings = ps.map (fun p => .ok (initial ++ p)) ∧ ps.Pairwise (· <+: ·) ∧
        ∀ p ∈ ps, p <+: s.added entry) ∧
    ((∀ i, s.stage i = .returned (.ok ())) → s.order.Nodup ∧ (∀ i, i ∈ s.order) ∧
      (s.machine.circumstances.refusal (s.machine.clock + 1) = none →
        (l.list.run s.machine).1 = .ok (initial ++ s.order.map entry))) := by
  have hconsistent :=
    run_consistent hsound ⟨rfl, rfl, tells_of_reachable hroot hreach hinitial⟩ hrun
  refine ⟨hconsistent.read, fun hdone => ⟨hconsistent.nodup, fun i => ?_, fun hrefusal => ?_⟩⟩
  · rw [hconsistent.taken, hdone]
    exact fun h => nomatch h
  · have hadded : s.added entry = s.order.map entry := by
      rw [added, addedBy, List.filter_eq_self.mpr fun i _ => by rw [hdone]; rfl]
    have htold := hconsistent.phase.told
    rw [l.list_run hrefusal, htold.here, htold.files.contents, hadded]

/-- The names that are drawn are shorter than that of the ledger in the root. -/
theorem apart_plain {here : Location} (hhere : here.all isName = true) (c : Circumstances) :
    plain.Apart here c := by
  intro path hdrawn heq
  obtain ⟨n, hplace⟩ := place_of_drawnIn (by decide) hhere hdrawn
  have hplain : place here plain.path = place here plain.directory ++ ["ledger.json"] := rfl
  rw [hplace, hplain] at heq
  have hname := (List.cons.inj (List.append_cancel_left heq)).1
  have hlength := congrArg (·.toList.length) hname
  rw [String.toList_append, List.length_append, length_drawn] at hlength
  exact absurd hlength (by decide)

/-- Two entries. -/
def pair (second : Bool) : LedgerEntry := entryOf (if second then 5 else 15)

open Shared in
theorem sound_pair {here : Location} (hhere : here.all isName = true) (c : Circumstances)
    {initial : List LedgerEntry} (hvalid : ∀ e ∈ initial, e.Valid) (hkept : ∀ e ∈ initial, e.Kept) :
    Sound plain pair here c initial where
  apart := apart_plain hhere c
  valid := ⟨hvalid, fun _ => entryOf_valid _⟩
  kept := ⟨hkept, fun i => by cases i <;> exact kept_of_lengths (by decide +kernel)⟩

namespace Shared

section
variable {ι : Type} [DecidableEq ι] {l : Ledger} {entry : ι → LedgerEntry} {s : Shared ι}
    {es : List LedgerEntry}

/-- A reader is told what the ledger says. -/
theorem step_read (hallowed : s.machine.circumstances.refusal (s.machine.clock + 1) = none)
    (hcontents : l.contents s.machine.files s.machine.here = .ok es) :
    Step l entry s { s with machine := s.machine.tick, seen := s.seen ++ [(none, .ok es)] } := by
  have hread : Step l entry s _ := .read
  rwa [hallowed, l.list_run hallowed, hcontents] at hread

/-- An addition takes the lock and reads the ledger. -/
theorem steps_loaded {i : ι} (free : s.holder = none) (waiting : s.stage i = .waiting)
    (hload : l.load.run s.machine = (.ok (.entries es), s.machine.tick)) :
    Relation.ReflTransGen (Step l entry) s { s with
      machine := s.machine.tick
      holder := some i
      stage := Function.update s.stage i (.running (l.storing (es ++ [entry i])).run)
      order := s.order ++ [i] } := by
  obtain ⟨next, hnext, hentries⟩ := l.appending_run (entry i)
  have htake : Relation.ReflTransGen (Step l entry) s _ := .single (.take i free waiting)
  rw [hnext] at htake
  have hsteps := htake.trans (steps_part (Function.update_self i _ s.stage))
  have hrun : Thread.run (attempt l.load).run s.machine = _ := hload
  simp only [hrun, hentries, Function.update_idem] at hsteps
  exact hsteps

/-- An addition that has read the ledger stores one more entry and gives the lock back. -/
theorem steps_stored {i : ι} {entries : List LedgerEntry}
    (hrunning : s.stage i = .running (l.storing entries).run) :
    Relation.ReflTransGen (Step l entry) s { s with
      machine := ((l.store entries).run s.machine).2
      holder := none
      stage := Function.update s.stage i (.returned ((l.store entries).run s.machine).1) } := by
  have hrun : Thread.run (l.storing entries).run = (l.store entries).run :=
    congrArg ExceptT.run (l.alone_storing entries)
  have hsteps : Relation.ReflTransGen (Step l entry) s _ :=
    (steps_alone hrunning).tail (.release i (Function.update_self ..))
  rwa [Function.update_idem, hrun] at hsteps

end

end Shared

open Shared in
/-- Two additions, with a reader before them, one after the first has read the ledger, one when it
has succeeded, and one in the end. -/
theorem steps_interleaved {ι : Type} [DecidableEq ι] {l : Ledger} {entry : ι → LedgerEntry}
    {m : Machine} {before : List LedgerEntry} {i j : ι} (hij : i ≠ j) (hsome : before ≠ [])
    (hallowed : ∀ clock, m.circumstances.refusal clock = none) (hroot : Rooted m.files)
    (hbefore : l.contents m.files m.here = .ok before) (hvalid : ∀ i, (entry i).Valid)
    (hkept : ∀ e ∈ before ++ [entry i] ++ [entry j], e.Kept)
    (hfirst : ((l.store (before ++ [entry i])).run m.tick.tick.tick).1 = .ok ())
    (hsecond : ((l.store (before ++ [entry i] ++ [entry j])).run
      ((l.store (before ++ [entry i])).run m.tick.tick.tick).2.tick.tick).1 = .ok ()) :
    ∃ s : Shared ι, Relation.ReflTransGen (Step l entry) (fresh m) s ∧
      s.stage i = .returned (.ok ()) ∧
      s.stage j = .returned (.ok ()) ∧ s.order = [i, j] ∧
      s.readings =
        [.ok before, .ok before, .ok (before ++ [entry i]),
          .ok (before ++ [entry i] ++ [entry j])] ∧
      s.machine.circumstances = m.circumstances := by
  obtain ⟨-, hstate⟩ :=
    append_ok (l := l) (m := m.tick.tick) hsome hallowed hroot hbefore (hvalid i)
    (fun e he => hkept e (List.mem_append_left _ he)) hfirst
  generalize hm₁ : ((l.store (before ++ [entry i])).run m.tick.tick.tick).2 = m₁ at hstate hsecond
  have hallowed₁ : ∀ clock, m₁.circumstances.refusal clock = none := fun clock => by
    rw [hstate.circumstances]
    exact hallowed clock
  have hcontents₁ : l.contents m₁.files m₁.here = .ok (before ++ [entry i]) := by
    rw [hstate.here]
    exact hstate.files.2
  obtain ⟨hrun₂, hstate₂⟩ :=
    append_ok (l := l) (m := m₁.tick) (List.append_ne_nil_of_left_ne_nil hsome _) hallowed₁
    hstate.files.1 hcontents₁ (hvalid j) hkept hsecond
  generalize ((l.store (before ++ [entry i] ++ [entry j])).run m₁.tick.tick).2 = m₂ at hrun₂ hstate₂
  have hallowed₂ : ∀ clock, m₂.circumstances.refusal clock = none := fun clock => by
    rw [hstate₂.circumstances]
    exact hallowed₁ clock
  have hload : l.load.run m.tick = (.ok (.entries before), m.tick.tick) :=
    l.load_entries (m := m.tick) (hallowed _) hsome hbefore
  have hcontents₂ : l.contents m₂.files m₂.here = .ok (before ++ [entry i] ++ [entry j]) := by
    rw [hstate₂.here]
    exact hstate₂.files.2
  -- a reader, the first half of the first addition, a reader, and the other half
  have hsteps : Relation.ReflTransGen (Step l entry) (fresh m) _ :=
    .single (step_read (hallowed _) hbefore)
  replace hsteps := hsteps.trans (steps_loaded (i := i) rfl rfl hload)
  replace hsteps := hsteps.tail (step_read (hallowed _) hbefore)
  replace hsteps := hsteps.trans (steps_stored (i := i) (Function.update_self ..))
  have hstored : (l.store (before ++ [entry i])).run m.tick.tick.tick = (.ok (), m₁) :=
    Prod.ext hfirst hm₁
  simp only [machine_fresh, hstored, Function.update_idem] at hsteps
  -- a reader, the second addition and a reader
  replace hsteps := hsteps.tail (step_read (hallowed₁ _) hcontents₁)
  replace hsteps := hsteps.trans (append_alone (i := j) rfl (Function.update_of_ne hij.symm ..))
  simp only [hrun₂] at hsteps
  replace hsteps := hsteps.tail (step_read (hallowed₂ _) hcontents₂)
  refine ⟨_, hsteps, (Function.update_of_ne hij ..).trans (Function.update_self ..),
    Function.update_self .., rfl, rfl, ?_⟩
  exact hstate₂.circumstances.trans hstate.circumstances

open Shared in
/-- Two entries are added to a ledger with one, and readers come between. -/
theorem shared_ledger_consistent_pair : ∃ s : Shared Bool,
    Relation.ReflTransGen (Step plain pair) (fresh stocked) s ∧
    (∀ i, s.stage i = .returned (.ok ())) ∧ s.order = [true, false] ∧
    s.readings = [.ok [entryOf 20], .ok [entryOf 20], .ok [entryOf 20, pair true],
      .ok [entryOf 20, pair true, pair false]] ∧
    (∃ ps : List (List LedgerEntry),
      s.readings = ps.map (fun p => .ok ([entryOf 20] ++ p)) ∧ ps.Pairwise (· <+: ·) ∧
        ∀ p ∈ ps, p <+: s.added pair) ∧
    (plain.list.run s.machine).1 = .ok ([entryOf 20] ++ s.order.map pair) := by
  have hsound : Sound plain pair stocked.here stocked.circumstances [entryOf 20] :=
    sound_pair rfl _ (List.forall_mem_singleton.mpr (entryOf_valid 20)) kept_stocked
  have hkept : ∀ e ∈ [entryOf 20] ++ [pair true] ++ [pair false], e.Kept := by
    simp only [List.forall_mem_append, List.forall_mem_singleton]
    exact ⟨⟨kept_stocked _ List.mem_cons_self, hsound.kept.2 true⟩, hsound.kept.2 false⟩
  have hallowed : ∀ clock, stocked.circumstances.refusal clock = none := fun _ => rfl
  obtain ⟨s, hrun, htrue, hfalse, horder, hreadings, hsame⟩ :=
    steps_interleaved (i := true) (j := false) (by decide) (List.cons_ne_nil _ _) hallowed
      (rooted_holding _) contents_stocked hsound.valid.2 hkept rfl rfl
  obtain ⟨hread, hlist⟩ :=
    shared_ledger_consistent plain pair (rooted_holding _) (reachable_plain _ _) contents_stocked
      hsound hrun
  have hdone : ∀ i, s.stage i = .returned (.ok ()) := fun i => by cases i <;> assumption
  refine ⟨s, hrun, hdone, horder, hreadings, hread, (hlist hdone).2.2 ?_⟩
  rw [hsame, hallowed]

open Shared in
/-- A reader that comes when the temporary file is full, and one that comes when the addition is
over. -/
theorem steps_glimpse {ι : Type} [DecidableEq ι] {l : Ledger} {entry : ι → LedgerEntry} {i : ι}
    {temporary : String} {m m₁ m₂ m₃ m₄ : Machine} {es es' : List LedgerEntry}
    (htext : (entry i).HasText) (hload : l.load.run m = (.ok (.entries []), m.tick))
    (hdirectories : Machine.makeDirectories l.directory m.tick = (.ok (), m₁))
    (htemporary : Machine.makeTemporaryFile l.directory m₁ = (.ok temporary, m₂))
    (hwrite : Machine.write temporary (.ofText (render [entry i])) m₂ = (.ok (), m₃))
    (hfinish : ((l.finishing temporary).run m₃.tick).2 = m₄)
    (hallowed : m₃.circumstances.refusal (m₃.clock + 1) = none)
    (hcontents : l.contents m₃.files m₃.here = .ok es)
    (hallowed' : m₄.circumstances.refusal (m₄.clock + 1) = none)
    (hcontents' : l.contents m₄.files m₄.here = .ok es') :
    ∃ s : Shared ι, Relation.ReflTransGen (Step l entry) (fresh m) s ∧
        s.readings = [.ok es, .ok es'] := by
  obtain ⟨next, second, third, hnext, hsecond, hthird⟩ :=
    l.replacing_run (.ofText (render [entry i]))
  have hstoring : (l.storing ([] ++ [entry i])).run =
      (l.replacing (.ofText (render [entry i]))).run := by
    have hserialized := serialized_eq_ok_iff.mpr ⟨List.forall_mem_singleton.mpr htext, rfl⟩
    rw [List.nil_append, storing, hserialized]
    rfl
  have hsteps : Relation.ReflTransGen (Step l entry) (fresh m) _ :=
    steps_loaded (i := i) rfl rfl hload
  rw [hstoring, hnext] at hsteps
  replace hsteps := hsteps.trans (steps_part (Function.update_self ..))
  have hdirectories' : Thread.run
    (orSystem (makingDirectories l.directory) ("create ledger dir " ++ l.directory)).run
      m.tick = (.ok (), m₁) := by
    rw [← run_alone, alone_orSystem, makingDirectories_run]
    exact Action.orSystem_ok hdirectories _
  have htemporary' := Action.orSystem_ok htemporary ("write ledger " ++ l.path)
  have hwrite' := Action.orSystem_ok hwrite ("write ledger " ++ l.path)
  simp only [machine_fresh, hdirectories', hsecond, Function.update_idem] at hsteps
  replace hsteps := hsteps.trans (steps_part (Function.update_self ..))
  simp only [← run_alone, alone_attempt, htemporary', (hthird temporary).1,
    Function.update_idem] at hsteps
  replace hsteps := hsteps.trans (steps_part (Function.update_self ..))
  simp only [← run_alone, alone_attempt, hwrite', (hthird temporary).2,
    Function.update_idem] at hsteps
  replace hsteps := hsteps.tail (step_read hallowed hcontents)
  replace hsteps := hsteps.trans (steps_alone (i := i) (Function.update_self ..))
  simp only [hfinish] at hsteps
  exact ⟨_, hsteps.tail (step_read hallowed' hcontents'), rfl⟩

theorem read_of_write {path : String} {content : Content} {m m' : Machine}
    (h : Machine.write path content m = (.ok (), m')) :
    m'.files.read m'.here path = .ok content := by
  have hwrite : Ensures (Machine.Holds m.here m.circumstances fun _ => True)
      (Machine.write path content)
      (Either (fun _ => Machine.Holds m.here m.circumstances fun t =>
          t.find m.here path = .ok (place m.here path, .file content))
        fun _ => Machine.Holds m.here m.circumstances fun _ => True) :=
    writing_either (fun _ hcontent hu => by cases hcontent; exact write_find hu) id
      fun _ _ => trivial
  have hfound := hwrite m ⟨rfl, rfl, trivial⟩
  rw [h] at hfound
  rw [FileTree.read, hfound.here, hfound.files]

/-- A ledger with a name that is drawn for a temporary file. -/
def namesake : Ledger := ⟨"/.tmp000000"⟩

/-- A machine without files on which the sixth step is refused, to sync. -/
def unsynced : Machine :=
  { bare with circumstances := { bare.circumstances with
      refusal := fun clock => if clock = 6 then some .denied else none
      truthful := fun clock => by split <;> simp } }

/-- That machine when there is a temporary file. -/
@[irreducible]
def unsyncedOpened : Machine :=
  (Machine.makeTemporaryFile namesake.directory
    (Machine.makeDirectories namesake.directory unsynced.tick).2).2

/-- That machine when the temporary file is full. -/
@[irreducible]
def unsyncedFilled : Machine :=
  (Machine.write namesake.path (.ofText (render [entryOf 15])) unsyncedOpened).2

/-- That machine when the addition is over. -/
@[irreducible]
def unsyncedOver : Machine := ((namesake.finishing namesake.path).run unsyncedFilled.tick).2

theorem open_unsynced : Machine.makeTemporaryFile namesake.directory
    (Machine.makeDirectories namesake.directory unsynced.tick).2 =
      (.ok namesake.path, unsyncedOpened) := by
  have hok : (Machine.makeTemporaryFile namesake.directory
      (Machine.makeDirectories namesake.directory unsynced.tick).2).1 = .ok namesake.path := rfl
  unfold unsyncedOpened
  exact Prod.ext hok rfl

theorem fill_unsynced : Machine.write namesake.path (.ofText (render [entryOf 15])) unsyncedOpened =
    (.ok (), unsyncedFilled) := by
  have hok : (Machine.write namesake.path (.ofText (render [entryOf 15])) unsyncedOpened).1 =
      .ok () := by
    decide +kernel
  unfold unsyncedFilled
  exact Prod.ext hok rfl

theorem contents_unsyncedFilled :
    namesake.contents unsyncedFilled.files unsyncedFilled.here = .ok [entryOf 15] := by
  have hkept : ∀ e ∈ [entryOf 15], e.Kept :=
    List.forall_mem_singleton.mpr (kept_of_lengths (by decide +kernel))
  have hread := contents_of_read (l := namesake) (List.forall_mem_singleton.mpr (entryOf_valid 15))
    (fun e he => (hkept e he).legible) (List.forall_mem_singleton.mpr rfl)
      (read_of_write fill_unsynced)
  rwa [map_readBack hkept] at hread

theorem contents_unsyncedOver :
    namesake.contents unsyncedOver.files unsyncedOver.here = .ok [] := by
  have hmissing : unsyncedOver.files.read unsyncedOver.here namesake.path = .error .missing := by
    decide +kernel
  rw [contents, hmissing]
  rfl

open Shared in
/-- A reader of such a ledger sees the temporary file. -/
theorem namesake_glimpse : ∃ s : Shared Unit,
    Relation.ReflTransGen (Step namesake fun _ => entryOf 15) (fresh unsynced) s ∧
    s.readings = [.ok [entryOf 15], .ok []] := by
  have hload : namesake.load.run unsynced = (.ok (.entries []), unsynced.tick) := by
    have hmissing : unsynced.files.read unsynced.here namesake.path = .error .missing := rfl
    rw [namesake.load_run rfl, hmissing]
    rfl
  have hdirectories : (Machine.makeDirectories namesake.directory unsynced.tick).1 = .ok () := rfl
  have hallowed : unsyncedFilled.circumstances.refusal (unsyncedFilled.clock + 1) = none := by
    decide +kernel
  have hallowed' : unsyncedOver.circumstances.refusal (unsyncedOver.clock + 1) = none := by
    decide +kernel
  have hover : ((namesake.finishing namesake.path).run unsyncedFilled.tick).2 = unsyncedOver := by
    unfold unsyncedOver
    rfl
  exact steps_glimpse (i := ()) rfl hload
    (Prod.ext hdirectories rfl) open_unsynced fill_unsynced hover hallowed
    contents_unsyncedFilled hallowed' contents_unsyncedOver

open Shared in
/-- **Where the path goes up again a reader is refused**: one is told that there are no entries, an
addition fails, and the next one is told nothing. **Where a drawn name is that of the ledger**, a
reader is told of an entry that is not added, and the next one is not. -/
theorem shared_ledger_refused :
    (∃ s : Shared Unit,
      Relation.ReflTransGen (Step upward fun _ => entryOf 15) (fresh bare) s ∧
      s.readings = [.ok [], .error (upward.unreadable .isDirectory)]) ∧
    ∃ s : Shared Unit,
      Relation.ReflTransGen (Step namesake fun _ => entryOf 15) (fresh unsynced) s ∧
      s.readings = [.ok [entryOf 15], .ok []] := by
  refine ⟨?_, namesake_glimpse⟩
  -- the first reader comes before the addition, the second after it
  have hread : Relation.ReflTransGen (Step upward fun _ : Unit => entryOf 15) (fresh bare) _ :=
    .single .read
  have happend := hread.trans (append_alone (i := ()) rfl rfl)
  refine ⟨_, happend.trans (.single .read), ?_⟩
  have hrefusal : bare.circumstances.refusal (bare.clock + 1) = none := rfl
  simp only [readings, fresh, upward.list_tick bare, upward_before, upward_after, upward_refusal,
    hrefusal]
  rfl

end Slideshow.Ledger
