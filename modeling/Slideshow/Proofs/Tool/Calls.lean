import Slideshow.Ledger.Store
import Slideshow.Machine.Workspace
import Slideshow.Narration.Probe
import Slideshow.Proofs.Machine.Steps
import Slideshow.Proofs.Machine.Place

/-!
# What is seen of programs

A run of a command is seen from outside: its program starts and ends, or it is killed, or it is not
started. Nothing else that is done on a machine is seen in that way, so that what is seen tells in
which order commands are run. A captured program that is cut off is killed, and nobody waits until
it is gone.

* `Attempt` is a run of a command with its result, `Attempt.seen` what is seen of it.
* `Happening.running` are the programs that were started and have neither ended nor been killed, and
  `Happening.InTurn` says that each is started when there is none.
* `Machine.Public I`: `I` depends on what is seen of programs, not on the files and not on the
  clock.
* `Machine.Made here c before made`: these runs were made since something was seen, and no others.

Headlines:
* `makeDirectories_public`, `create_public`, `append_public`, …: other work is not seen.
* **`run_made`**: a run of a command is one attempt, and no more is seen than that.
* **`Attempt.inTurn`**: attempts one after another are seen in turn.
-/

namespace Slideshow

open FileTree

/-- A run of a command: whether it is captured, where its program stands, if it was started, and how
it went. -/
structure Attempt where
  command : Command
  captured : Bool
  place : Location
  result : Except OsError Outcome

namespace Attempt

/-- What is seen of a run: the program starts, and ends or is killed, or it is not started. -/
def seen (a : Attempt) : List Happening :=
  match a.result with
  | .ok outcome =>
    [.started ⟨a.place, a.command.arguments⟩,
      Machine.ending a.captured ⟨a.place, a.command.arguments⟩ outcome]
  | .error e => [.refused a.command.program a.command.arguments e]

/-- A program with a path stands at its place. -/
def Found (here : Location) (a : Attempt) : Prop :=
  a.command.program.toList.contains '/' = true → ∀ outcome, a.result = .ok outcome →
    a.place = FileTree.place here a.command.program

/-- The token stopped it. -/
def Stopped (a : Attempt) : Prop := ∃ run, a.result = .ok (.stopped run)

/-- Its program was killed, and nobody has waited until it was gone. -/
def Abandoned (a : Attempt) : Prop := ∃ call outcome, .killed call outcome ∈ a.seen

/-- Only a captured program is abandoned, and only when it is cut off. -/
theorem Abandoned.cut {a : Attempt} (h : a.Abandoned) : a.captured = true ∧
    ((∃ run, a.result = .ok (.timedOut run)) ∨ a.Stopped) := by
  obtain ⟨call, outcome, hmem⟩ := h
  unfold seen at hmem
  cases hresult : a.result with
  | error e => simp [hresult] at hmem
  | ok o =>
    cases hcaptured : a.captured with
    | false => cases o <;> simp [hresult, hcaptured, Machine.ending] at hmem
    | true =>
      cases o with
      | finished run => simp [hresult, Machine.ending] at hmem
      | timedOut run => exact ⟨rfl, .inl ⟨run, rfl⟩⟩
      | stopped run => exact ⟨rfl, .inr ⟨run, hresult⟩⟩

/-- It came to a good end, all that it said could be read. -/
def Succeeded (a : Attempt) : Prop := ∃ said, a.command.followed a.result = .ok said

theorem Succeeded.not_stopped {a : Attempt} (h : a.Succeeded) : ¬a.Stopped := by
  rintro ⟨run, hrun⟩
  obtain ⟨said, hsaid⟩ := h
  rw [hrun] at hsaid
  cases hsaid

end Attempt

/-! ## One at a time -/

namespace Happening

/-- The programs that run when some ran before and something is seen of one. -/
def running (before : List Call) : Happening → List Call
  | .started c => c :: before
  | .ended c _ | .killed c _ => before.erase c
  | .refused .. => before

end Happening

namespace Machine

/-! ## What is not seen -/

/-- Nothing was seen of programs on the way to a machine. -/
structure Unheard (m m' : Machine) : Prop where
  here : m'.here = m.here
  circumstances : m'.circumstances = m.circumstances
  happenings : m'.happenings = m.happenings

/-- What depends only on what is seen of programs. -/
def Public (I : Machine → Prop) : Prop := ∀ {m m'}, Unheard m m' → I m → I m'

theorem step_unheard (change : FileTree → Location → Except OsError FileTree) (m : Machine) :
    Unheard m (step change m).2 := by
  unfold step
  dsimp only
  split
  · exact ⟨rfl, rfl, rfl⟩
  · split <;> exact ⟨rfl, rfl, rfl⟩

theorem look_unheard {α : Type} (view : FileTree → Location → Except OsError α) (m : Machine) :
    Unheard m (look view m).2 := by
  unfold look
  dsimp only
  split <;> exact ⟨rfl, rfl, rfl⟩

theorem writing_unheard (path : String) (found : FileTree → Location → Except OsError Content)
    (m : Machine) : Unheard m (writing path found m).2 := by
  have hleft : ∀ c, Unheard m (m.tick.spill path c) := fun c => by
    unfold spill
    split
    · exact ⟨rfl, rfl, rfl⟩
    · split <;> exact ⟨rfl, rfl, rfl⟩
  unfold writing
  dsimp only
  split
  · exact ⟨rfl, rfl, rfl⟩
  · split
    · exact hleft _
    · split <;> exact ⟨rfl, rfl, rfl⟩

theorem removeFile_unheard (path : String) (m : Machine) : Unheard m (removeFile path m).2 := by
  unfold removeFile
  dsimp only
  split
  · exact ⟨rfl, rfl, rfl⟩
  · split <;> exact ⟨rfl, rfl, rfl⟩

theorem removeDirectory_unheard (path : String) (m : Machine) :
    Unheard m (removeDirectory path m).2 := by
  unfold removeDirectory
  dsimp only
  split <;> exact ⟨rfl, rfl, rfl⟩

theorem makeTemporary_unheard (directory opening : String)
    (make : FileTree → Location → String → Except OsError FileTree) (m : Machine) :
    Unheard m (makeTemporary directory opening make m).2 := by
  unfold makeTemporary
  dsimp only
  split
  · exact ⟨rfl, rfl, rfl⟩
  · split
    · exact ⟨rfl, rfl, rfl⟩
    · split <;> exact ⟨rfl, rfl, rfl⟩

section
variable {I : Machine → Prop} (hI : Public I)
include hI

theorem Public.timeless : Timeless I where
  tick m hm := hI (⟨rfl, rfl, rfl⟩ : Unheard m m.tick) hm
  await m hm := hI (⟨rfl, rfl, rfl⟩ : Unheard m m.await) hm

theorem Public.ensures {α : Type} {action : Action α} (h : ∀ m, Unheard m (action m).2) :
    Ensures I action fun _ => I :=
  fun m hm => hI (h m) hm

theorem makeDirectories_public (path : String) : Ensures I (makeDirectories path) fun _ => I :=
  makeDirectoriesWithin_keeps (fun _ => hI.ensures (step_unheard _)) _ path

end

end Machine

open Machine

section
variable {I : Machine → Prop} (hI : Public I)
include hI

theorem Workspace.create_public (root opening : String) : Keeps I (create root opening) :=
  .bind (Action.orSystem_tries (makeDirectories_public hI root) _) fun _ =>
    .bind (Action.orSystem_tries (hI.ensures (makeTemporary_unheard _ _ _)) _) fun _ =>
      .pure _ fun _ hm => hm

theorem Workspace.close_public (w : Workspace) : Keeps I w.close :=
  Action.orSystem_tries (hI.ensures (removeDirectory_unheard _)) _

namespace Ledger

theorem load_public (l : Ledger) : Keeps I l.load :=
  Ensures.bind (hI.ensures (look_unheard _)) fun c => .pure _ fun m hm => by
    cases h : l.loaded c <;> exact hm

theorem replace_public (l : Ledger) (c : Content) : Keeps I (l.replace c) := by
  have hstep : ∀ change context, Keeps I (Action.orSystem (step change) context) := fun _ _ =>
    Action.orSystem_tries (hI.ensures (step_unheard _)) _
  have hwrite : ∀ path context, Keeps I (Action.orSystem (write path c) context) := fun _ _ =>
    Action.orSystem_tries (hI.ensures (writing_unheard _ _)) _
  refine .bind (Action.orSystem_tries (makeDirectories_public hI _) _) fun _ => ?_
  refine .bind (Action.orSystem_tries (hI.ensures (makeTemporary_unheard _ _ _)) _) fun temporary =>
    ?_
  have hstored : Keeps I (do
      Action.orSystem (write temporary c) ("write ledger " ++ l.path)
      Action.orSystem sync ("write ledger " ++ l.path)
      Action.orSystem (rename temporary l.path) ("write ledger " ++ l.path)) :=
    .bind (hwrite _ _) fun _ => .bind (hstep _ _) fun _ => hstep _ _
  refine Ensures.bind hstored.run fun stored => ?_
  split
  · exact .pure _ fun _ hm => hm
  · exact .bind (hI.ensures (removeFile_unheard _)) fun _ => .pure _ fun _ hm => hm

theorem store_public (l : Ledger) (entries : List LedgerEntry) : Keeps I (l.store entries) :=
  .bind (.ofExcept (fun _ _ _ hm => hm) fun _ _ _ hm => hm) fun _ => l.replace_public hI _

theorem append_public (l : Ledger) (entry : LedgerEntry) : Keeps I (l.append entry) := by
  refine .bind (l.load_public hI) fun read => ?_
  split
  · exact l.store_public hI _
  · have hmove : Ensures I l.moveAside fun _ => I :=
      .bind (hI.ensures (step_unheard _)) fun _ => .pure _ fun _ hm => hm
    exact .bind (.lift hmove) fun _ => l.store_public hI _

end Ledger

end

/-! ## What is seen -/

namespace Machine

/-- The runs that were made since something was seen, and no others. -/
structure Made (here : Location) (c : Circumstances) (before : List Happening) (made : List Attempt)
    (m : Machine) :
    Prop where
  found : ∀ a ∈ made, a.Found here
  here : m.here = here
  circumstances : m.circumstances = c
  happenings : m.happenings = before ++ made.flatMap Attempt.seen

/-- One more run was made; when the token has stopped it, that was seen. -/
def Ran (here : Location) (c : Circumstances) (before : List Happening) (made : List Attempt)
    (a : Attempt) (m : Machine) : Prop :=
  m.Made here c before (made ++ [a]) ∧ (a.Stopped → m.noticed = true)

variable {here : Location} {c : Circumstances} {before : List Happening} {made : List Attempt}

theorem made_public : Public (Made here c before made) := fun h hm =>
  ⟨hm.found, h.here.trans hm.here, h.circumstances.trans hm.circumstances,
    h.happenings.trans hm.happenings⟩

/-- One more run. -/
theorem Made.concat {m m' : Machine} {a : Attempt} (hm : m.Made here c before made)
    (ha : a.Found here) (hhere : m'.here = m.here)
    (hcircumstances : m'.circumstances = m.circumstances)
    (hseen : m'.happenings = m.happenings ++ a.seen) : m'.Made here c before (made ++ [a]) where
  here := hhere.trans hm.here
  circumstances := hcircumstances.trans hm.circumstances
  happenings := by
    rw [hseen, hm.happenings, List.flatMap_append, List.append_assoc, List.flatMap_singleton]
  found := List.forall_mem_append.mpr ⟨hm.found, List.forall_mem_singleton.mpr ha⟩

theorem receive_unheard (m : Machine) (arguments : List String) (made : Option Content) :
    Unheard m (m.receive arguments made) ∧ (m.receive arguments made).noticed = m.noticed := by
  unfold receive
  split
  · split
    · exact ⟨⟨rfl, rfl, rfl⟩, rfl⟩
    · split <;> exact ⟨⟨rfl, rfl, rfl⟩, rfl⟩
  · exact ⟨⟨rfl, rfl, rfl⟩, rfl⟩

theorem startable_place {m : Machine} {program : String} {arguments : List String} {l : Location}
    {behaviour : Program} (h : m.startable program arguments = .ok (l, behaviour))
    (hslash : program.toList.contains '/' = true) :
    l = place m.here program := by
  unfold startable at h
  split at h
  · cases h
  · split at h
    · cases h
    · unfold programNamed at h
      rw [if_pos hslash] at h
      split at h
      · cases h
      · split at h
        · cases h
        · unfold programAt at h
          split at h
          · cases h
          · next hfind =>
            cases h
            exact (find_place hfind).1
          · cases h

/-- A run is stopped only when the token has fired. -/
theorem outcome_stopped {m : Machine} {run early : Run} {watched captured : Bool}
    {timeout : Option Nat} (h : m.outcome run watched captured timeout = .stopped early) :
    m.cancelled = true := by
  unfold outcome at h
  dsimp only at h
  by_cases hcancelled : (watched && m.cancelled) = true
  · exact (Bool.and_eq_true_iff.mp hcancelled).2
  · rw [if_neg hcancelled] at h
    cases timeout with
    | none => cases h
    | some limit =>
      dsimp only at h
      by_cases hlate : limit ≤ run.milliseconds + if captured then run.lingering else 0
      · rw [if_pos hlate] at h
        cases h
      · rw [if_neg hlate] at h
        cases h

section
variable {m : Machine} {k : Command}

theorem ran_refused (captured : Bool) (hm : m.Made here c before made) (e : OsError) :
    Ran here c before made ⟨k, captured, [], .error e⟩
        (m.happen (.refused k.program k.arguments e)) := by
  refine ⟨hm.concat (fun _ outcome h => ?_) rfl rfl rfl, fun ⟨run, h⟩ => nomatch h⟩
  cases h

/-- A program was started and has ended or was killed; between the two the token may have fired. -/
theorem ran_started {l : Location} {outcome : Outcome} (captured : Bool) (written : Option Content)
    (hm : m.Made here c before made)
    (hplace : k.program.toList.contains '/' = true → l = place here k.program)
    (hstopped : ∀ run, outcome = .stopped run →
      (m.happen (.started ⟨l, k.arguments⟩)).await.noticed = true) :
    Ran here c before made ⟨k, captured, l, .ok outcome⟩
      (((m.happen (.started ⟨l, k.arguments⟩)).await.receive k.arguments written).happen
        (ending captured ⟨l, k.arguments⟩ outcome)) := by
  obtain ⟨hunheard, hnoticed⟩ :=
    receive_unheard (m.happen (.started ⟨l, k.arguments⟩)).await k.arguments written
  constructor
  · refine hm.concat (fun hslash _ _ => hplace hslash) hunheard.here hunheard.circumstances ?_
    exact (congrArg (· ++ [_]) hunheard.happenings).trans (List.append_assoc _ _ _)
  · rintro ⟨run, hrun⟩
    exact hnoticed.trans (hstopped run (Except.ok.inj hrun))

end

/-- **A run of a command is one attempt**, and no more is seen than that. -/
theorem run_made (k : Command) (watched captured : Bool) :
    Ensures (Made here c before made) (run k.program k.arguments watched captured (some k.timeout))
      fun result m => ∃ l, Ran here c before made ⟨k, captured, l, result⟩ m := by
  rintro m hm
  have hstart : m.advance.Made here c before made :=
    ⟨hm.found, hm.here, hm.circumstances, hm.happenings⟩
  unfold run
  dsimp only
  split
  · next e _ => exact ⟨[], ran_refused captured hstart e⟩
  · next l behaviour hplace =>
    refine ⟨l, ran_started captured _ hstart (fun hslash => ?_) fun early => outcome_stopped⟩
    rw [← hstart.here]
    exact startable_place hplace hslash

/-- Where the token was not seen to have fired, it has stopped nothing. -/
theorem wasStopped_spec {I : Machine → Prop} {p : Prop} :
    Ensures (fun m => I m ∧ (p → m.noticed = true)) (Probe.wasStopped true) fun stop m =>
      (stop = false → ¬p) ∧ I m := by
  rintro m ⟨hm, hp⟩
  exact ⟨fun hstop h => Bool.false_ne_true (hstop.symm.trans (hp h)), hm⟩

end Machine

end Slideshow
