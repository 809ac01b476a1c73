import Slideshow.Ledger.Store
import Slideshow.Proofs.Ledger.Entry
import Slideshow.Proofs.Machine.Reads
import Slideshow.Proofs.Machine.Steps

/-!
# An addition, step by step

What an addition does to the files, cut into the steps between which others may look at them: the
ledger is read, a file that is none is moved aside, directories and a temporary file are made, the
file is filled, synced and takes the name of the ledger, or is removed again. Up to the step in
which the file takes the name of the ledger, whatever `Survives` its replacement holds between the
steps; what is then read is the new file.

* `Ledger.appending`, `storing`, `replacing` are the steps of `append`, `store` and
  `write_atomically`; `alone_appending`: done without others they are the addition.
* `Ledger.Survives`: what the replacing of a ledger keeps, so that it holds after a failure.
* `load_tells`: what is loaded is what the file says.

Headlines:
* **`Ledger.replacing_tried`**: the new contents are found where the old ones were, wherever the
  temporary file was.
* **`Ledger.appending_tried`**: an entry is added behind those that are there.
-/

namespace Slideshow.Ledger

open FileTree Machine Thread

/-! ## The steps -/

/-- Tries something with a temporary file and removes the file when that fails. -/
def discarding {α : Type} (temporary : String) (trial : ExceptT Error Thread α) :
    ExceptT Error Thread α :=
  ExceptT.mk (do
    match ← trial.run with
    | .ok a => return .ok a
    | .error e =>
      let _ ← once (Machine.removeFile temporary)
      return .error e)

/-- The steps in which the file is replaced by one with new contents. -/
def replacing (l : Ledger) (content : Content) : ExceptT Error Thread Unit := do
  let context := "write ledger " ++ l.path
  orSystem (makingDirectories l.directory) ("create ledger dir " ++ l.directory)
  let temporary ← attempt (Action.orSystem (Machine.makeTemporaryFile l.directory) context)
  discarding temporary (do
    attempt (Action.orSystem (Machine.write temporary content) context)
    attempt (Action.orSystem Machine.sync context)
    attempt (Action.orSystem (Machine.rename temporary l.path) context))

/-- The steps in which the file is replaced by one with other entries. -/
def storing (l : Ledger) (entries : List LedgerEntry) : ExceptT Error Thread Unit := do
  l.replacing (.ofText (← Thread.ofExcept (serialized entries)))

/-- The steps in which an entry is added. -/
def appending (l : Ledger) (entry : LedgerEntry) : ExceptT Error Thread Unit := do
  match ← attempt l.load with
  | .entries es => l.storing (es ++ [entry])
  | .corrupt =>
    attempt (l.moveAside : Action Unit)
    l.storing [entry]

/-- An addition reads the ledger and then stores one more entry. -/
theorem appending_run (l : Ledger) (entry : LedgerEntry) : ∃ next,
    (l.appending entry).run = (attempt l.load).run.bind next ∧
      ∀ es, next (.ok (.entries es)) = (l.storing (es ++ [entry])).run :=
  ⟨_, rfl, fun _ => rfl⟩

/-- What is left to do of a replacement when its temporary file is full. -/
def finishing (l : Ledger) (temporary : String) : Thread (Except Error Unit) :=
  (discarding temporary (do
    attempt (Action.orSystem Machine.sync ("write ledger " ++ l.path))
    attempt (Action.orSystem (Machine.rename temporary l.path) ("write ledger " ++ l.path)))).run

/-- A replacement makes directories and a temporary file, fills it, and then syncs it and gives it
the name of the ledger. -/
theorem replacing_run (l : Ledger) (content : Content) :
    ∃ (next : Except Error Unit → Thread (Except Error Unit))
    (second : Except Error String → Thread (Except Error Unit))
    (third : String → Except Error Unit → Thread (Except Error Unit)),
    (l.replacing content).run =
      (orSystem (makingDirectories l.directory) ("create ledger dir " ++ l.directory)).run.bind
        next ∧
    next (.ok ()) =
      (attempt
        (Action.orSystem (makeTemporaryFile l.directory) ("write ledger " ++ l.path))).run.bind
          second ∧
    ∀ temporary, second (.ok temporary) =
        (attempt (Action.orSystem (write temporary content) ("write ledger " ++ l.path))).run.bind
          (third temporary) ∧
      third temporary (.ok ()) = l.finishing temporary :=
  ⟨_, _, _, rfl, rfl, fun _ => ⟨rfl, rfl⟩⟩

theorem alone_discarding {α : Type} (temporary : String) (trial : ExceptT Error Thread α) :
    alone (discarding temporary trial) = orDiscard temporary (alone trial) := by
  show Thread.run (trial.run >>= _) = (alone trial).run >>= _
  rw [run_bind]
  refine congrArg (Thread.run trial.run >>= ·) (funext fun r => ?_)
  cases r with
  | ok a => rfl
  | error e =>
    dsimp only
    rw [run_bind, run_once]
    rfl

theorem alone_replacing (l : Ledger) (content : Content) :
    alone (l.replacing content) = l.replace content := by
  rw [replacing, replace, alone_bind, alone_orSystem, makingDirectories_run]
  refine congrArg (_ >>= ·) (funext fun _ => ?_)
  rw [alone_bind, alone_attempt]
  refine congrArg (_ >>= ·) (funext fun temporary => ?_)
  rw [alone_discarding, alone_bind, alone_attempt]
  refine congrArg (fun f => orDiscard temporary (_ >>= f)) (funext fun _ => ?_)
  rw [alone_bind, alone_attempt]
  exact congrArg (_ >>= ·) (funext fun _ => alone_attempt _)

theorem alone_storing (l : Ledger) (entries : List LedgerEntry) :
    alone (l.storing entries) = l.store entries := by
  rw [storing, store, alone_bind, alone_ofExcept]
  exact congrArg (_ >>= ·) (funext fun _ => l.alone_replacing _)

/-- **Done without others, the steps are the addition.** -/
theorem alone_appending (l : Ledger) (entry : LedgerEntry) :
    alone (l.appending entry) = l.append entry := by
  rw [appending, append, alone_bind, alone_attempt]
  refine congrArg (_ >>= ·) (funext fun found => ?_)
  cases found with
  | entries es => exact l.alone_storing _
  | corrupt =>
    dsimp only
    rw [alone_bind, alone_attempt]
    exact congrArg (_ >>= ·) (funext fun _ => l.alone_storing _)

/-! ## What goes on to hold -/

/-- What goes on to hold of the files while a ledger is replaced: directories are made above it, a
temporary file is made in its directory, filled and removed, and a file that is no ledger is moved
aside. -/
structure Survives (l : Ledger) (here : Location) (c : Circumstances) (I : FileTree → Prop) :
    Prop where
  rooted : ∀ {t}, I t → Rooted t
  directories : ∀ p, Upward l.directory p → ∀ {t u}, I t → t.makeDirectory here p = .ok u → I u
  temporary : ∀ {t u path content}, DrawnIn here c l.directory ".tmp" path → I t →
    t.write here path content = .ok u → I u
  discarded : ∀ {t u path}, DrawnIn here c l.directory ".tmp" path → I t →
    t.removeFile here path = .ok u → I u
  aside : ∀ {t u}, I t → l.loaded (t.read here l.path) = .ok .corrupt →
    t.rename here l.path l.asidePath = .ok u → I u

/-- Everything goes on to stand in a directory. -/
theorem rooted_survives (l : Ledger) (here : Location) (c : Circumstances) :
    Survives l here c Rooted where
  rooted h := h
  directories _ _ _ _ h hu := h.makeDirectory hu
  temporary _ h hu := h.write hu
  discarded _ h hu := (removeFile_eq_ok hu).2 ▸ h.erase _
  aside h _ hu := h.rename hu

section
variable {l : Ledger} {here : Location} {c : Circumstances} {I : FileTree → Prop}

/-- A failure removes the temporary file, or leaves it, and changes nothing else. -/
theorem discarding_tried {α : Type} {temporary : String} {trial : ExceptT Error Thread α}
    {pre : Machine → Prop} {good : α → Machine → Prop}
    (hkeep : ∀ {t u}, I t → t.removeFile here temporary = .ok u → I u)
    (h : Tried (Machine.Holds here c I) pre trial good fun _ => Machine.Holds here c I) :
    Tried (Machine.Holds here c I) pre (discarding temporary trial) good fun _ =>
      Machine.Holds here c I :=
  Guarded.bind h fun r => by
    cases r with
    | ok a => exact .pure _ fun _ hm => hm
    | error e =>
      have hremove : Ensures (Machine.Holds here c I) (removeFile temporary) fun _ =>
        Machine.Holds here c I :=
        removeFile_holds temporary hkeep
      exact .bind (.once holds_stable (fun _ hm => hm) hremove) fun _ => .pure _ fun _ hm => hm

/-- A temporary file has its contents. -/
def Filled (here : Location) (I : FileTree → Prop) (temporary : String) (content : Content)
    (t : FileTree) : Prop :=
  I t ∧ t.find here temporary = .ok (place here temporary, .file content)

/-- **The file is replaced by one with the new contents**, or nothing has changed for it; and
nothing has before that. -/
theorem replacing_tried (hI : Survives l here c I) (content : Content) :
    Tried (Machine.Holds here c I) (Machine.Holds here c I) (l.replacing content)
      (fun _ => Machine.Holds here c (Reads here l.path (.ok content))) fun _ =>
        Machine.Holds here c I := by
  have hdirectories := Tried.orSystem (makingDirectories_guarded (c := c) hI.directories)
    ("create ledger dir " ++ l.directory)
  have htemporary : Tries (Machine.Holds here c I)
      (Action.orSystem (makeTemporaryFile l.directory) ("write ledger " ++ l.path))
      (fun path m => DrawnIn here c l.directory ".tmp" path ∧ m.Holds here c I) fun _ =>
        Machine.Holds here c I :=
    Action.orSystem_either
      (makeTemporary_holds l.directory ".tmp" fun hpath _ ht hu => hI.temporary hpath ht hu) _
  refine hdirectories.bind fun _ =>
    (Tried.attempt holds_stable (fun _ hm => hm) htemporary).bind fun temporary =>
    Guarded.assume fun hpath => ?_
  have hfirst : ∀ {m : Machine}, m.Holds here c (Filled here I temporary content) →
      m.Holds here c I :=
    fun hm => ⟨hm.here, hm.circumstances, hm.files.1⟩
  have hwrite : Tries (Machine.Holds here c I)
    (Action.orSystem (write temporary content) ("write ledger " ++ l.path))
      (fun _ => Machine.Holds here c (Filled here I temporary content)) fun _ =>
        Machine.Holds here c I :=
    Action.orSystem_either (writing_either
      (fun ht hcontent hu => by cases hcontent; exact ⟨hI.temporary hpath ht hu, write_find hu⟩)
      (fun ht => ht) fun ht hu => hI.temporary hpath ht hu) _
  have hsync : Tries (Machine.Holds here c (Filled here I temporary content))
    (Action.orSystem sync ("write ledger " ++ l.path))
      (fun _ => Machine.Holds here c (Filled here I temporary content)) fun _ =>
        Machine.Holds here c I :=
    (step_tries _ fun ht hu => by cases hu; exact ht).bad_mono fun _ _ hm => hfirst hm
  have hrename : Tries (Machine.Holds here c (Filled here I temporary content))
      (Action.orSystem (rename temporary l.path) ("write ledger " ++ l.path))
      (fun _ => Machine.Holds here c (Reads here l.path (.ok content))) fun _ =>
        Machine.Holds here c I := by
    refine (step_tries _ fun {t u} ht hu => ?_).bad_mono fun _ _ hm => hfirst hm
    have hrooted := hI.rooted ht.1
    have hfind := hrooted.rename_find hu ht.2
    exact ⟨hrooted.rename hu, .of_find (hrooted.rename hu) hfind (fun h => nomatch h), by
      rw [FileTree.read, hfind]⟩
  refine discarding_tried (fun ht hu => hI.discarded hpath ht hu) ?_
  exact (Tried.attempt holds_stable (fun _ hm => hm) hwrite).bind fun _ =>
    (Tried.attempt holds_stable (fun _ hm => hfirst hm) hsync).bind fun _ =>
      Tried.attempt holds_stable (fun _ hm => hfirst hm) hrename

/-- A ledger with some entries, whose paths are texts, is read. -/
def Stored (l : Ledger) (here : Location) (entries : List LedgerEntry) (t : FileTree) : Prop :=
  (∀ e ∈ entries, e.HasText) ∧ Reads here l.path (.ok (.ofText (render entries))) t

theorem storing_tried (hI : Survives l here c I) (entries : List LedgerEntry) :
    Tried (Machine.Holds here c I) (Machine.Holds here c I) (l.storing entries)
      (fun _ => Machine.Holds here c (l.Stored here entries)) fun _ => Machine.Holds here c I := by
  have hserialized : Tried (Machine.Holds here c I) (Machine.Holds here c I)
    (Thread.ofExcept (serialized entries))
      (fun text m => serialized entries = .ok text ∧ m.Holds here c I) fun _ =>
        Machine.Holds here c I :=
    .ofExcept (fun _ h _ hm => ⟨h, hm⟩) fun _ _ hm => hm
  refine hserialized.bind fun text => Guarded.assume fun htext => ?_
  obtain ⟨hall, rfl⟩ := serialized_eq_ok_iff.mp htext
  exact (replacing_tried hI _).good_mono fun _ m hm => ⟨hm.here, hm.circumstances, hall, hm.files⟩

end

section
variable {here : Location} {c : Circumstances} {I : FileTree → Prop}

/-- What is loaded is what the file says. -/
theorem load_tells (l : Ledger) {entries : List LedgerEntry} :
    Tries (Machine.Holds here c fun t => I t ∧ l.contents t here = .ok entries) l.load
      (fun r => Machine.Holds here c fun t => (I t ∧ l.contents t here = .ok entries) ∧
        l.loaded (t.read here l.path) = .ok r) fun _ => Machine.Holds here c I := by
  intro m hm
  have hI : m.tick.Holds here c I := ⟨hm.here, hm.circumstances, hm.files.1⟩
  show Either _ _ (l.loaded (Machine.read l.path m).1) (Machine.read l.path m).2
  unfold Machine.read Machine.look
  dsimp only
  cases hrefusal : m.tick.circumstances.refusal m.tick.clock with
  | some e =>
    cases e with
    | missing => exact absurd hrefusal (m.tick.circumstances.truthful _)
    | _ => exact hI
  | none =>
    change Either _ _ (l.loaded (m.files.read m.here l.path)) m.tick
    cases hloaded : l.loaded (m.files.read m.here l.path) with
    | error e => exact hI
    | ok r => exact ⟨hm.here, hm.circumstances, hm.files, hm.here ▸ hloaded⟩

/-- **An entry is added behind those that are there**, or nothing has changed for them; and nothing
has before that. -/
theorem appending_tried {l : Ledger} (hI : Survives l here c I) {entries : List LedgerEntry}
    (entry : LedgerEntry) :
    Tried (Machine.Holds here c I)
    (Machine.Holds here c fun t => I t ∧ l.contents t here = .ok entries) (l.appending entry)
    (fun _ => Machine.Holds here c (l.Stored here (entries ++ [entry])))
      fun _ => Machine.Holds here c I := by
  refine (Tried.attempt holds_stable (fun _ hm => ⟨hm.here, hm.circumstances, hm.files.1⟩)
    (load_tells l)).bind
    fun r => ?_
  have hreadable : ∀ {t}, (I t ∧ l.contents t here = .ok entries) ∧
    l.loaded (t.read here l.path) = .ok r →
      r.readable = entries := fun {t} h => by
    have hcontents := h.1.2
    rw [contents, h.2] at hcontents
    exact Except.ok.inj hcontents
  cases r with
  | entries es =>
    intro m hm
    obtain rfl : es = entries := hreadable hm.files
    exact storing_tried hI _ m ⟨hm.here, hm.circumstances, hm.files.1.1⟩
  | corrupt =>
    have haside : Ensures
      (Machine.Holds here c fun t => I t ∧ l.loaded (t.read here l.path) = .ok .corrupt) l.moveAside
        fun _ => Machine.Holds here c I := by
      refine .bind (step_either fun ht hu => hI.aside ht.1 ht.2 hu) fun r => .pure _ fun m hm => ?_
      cases r with
      | ok u => exact hm
      | error e => exact ⟨hm.here, hm.circumstances, hm.files.1⟩
    intro m hm
    obtain rfl : [] = entries := hreadable hm.files
    have hattempt : Tried (Machine.Holds here c I) _ (attempt (l.moveAside : Action Unit))
        (fun _ => Machine.Holds here c I) fun _ => Machine.Holds here c I :=
      .attempt holds_stable (fun _ hm => ⟨hm.here, hm.circumstances, hm.files.1⟩)
        (Tries.lift haside)
    exact (hattempt.bind fun _ => storing_tried hI [entry]) m
      ⟨hm.here, hm.circumstances, hm.files.1.1, hm.files.2⟩

end

end Slideshow.Ledger
