import Slideshow.Machine.Workspace
import Slideshow.Proofs.Machine.Operations
import Slideshow.Proofs.Thread
import Slideshow.Tool.Process

/-!
# What the machine keeps

Whatever holds of the files of a machine, and is kept by operations at the places that an action
works on, holds after the action. The current directory and the circumstances never change.

* `Machine.Holds here c I` is the state of a machine on which `I` holds of the files.
* `step_holds`, `removeFile_holds`, `removeDirectory_ensures`, …: one lemma for each step.
* **`makeDirectories_ensures`**: directories are made at a path and above it only;
  `makingDirectories_guarded` says so of every step, each of which makes one directory.
* **`run_holds`**: a program writes nothing but the file that its last argument names.
* **`Workspace.create_holds`**, `Workspace.close_holds`: workspaces stand at drawn places.
-/

namespace Slideshow

open FileTree

/-- Something holds of the files of a machine with a current directory, in some circumstances. -/
structure Machine.Holds (here : Location) (c : Circumstances) (I : FileTree → Prop) (m : Machine) :
    Prop where
  here : m.here = here
  circumstances : m.circumstances = c
  files : I m.files

namespace Machine

variable {here : Location} {c : Circumstances} {I : FileTree → Prop}

/-- What only the clock and the token do not matter for. -/
theorem Holds.tick {m : Machine} (h : m.Holds here c I) : m.tick.Holds here c I :=
  ⟨h.here, h.circumstances, h.files⟩

theorem Holds.advance {m : Machine} (h : m.Holds here c I) : m.advance.Holds here c I :=
  ⟨h.here, h.circumstances, h.files⟩

theorem Holds.await {m : Machine} (h : m.Holds here c I) : m.await.Holds here c I :=
  ⟨h.here, h.circumstances, h.files⟩

/-- What neither the clock nor the token matters for. -/
structure Timeless (P : Machine → Prop) : Prop where
  tick : ∀ m, P m → P m.tick
  await : ∀ m, P m → P m.await

theorem holds_timeless : Timeless (Holds here c I) := ⟨fun _ => Holds.tick, fun _ => Holds.await⟩

/-- What others do does not matter for the files. -/
theorem holds_stable : Thread.Stable (Holds here c I) := fun _ _ hidle hm =>
  ⟨hidle.here.trans hm.here, hidle.circumstances.trans hm.circumstances,
    hidle.files.symm ▸ hm.files⟩

theorem Holds.replace {J : FileTree → Prop} {m : Machine} (h : m.Holds here c I) {t : FileTree}
    (ht : J t) :
    ({ m with files := t } : Machine).Holds here c J := ⟨h.here, h.circumstances, ht⟩

/-- A step that succeeds has made its change, and one that does not has changed nothing. -/
theorem step_either {J : FileTree → Prop} {change : FileTree → Location → Except OsError FileTree}
    (h : ∀ {t u}, I t → change t here = .ok u → J u) :
    Ensures (Holds here c I) (step change)
    (Either (fun _ => Holds here c J) fun _ => Holds here c I) := by
  intro m hm
  unfold step
  dsimp only
  split
  · exact hm.tick
  · split
    · next files hfiles => exact hm.tick.replace (h hm.files (hm.here ▸ hfiles))
    · exact hm.tick

theorem step_holds {change : FileTree → Location → Except OsError FileTree}
    (h : ∀ {t u}, I t → change t here = .ok u → I u) :
    Ensures (Holds here c I) (step change) fun _ => Holds here c I :=
  (step_either h).mono (fun _ hm => hm) fun r _ hm => by cases r <;> exact hm

/-- Writing that succeeds has written what was found, and writing that does not its beginning or
nothing. -/
theorem writing_either {J K : FileTree → Prop} {path : String}
    {found : FileTree → Location → Except OsError Content}
    (hwrite : ∀ {t u content}, I t → found t here = .ok content →
      t.write here path content = .ok u → J u)
    (hkept : ∀ {t}, I t → K t)
    (hspill : ∀ {t u content}, I t → t.write here path content = .ok u → K u) :
    Ensures (Holds here c I) (writing path found)
    (Either (fun _ => Holds here c J) fun _ => Holds here c K) := by
  intro m hm
  have hsame : m.tick.Holds here c K := ⟨hm.here, hm.circumstances, hkept hm.files⟩
  have hleft : ∀ content, (m.tick.spill path content).Holds here c K := fun content => by
    unfold spill
    split
    · exact hsame
    · split
      · next files hfiles => exact hm.tick.replace (hspill hm.files (hm.here ▸ hfiles))
      · exact hsame
  unfold writing
  dsimp only
  split
  · exact hsame
  · next content hcontent =>
    split
    · exact hleft content
    · split
      · next files hfiles =>
        exact hm.tick.replace (hwrite hm.files (hm.here ▸ hcontent) (hm.here ▸ hfiles))
      · exact hsame

theorem writing_holds {path : String} {found : FileTree → Location → Except OsError Content}
    (h : ∀ {t u content}, I t → t.write here path content = .ok u → I u) :
    Ensures (Holds here c I) (writing path found) fun _ => Holds here c I :=
  (writing_either (fun ht _ hu => h ht hu) (fun ht => ht) h).mono (fun _ hm => hm) fun r _ hm => by
    cases r <;> exact hm

theorem isCancelled_holds : Ensures (Holds here c I) isCancelled fun _ => Holds here c I :=
  fun _ hm => hm.await

theorem metadata_holds (path : String) :
    Ensures (Holds here c I) (metadata path) fun _ => Holds here c I :=
  fun _ hm => hm

/-- A file that is there is removed, unless that is refused. -/
theorem removeFile_ensures (path : String) (hc : ∀ clock, c.removal clock = none)
    {J : FileTree → Prop} (h : ∀ {t}, I t → ∃ u, t.removeFile here path = .ok u ∧ J u) :
    Ensures (Holds here c I) (removeFile path) fun _ => Holds here c J := by
  intro m hm
  obtain ⟨u, hu, hJ⟩ := h hm.files
  have hallowed : m.tick.circumstances.removal m.tick.clock = none := hm.circumstances ▸ hc _
  unfold removeFile
  dsimp only
  rw [hallowed]
  dsimp only
  rw [show m.tick.files.removeFile m.tick.here path = .ok u from hm.here ▸ hu]
  exact hm.tick.replace hJ

theorem removeFile_holds (path : String) (h : ∀ {t u}, I t → t.removeFile here path = .ok u → I u) :
    Ensures (Holds here c I) (removeFile path) fun _ => Holds here c I := by
  intro m hm
  unfold removeFile
  dsimp only
  split
  · exact hm.tick
  · split
    · next files hfiles => exact hm.tick.replace (h hm.files (hm.tick.here ▸ hfiles))
    · exact hm.tick

/-- A directory that is there is removed. -/
theorem removeDirectory_ensures (path : String) {J : FileTree → Prop}
    (h : ∀ {t}, I t → ∃ u, t.removeDirectory here path = .ok u ∧ J u) :
    Ensures (Holds here c I) (removeDirectory path) fun _ => Holds here c J := by
  intro m hm
  obtain ⟨u, hu, hJ⟩ := h hm.files
  unfold removeDirectory
  dsimp only
  rw [show m.tick.files.removeDirectory m.tick.here path = .ok u from hm.here ▸ hu]
  exact hm.tick.replace hJ

theorem removeDirectory_holds (path : String) (h : ∀ {t}, I t → I (t.erase (place here path))) :
    Ensures (Holds here c I) (removeDirectory path) fun _ => Holds here c I := by
  intro m hm
  unfold removeDirectory
  dsimp only
  split
  · next files hfiles =>
    rw [hm.tick.here] at hfiles
    obtain rfl := removeDirectory_eq_ok hfiles
    exact hm.tick.replace (h hm.files)
  · exact hm.tick

/-! ## Directories -/

/-- The steps in which a directory and those above it are made. -/
def makingDirectoriesWithin : Nat → String → Thread (Except OsError Unit)
  | 0, _ => return .error .missing
  | fuel + 1, path => do
    if path.isEmpty then return .ok ()
    match ← Thread.once (makeDirectory path) with
    | .ok () => return .ok ()
    | .error .missing =>
      match Path.parent? path with
      | none => return .error (.other "failed to create whole tree")
      | some parent =>
        match ← makingDirectoriesWithin fuel parent with
        | .error e => return .error e
        | .ok () =>
          match ← Thread.once (makeDirectory path) with
          | .ok () => return .ok ()
          | .error e => Thread.once (orDirectory path e)
    | .error e => Thread.once (orDirectory path e)

def makingDirectories (path : String) : Thread (Except OsError Unit) :=
  makingDirectoriesWithin (path.length + 1) path

theorem makingDirectoriesWithin_run (fuel : Nat) : ∀ path : String,
    (makingDirectoriesWithin fuel path).run = makeDirectoriesWithin fuel path := by
  induction fuel with
  | zero => exact fun _ => rfl
  | succ fuel ih =>
    intro path
    unfold makingDirectoriesWithin makeDirectoriesWithin
    split
    · rfl
    · rw [Thread.run_bind, Thread.run_once]
      refine congrArg (makeDirectory path >>= ·) (funext fun made => ?_)
      cases made with
      | ok _ => rfl
      | error e =>
        cases e with
        | missing =>
          cases Path.parent? path with
          | none => rfl
          | some parent =>
            dsimp only
            rw [Thread.run_bind, ih]
            refine congrArg (makeDirectoriesWithin fuel parent >>= ·) (funext fun above => ?_)
            cases above with
            | error e => rfl
            | ok _ =>
              dsimp only
              rw [Thread.run_bind, Thread.run_once]
              refine congrArg (makeDirectory path >>= ·) (funext fun again => ?_)
              cases again with
              | ok _ => rfl
              | error e => exact Thread.run_once _
        | _ => exact Thread.run_once _

theorem makingDirectories_run (path : String) :
    (makingDirectories path).run = makeDirectories path :=
  makingDirectoriesWithin_run _ path

theorem makingDirectoriesWithin_guarded {top : String}
    (h : ∀ p, Upward top p → ∀ {t u}, I t → t.makeDirectory here p = .ok u → I u) (fuel : Nat) :
    ∀ {path : String}, Upward top path →
      Guarded (Holds here c I) (Holds here c I) (makingDirectoriesWithin fuel path) fun _ =>
        Holds here c I := by
  have hpresent : ∀ path e,
      Guarded (Holds here c I) (Holds here c I) (Thread.once (orDirectory path e)) fun _ =>
      Holds here c I := fun _ _ => .once holds_stable (fun _ hm => hm) fun _ hm => hm
  induction fuel with
  | zero => exact fun _ => .pure _ fun _ hm => hm
  | succ fuel ih =>
    intro path hpath
    have hstep : Guarded (Holds here c I) (Holds here c I)
        (Thread.once (makeDirectory path)) fun _ => Holds here c I :=
      .once holds_stable (fun _ hm => hm) (step_holds fun ht hu => h path hpath ht hu)
    unfold makingDirectoriesWithin
    split
    · exact .pure _ fun _ hm => hm
    · refine hstep.bind fun made => ?_
      split
      · exact .pure _ fun _ hm => hm
      · split
        · exact .pure _ fun _ hm => hm
        · next parent hparent =>
          refine (ih (.parent hpath hparent)).bind fun above => ?_
          split
          · exact .pure _ fun _ hm => hm
          · refine hstep.bind fun again => ?_
            split
            · exact .pure _ fun _ hm => hm
            · exact hpresent _ _
      · exact hpresent _ _

theorem makingDirectories_guarded {path : String}
    (h : ∀ p, Upward path p → ∀ {t u}, I t → t.makeDirectory here p = .ok u → I u) :
    Guarded (Holds here c I) (Holds here c I) (makingDirectories path) fun _ => Holds here c I :=
  makingDirectoriesWithin_guarded h _ .self

/-- **Directories are made at a path and above it only.** -/
theorem makeDirectories_ensures {path : String}
    (h : ∀ p, Upward path p → ∀ {t u}, I t → t.makeDirectory here p = .ok u → I u) :
    Ensures (Holds here c I) (makeDirectories path) fun _ => Holds here c I :=
  makingDirectories_run path ▸ (makingDirectories_guarded h).run

/-! ## Programs -/

theorem receive_holds {arguments : List String} (made : Option Content)
    (h : ∀ path, arguments.getLast? = some path → path ≠ "-" → ∀ {t u content}, I t →
      t.write here path content = .ok u → I u) {m : Machine} (hm : m.Holds here c I) :
    (m.receive arguments made).Holds here c I := by
  unfold receive
  split
  · next content path hlast =>
    split
    · exact hm
    · next hdash =>
      split
      · next files hfiles =>
        exact hm.replace (h path hlast (by simpa using hdash) hm.files (hm.here ▸ hfiles))
      · exact hm
  · exact hm

/-- **A program writes nothing but the file that its last argument names.** -/
theorem run_holds (program : String) {arguments : List String} (watched captured : Bool)
    (timeout : Option Nat) (h : ∀ path,
      arguments.getLast? = some path → path ≠ "-" → ∀ {t u content}, I t →
        t.write here path content = .ok u → I u) :
    Ensures (Holds here c I) (run program arguments watched captured timeout) fun _ =>
      Holds here c I := by
  intro m hm
  -- what is seen of a program is not in the files
  have hseen : ∀ {m : Machine} (h : Happening), m.Holds here c I → (m.happen h).Holds here c I :=
    fun _ hm => ⟨hm.here, hm.circumstances, hm.files⟩
  unfold run
  dsimp only
  split
  · exact hseen _ hm.advance
  · exact hseen _ (receive_holds _ h (hseen _ hm.advance).await)

/-! ## Temporary files and directories -/

/-- A path that is drawn in a directory: a name there with an opening. -/
def DrawnIn (here : Location) (c : Circumstances) (directory opening path : String) : Prop :=
  ∃ clock attempt, path =
    Path.join (Path.join (pathOf here) directory) (opening ++ drawn (c.draw clock attempt))

/-- A drawn path is one of nothing. -/
theorem drawFresh_spec {m : Machine} {directory opening path : String} (fuel : Nat) :
    ∀ {attempt : Nat},
    m.drawFresh directory opening attempt fuel = .ok path →
      (∃ clock attempt, path =
        Path.join directory (opening ++ drawn (m.circumstances.draw clock attempt))) ∧
        m.files.find m.here path = .error .missing := by
  induction fuel with
  | zero => exact fun h => nomatch h
  | succ fuel ih =>
    intro attempt h
    unfold drawFresh at h
    dsimp only at h
    split at h
    · exact ih h
    · next hmissing =>
      cases h
      exact ⟨⟨_, _, rfl⟩, hmissing⟩
    · cases h

theorem makeTemporary_holds (directory opening : String) {J : String → FileTree → Prop}
    {make : FileTree → Location → String → Except OsError FileTree}
    (h : ∀ {path t u},
      DrawnIn here c directory opening path → t.find here path = .error .missing → I t →
        make t here path = .ok u → J path u) :
    Ensures (Holds here c I) (makeTemporary directory opening make)
      (Either (fun path m => DrawnIn here c directory opening path ∧ m.Holds here c (J path))
          fun _ =>
        Holds here c I) := by
  intro m hm
  unfold makeTemporary
  dsimp only
  split
  · exact hm.tick
  · split
    · exact hm.tick
    · next path hpath =>
      obtain ⟨⟨clock, attempt, hdrawn⟩, hmissing⟩ := drawFresh_spec _ hpath
      rw [hm.tick.circumstances, hm.tick.here] at hdrawn
      rw [hm.tick.here] at hmissing
      have hdrawn : DrawnIn here c directory opening path := ⟨clock, attempt, hdrawn⟩
      split
      · next files hfiles =>
        exact ⟨hdrawn, hm.tick.replace (h hdrawn hmissing hm.files (hm.here ▸ hfiles))⟩
      · exact hm.tick

/-- What is kept when one directory is made is kept when directories are made. -/
theorem makeDirectoriesWithin_keeps {I : Machine → Prop}
    (hstep : ∀ path, Ensures I (makeDirectory path) fun _ => I) (fuel : Nat) :
    ∀ path : String, Ensures I (makeDirectoriesWithin fuel path) fun _ => I := by
  have hpresent : ∀ path e, Ensures I (orDirectory path e) fun _ => I := fun _ _ _ hm => hm
  induction fuel with
  | zero => exact fun _ _ hm => hm
  | succ fuel ih =>
    intro path
    unfold makeDirectoriesWithin
    split
    · exact .pure _ fun _ hm => hm
    · refine (hstep path).bind fun made => ?_
      split
      · exact .pure _ fun _ hm => hm
      · split
        · exact .pure _ fun _ hm => hm
        · next parent _ =>
          refine (ih parent).bind fun above => ?_
          split
          · exact .pure _ fun _ hm => hm
          · refine (hstep path).bind fun again => ?_
            split
            · exact .pure _ fun _ hm => hm
            · exact hpresent _ _
      · exact hpresent _ _

end Machine

/-! ## Steps at places -/

/-- There is a directory at a path, unless that ends in a slash. -/
def FileTree.Stands (here : Location) (path : String) (t : FileTree) : Prop :=
  Path.endsInSlash path = false → t.find here path = .ok (place here path, .directory)

/-- Where a directory stands none is made. -/
theorem Machine.makeDirectories_spares {here : Location} {c : Circumstances} {I : FileTree → Prop}
    {path : String} (hslash : Path.endsInSlash path = false) :
    Ensures (Holds here c fun t => I t ∧ Stands here path t) (makeDirectories path) fun _ =>
      Holds here c I := by
  have hrefused : Ensures (Holds here c fun t => I t ∧ Stands here path t)
      (makeDirectory path) fun made m =>
      made ≠ .ok () ∧ made ≠ .error .missing ∧ m.Holds here c I := by
    intro m hm
    have hpresent : m.files.makeDirectory m.here path = .error .present :=
      hm.here ▸ (makeDirectory_of_find hslash (hm.files.2 hslash)).1
    unfold makeDirectory step
    dsimp only
    split
    · next e he =>
      refine ⟨(fun h => nomatch h), fun h => ?_, hm.here, hm.circumstances, hm.files.1⟩
      cases h
      exact c.truthful _ (hm.circumstances ▸ he)
    · rw [show m.tick.files.makeDirectory m.tick.here path = _ from hpresent]
      exact ⟨(fun h => nomatch h), (fun h => nomatch h), hm.here, hm.circumstances, hm.files.1⟩
  unfold makeDirectories makeDirectoriesWithin
  split
  · exact .pure _ fun m hm => ⟨hm.here, hm.circumstances, hm.files.1⟩
  · refine hrefused.bind fun made => .assume fun hok => .assume fun hmissing => ?_
    split
    · exact absurd rfl hok
    · exact absurd rfl hmissing
    · exact fun m hm => hm

namespace Machine

variable {here : Location} {c : Circumstances} {I : FileTree → Prop}
  {written made removed : Location → Prop}
  (hI : Kept here written made removed I)
include hI

theorem makeDirectories_holds {path : String} (h : ∀ p, Upward path p → made (place here p)) :
    Ensures (Holds here c I) (makeDirectories path) fun _ => Holds here c I :=
  makeDirectories_ensures fun p hp _ _ ht hu => hI.makeDirectory ht (h p hp) hu

theorem write_holds {path : String} (h : written (place here path)) (content : Content) :
    Ensures (Holds here c I) (write path content) fun _ => Holds here c I :=
  writing_holds fun ht hu => hI.write ht h hu

theorem copy_holds {source target : String} (h : written (place here target)) :
    Ensures (Holds here c I) (copy source target) fun _ => Holds here c I :=
  writing_holds fun ht hu => hI.write ht h hu

theorem makeTemporaryDirectory_holds {directory opening : String}
    (h : ∀ path, DrawnIn here c directory opening path → made (place here path)) :
    Ensures (Holds here c I) (makeTemporaryDirectory directory opening)
      (Either (fun path m => DrawnIn here c directory opening path ∧
        m.Holds here c fun t => I t ∧ Stands here path t) fun _ => Holds here c I) :=
  makeTemporary_holds directory opening fun hpath _ ht hu =>
    ⟨hI.makeDirectory ht (h _ hpath) hu, fun hslash => makeDirectory_find hslash hu⟩

end Machine

theorem Action.orSystem_ok {α : Type} {action : Action (Except OsError α)} {m m' : Machine} {a : α}
    (h : action m = (.ok a, m')) (context : String) :
    (Action.orSystem action context).run m = (.ok a, m') := by
  show ((action m).1.mapError _, (action m).2) = _
  rw [h]
  rfl

/-- A step that keeps something keeps it whether or not it is refused. -/
theorem Action.orSystem_tries {α : Type} {action : Action (Except OsError α)}
    {pre post : Machine → Prop} (h : Ensures pre action fun _ => post) (context : String) :
    Tries pre (Action.orSystem action context) (fun _ => post) fun _ => post :=
  Ensures.bind h fun r => .pure _ fun m hm => by cases r <;> exact hm

/-- A step whose result says what it has done. -/
theorem Action.orSystem_either {α : Type} {action : Action (Except OsError α)}
    {pre bad : Machine → Prop} {good : α → Machine → Prop}
    (h : Ensures pre action (Either good fun _ => bad)) (context : String) :
    Tries pre (Action.orSystem action context) good fun _ => bad :=
  Ensures.bind h fun r => .pure _ fun m hm => by cases r <;> exact hm

/-- A step that succeeds has made its change. -/
theorem Machine.step_tries {here : Location} {c : Circumstances} {I J : FileTree → Prop}
    {change : FileTree → Location → Except OsError FileTree} (context : String)
    (h : ∀ {t u}, I t → change t here = .ok u → J u) :
    Tries (Machine.Holds here c I) (Action.orSystem (Machine.step change) context)
    (fun _ => Machine.Holds here c J)
      fun _ => Machine.Holds here c I :=
  Action.orSystem_either (Machine.step_either h) context

namespace Workspace

variable {here : Location} {c : Circumstances} {I : FileTree → Prop}
    {written made removed : Location → Prop}

section
variable (hI : Kept here written made removed I) (root opening : String)
  (hroot : ∀ p, Upward root p → made (place here p))
  (hdrawn : ∀ path, Machine.DrawnIn here c root opening path → made (place here path))
include hI hroot hdrawn

/-- A workspace that was made is there; its root is made with all that is missing above it. -/
theorem create_tries : Tries (Machine.Holds here c I) (create root opening)
    (fun w m => Machine.DrawnIn here c root opening w.path ∧
      m.Holds here c fun t => I t ∧ Stands here w.path t) fun _ => Machine.Holds here c I := by
  unfold create
  refine .bind (Action.orSystem_tries (Machine.makeDirectories_holds hI hroot) _) fun _ => ?_
  exact .bind (Action.orSystem_either (Machine.makeTemporaryDirectory_holds hI hdrawn) _)
    fun path => .pure _ fun _ hm => hm

/-- **A workspace stands at a drawn place.** -/
theorem create_holds : Tries (Machine.Holds here c I) (create root opening)
    (fun w m => Machine.DrawnIn here c root opening w.path ∧ m.Holds here c I) fun _ =>
      Machine.Holds here c I :=
  (create_tries hI root opening hroot hdrawn).mono (fun _ h => h)
    (fun _ _ hm => ⟨hm.1, hm.2.here, hm.2.circumstances, hm.2.files.1⟩) fun _ _ h => h

end

theorem close_holds {w : Workspace} (h : ∀ {t}, I t → I (t.erase (place here w.path))) :
    Tries (Machine.Holds here c I) w.close (fun _ => Machine.Holds here c I) fun _ =>
      Machine.Holds here c I :=
  Action.orSystem_tries (Machine.removeDirectory_holds w.path h) _

end Workspace

end Slideshow
