import Slideshow.Machine.Basic
import Slideshow.Proofs.Trial

/-!
# Threads

An action that others may come between is cut into steps, each of which is done at once. What holds
between the steps is a guarantee to the others; what they do in the meantime is nothing to the
files.

* `Thread` is what one of several does, `Thread.run` what it does when nobody comes between.
* `Thread.Guards` says what holds between the steps and at the end, `Guarded` that it does from some
  states on.
* `Guarded.pure`, `once`, `bind`, `Tried.bind`: one rule for each way to put threads together.

Headline:
* **`Guarded.run`**: what holds at the end of a thread holds after it was run without others.
-/

namespace Slideshow

/-- What one of several does: a step, and what comes after its result. -/
inductive Thread (α : Type) : Type 1
  | done (a : α)
  | step {β : Type} (action : Action β) (next : β → Thread α)

namespace Thread

variable {α β : Type}

def bind : Thread α → (α → Thread β) → Thread β
  | done a, f => f a
  | step action next, f => step action fun b => (next b).bind f

instance : Monad Thread where
  pure := done
  bind := bind

theorem bind_done (t : Thread α) : t.bind done = t := by
  induction t with
  | done a => rfl
  | step action next ih => exact congrArg (step action) (funext ih)

theorem bind_bind {γ : Type} (t : Thread α) (f : α → Thread β) (g : β → Thread γ) :
    (t.bind f).bind g = t.bind fun a => (f a).bind g := by
  induction t with
  | done a => rfl
  | step action next ih => exact congrArg (step action) (funext ih)

/-- An action that is done at once. -/
def once (action : Action α) : Thread α := step action done

/-- Something that is tried at once. -/
def attempt (trial : Trial α) : ExceptT Error Thread α := ExceptT.mk (once trial.run)

/-- A value or an error as something tried, in no step. -/
def ofExcept (r : Except Error α) : ExceptT Error Thread α := ExceptT.mk (done r)

/-- A thread whose refusal is an error of the library, with what was being done. -/
def orSystem (t : Thread (Except OsError α)) (context : String) : ExceptT Error Thread α :=
  ExceptT.mk (do return (← t).mapError fun e => .system context e.message)

/-! ## Without others -/

/-- What a thread does when nobody comes between. -/
def run : Thread α → Action α
  | done a => pure a
  | step action next => do (next (← action)).run

/-- What is tried when nobody comes between. -/
def alone (x : ExceptT Error Thread α) : Trial α := ExceptT.mk (run (ExceptT.run x))

theorem run_alone (x : ExceptT Error Thread α) : (alone x).run = run x.run := rfl

theorem run_once (action : Action α) : (once action).run = action := bind_pure action

theorem run_bind (t : Thread α) (f : α → Thread β) :
    (t >>= f).run = t.run >>= fun a => (f a).run := by
  show (t.bind f).run = _
  induction t with
  | done a => rfl
  | step action next ih =>
    rw [bind, run, run, bind_assoc]
    exact congrArg (action >>= ·) (funext fun b => ih b)

theorem alone_attempt (trial : Trial α) : alone (attempt trial) = trial := run_once trial.run

theorem alone_ofExcept (r : Except Error α) : alone (ofExcept r) = Trial.ofExcept r := rfl

theorem alone_orSystem (t : Thread (Except OsError α)) (context : String) :
    alone (t.orSystem context) = Action.orSystem t.run context :=
  run_bind t _

theorem alone_bind (x : ExceptT Error Thread α) (f : α → ExceptT Error Thread β) :
    alone (x >>= f) = alone x >>= fun a => alone (f a) := by
  have hcont : ∀ r : Except Error α,
      (ExceptT.bindCont f r).run = ExceptT.bindCont (fun a => alone (f a)) r := fun r => by
    cases r <;> rfl
  show run (x.run >>= ExceptT.bindCont f) = run x.run >>= ExceptT.bindCont fun a => alone (f a)
  rw [run_bind, funext hcont]

/-! ## Between the steps -/

/-- Others have done something, and nothing to the files. -/
structure Idle (m m' : Machine) : Prop where
  here : m'.here = m.here
  circumstances : m'.circumstances = m.circumstances
  files : m'.files = m.files

theorem Idle.refl (m : Machine) : Idle m m := ⟨rfl, rfl, rfl⟩

theorem Idle.trans {m m' m'' : Machine} (h : Idle m m') (h' : Idle m' m'') : Idle m m'' :=
  ⟨h'.here.trans h.here, h'.circumstances.trans h.circumstances, h'.files.trans h.files⟩

/-- What others do not change. -/
def Stable (pre : Machine → Prop) : Prop := ∀ m m', Idle m m' → pre m → pre m'

/-- Whatever others do, `R` holds as long as there are steps to do, and `post` at the end. -/
def Guards (R : Machine → Prop) (post : α → Machine → Prop) : Thread α → Machine → Prop
  | done a, m => post a m
  | step action next, m => R m ∧ ∀ m', Idle m m' → (next (action m').1).Guards R post (action m').2

/-- What others do does not matter for what a thread goes on to do. -/
theorem Guards.idle {R : Machine → Prop} {post : α → Machine → Prop} (hR : Stable R)
    (hpost : ∀ a, Stable (post a)) {t : Thread α} {m m' : Machine} (h : t.Guards R post m)
    (hm : Idle m m') : t.Guards R post m' := by
  cases t with
  | done a => exact hpost a m m' hm h
  | step action next => exact ⟨hR m m' hm h.1, fun m'' hm' => h.2 m'' (hm.trans hm')⟩

theorem Guards.bind {R : Machine → Prop} {mid : α → Machine → Prop} {post : β → Machine → Prop}
    {t : Thread α} {f : α → Thread β} (hf : ∀ a m, mid a m → (f a).Guards R post m) :
    ∀ {m : Machine}, t.Guards R mid m → (t.bind f).Guards R post m := by
  induction t with
  | done a => exact hf a _
  | step action next ih => exact fun h => ⟨h.1, fun m' hm => ih _ (h.2 m' hm)⟩

theorem Guards.mono {R : Machine → Prop} {post post' : α → Machine → Prop}
    (hpost : ∀ a m, post a m → post' a m) {t : Thread α} :
    ∀ {m : Machine}, t.Guards R post m → t.Guards R post' m := by
  induction t with
  | done a => exact hpost a _
  | step action next ih => exact fun h => ⟨h.1, fun m' hm => ih _ (h.2 m' hm)⟩

/-- The first part of a thread is guarded as the whole is, and what comes after it at its end. -/
theorem Guards.of_bind {R : Machine → Prop} {post : β → Machine → Prop} {t : Thread α}
    {f : α → Thread β} :
    ∀ {m : Machine}, (t.bind f).Guards R post m → t.Guards R (fun a => (f a).Guards R post) m := by
  induction t with
  | done a => exact fun h => h
  | step action next ih => exact fun h => ⟨h.1, fun m' hm => ih _ (h.2 m' hm)⟩

/-- What holds now, whether or not there are steps to do. -/
theorem Guards.now {R : Machine → Prop} {post : α → Machine → Prop} {t : Thread α} {m : Machine}
    (h : t.Guards R post m) :
    R m ∨ ∃ a, post a m := by
  cases t with
  | done a => exact .inr ⟨a, h⟩
  | step action next => exact .inl h.1

end Thread

open Thread

variable {α β : Type} {R pre : Machine → Prop} {post : α → Machine → Prop}

/-- Whatever state with `pre` a thread begins in, `R` holds between its steps and `post` at its
end. -/
def Guarded (R pre : Machine → Prop) (t : Thread α) (post : α → Machine → Prop) : Prop :=
  ∀ m, pre m → t.Guards R post m

namespace Guarded

variable {t : Thread α}

theorem pure (x : α) (h : ∀ m, pre m → post x m) : Guarded R pre (Pure.pure x) post := h

/-- An action that is done at once. -/
theorem once {action : Action α} (hpre : Stable pre) (hR : ∀ m, pre m → R m)
    (h : Ensures pre action post) :
    Guarded R pre (Thread.once action) post :=
  fun m hm => ⟨hR m hm, fun m' hidle => h m' (hpre m m' hidle hm)⟩

theorem bind {mid : α → Machine → Prop} {post : β → Machine → Prop} {f : α → Thread β}
    (ht : Guarded R pre t mid) (hf : ∀ x, Guarded R (mid x) (f x) post) :
    Guarded R pre (t >>= f) post :=
  fun m hm => Guards.bind hf (ht m hm)

theorem assume {P : Prop} (h : P → Guarded R pre t post) : Guarded R (fun m => P ∧ pre m) t post :=
  fun m hm => h hm.1 m hm.2

/-- **What holds at the end of a thread** holds after it was run without others. -/
theorem run (h : Guarded R pre t post) : Ensures pre t.run post := by
  suffices ∀ m, t.Guards R post m → post (t.run m).1 (t.run m).2 from fun m hm => this m (h m hm)
  clear h
  induction t with
  | done a => exact fun _ h => h
  | step action next ih => exact fun m h => ih _ _ (h.2 m (.refl m))

end Guarded

/-- Whatever state with `pre` something is tried in, step by step, a value has `good` and an error
has `bad`; `R` holds between the steps. -/
def Tried (R pre : Machine → Prop) (x : ExceptT Error Thread α) (good : α → Machine → Prop)
    (bad : Error → Machine → Prop) :
    Prop :=
  Guarded R pre x.run (Either good bad)

namespace Tried

variable {good : α → Machine → Prop} {bad : Error → Machine → Prop} {x : ExceptT Error Thread α}

/-- What is tried at once. -/
theorem attempt {trial : Trial α} (hpre : Stable pre) (hR : ∀ m, pre m → R m)
    (h : Tries pre trial good bad) :
    Tried R pre (Thread.attempt trial) good bad :=
  Guarded.once hpre hR h

theorem bind {mid : α → Machine → Prop} {good : β → Machine → Prop} {f : α → ExceptT Error Thread β}
    (hx : Tried R pre x mid bad) (hf : ∀ a, Tried R (mid a) (f a) good bad) :
    Tried R pre (x >>= f) good bad :=
  Guarded.bind hx fun r => by
    cases r with
    | ok a => exact hf a
    | error e => exact .pure _ fun _ hm => hm

theorem good_mono {good' : α → Machine → Prop} (h : Tried R pre x good bad)
    (hgood : ∀ a m, good a m → good' a m) :
    Tried R pre x good' bad :=
  fun m hm => (h m hm).mono fun r m hr => by
    cases r with
    | ok a => exact hgood a m hr
    | error e => exact hr

/-- What is no step changes nothing. -/
theorem ofExcept {r : Except Error α} (hgood : ∀ a, r = .ok a → ∀ m, pre m → good a m)
    (hbad : ∀ e m, pre m → bad e m) :
    Tried R pre (Thread.ofExcept r) good bad :=
  Guarded.pure _ fun m hm => by
    cases r with
    | ok a => exact hgood a rfl m hm
    | error e => exact hbad e m hm

/-- A thread that keeps something keeps it whether or not it is refused. -/
theorem orSystem {t : Thread (Except OsError α)} {after : Machine → Prop}
    (h : Guarded R pre t fun _ => after) (context : String) :
    Tried R pre (t.orSystem context) (fun _ => after) fun _ => after :=
  Guarded.bind h fun r => .pure _ fun m hm => by cases r <;> exact hm

/-- What was tried step by step is tried when nobody comes between. -/
theorem tries (h : Tried R pre x good bad) : Tries pre (alone x) good bad := Guarded.run h

end Tried

end Slideshow
