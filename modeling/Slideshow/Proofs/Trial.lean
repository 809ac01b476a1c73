import Mathlib.Data.List.Forall2

/-!
# What actions bring about

Actions on a state, with and without failures, and what holds after them if something held before.
Such a fact is proved once for each action; the facts about its parts compose along the text of the
action.

* `Ensures` is for actions that cannot fail, `Tries` for those that can.
* `bind`, `pure`, `mono`: one rule for each way to put actions together.
-/

namespace Slideshow

variable {σ ε α β : Type}

/-- What succeeds has succeeded in both its parts. -/
theorem of_bind_ok {x : Except ε α} {f : α → Except ε β} {b : β} (h : (x >>= f) = .ok b) :
    ∃ a, x = .ok a ∧ f a = .ok b := by
  cases x with
  | ok a => exact ⟨a, rfl, h⟩
  | error e => cases h

/-- What fails has failed in its first part or in its second. -/
theorem of_bind_error {x : Except ε α} {f : α → Except ε β} {e : ε} (h : (x >>= f) = .error e) :
    x = .error e ∨ ∃ a, x = .ok a ∧ f a = .error e := by
  cases x with
  | error e' => exact .inl (congrArg Except.error (Except.error.inj h))
  | ok a => exact .inr ⟨a, rfl, h⟩

/-- What fails under another name has failed. -/
theorem of_mapError_error {ε' : Type} {f : ε → ε'} {x : Except ε α} {e' : ε'}
    (h : x.mapError f = .error e') :
    ∃ e, x = .error e ∧ e' = f e := by
  cases x with
  | ok a => cases h
  | error e => exact ⟨e, rfl, (Except.error.inj h).symm⟩

section
variable {f : α → Except ε β}

/-- What succeeds on a list succeeds on each of its elements. -/
theorem mapM_eq_ok_iff {xs : List α} :
    ∀ {ys : List β}, xs.mapM f = .ok ys ↔ List.Forall₂ (fun x y => f x = .ok y) xs ys := by
  induction xs with
  | nil =>
    intro ys
    rw [List.mapM_nil, List.forall₂_nil_left_iff]
    exact ⟨fun h => (Except.ok.inj h).symm, fun h => congrArg Except.ok h.symm⟩
  | cons x xs ih =>
    intro ys
    rw [List.mapM_cons, List.forall₂_cons_left_iff]
    constructor
    · intro h
      obtain ⟨y, hy, h⟩ := of_bind_ok h
      obtain ⟨zs, hzs, h⟩ := of_bind_ok h
      exact ⟨y, zs, hy, ih.mp hzs, (Except.ok.inj h).symm⟩
    · rintro ⟨y, zs, hy, hzs, rfl⟩
      rw [hy, ih.mpr hzs]
      rfl

/-- What fails on a list fails on one of its elements. -/
theorem exists_of_mapM_error {xs : List α} {e : ε} (h : xs.mapM f = .error e) :
    ∃ x ∈ xs, f x = .error e := by
  induction xs with
  | nil => cases h
  | cons x xs ih =>
    rw [List.mapM_cons] at h
    rcases of_bind_error h with hx | ⟨y, -, h⟩
    · exact ⟨x, List.mem_cons_self, hx⟩
    · rcases of_bind_error h with hxs | ⟨ys, -, h⟩
      · obtain ⟨z, hz, he⟩ := ih hxs
        exact ⟨z, List.mem_cons_of_mem x hz, he⟩
      · cases h

end

/-- What is read from a list is read from its elements. -/
theorem exists_of_mapM_some {f : α → Option β} {xs : List α} :
    ∀ {ys : List β}, xs.mapM f = some ys → ∀ y ∈ ys, ∃ x ∈ xs, f x = some y := by
  induction xs with
  | nil =>
    intro ys h y hy
    cases h
    cases hy
  | cons x xs ih =>
    intro ys h
    rw [List.mapM_cons] at h
    obtain ⟨z, hz, h⟩ := Option.bind_eq_some_iff.mp h
    obtain ⟨zs, hzs, h⟩ := Option.bind_eq_some_iff.mp h
    cases h
    refine List.forall_mem_cons.mpr ⟨⟨x, List.mem_cons_self, hz⟩, fun y hy => ?_⟩
    obtain ⟨w, hw, he⟩ := ih hzs y hy
    exact ⟨w, List.mem_cons_of_mem x hw, he⟩

section
variable {x : ExceptT ε (StateM σ) α} {f : α → ExceptT ε (StateM σ) β} {s s' : σ}

/-- After a success, what comes next is tried. -/
theorem run_bind_ok {a : α} (h : x.run s = (.ok a, s')) : (x >>= f).run s = (f a).run s' := by
  show ExceptT.bindCont (m := StateM σ) f (x.run s).1 (x.run s).2 = _
  rw [h]
  rfl

theorem run_eq_ok {a : α} (h : (x.run s).1 = .ok a) : x.run s = (.ok a, (x.run s).2) :=
  Prod.ext h rfl

/-- Nothing is tried after a failure. -/
theorem run_bind_error {e : ε} (h : x.run s = (.error e, s')) :
    (x >>= f).run s = (.error e, s') := by
  show ExceptT.bindCont (m := StateM σ) f (x.run s).1 (x.run s).2 = _
  rw [h]
  rfl

/-- What fails in a state fails in its first part, or in its second part after the first one has
succeeded. -/
theorem run_bind_error_iff {e : ε} : ((x >>= f).run s).1 = .error e ↔
    (x.run s).1 = .error e ∨ ∃ a s', x.run s = (.ok a, s') ∧ ((f a).run s').1 = .error e := by
  rcases hrun : x.run s with ⟨d | a, s'⟩
  · rw [run_bind_error hrun]
    constructor
    · exact fun h => .inl (congrArg Except.error (Except.error.inj h))
    · rintro (h | ⟨a, t, hok, -⟩)
      · exact congrArg Except.error (Except.error.inj h)
      · cases hok
  · rw [run_bind_ok hrun]
    constructor
    · exact fun h => .inr ⟨a, s', rfl, h⟩
    · rintro (h | ⟨b, t, hok, h⟩)
      · cases h
      · cases hok
        exact h

end

/-- Whatever state with `pre` an action starts in, its result and the state after it have `post`. -/
def Ensures (pre : σ → Prop) (a : StateM σ α) (post : α → σ → Prop) : Prop :=
  ∀ s, pre s → post (a s).1 (a s).2

/-- What holds of a value, or of an error. -/
def Either (good : α → σ → Prop) (bad : ε → σ → Prop) : Except ε α → σ → Prop
  | .ok a, s => good a s
  | .error e, s => bad e s

/-- Whatever state with `pre` something is tried in, a value has `good` and an error has `bad`. -/
def Tries (pre : σ → Prop) (a : ExceptT ε (StateM σ) α) (good : α → σ → Prop) (bad : ε → σ → Prop) :
    Prop :=
  Ensures pre a.run (Either good bad)

/-- Something holds on after it was tried, whether or not it failed. -/
abbrev Keeps (I : σ → Prop) (a : ExceptT ε (StateM σ) α) : Prop := Tries I a (fun _ => I) fun _ => I

namespace Ensures

variable {pre : σ → Prop} {post : α → σ → Prop} {a : StateM σ α}

theorem pure (x : α) (h : ∀ s, pre s → post x s) : Ensures pre (Pure.pure x) post := h

theorem bind {mid : α → σ → Prop} {post : β → σ → Prop} {f : α → StateM σ β}
    (ha : Ensures pre a mid) (hf : ∀ x, Ensures (mid x) (f x) post) : Ensures pre (a >>= f) post :=
  fun s hs => hf _ _ (ha s hs)

/-- What is read is a state like the present one. -/
theorem get_bind {post : β → σ → Prop} {f : σ → StateM σ β}
    (hf : ∀ s₀, pre s₀ → Ensures pre (f s₀) post) : Ensures pre (get >>= f) post :=
  fun s hs => hf s hs s hs

/-- An action does what it does. -/
theorem here (a : StateM σ α) (s₀ : σ) : Ensures (· = s₀) a fun x s => a s₀ = (x, s) := by
  rintro _ rfl
  rfl

/-- Nothing is said. -/
theorem any (a : StateM σ α) : Ensures pre a fun _ _ => True := fun _ _ => trivial

/-- What is said of every state is said of some. -/
theorem anywhere {post : α → σ → Prop} (ha : Ensures (fun _ => True) a post) : Ensures pre a post :=
  fun s _ => ha s trivial

/-- A fact remains one. -/
theorem fact {P : Prop} (a : StateM σ α) : Ensures (fun _ => P) a fun _ _ => P := fun _ h => h

/-- What does not depend on the state can be assumed. -/
theorem assume {P : Prop} (h : P → Ensures pre a post) : Ensures (fun s => P ∧ pre s) a post :=
  fun s hs => h hs.1 s hs.2

/-- What there is can be named. -/
theorem obtain {ι : Type} {pre : ι → σ → Prop} (h : ∀ i, Ensures (pre i) a post) :
    Ensures (fun s => ∃ i, pre i s) a post :=
  fun s ⟨i, hs⟩ => h i s hs

/-- What does not depend on the state stays. -/
theorem orElse {P : Prop} {post : σ → Prop} (h : Ensures pre a fun _ => post) :
    Ensures (fun s => pre s ∨ P) a fun _ s => post s ∨ P :=
  fun s hs => hs.imp_left (h s)

/-- Two things are said of an action. -/
theorem and {pre' : σ → Prop} {post' : α → σ → Prop} (ha : Ensures pre a post)
    (ha' : Ensures pre' a post') :
    Ensures (fun s => pre s ∧ pre' s) a fun x s => post x s ∧ post' x s :=
  fun s hs => ⟨ha s hs.1, ha' s hs.2⟩

theorem forM_append {mid : σ → Prop} {post : PUnit → σ → Prop} {xs ys : List β}
    {f : β → StateM σ PUnit} (hx : Ensures pre (xs.forM f) fun _ => mid)
    (hy : Ensures mid (ys.forM f) post) :
    Ensures pre ((xs ++ ys).forM f) post := by
  have happend : (xs ++ ys).forM f = xs.forM f >>= fun _ => ys.forM f := List.forM_append
  rw [happend]
  exact hx.bind fun _ => hy

theorem mono {pre' : σ → Prop} {post' : α → σ → Prop} (ha : Ensures pre a post)
    (hpre : ∀ s, pre' s → pre s) (hpost : ∀ x s, post x s → post' x s) : Ensures pre' a post' :=
  fun s hs => hpost _ _ (ha s (hpre s hs))

end Ensures

namespace Tries

variable {pre : σ → Prop} {good : α → σ → Prop} {bad : ε → σ → Prop} {a : ExceptT ε (StateM σ) α}

theorem pure (x : α) (h : ∀ s, pre s → good x s) : Tries pre (Pure.pure x) good bad := h

theorem throw (e : ε) (h : ∀ s, pre s → bad e s) : Tries pre (throw e) good bad := h

/-- Nothing is done after a failure. -/
theorem throw_bind {good : β → σ → Prop} {f : α → ExceptT ε (StateM σ) β} (e : ε)
    (h : ∀ s, pre s → bad e s) : Tries pre (MonadExcept.throw e >>= f) good bad := h

theorem bind {mid : α → σ → Prop} {good : β → σ → Prop} {f : α → ExceptT ε (StateM σ) β}
    (ha : Tries pre a mid bad) (hf : ∀ x, Tries (mid x) (f x) good bad) :
    Tries pre (a >>= f) good bad := fun s hs => by
  have h := ha s hs
  show Either good bad (ExceptT.bindCont f (a.run s).1 (a.run s).2).1
    (ExceptT.bindCont f (a.run s).1 (a.run s).2).2
  cases hr : (a.run s).1 with
  | ok x =>
    rw [hr] at h
    exact hf x _ h
  | error e =>
    rw [hr] at h
    exact h

theorem get_bind {good : β → σ → Prop} {f : σ → ExceptT ε (StateM σ) β}
    (hf : ∀ s₀, pre s₀ → Tries pre (f s₀) good bad) : Tries pre (get >>= f) good bad :=
  fun s hs => hf s hs s hs

theorem ofExcept {x : Except ε α} (hgood : ∀ a, x = .ok a → ∀ s, pre s → good a s)
    (hbad : ∀ e, x = .error e → ∀ s, pre s → bad e s) :
    Tries pre (ExceptT.mk (Pure.pure x)) good bad := by
  cases x with
  | ok a => exact hgood a rfl
  | error e => exact hbad e rfl

theorem lift {b : StateM σ α} (hb : Ensures pre b good) : Tries pre (liftM b) good bad := hb

theorem mono {pre' : σ → Prop} {good' : α → σ → Prop} {bad' : ε → σ → Prop}
    (ha : Tries pre a good bad) (hpre : ∀ s, pre' s → pre s) (hgood : ∀ x s, good x s → good' x s)
    (hbad : ∀ e s, bad e s → bad' e s) : Tries pre' a good' bad' :=
  Ensures.mono ha hpre fun r s => by
    cases r with
    | ok x => exact hgood x s
    | error e => exact hbad e s

/-- What holds of a value holds of the one that was found. -/
theorem of_ok (ha : Tries pre a good bad) {s : σ} (hs : pre s) {x : α} (hx : (a.run s).1 = .ok x) :
    good x (a.run s).2 := by
  have h := ha s hs
  rwa [hx] at h

/-- What holds whether or not it failed holds after it. -/
theorem run {post : σ → Prop} (ha : Tries pre a (fun _ => post) fun _ => post) :
    Ensures pre a.run fun _ => post := fun s hs => by
  have h := ha s hs
  cases hr : (a.run s).1 <;> rw [hr] at h <;> exact h

/-- Two things are said of what is tried. -/
theorem and {pre' : σ → Prop} {good' : α → σ → Prop} {bad' : ε → σ → Prop}
    (ha : Tries pre a good bad) (ha' : Tries pre' a good' bad') :
    Tries (fun s => pre s ∧ pre' s) a (fun x s => good x s ∧ good' x s) fun e s => bad e s ∧
        bad' e s :=
  (Ensures.and ha ha').mono (fun _ hs => hs) fun r _ hs => by cases r <;> exact hs

theorem bad_mono {bad' : ε → σ → Prop} (ha : Tries pre a good bad)
    (hbad : ∀ e s, bad e s → bad' e s) :
    Tries pre a good bad' := ha.mono (fun _ h => h) (fun _ _ h => h) hbad

end Tries

end Slideshow
