import Slideshow.Proofs.Narration.Record

/-!
# Requests in order

What a merge asks is told by a list of requests: work makes them in order, or stops on the way. Such
a fact is proved once for each piece of the work; the facts about its pieces compose along its text.

* `Served ready requests made`: the requests were made in order, each on a machine that was ready
  for it, and were answered. `Failed`: they were made until one failed. `Stopped` has all the
  reasons why work on requests can stop.
* `Makes` is for work that makes requests, and tells besides what it does to the machine.
* `Makes.ask`, `own`, `silently`, `unlessCancelled`: one rule for each thing that work does.

Headline:
* **`Makes.bind`**: requests are made in the order of the text.
-/

namespace Slideshow.Merger

open Machine

/-! ## Requests in order -/

section
variable (ready : Request → Machine → Prop)

/-- Requests were made in order, each on a machine that was ready for it, and all of them were
answered. -/
structure Served (requests : List Request) (made : List Exchange) : Prop where
  order : made.map (·.request) = requests
  ready : ∀ a ∈ made, ready a.request a.before
  answered : ∀ a ∈ made, a.failure = none

/-- Requests were made in order, each on a machine that was ready for it, until one failed. -/
structure Failed (e : Error) (requests : List Request) (made : List Exchange) : Prop where
  order : made.map (·.request) <+: requests
  ready : ∀ a ∈ made, ready a.request a.before
  answered : ∀ a ∈ made.dropLast, a.failure = none
  failed : ∃ last, made.getLast? = some last ∧ last.failure = some e

/-- Why work on requests stopped with an error. -/
inductive Stopped (e : Error) (requests : List Request) (made : List Exchange) (b : Logbook) : Prop
  | refused (h : b.refused = true)
  /-- The token was found to have fired when some of the requests had been answered. -/
  | alarmed {begun : List Request} {stage : String} (h : b.alarmed = true)
  (he : e = cancelled stage) (hbegun : begun <+: requests) (served : Served ready begun made)
  | failed (h : Failed ready e requests made)

/-- Work on a machine with `pre` makes requests in order; if it stops, some of them. Its value and
the machine have `post`. -/
def Makes {α : Type} (pre : Machine → Prop) (requests : List Request) (x : RecordedTrial α)
    (post : α → Machine → Prop) : Prop :=
  ∀ before, Tries (fun b : Logbook => pre b.machine ∧ b.exchanges = before) x
    (fun a b => post a b.machine ∧ ∃ made, Served ready requests made ∧
      b.exchanges = before ++ made)
    fun e b => ∃ made, Stopped ready e requests made b ∧ b.exchanges = before ++ made

end

section
variable {ready : Request → Machine → Prop} {rs ss : List Request} {as bs : List Exchange}
    {b b' : Logbook} {e : Error}

theorem Served.nil : Served ready [] [] := ⟨rfl, by simp, by simp⟩

theorem Served.append (has : Served ready rs as) (hbs : Served ready ss bs) :
    Served ready (rs ++ ss) (as ++ bs) where
  order := by rw [List.map_append, has.order, hbs.order]
  ready _ ha := (List.mem_append.mp ha).elim (has.ready _) (hbs.ready _)
  answered _ ha := (List.mem_append.mp ha).elim (has.answered _) (hbs.answered _)

theorem Failed.after (has : Served ready rs as) (h : Failed ready e ss bs) :
    Failed ready e (rs ++ ss) (as ++ bs) := by
  obtain ⟨last, hlast, hfailure⟩ := h.failed
  have hne : bs ≠ [] := fun heq => by simp [heq] at hlast
  refine ⟨?_, fun a ha => (List.mem_append.mp ha).elim (has.ready a) (h.ready a), fun a ha => ?_,
    last, ?_, hfailure⟩
  · rw [List.map_append, has.order]
    exact (List.prefix_append_right_inj rs).mpr h.order
  · rw [List.dropLast_append_of_ne_nil hne] at ha
    exact (List.mem_append.mp ha).elim (has.answered a) (h.answered a)
  · rw [List.getLast?_append, hlast, Option.some_or]

/-- What failed was one of the requests. -/
theorem Failed.requests_ne_nil (h : Failed ready e rs as) : rs ≠ [] := by
  rintro rfl
  obtain ⟨last, hlast, -⟩ := h.failed
  have hnil : as = [] := List.map_eq_nil_iff.mp (List.prefix_nil.mp h.order)
  rw [hnil] at hlast
  cases hlast

theorem Stopped.widen (h : Stopped ready e rs as b) (ss : List Request) :
    Stopped ready e (rs ++ ss) as b := by
  cases h with
  | refused h => exact .refused h
  | alarmed h he hbegun served =>
    exact .alarmed h he (hbegun.trans (List.prefix_append rs ss)) served
  | failed h =>
    exact .failed ⟨h.order.trans (List.prefix_append rs ss), h.ready, h.answered, h.failed⟩

theorem Stopped.after (has : Served ready rs as) (h : Stopped ready e ss bs b) :
    Stopped ready e (rs ++ ss) (as ++ bs) b := by
  cases h with
  | refused h => exact .refused h
  | alarmed h he hbegun served =>
    exact .alarmed h he ((List.prefix_append_right_inj rs).mpr hbegun) (has.append served)
  | failed h => exact .failed (h.after has)

theorem Served.eq_nil (h : Served ready [] as) : as = [] := List.map_eq_nil_iff.mp h.order

/-- Work that makes no requests is not stopped by one. -/
theorem Stopped.of_nil {ready' : Request → Machine → Prop} (h : Stopped ready e [] as b)
    (rs : List Request) :
    Stopped ready' e rs as b := by
  cases h with
  | refused h => exact .refused h
  | alarmed h he hbegun served =>
    obtain rfl := List.prefix_nil.mp hbegun
    obtain rfl := served.eq_nil
    exact .alarmed h he List.nil_prefix .nil
  | failed h => exact absurd rfl h.requests_ne_nil

/-- Only what is noted matters for why work stopped. -/
theorem Stopped.noted (h : Stopped ready e rs as b) (hrefused : b'.refused = b.refused)
    (halarmed : b'.alarmed = b.alarmed) :
    Stopped ready e rs as b' := by
  cases h with
  | refused h => exact .refused (hrefused.trans h)
  | alarmed h he hbegun served => exact .alarmed (halarmed.trans h) he hbegun served
  | failed h => exact .failed h

end

namespace Makes

variable {ready : Request → Machine → Prop} {rs ss : List Request} {α β : Type}
    {pre : Machine → Prop}

/-- Work that makes no requests. -/
theorem unasked {x : RecordedTrial α} {post : α → Machine → Prop}
    (h : ∀ b : Logbook,
      pre b.machine → Either (fun a b' => post a b'.machine ∧ b'.exchanges = b.exchanges)
      (fun e b' => Stopped ready e [] [] b' ∧ b'.exchanges = b.exchanges) (x.run b).1 (x.run b).2) :
    Makes ready pre [] x post := by
  rintro before b ⟨hpre, rfl⟩
  have hx := h b hpre
  cases hresult : (x.run b).1 with
  | ok a =>
    rw [hresult] at hx
    exact ⟨hx.1, [], .nil, by rw [hx.2, List.append_nil]⟩
  | error e =>
    rw [hresult] at hx
    exact ⟨[], hx.1, by rw [hx.2, List.append_nil]⟩

theorem pure {post : α → Machine → Prop} (x : α) (h : ∀ m, pre m → post x m) :
    Makes ready pre [] (Pure.pure x) post :=
  unasked fun _ hb => ⟨h _ hb, rfl⟩

/-- Something that is not noted. -/
theorem silently {action : Action α} {post : α → Machine → Prop} (h : Ensures pre action post) :
    Makes ready pre [] (liftM (Recorded.silently action)) post := unasked fun _ hb => ⟨h _ hb, rfl⟩

/-- A step of the merge's own whose result says what it has done. -/
theorem own {action : Action (Except OsError α)} {good : α → Machine → Prop}
    {bad : OsError → Machine → Prop} (context : String) (h : Ensures pre action (Either good bad)) :
    Makes ready pre [] (Recorded.own action context) good := unasked fun b hb => by
  have hstep := h _ hb
  show Either _ _ ((action b.machine).1.mapError _) _
  cases hresult : (action b.machine).1 with
  | ok x =>
    rw [hresult] at hstep
    exact ⟨hstep, rfl⟩
  | error e =>
    refine ⟨.refused ?_, rfl⟩
    show (b.refused || !(action b.machine).1.isOk) = true
    rw [hresult]
    exact Bool.or_true _

/-- A step of the merge's own after which something holds, whether or not it is refused. -/
theorem ownKeeps {action : Action (Except OsError α)} {post : Machine → Prop} (context : String)
    (h : Ensures pre action fun _ => post) :
    Makes ready pre [] (Recorded.own action context) fun _ => post := by
  have heither : Ensures pre action (Either (fun _ => post) fun _ => post) :=
    h.mono (fun _ hm => hm) fun r _ hm => by
    cases r <;> exact hm
  exact own context heither

/-- Goes on unless the token has fired. -/
theorem unlessCancelled (stage : String) {post : Machine → Prop} (h : ∀ m, pre m → post m.await) :
    Makes ready pre [] (Recorded.unlessCancelled stage) fun _ => post := unasked fun b hb => by
  rw [Recorded.unlessCancelled_run]
  cases hfired : b.machine.await.noticed with
  | true => exact ⟨.alarmed (Bool.or_true _) rfl List.prefix_rfl .nil, rfl⟩
  | false => exact ⟨h _ hb, rfl⟩

/-- A request. -/
theorem ask {g : Merger} {r : Request} (h : ∀ m, pre m → ready r m) :
    Makes ready pre [r] (Recorded.ask g r) fun _ _ => True := by
  rintro before b ⟨hpre, rfl⟩
  have hready : ∀ a ∈ [Recorded.entry g r b.machine], ready a.request a.before := by
    rintro a ha
    rw [List.mem_singleton.mp ha]
    exact h _ hpre
  show Either _ _ ((g.serve r).run b.machine).1 _
  cases hanswer : ((g.serve r).run b.machine).1 with
  | ok x =>
    refine ⟨trivial, [Recorded.entry g r b.machine], ⟨rfl, hready, fun a ha => ?_⟩, rfl⟩
    rw [List.mem_singleton.mp ha, Recorded.entry, hanswer]
    rfl
  | error e =>
    have hfailure : (Recorded.entry g r b.machine).failure = some e := by
      rw [Recorded.entry, hanswer]
      rfl
    exact ⟨[Recorded.entry g r b.machine],
      .failed ⟨List.prefix_refl _, hready, fun a ha => absurd ha List.not_mem_nil, _, rfl,
        hfailure⟩, rfl⟩

/-- **Requests are made in the order of the text.** -/
theorem bind {x : RecordedTrial α} {f : α → RecordedTrial β} {mid : α → Machine → Prop}
    {post : β → Machine → Prop} (hx : Makes ready pre rs x mid)
    (hf : ∀ a, Makes ready (mid a) ss (f a) post) : Makes ready pre (rs ++ ss) (x >>= f) post :=
  fun before =>
    Tries.bind ((hx before).bad_mono fun _ _ ⟨made, hstopped, hb⟩ => ⟨made, hstopped.widen ss, hb⟩)
        fun a b hgood => by
    obtain ⟨hmid, made, hserved, hb⟩ := hgood
    refine (hf a (before ++ made)).mono (fun _ h => h) ?_ ?_ b ⟨hmid, hb⟩
    · rintro y b ⟨hpost, more, hmore, hb⟩
      exact ⟨hpost, made ++ more, hserved.append hmore, by rwa [← List.append_assoc]⟩
    · rintro e b ⟨more, hmore, hb⟩
      exact ⟨made ++ more, hmore.after hserved, by rwa [← List.append_assoc]⟩

theorem mono {x : RecordedTrial α} {pre' : Machine → Prop} {post post' : α → Machine → Prop}
    (h : Makes ready pre rs x post) (hpre : ∀ m, pre' m → pre m)
    (hpost : ∀ a m, post a m → post' a m) : Makes ready pre' rs x post' := fun before =>
  (h before).mono (fun _ hb => ⟨hpre _ hb.1, hb.2⟩)
    (fun _ _ hb => ⟨hpost _ _ hb.1, hb.2⟩) fun _ _ hb => hb

/-- What does not depend on the machine can be assumed. -/
theorem assume {p : Prop} {x : RecordedTrial α} {post : α → Machine → Prop}
    (h : p → Makes ready (fun _ => True) rs x post) : Makes ready (fun _ => p) rs x post :=
  fun before b hb => h hb.1 before b ⟨trivial, hb.2⟩

/-- The workspace is removed in the end, whatever came of the work in it. -/
theorem closingAfter {x : RecordedTrial α} {post : α → Machine → Prop} (w : Workspace)
    (h : Makes ready pre rs x post) :
    Makes ready pre rs (Recorded.closingAfter w x) fun _ _ => True := fun before => by
  refine Ensures.bind (h before) fun result b hb => ?_
  show Either _ _ result { b with machine := (w.close.run b.machine).2 }
  cases result with
  | ok a =>
    obtain ⟨-, hmade⟩ := hb
    exact ⟨trivial, hmade⟩
  | error e =>
    obtain ⟨made, hstopped, hexchanges⟩ := hb
    exact ⟨made, hstopped.noted rfl rfl, hexchanges⟩

end Makes

end Slideshow.Merger
