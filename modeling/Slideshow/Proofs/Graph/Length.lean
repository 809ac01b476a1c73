import Slideshow.Narration.Duration
import Slideshow.Proofs.Exact
import Slideshow.Proofs.Graph.Valuation
import Mathlib.Data.Rat.Floor
import Mathlib.Tactic.Linarith
import Mathlib.Tactic.Ring

/-!
# Transitions keep the length of a video

Lengths of compiled graphs (`compile`, `plan_timeline`) are read over the rationals. Scaling and
moving an image keeps its length, streams one after another add up, and a blend overlaps two
streams: it has to start where the first one has just the length of the blend left, and the second
one must not be shorter than the blend.

Before blend `k` the current stream is as long as the first `k + 1` segments and one blend; this is
the invariant that `chainValue_lengthOf` carries along the chain.

Headlines:
* `blendLength?_numbers`: a blend that fits is no longer than any segment.
* **`chainValue_lengthOf`**: a chain of blends is as long as its segments together.
* `pairwise_partialSums`: no blend starts before the one in front of it is over.
* `blendOperations_defined`: where a chain has a value, each of its blends has one.
* **`compile_keepsLength`**: every accepted slideshow is as long as its segments together.
-/

namespace Slideshow.Graph

open Scalar

/-! ## Lengths of streams -/

/-- What an operation makes of the lengths of its inputs. -/
def lengthOf : Interpretation (Exact ℚ) ℚ
  | .scaleCrop _ _, [a] => some a
  | .motion _ _, [a] => some a
  | .concat _, as => some as.sum
  | .blend _ (.number td) (.number offset), [a, b] =>
    if 0 < td ∧ offset + td = a ∧ td ≤ b then some (a + b - td) else none
  | _, _ => none

namespace Kind

variable {α : Type}

def isBlend : Kind α → Bool
  | .blend _ _ _ => true
  | _ => false

/-- Whether an operation makes one stream of the segments. -/
def joins : Kind α → Bool
  | .blend _ _ _ | .concat _ => true
  | _ => false

/-- When a blend starts and ends. -/
def window? : Kind (Exact ℚ) → Option (ℚ × ℚ)
  | .blend _ (.number td) (.number offset) => some (offset, offset + td)
  | _ => none

end Kind

/-- The lengths of the images of a graph. -/
def FilterGraph.padLengths (g : FilterGraph (Exact ℚ)) : Valuation ℚ :=
  padValues g.inputs.length fun i => g.inputs[i]?.bind fun x => x.seconds.number?

/-- The joined stream of a graph, and the video, are `total` seconds long. -/
structure KeepsLength (g : FilterGraph (Exact ℚ)) (total : ℚ) : Prop where
  timeline_eq : g.timelineSeconds = .number total
  blends_defined : ∀ before op after, g.operations = before ++ op :: after →
    op.kind.isBlend = true → (op.value lengthOf (run lengthOf g.padLengths before)).isSome = true
  windows_apart : (g.operations.filterMap fun op => op.kind.window?).Pairwise
    fun first second => first.2 ≤ second.1
  joined_length : ∃ before op after, g.operations = before ++ op :: after ∧
    op.kind.joins = true ∧ (∀ x ∈ after, x.kind.joins = false) ∧
    op.value lengthOf (run lengthOf g.padLengths before) = some total

/-! ## Plans over the rationals -/

theorem extended_numbers (td : ℚ) : ∀ ds : List ℚ,
    Timeline.extended (Exact.number td) (ds.map .number) = (Timeline.extended td ds).map .number
  | [] => rfl
  | [_] => rfl
  | d :: e :: r => by
    simp only [List.map_cons, Timeline.extended, Exact.number_add]
    rw [← List.map_cons, extended_numbers td (e :: r)]

theorem partialSums_numbers : ∀ (start : ℚ) (ds : List ℚ),
    Timeline.partialSums (Exact.number start) (ds.map .number) =
      (Timeline.partialSums start ds).map .number
  | _, [] => rfl
  | _, [_] => rfl
  | start, d :: e :: r => by
    simp only [List.map_cons, Timeline.partialSums, Exact.number_add]
    rw [← List.map_cons, partialSums_numbers (start + d) (e :: r)]

/-- A blend that fits is longer than nothing and no longer than any segment. -/
theorem blendLength?_numbers {ds : List ℚ} {asked : Exact ℚ} {q : ℚ} {td : Exact ℚ}
    (h : Timeline.blendLength? (ds.map .number) asked (.number q) = some td) :
    ∃ x, td = .number x ∧ 0 < x ∧ ∀ d ∈ ds, x ≤ d := by
  obtain ⟨d', e', r', hds, habove, rfl⟩ := Timeline.blendLength?_eq_some h
  obtain ⟨d, rest, rfl, rfl, hrest⟩ := List.map_eq_cons_iff.mp hds
  obtain ⟨least, hleast, hfirst, hothers⟩ := Exact.foldl_minimum_numbers rest d
  obtain ⟨z, hz0, hz1, hclamp⟩ := Exact.clamp_number q (zero_le_one (α := ℚ))
  have hfitted : Timeline.fitted asked (.number q) (Timeline.shortest (.number d) (e' :: r')) =
      minimum asked (.number (least * z)) := by
    rw [← hrest, Timeline.fitted, Timeline.shortest, hleast, Exact.isNaN_number,
      if_neg Bool.false_ne_true, Exact.zero_eq, Exact.one_eq, hclamp, Exact.number_mul]
  rw [hfitted] at habove ⊢
  rcases Exact.minimum_number_right (least * z) asked with ⟨x, hx, hmin⟩ | hmin
  · rw [hmin] at habove ⊢
    have hpos : 0 < x := by
      simpa only [Exact.isAbove_number, decide_eq_true_eq] using habove
    have hleast0 : 0 < least := by
      by_contra hneg
      have := mul_nonpos_of_nonpos_of_nonneg (not_lt.mp hneg) hz0
      linarith
    have hlimit : least * z ≤ least := mul_le_of_le_one_right hleast0.le hz1
    exact ⟨x, rfl, hpos, fun y hy => (List.mem_cons.mp hy).elim
      (fun hyd => by rw [hyd]; linarith) fun hy => by linarith [hothers y hy]⟩
  · rw [hmin] at habove
    exact absurd habove Bool.false_ne_true

/-- **No blend starts before the one in front of it is over**, as none is longer than a segment. -/
theorem pairwise_partialSums {td : ℚ} : ∀ (ds : List ℚ) (start d : ℚ), 0 < td →
    (∀ e ∈ ds, td ≤ e) →
      (∀ o ∈ Timeline.partialSums start (d :: ds), start + d ≤ o) ∧
        (Timeline.partialSums start (d :: ds)).Pairwise fun o p => o + td ≤ p
  | [], _, _, _, _ => ⟨fun _ h => absurd h List.not_mem_nil, .nil⟩
  | e :: r, start, d, htd, h => by
    obtain ⟨hfrom, hpairs⟩ := pairwise_partialSums r (start + d) e htd
      fun x hx => h x (List.mem_cons_of_mem _ hx)
    have he : td ≤ e := h e List.mem_cons_self
    refine ⟨fun o ho => ?_, .cons (fun o ho => ?_) hpairs⟩
    · rcases List.mem_cons.mp ho with rfl | ho
      · exact le_rfl
      · have := hfrom o ho
        linarith
    · have := hfrom o ho
      linarith

/-! ## Chains of blends -/

theorem lengthOf_blend (t : Transition) {td : ℚ} (htd : 0 < td) (offset : ℚ) {b : ℚ}
    (hb : td ≤ b) : lengthOf (.blend t (.number td) (.number offset)) [offset + td, b] =
      some (offset + b) := by
  show (if 0 < td ∧ offset + td = offset + td ∧ td ≤ b then _ else none) = _
  rw [if_pos ⟨htd, rfl, hb⟩]
  exact congrArg some (by ring)

/-- **A chain of blends is as long as its segments together.** The current stream has the length of
what has been blended, and of the blend to come. -/
theorem chainValue_lengthOf (t : Transition) {td : ℚ} (htd : 0 < td) :
    ∀ (ds : List ℚ) (start d : ℚ), ds ≠ [] → (∀ e ∈ ds, td ≤ e) →
      chainValue lengthOf t (.number td) (some (start + d + td))
        (((Timeline.partialSums start (d :: ds)).map .number).zip (Timeline.extended td ds)) =
          some (start + (d :: ds).sum)
  | [], _, _, h, _ => absurd rfl h
  | [e], start, d, _, h => by
    show (some (start + d + td)).bind (fun a =>
      lengthOf (.blend t (.number td) (.number (start + d))) [a, e]) = _
    rw [Option.bind_some, lengthOf_blend t htd (start + d) (h e List.mem_cons_self)]
    simp [add_assoc]
  | e :: f :: r, start, d, _, h => by
    have ih := chainValue_lengthOf t htd (f :: r) (start + d) e (List.cons_ne_nil f r)
      fun x hx => h x (List.mem_cons_of_mem _ hx)
    have he : td ≤ e + td := by linarith [h e List.mem_cons_self]
    show chainValue lengthOf t _ ((some (start + d + td)).bind fun a =>
      lengthOf (.blend t (.number td) (.number (start + d))) [a, e + td]) _ = _
    rw [Option.bind_some, lengthOf_blend t htd (start + d) he, ← add_assoc]
    rw [show start + (d :: e :: f :: r).sum = start + d + (e :: f :: r).sum by
      rw [List.sum_cons, add_assoc]]
    exact ih

section

variable {α β : Type} [Scalar α] (I : Interpretation α β) (t : Transition) (td : α)

omit [Scalar α] in
theorem chainValue_none : ∀ pairs : List (α × β), chainValue I t td none pairs = none
  | [] => rfl
  | _ :: r => chainValue_none r

/-- Where a chain of blends has a value, each of its blends has one. -/
theorem blendOperations_defined : ∀ (offsets : List α) (bs : List β) (k : Nat) (current : String)
    (v : Valuation β), bs.length = offsets.length →
      (∀ j (h : j < bs.length), v (movedLabel (k + 1 + j)) = some bs[j]) →
      (chainValue I t td (v current) (offsets.zip bs)).isSome = true →
      ∀ before op after, blendOperations t td k current offsets = before ++ op :: after →
        (op.value I (run I v before)).isSome = true
  | [], _, _, _, _, _, _, _, before, op, after, h => absurd h (by simp [blendOperations])
  | _ :: _, [], _, _, _, h, _, _, _, _, _, _ => absurd h (by simp)
  | o :: r, b :: bs, k, current, v, hlen, hb, hsome, before, op, after, h => by
    have hb0 : v (movedLabel (k + 1)) = some b := hb 0 (by simp)
    have hfirst : (v current).bind (fun a => I (.blend t td o) [a, b]) =
        Operation.value I v ⟨.blend t td o, [current, movedLabel (k + 1)], blendLabel k,
          blendFilter t td o⟩ := by
      rw [value_two, hb0]
      rfl
    rw [List.zip_cons_cons, chainValue, hfirst] at hsome
    rw [blendOperations] at h
    cases before with
    | nil =>
      obtain ⟨rfl, -⟩ := List.cons.inj h
      cases hv : Operation.value I v ⟨.blend t td o, [current, movedLabel (k + 1)], blendLabel k,
          blendFilter t td o⟩ with
      | none =>
        rw [hv, chainValue_none] at hsome
        exact absurd hsome Bool.false_ne_true
      | some x =>
        show (Operation.value I v _).isSome = true
        rw [hv]
        rfl
    | cons x before =>
      obtain ⟨rfl, hr⟩ := List.cons.inj h
      refine blendOperations_defined r bs (k + 1) (blendLabel k) _ (by simpa using hlen)
        (fun j hj => ?_) ?_ before op after hr
      · have hj' := hb (j + 1) (by simpa using hj)
        rw [Valuation.set_of_ne _ _ (movedLabel_ne_blendLabel _ _),
          show k + 1 + 1 + j = k + 1 + (j + 1) by omega]
        simpa using hj'
      · rw [Valuation.set_self]
        exact hsome

/-- Where a join has a value, each of its blends has one. -/
theorem joined_defined (spec : EffectSpec α) (timeline : Timeline α) (ms : List β)
    (v : Valuation β)
    (h : timeline.transition.isSome = true →
      2 ≤ ms.length ∧ timeline.offsets.length + 1 = ms.length)
    (hm : ∀ j (hj : j < ms.length), v (movedLabel j) = some ms[j])
    (hsome : (joinValue I spec timeline ms).isSome = true) (before : List (Operation α))
    (op : Operation α) (after : List (Operation α))
    (hops : (joined spec timeline ms.length).operations = before ++ op :: after)
    (hblend : op.kind.isBlend = true) : (op.value I (run I v before)).isSome = true := by
  have hcut : [concatOperation ms.length] = before ++ op :: after → False := fun hc => by
    have hop : op ∈ [concatOperation ms.length] := by rw [hc]; simp
    rw [List.mem_singleton.mp hop] at hblend
    exact absurd hblend Bool.false_ne_true
  unfold joined joinStage at hops
  unfold joinValue at hsome
  cases ht : spec.transition with
  | none =>
    rw [ht] at hops
    exact (hcut hops).elim
  | some t =>
    cases htd : timeline.transition with
    | none =>
      rw [ht, htd] at hops
      exact (hcut hops).elim
    | some td =>
      rw [ht, htd] at hops hsome
      obtain ⟨hn, hlen⟩ := h (by rw [htd]; rfl)
      obtain ⟨m, rest, rfl⟩ := List.exists_cons_of_length_pos (show 0 < ms.length by omega)
      refine blendOperations_defined I t td timeline.offsets rest 0 (movedLabel 0) v
        (by simpa using hlen.symm) (fun j hj => ?_) ?_ before op after hops
      · have := hm (j + 1) (by simpa using hj)
        rw [show 0 + 1 + j = j + 1 by omega]
        simpa using this
      · rw [hm 0 (by simp)]
        exact hsome

end

/-! ## Which operations join -/

section

variable {α : Type}

theorem Kind.joins_of_isBlend {k : Kind α} (h : k.isBlend = true) : k.joins = true := by
  cases k <;> first | rfl | exact absurd h Bool.false_ne_true

theorem Kind.window?_of_joins {k : Kind (Exact ℚ)} (h : k.joins = false) : k.window? = none := by
  cases k <;> first | rfl | exact absurd h.symm Bool.false_ne_true

variable [Scalar α]

theorem joins_of_mem_segments {s : RenderSettings α} {m : Motion} : ∀ {ds : List α} {i : Nat}
    {op : Operation α}, op ∈ segmentOperations s m i ds → op.kind.joins = false
  | [], _, _, h => absurd h List.not_mem_nil
  | _ :: _, _, _, h => by
    rcases List.mem_append.mp h with h | h
    · rcases List.mem_cons.mp h with rfl | h
      · rfl
      · rw [List.mem_singleton.mp h]
        rfl
    · exact joins_of_mem_segments h

theorem joins_of_mem_blends {t : Transition} {td : α} : ∀ {offsets : List α} {k : Nat}
    {current : String} {op : Operation α}, op ∈ blendOperations t td k current offsets →
      op.kind.joins = true
  | [], _, _, _, h => absurd h List.not_mem_nil
  | _ :: _, _, _, _, h => by
    rcases List.mem_cons.mp h with rfl | h
    · rfl
    · exact joins_of_mem_blends h

theorem joins_of_mem_joined {spec : EffectSpec α} {timeline : Timeline α} {n : Nat}
    {op : Operation α} (h : op ∈ (joined spec timeline n).operations) : op.kind.joins = true := by
  unfold joined joinStage at h
  split at h
  · exact joins_of_mem_blends h
  · rw [List.mem_singleton.mp h]
    rfl

theorem joins_of_mem_graded {spec : EffectSpec α} {timeline : Timeline α} {n : Nat}
    {op : Operation α} (h : op ∈ (graded spec timeline n).operations) : op.kind.joins = false := by
  unfold graded gradeStage at h
  split at h
  · rw [List.mem_singleton.mp h]
    rfl
  · exact absurd h List.not_mem_nil

theorem joins_of_mem_overlaid {s : RenderSettings α} {spec : EffectSpec α} {timeline : Timeline α}
    {n : Nat} {op : Operation α} (h : op ∈ (overlaid s spec timeline n).operations) :
    op.kind.joins = false := by
  unfold overlaid overlayStage at h
  split at h
  · rcases List.mem_cons.mp h with rfl | h
    · rfl
    · rw [List.mem_singleton.mp h]
      rfl
  · exact absurd h List.not_mem_nil

end

/-! ## Compiled graphs -/

/-- Where a list in two pieces is split, one of the pieces is. -/
theorem append_split {γ : Type} {xs ys before after : List γ} {x : γ}
    (h : xs ++ ys = before ++ x :: after) :
    (∃ mid, xs = before ++ x :: mid) ∨ ∃ mid, before = xs ++ mid ∧ ys = mid ++ x :: after := by
  rcases List.append_eq_append_iff.mp h with ⟨mid, hb, hy⟩ | ⟨mid, hx, hr⟩
  · exact Or.inr ⟨mid, hb, hy⟩
  · cases mid with
    | nil =>
      rw [List.append_nil] at hx
      exact Or.inr ⟨[], by rw [hx, List.append_nil], hr.symm⟩
    | cons y mid =>
      obtain ⟨rfl, -⟩ := List.cons.inj hr
      exact Or.inl ⟨mid, hx⟩

/-- A blend stands among the operations of the join. -/
theorem staged_split {α : Type} [Scalar α] {s : RenderSettings α} {spec : EffectSpec α}
    {timeline : Timeline α} {n : Nat} {before after : List (Operation α)} {op : Operation α}
    (h : stagedOperations s spec timeline n = before ++ op :: after)
    (hop : op.kind.joins = true) :
    ∃ front rest, before =
        segmentOperations s spec.motionOrDefault 0 timeline.rendered ++ front ∧
      (joined spec timeline n).operations = front ++ op :: rest := by
  have hno : ∀ {ops : List (Operation α)} {xs ys : List (Operation α)},
      (∀ x ∈ ops, x.kind.joins = false) → ops ≠ xs ++ op :: ys := fun hops he => by
    have hm := hops op (by rw [he]; simp)
    rw [hop] at hm
    exact absurd hm.symm Bool.false_ne_true
  unfold stagedOperations at h
  rcases append_split h with ⟨a, h⟩ | ⟨a, -, h⟩
  · rcases append_split h with ⟨b, h⟩ | ⟨b, -, h⟩
    · rcases append_split h with ⟨c, h⟩ | ⟨c, hb, h⟩
      · exact absurd h (hno fun x hx => joins_of_mem_segments hx)
      · exact ⟨c, b, hb, h⟩
    · exact absurd h (hno fun x hx => joins_of_mem_graded hx)
  · exact absurd h (hno fun x hx => joins_of_mem_overlaid hx)

/-- The last operation of the join, relabelled or not, is the last one that joins. -/
theorem relabelled_join {α : Type} [Scalar α] (s : RenderSettings α) (spec : EffectSpec α)
    (timeline : Timeline α) (n : Nat)
    (h : timeline.transition.isSome = true → timeline.offsets ≠ []) :
    ∃ front op op' after, (joined spec timeline n).operations = front ++ [op] ∧
      op.output = (joined spec timeline n).label ∧
      relabelLast (stagedOperations s spec timeline n) =
        segmentOperations s spec.motionOrDefault 0 timeline.rendered ++ front ++ op' :: after ∧
      op.SameWork op' ∧ op'.kind.joins = true ∧ ∀ x ∈ after, x.kind.joins = false := by
  obtain ⟨front, op, hj, hop⟩ := joined_endsIn spec timeline n h
  have hjoins : op.kind.joins = true := joins_of_mem_joined (by rw [hj]; simp)
  have hstaged : stagedOperations s spec timeline n =
      segmentOperations s spec.motionOrDefault 0 timeline.rendered ++ front ++
        op :: ((graded spec timeline n).operations ++ (overlaid s spec timeline n).operations) := by
    unfold stagedOperations
    rw [hj]
    simp only [List.append_assoc, List.cons_append, List.nil_append]
  obtain ⟨op', after, he, hwork, hkinds⟩ := relabelLast_append
    (segmentOperations s spec.motionOrDefault 0 timeline.rendered ++ front)
    ((graded spec timeline n).operations ++ (overlaid s spec timeline n).operations) op
  refine ⟨front, op, op', after, hj, hop, by rw [hstaged, he], hwork,
    by rw [← hwork.1]; exact hjoins, fun x hx => ?_⟩
  have hk : x.kind ∈ after.map fun op => op.kind := List.mem_map_of_mem hx
  rw [hkinds] at hk
  obtain ⟨y, hy, hxy⟩ := List.mem_map.mp hk
  rw [← hxy]
  exact (List.mem_append.mp hy).elim joins_of_mem_graded joins_of_mem_overlaid

theorem windows_blendOperations (t : Transition) (td : ℚ) : ∀ (offsets : List ℚ) (k : Nat)
    (current : String), (blendOperations t (Exact.number td) k current
      (offsets.map .number)).filterMap (fun op => op.kind.window?) =
        offsets.map fun o => (o, o + td)
  | [], _, _ => rfl
  | o :: r, k, _ =>
    congrArg ((o, o + td) :: ·) (windows_blendOperations t td r (k + 1) (blendLabel k))

section

variable {s : RenderSettings (Exact ℚ)} {q : ℚ} (hs : s.maxTransitionFraction = .number q)
  (spec : EffectSpec (Exact ℚ)) (ds : List ℚ)

include hs

/-- Segments are cut hard, or blended by blends that are no longer than any of them. -/
theorem timelineOf_numbers :
    timelineOf s spec (ds.map .number) = .cuts (ds.map .number) ∨
      ∃ t td, spec.transition = some t ∧ 0 < td ∧ (∀ d ∈ ds, td ≤ d) ∧ 2 ≤ ds.length ∧
        timelineOf s spec (ds.map .number) = .blends (.number td) (ds.map .number) := by
  rw [timelineOf_eq, hs]
  cases spec.transition with
  | none => exact Or.inl rfl
  | some t =>
    cases htd : Timeline.blendLength? (ds.map .number) spec.transitionDuration (.number q) with
    | none => exact Or.inl rfl
    | some td' =>
      obtain ⟨td, rfl, hpos, hle⟩ := blendLength?_numbers htd
      obtain ⟨d, e, r, hds, -, -⟩ := Timeline.blendLength?_eq_some htd
      have hlen : 2 ≤ ds.length := by
        have := congrArg List.length hds
        simp only [List.length_map, List.length_cons] at this
        omega
      exact Or.inr ⟨t, td, rfl, hpos, hle, hlen, rfl⟩

/-- **The join of segments is as long as the segments were asked to be**: `ms` are the lengths at
which they are rendered. -/
theorem joinValue_lengthOf : ∃ ms : List ℚ,
    (timelineOf s spec (ds.map .number)).rendered = ms.map .number ∧
      joinValue lengthOf spec (timelineOf s spec (ds.map .number)) ms = some ds.sum := by
  rcases timelineOf_numbers hs spec ds with h | ⟨t, td, ht, hpos, hle, hlen, h⟩
  · refine ⟨ds, by rw [h]; rfl, ?_⟩
    rw [h]
    unfold joinValue
    cases spec.transition <;> rfl
  · match ds with
    | [] => exact absurd hlen (by simp)
    | [_] => exact absurd hlen (by simp)
    | d :: e :: r =>
      have hchain := chainValue_lengthOf t hpos (e :: r) 0 d (List.cons_ne_nil e r)
        fun x hx => hle x (List.mem_cons_of_mem _ hx)
      rw [zero_add, zero_add, ← partialSums_numbers] at hchain
      refine ⟨Timeline.extended td (d :: e :: r), ?_, ?_⟩
      · rw [h]
        exact extended_numbers td (d :: e :: r)
      · rw [h]
        unfold joinValue
        rw [ht]
        show chainValue lengthOf t (.number td) (some (d + td))
          ((Timeline.partialSums zero _).zip (Timeline.extended td (e :: r))) = _
        rw [Exact.zero_eq]
        exact hchain

/-- The blends of a join do not overlap. -/
theorem windows_joined (n : Nat) :
    ((joined spec (timelineOf s spec (ds.map .number)) n).operations.filterMap
      fun op => op.kind.window?).Pairwise fun first second => first.2 ≤ second.1 := by
  rcases timelineOf_numbers hs spec ds with h | ⟨t, td, ht, hpos, hle, hlen, h⟩
  · rw [h]
    unfold joined joinStage
    cases spec.transition <;> exact .nil
  · match ds with
    | [] => exact absurd hlen (by simp)
    | d :: r =>
      have hpairs := (pairwise_partialSums r 0 d hpos
        fun x hx => hle x (List.mem_cons_of_mem _ hx)).2
      rw [h]
      unfold joined joinStage
      rw [ht]
      show ((blendOperations t (Exact.number td) 0 (movedLabel 0)
        (Timeline.partialSums zero ((d :: r).map .number))).filterMap _).Pairwise _
      rw [Exact.zero_eq, partialSums_numbers, windows_blendOperations, List.pairwise_map]
      exact hpairs

/-- The operations of a compiled graph that are no join have no window. -/
theorem windows_compiled (images : List String) :
    ((compiled images (ds.map .number) s spec).operations.filterMap
      fun op => op.kind.window?).Pairwise fun first second => first.2 ≤ second.1 := by
  have hnone : ∀ {ops : List (Operation (Exact ℚ))}, (∀ x ∈ ops, x.kind.joins = false) →
      ops.filterMap (fun op => op.kind.window?) = [] := fun hops =>
    List.filterMap_eq_nil_iff.mpr fun x hx => Kind.window?_of_joins (hops x hx)
  have hkinds : ∀ ops : List (Operation (Exact ℚ)),
      ops.filterMap (fun op => op.kind.window?) =
        (ops.map fun op => op.kind).filterMap Kind.window? := fun ops => by
    rw [List.filterMap_map]
    rfl
  show ((operationsOf s spec (timelineOf s spec (ds.map .number))
    images.length).filterMap _).Pairwise _
  rw [operationsOf_eq, hkinds, map_kind_relabelLast, ← hkinds]
  unfold stagedOperations
  rw [List.filterMap_append, List.filterMap_append, List.filterMap_append,
    hnone fun x hx => joins_of_mem_segments hx, hnone fun x hx => joins_of_mem_graded hx,
    hnone fun x hx => joins_of_mem_overlaid hx, List.nil_append, List.append_nil, List.append_nil]
  exact windows_joined hs spec ds images.length

omit hs in
/-- The pads of a compiled graph are as long as the segments are rendered. -/
theorem padLengths_compiled {images : List String} (hlen : images.length = ds.length)
    {ms : List ℚ} (hms : (timelineOf s spec (ds.map .number)).rendered = ms.map .number) (j : Nat)
    (hj : j < ms.length) :
    (compiled images (ds.map .number) s spec).padLengths (imagePad j) = some ms[j] := by
  have hlen' : images.length = (ds.map Exact.number).length := by rw [hlen, List.length_map]
  have hinputs := length_inputs_compiled hlen' s spec
  have hrendered := (timelineOf_sizes s spec (ds.map .number)).1
  rw [hms, List.length_map] at hrendered
  have hj' : j < (compiled images (ds.map .number) s spec).inputs.length := by omega
  have hseconds : (compiled images (ds.map .number) s spec).inputs[j].seconds = .number ms[j] := by
    have h := congrArg (·[j]?) ((map_seconds_compiled hlen' s spec).trans hms)
    simpa [hj, hj'] using h
  rw [FilterGraph.padLengths, padValues_imagePad hj', List.getElem?_eq_getElem hj',
    Option.bind_some, hseconds]
  rfl

/-- **Transitions keep the length of a compiled video.** -/
theorem keepsLength_compiled {images : List String} (hlen : images.length = ds.length) :
    KeepsLength (compiled images (ds.map .number) s spec) ds.sum := by
  have hlen' : images.length = (ds.map Exact.number).length := by rw [hlen, List.length_map]
  obtain ⟨ms, hms, hjoin⟩ := joinValue_lengthOf hs spec ds
  obtain ⟨hrendered, hblends⟩ := timelineOf_sizes s spec (ds.map .number)
  rw [← hlen'] at hrendered hblends
  have hn : ms.length = images.length := by rw [← hrendered, hms, List.length_map]
  have hsegments : ∀ j (hj : j < ms.length),
      run lengthOf (compiled images (ds.map .number) s spec).padLengths
        (segmentOperations s spec.motionOrDefault 0 (timelineOf s spec (ds.map .number)).rendered)
        (movedLabel j) = some ms[j] :=
    run_segmentOperations_zero lengthOf s spec.motionOrDefault (by omega) fun j hj _ => by
      rw [padLengths_compiled spec ds hlen hms j hj]
      rfl
  rw [← hn] at hblends
  have hops : (compiled images (ds.map .number) s spec).operations =
      relabelLast (stagedOperations s spec (timelineOf s spec (ds.map .number)) ms.length) := by
    rw [hn]
    rfl
  refine ⟨?_, fun before op after h hblend => ?_, windows_compiled hs spec ds images, ?_⟩
  · show (timelineOf s spec (ds.map .number)).total = _
    unfold timelineOf
    rw [Timeline.plan_total, Exact.sum_numbers]
  · rw [hops] at h
    obtain ⟨op', after', h, hwork, -⟩ := relabelLast_split h
    rw [← hwork.value_eq]
    rw [← hwork.1] at hblend
    obtain ⟨front, rest, rfl, hjoined⟩ := staged_split h (Kind.joins_of_isBlend hblend)
    rw [run_append]
    exact joined_defined lengthOf spec _ ms _ hblends hsegments (by rw [hjoin]; rfl) front op' rest
      hjoined hblend
  · have hvalue := run_joined lengthOf spec _ ms _ hblends hsegments
    obtain ⟨front, op, op', after, hj, hop, he, hwork, hjoins, hafter⟩ := relabelled_join s spec
      (timelineOf s spec (ds.map .number)) ms.length
      fun ht => List.length_pos_iff.mp (by have := hblends ht; omega)
    rw [← hop, hj, run_concat_output, hjoin] at hvalue
    refine ⟨_, op', after, by rw [hops, he], hjoins, hafter, ?_⟩
    rw [← hwork.value_eq, run_append]
    exact hvalue

end

/-- Images and lengths compile to a graph of a given length, unless a flare is too wide to be
computed. -/
def Compiles (images : List String) (durations : List (Exact ℚ)) (s : RenderSettings (Exact ℚ))
    (spec : EffectSpec (Exact ℚ)) (length : ℚ) : Prop :=
  (∃ g, compile images durations s spec = .ok g ∧ KeepsLength g length) ∨
    compile images durations s spec = .error .multiplied ∧ TooWide s spec

/-- Equal parts of a positive length add up to it. -/
theorem segmentDurations_numbers {total : ℚ} (htotal : 0 < total) {n : Nat} (hn : n ≠ 0) :
    ∃ ds : List ℚ, segmentDurations (Exact.number total) n = .ok (ds.map .number) ∧ ds.length = n ∧
      (∀ d ∈ ds, 0 < d) ∧ ds.sum = total := by
  have hn' : (n : ℚ) ≠ 0 := Nat.cast_ne_zero.mpr hn
  have hpositive : isPositive (Exact.number total) = true := by
    rw [Exact.isPositive_number, decide_eq_true htotal]
  refine ⟨List.replicate n (total / n), ?_, List.length_replicate, fun d hd => ?_, ?_⟩
  · unfold segmentDurations
    rw [if_neg hn, if_pos hpositive, Exact.ofNat_eq, Exact.number_div total hn', List.map_replicate]
  · rw [List.eq_of_mem_replicate hd]
    exact div_pos htotal (Nat.cast_pos.mpr (Nat.pos_of_ne_zero hn))
  · rw [List.sum_replicate, nsmul_eq_mul, mul_div_cancel₀ total hn']

/-- **Transitions never change the length of a video**: it is as long as its segments together,
whatever transition is asked for, and as long as the whole that was split into segments. There is
such a graph unless a flare is too wide to be computed. -/
theorem compile_keepsLength {images : List String} (hne : images ≠ [])
    {s : RenderSettings (Exact ℚ)} {q : ℚ} (hs : s.maxTransitionFraction = .number q)
    (spec : EffectSpec (Exact ℚ)) :
    (∀ durations : List ℚ, images.length = durations.length → (∀ d ∈ durations, 0 < d) →
      Compiles images (durations.map .number) s spec durations.sum) ∧
    ∀ total : ℚ, 0 < total → ∃ durations,
      segmentDurations (.number total) images.length = .ok durations ∧
        Compiles images durations s spec total := by
  have hcompile : ∀ durations : List ℚ, images.length = durations.length →
      (∀ d ∈ durations, 0 < d) → Compiles images (durations.map .number) s spec durations.sum := by
    intro durations hlen hpos
    have haccepted : Accepted images (durations.map Exact.number) := by
      refine ⟨hne, by rw [hlen, List.length_map], fun d hd => ?_⟩
      obtain ⟨x, hx, rfl⟩ := List.mem_map.mp hd
      rw [Exact.isPositive_number, decide_eq_true (hpos x hx)]
    rcases compile_accepted haccepted with hg | hpanic
    · exact .inl ⟨_, hg, keepsLength_compiled hs spec durations hlen⟩
    · exact .inr hpanic
  refine ⟨hcompile, fun total htotal => ?_⟩
  have hn : images.length ≠ 0 := (List.length_pos_iff.mpr hne).ne'
  obtain ⟨ds, hds, hlen, hpos, hsum⟩ := segmentDurations_numbers htotal hn
  exact ⟨_, hds, hsum ▸ hcompile ds hlen.symm hpos⟩

/-- Three segments of three, four and five seconds, blended for one second, make twelve. -/
theorem compile_keepsLength_three : ∃ g,
    compile ["a.jpg", "b.jpg", "c.jpg"] ([3, 4, 5].map Exact.number)
        ⟨1920, 1080, 30, "yuv420p", ⟨.number 0, .number 1, .number 1, .number 0, 1⟩,
          .number (1 / 2)⟩
        ⟨some .fade, some .static, none, none, .number 1⟩ = .ok g ∧ KeepsLength g 12 := by
  have hsum : ([3, 4, 5] : List ℚ).sum = 12 := by norm_num
  rw [← hsum]
  exact ((@compile_keepsLength _ (by decide) _ (1 / 2) rfl _).1 [3, 4, 5] rfl
    (by simp)).resolve_right
    fun h => absurd h.2.1 (by simp)

end Slideshow.Graph
