import Slideshow.Proofs.Graph.Stages
import Mathlib.Data.List.Count
import Mathlib.Data.List.Perm.Basic

/-!
# Compiled graphs are linear

A stream of a graph (`compile`) can be read once: what reads a label takes the stream away.
`Threaded` is the judgement for this: from the streams that are open, operations leave others open,
each taking its inputs out of the open ones and opening its output. Every stage is threaded, and
threaded stages compose.

Headlines:
* `Threaded.append`, `Threaded.relabel`: threading composes and does not look at names.
* **`Threaded.balance`**: what was open or has been written has been read or is still open.
* **`Threaded.inputs_open`**: an input was open at the start or written by an earlier operation.
* **`threaded_stagedOperations`**: from all image pads, the stages leave one stream open.
* **`compile_isLinear`**: a compiled graph reads every pad and every stream but the last once.
-/

namespace Slideshow.Graph

open scoped List

variable {α : Type}

/-! ## Threading -/

/-- From the open streams `a`, the operations leave the streams `b` open. -/
inductive Threaded : List String → List (Operation α) → List String → Prop where
  | nil {a b : List String} : a.Perm b → Threaded a [] b
  | cons {a b : List String} {op : Operation α} {ops : List (Operation α)} (rest : List String) :
      a.Perm (op.inputs ++ rest) → Threaded (op.output :: rest) ops b → Threaded a (op :: ops) b

theorem Threaded.of_perm {a a' b : List String} {ops : List (Operation α)}
    (h : Threaded a ops b) (hp : a'.Perm a) : Threaded a' ops b := by
  cases h with
  | nil ha => exact .nil (hp.trans ha)
  | cons rest ha hr => exact .cons rest (hp.trans ha) hr

theorem Threaded.append {a b c : List String} {xs ys : List (Operation α)}
    (hx : Threaded a xs b) (hy : Threaded b ys c) : Threaded a (xs ++ ys) c := by
  induction hx with
  | nil ha => exact hy.of_perm ha
  | cons rest ha _ ih => exact .cons rest ha (ih hy)

theorem Threaded.split {c : List String} {ys : List (Operation α)} :
    ∀ {xs : List (Operation α)} {a : List String}, Threaded a (xs ++ ys) c →
      ∃ b, Threaded a xs b ∧ Threaded b ys c
  | [], a, h => ⟨a, .nil (.refl a), h⟩
  | x :: xs, _, h => by
    cases h with
    | cons rest ha hr =>
      obtain ⟨b, hx, hy⟩ := split hr
      exact ⟨b, .cons rest ha hx, hy⟩

/-- One operation that leaves one stream open has taken all that was open. -/
theorem Threaded.relabel {a : List String} {label : String} {front : List (Operation α)}
    {op : Operation α} (h : Threaded a (front ++ [op]) [op.output]) :
    Threaded a (front ++ [{ op with output := label }]) [label] := by
  obtain ⟨b, hfront, hlast⟩ := h.split
  cases hlast with
  | cons rest hb hend =>
    cases hend with
    | nil hperm =>
      obtain rfl := List.perm_nil.mp ((List.perm_cons _).mp hperm)
      exact hfront.append (.cons [] hb (.nil (.refl [label])))

/-- **Nothing gets lost**: what was open or has been written has been read or is still open. -/
theorem Threaded.balance {a b : List String} {ops : List (Operation α)} (h : Threaded a ops b) :
    (a ++ outputs ops).Perm (consumed ops ++ b) := by
  induction h with
  | nil ha => simpa using ha
  | @cons a b op ops rest ha _ ih =>
    calc a ++ outputs (op :: ops)
      _ ~ (op.inputs ++ rest) ++ op.output :: outputs ops := ha.append_right _
      _ ~ op.inputs ++ (op.output :: rest ++ outputs ops) := by
        rw [List.append_assoc]
        exact List.perm_middle.append_left _
      _ ~ op.inputs ++ (consumed ops ++ b) := ih.append_left _
      _ ~ consumed (op :: ops) ++ b := by rw [consumed_cons, List.append_assoc]

/-- **An input was open at the start or written earlier.** -/
theorem Threaded.inputs_open {b : List String} {op : Operation α} {after : List (Operation α)}
    {label : String} (hl : label ∈ op.inputs) :
    ∀ {before : List (Operation α)} {a : List String}, Threaded a (before ++ op :: after) b →
      label ∈ a ∨ label ∈ outputs before
  | [], _, h => by
    cases h with
    | cons _ ha _ => exact Or.inl (ha.mem_iff.mpr (List.mem_append_left _ hl))
  | x :: before, _, h => by
    cases h with
    | cons _ ha hr =>
      rcases inputs_open hl hr with hm | hm
      · rcases List.mem_cons.mp hm with rfl | hm
        · exact Or.inr List.mem_cons_self
        · exact Or.inl (ha.mem_iff.mpr (List.mem_append_right _ hm))
      · exact Or.inr (List.mem_cons_of_mem _ hm)

/-! ## The stages are threaded -/

/-- The labels of a family from number `i` on. -/
def labelsFrom (family : Nat → String) (i n : Nat) : List String := (List.range' i n).map family

@[simp] theorem labelsFrom_succ (family : Nat → String) (i n : Nat) :
    labelsFrom family i (n + 1) = family i :: labelsFrom family (i + 1) n := rfl

theorem labelsFrom_zero (family : Nat → String) (n : Nat) :
    labelsFrom family 0 n = (List.range n).map family := by
  rw [labelsFrom, List.range_eq_range']

theorem mem_labelsFrom {family : Nat → String} {i n : Nat} {label : String} :
    label ∈ labelsFrom family i n ↔ ∃ j, i ≤ j ∧ j < i + n ∧ label = family j := by
  simp only [labelsFrom, List.mem_map, List.mem_range'_1]
  constructor
  · rintro ⟨j, ⟨hij, hj⟩, rfl⟩
    exact ⟨j, hij, hj, rfl⟩
  · rintro ⟨j, hij, hj, rfl⟩
    exact ⟨j, ⟨hij, hj⟩, rfl⟩

theorem threaded_gradeStage (grade : Option ColorGrade) (current : String) :
    Threaded [current] (gradeStage (α := α) grade current).operations
      [(gradeStage (α := α) grade current).label] := by
  cases grade with
  | some c => exact .cons [] (.refl _) (.nil (.refl _))
  | none => exact .nil (.refl _)

variable [Scalar α]

/-- The segments turn image pads into moved streams, next to what else is open. -/
theorem threaded_segmentOperations (s : RenderSettings α) (m : Motion) :
    ∀ (ds : List α) (i : Nat) (more : List String),
      Threaded (labelsFrom imagePad i ds.length ++ more) (segmentOperations s m i ds)
        (labelsFrom movedLabel i ds.length ++ more)
  | [], _, _ => .nil (.refl _)
  | d :: r, i, more => by
    have ih := threaded_segmentOperations s m r (i + 1) (movedLabel i :: more)
    refine .cons (labelsFrom imagePad (i + 1) r.length ++ more) (.refl _) ?_
    refine .cons (labelsFrom imagePad (i + 1) r.length ++ more) (.refl _) ?_
    have hdone : Threaded (labelsFrom movedLabel (i + 1) r.length ++ movedLabel i :: more)
        ([] : List (Operation α)) (labelsFrom movedLabel i (r.length + 1) ++ more) :=
      .nil List.perm_middle
    have h := (ih.of_perm List.perm_middle.symm).append hdone
    rwa [List.append_nil] at h

/-- A chain of blends takes the current stream and the moved ones, and leaves one. -/
theorem threaded_blendOperations (t : Transition) (td : α) :
    ∀ (offsets : List α) (k : Nat) (current : String), offsets ≠ [] →
      Threaded (current :: labelsFrom movedLabel (k + 1) offsets.length)
        (blendOperations t td k current offsets) [blendLabel (k + (offsets.length - 1))]
  | [], _, _, h => absurd rfl h
  | [o], k, current, _ => .cons [] (.refl _) (.nil (.refl _))
  | o :: p :: r, k, current, _ => by
    have ih := threaded_blendOperations t td (p :: r) (k + 1) (blendLabel k)
      (List.cons_ne_nil p r)
    have e : k + ((o :: p :: r).length - 1) = k + 1 + ((p :: r).length - 1) := by
      simp only [List.length_cons]
      omega
    rw [e]
    exact .cons (labelsFrom movedLabel (k + 2) (p :: r).length) (.refl _) ih

theorem threaded_joined (spec : EffectSpec α) (timeline : Timeline α) (n : Nat)
    (h : timeline.transition.isSome = true → 2 ≤ n ∧ timeline.offsets.length + 1 = n) :
    Threaded (labelsFrom movedLabel 0 n) (joined spec timeline n).operations
      [(joined spec timeline n).label] := by
  unfold joined joinStage
  split
  · rename_i t td _ htd
    obtain ⟨hn, hlen⟩ := h (by rw [htd]; rfl)
    have hne : timeline.offsets ≠ [] := List.length_pos_iff.mp (by omega)
    have hblend := threaded_blendOperations t td timeline.offsets 0 (movedLabel 0) hne
    rw [Nat.zero_add (timeline.offsets.length - 1)] at hblend
    show Threaded _ _ [blendedLabel timeline.offsets.length]
    rw [blendedLabel, if_neg (by omega), ← hlen, labelsFrom_succ]
    exact hblend
  · refine .cons [] ?_ (.nil (.refl _))
    rw [labelsFrom_zero, List.append_nil]
    exact .refl _

theorem threaded_overlayStage (s : RenderSettings α) (overlay : Option Overlay) (total : α)
    (current : String) :
    Threaded [current] (overlayStage s overlay total current).operations
      [(overlayStage s overlay total current).label] := by
  cases overlay with
  | some o =>
    -- the layer is opened next to the stream, and the composite takes both
    exact .cons [current] (.refl _)
      (.cons [] (.swap _ _ _) (.nil (.refl _)))
  | none => exact .nil (.refl _)

/-- **From all image pads, the stages leave one stream open.** -/
theorem threaded_stagedOperations (s : RenderSettings α) (spec : EffectSpec α)
    (timeline : Timeline α)
    (h : timeline.transition.isSome = true → 2 ≤ timeline.rendered.length ∧
      timeline.offsets.length + 1 = timeline.rendered.length) :
    Threaded (labelsFrom imagePad 0 timeline.rendered.length)
      (stagedOperations s spec timeline timeline.rendered.length)
      [(overlaid s spec timeline timeline.rendered.length).label] := by
  have hseg := threaded_segmentOperations s spec.motionOrDefault timeline.rendered 0 []
  rw [List.append_nil, List.append_nil] at hseg
  exact ((hseg.append (threaded_joined spec timeline _ h)).append
    (threaded_gradeStage spec.color _)).append (threaded_overlayStage s spec.overlay _ _)

/-! ## The stages write every label once -/

/-- The stage whose label this is: segments, join, grade, overlay, or none of them. -/
def stageOf (label : String) : Nat :=
  match initial label with
  | some 's' => 0
  | some 'm' => 0
  | some 'x' => 1
  | some 'c' => if label = "cat" then 1 else 3
  | some 'g' => 2
  | some 'o' => 3
  | _ => 4

theorem ne_of_stageOf {a b : String} (h : stageOf a ≠ stageOf b) : a ≠ b :=
  fun e => h (congrArg stageOf e)

theorem stageOf_imagePad (i : Nat) : stageOf (imagePad i) = 4 := by
  obtain ⟨c, hc, hdigit⟩ := initial_imagePad i
  unfold stageOf
  rw [hc]
  split <;> simp_all

theorem stageOf_cat : stageOf "cat" = 1 := by decide

theorem stageOf_graded : stageOf "graded" = 2 := by decide

theorem stageOf_ovl : stageOf "ovl" = 3 := by decide

theorem stageOf_composited : stageOf "composited" = 3 := by decide

theorem stageOf_finalLabel : stageOf finalLabel = 4 := by decide

theorem stageOf_of_mem_segments {s : RenderSettings α} {m : Motion} {ds : List α} {i : Nat}
    {label : String} (h : label ∈ outputs (segmentOperations s m i ds)) : stageOf label = 0 := by
  obtain ⟨j, -, -, rfl | rfl⟩ := mem_outputs_segmentOperations h
  · simp [stageOf]
  · simp [stageOf]

theorem stageOf_of_mem_joined {spec : EffectSpec α} {timeline : Timeline α} {n : Nat}
    {label : String} (h : label ∈ outputs (joined spec timeline n).operations) :
    stageOf label = 1 := by
  unfold joined joinStage at h
  split at h
  · obtain ⟨j, -, -, rfl⟩ := mem_outputs_blendOperations h
    simp [stageOf]
  · rw [List.mem_singleton.mp h]
    exact stageOf_cat

theorem stageOf_of_mem_graded {spec : EffectSpec α} {timeline : Timeline α} {n : Nat}
    {label : String} (h : label ∈ outputs (graded spec timeline n).operations) :
    stageOf label = 2 := by
  unfold graded gradeStage at h
  split at h
  · rw [List.mem_singleton.mp h]
    exact stageOf_graded
  · exact absurd h List.not_mem_nil

theorem stageOf_of_mem_overlaid {s : RenderSettings α} {spec : EffectSpec α}
    {timeline : Timeline α} {n : Nat} {label : String}
    (h : label ∈ outputs (overlaid s spec timeline n).operations) : stageOf label = 3 := by
  unfold overlaid overlayStage at h
  split at h
  · rcases List.mem_cons.mp h with rfl | h
    · exact stageOf_ovl
    · rw [List.mem_singleton.mp h]
      exact stageOf_composited
  · exact absurd h List.not_mem_nil

theorem outputs_joined_nodup (spec : EffectSpec α) (timeline : Timeline α) (n : Nat) :
    (outputs (joined spec timeline n).operations).Nodup := by
  unfold joined joinStage
  split
  · exact outputs_blendOperations_nodup _ _ _ _ _
  · exact List.nodup_singleton _

theorem outputs_graded_nodup (spec : EffectSpec α) (timeline : Timeline α) (n : Nat) :
    (outputs (graded spec timeline n).operations).Nodup := by
  unfold graded gradeStage
  split
  · exact List.nodup_singleton _
  · exact List.nodup_nil

theorem outputs_overlaid_nodup (s : RenderSettings α) (spec : EffectSpec α)
    (timeline : Timeline α) (n : Nat) :
    (outputs (overlaid s spec timeline n).operations).Nodup := by
  unfold overlaid overlayStage
  split
  · simp
  · exact List.nodup_nil

/-- A label of the stages belongs to one of them. -/
theorem stageOf_of_mem {s : RenderSettings α} {spec : EffectSpec α} {timeline : Timeline α}
    {n : Nat} {label : String} (h : label ∈ outputs (stagedOperations s spec timeline n)) :
    stageOf label < 4 := by
  simp only [stagedOperations, outputs_append, List.mem_append] at h
  rcases h with ((h | h) | h) | h
  · rw [stageOf_of_mem_segments h]; decide
  · rw [stageOf_of_mem_joined h]; decide
  · rw [stageOf_of_mem_graded h]; decide
  · rw [stageOf_of_mem_overlaid h]; decide

/-- **The stages write every label once.** -/
theorem outputs_stagedOperations_nodup (s : RenderSettings α) (spec : EffectSpec α)
    (timeline : Timeline α) (n : Nat) : (outputs (stagedOperations s spec timeline n)).Nodup := by
  unfold stagedOperations
  simp only [outputs_append, List.nodup_append, List.mem_append]
  refine ⟨⟨⟨outputs_segmentOperations_nodup _ _ _ _, outputs_joined_nodup spec timeline n,
    fun a ha b hb => ?_⟩, outputs_graded_nodup spec timeline n, fun a ha b hb => ?_⟩,
    outputs_overlaid_nodup s spec timeline n, fun a ha b hb => ?_⟩ <;> apply ne_of_stageOf
  · rw [stageOf_of_mem_segments ha, stageOf_of_mem_joined hb]
    decide
  · rw [stageOf_of_mem_graded hb]
    rcases ha with ha | ha
    · rw [stageOf_of_mem_segments ha]; decide
    · rw [stageOf_of_mem_joined ha]; decide
  · rw [stageOf_of_mem_overlaid hb]
    rcases ha with (ha | ha) | ha
    · rw [stageOf_of_mem_segments ha]; decide
    · rw [stageOf_of_mem_joined ha]; decide
    · rw [stageOf_of_mem_graded ha]; decide

/-! ## Linear graphs -/

/-- Every stream of a graph is written once, before it is read, and all but the last are read
once. -/
structure IsLinear (g : FilterGraph α) : Prop where
  outputs_nodup : (outputs g.operations).Nodup
  inputs_made : ∀ before op after, g.operations = before ++ op :: after → ∀ label ∈ op.inputs,
    (∃ i < g.inputs.length, label = imagePad i) ∨ label ∈ outputs before
  pad_consumed : ∀ i < g.inputs.length, (consumed g.operations).count (imagePad i) = 1
  output_consumed : ∀ op ∈ g.operations.dropLast, (consumed g.operations).count op.output = 1
  final_unconsumed : (consumed g.operations).count finalLabel = 0
  ends_in_final : EndsIn g.operations finalLabel
  outputLabel_eq : g.outputLabel = finalLabel

omit [Scalar α] in
/-- Of the labels that are open or written once, the one that is left over is not read, and each
other is read once. -/
theorem Threaded.count_consumed {pads : List String} {ops : List (Operation α)}
    {left label : String} (ht : Threaded pads ops [left]) (hnodup : (pads ++ outputs ops).Nodup)
    (hlabel : label ∈ pads ++ outputs ops) :
    (consumed ops).count label = if label = left then 0 else 1 := by
  have hbalance := ht.balance.count_eq label
  rw [List.count_eq_one_of_mem hnodup hlabel, List.count_append, List.count_singleton] at hbalance
  by_cases h : label = left
  · rw [if_pos (beq_iff_eq.mpr h.symm)] at hbalance
    rw [if_pos h]
    omega
  · rw [if_neg fun heq => h (beq_iff_eq.mp heq).symm] at hbalance
    rw [if_neg h]
    omega

omit [Scalar α] in
/-- Threaded operations that write every label once, and no pad, are linear. -/
theorem isLinear_of_threaded {g : FilterGraph α} {front : List (Operation α)} {op : Operation α}
    (hops : g.operations = front ++ [op]) (hop : op.output = finalLabel)
    (ht : Threaded (labelsFrom imagePad 0 g.inputs.length) g.operations [finalLabel])
    (hnodup : (labelsFrom imagePad 0 g.inputs.length ++ outputs g.operations).Nodup) :
    IsLinear g := by
  have hfinal : finalLabel ∈ outputs g.operations := by
    rw [hops, outputs_append]
    exact List.mem_append_right _ (List.mem_singleton.mpr hop.symm)
  have hdistinct := List.nodup_append.mp hnodup
  refine ⟨hdistinct.2.1, fun before x after h label hl => ?_, fun i hi => ?_, fun x hx => ?_, ?_,
    ⟨front, op, hops, hop⟩, ?_⟩
  · rw [h] at ht
    rcases ht.inputs_open hl with hm | hm
    · obtain ⟨j, -, hj, rfl⟩ := mem_labelsFrom.mp hm
      exact Or.inl ⟨j, by omega, rfl⟩
    · exact Or.inr hm
  · have hm : imagePad i ∈ labelsFrom imagePad 0 g.inputs.length :=
      mem_labelsFrom.mpr ⟨i, by omega, by omega, rfl⟩
    rw [ht.count_consumed hnodup (List.mem_append_left _ hm), if_neg (hdistinct.2.2 _ hm _ hfinal)]
  · rw [hops, List.dropLast_concat] at hx
    have hm : x.output ∈ outputs front := List.mem_map_of_mem hx
    have hdup := hdistinct.2.1
    rw [hops, outputs_append, List.nodup_append] at hdup
    have hne : x.output ≠ finalLabel := hdup.2.2 _ hm _ (List.mem_singleton.mpr hop.symm)
    have hwritten : x.output ∈ outputs g.operations := by
      rw [hops, outputs_append]
      exact List.mem_append_left _ hm
    rw [ht.count_consumed hnodup (List.mem_append_right _ hwritten), if_neg hne]
  · rw [ht.count_consumed hnodup (List.mem_append_right _ hfinal), if_pos rfl]
  · rw [FilterGraph.outputLabel, hops, List.getLast?_concat]
    exact hop

/-! ## Compiled graphs -/

/-- The pads, and the stages under the name that their last stream gets, have labels of their
own. -/
theorem labels_relabelled_nodup {s : RenderSettings α} {spec : EffectSpec α}
    {timeline : Timeline α} {n : Nat} {front : List (Operation α)} {op : Operation α}
    (h : stagedOperations s spec timeline n = front ++ [op]) :
    (labelsFrom imagePad 0 n ++ outputs (front ++ [{ op with output := finalLabel }])).Nodup := by
  have hnodup := outputs_stagedOperations_nodup s spec timeline n
  rw [h, outputs_append, List.nodup_append] at hnodup
  have hstage : ∀ label ∈ outputs front, stageOf label < 4 := fun label hl => by
    have hm : label ∈ outputs (stagedOperations s spec timeline n) := by
      rw [h, outputs_append]
      exact List.mem_append_left _ hl
    exact stageOf_of_mem hm
  have hpads : (labelsFrom imagePad 0 n).Nodup :=
    (List.nodup_range' ..).map fun i j hij => imagePad_inj.mp hij
  rw [outputs_append, List.nodup_append, List.nodup_append]
  refine ⟨hpads, ⟨hnodup.1, List.nodup_singleton _, fun a ha b hb => ?_⟩, fun a ha b hb => ?_⟩
  · rw [List.mem_singleton.mp hb]
    apply ne_of_stageOf
    show stageOf a ≠ stageOf finalLabel
    have := hstage a ha
    rw [stageOf_finalLabel]
    omega
  · obtain ⟨i, -, -, rfl⟩ := mem_labelsFrom.mp ha
    rcases List.mem_append.mp hb with hb | hb
    · apply ne_of_stageOf
      have := hstage b hb
      rw [stageOf_imagePad]
      omega
    · rw [List.mem_singleton.mp hb]
      exact (finalLabel_ne_imagePad i).symm

/-- **A compiled graph is linear**, with one input for each image. -/
theorem compile_isLinear {images : List String} {durations : List α} {s : RenderSettings α}
    {spec : EffectSpec α} {g : FilterGraph α} (h : compile images durations s spec = .ok g) :
    g.inputs.length = images.length ∧ IsLinear g := by
  obtain ⟨⟨-, hlen, -⟩, -, rfl⟩ := compile_eq_ok_iff.mp h
  have hinputs := length_inputs_compiled hlen s spec
  obtain ⟨hrendered, hblends⟩ := timelineOf_sizes s spec durations
  have hn : (timelineOf s spec durations).rendered.length = images.length := by rw [hrendered, hlen]
  rw [← hlen] at hblends
  obtain ⟨front, op, hstaged, hop⟩ := stagedOperations_endsIn s spec (timelineOf s spec durations)
    images.length fun hs => List.length_pos_iff.mp (by have := hblends hs; omega)
  have hops : (compiled images durations s spec).operations =
      front ++ [{ op with output := finalLabel }] := by
    show operationsOf s spec (timelineOf s spec durations) images.length = _
    rw [operationsOf_eq, hstaged, relabelLast_concat]
  have hthreaded := threaded_stagedOperations s spec (timelineOf s spec durations)
    (by rw [hn]; exact hblends)
  rw [hn, hstaged, ← hop] at hthreaded
  refine ⟨hinputs, isLinear_of_threaded hops rfl ?_ ?_⟩
  · rw [hinputs, hops]
    exact hthreaded.relabel
  · rw [hinputs, hops]
    exact labels_relabelled_nodup hstaged

/-- Two images with every stage give a linear graph. -/
theorem compile_isLinear_pair : ∃ g : FilterGraph Float,
    compile ["a.jpg", "b.jpg"] [10, 10] (.ofConfig {})
        ⟨some .fade, some .kenburns, some .vintage, some .lightLeaks, 1⟩ = .ok g ∧
      g.inputs.length = 2 ∧ IsLinear g := by
  have h :=
    compile_eq_ok_iff.mpr ⟨accepted_pair, by decide, Eq.refl (compiled ["a.jpg", "b.jpg"] [10, 10]
    (.ofConfig {}) ⟨some .fade, some .kenburns, some .vintage, some .lightLeaks, 1⟩)⟩
  exact ⟨_, h, compile_isLinear h⟩

end Slideshow.Graph
