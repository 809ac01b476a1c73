import Slideshow.Proofs.Graph.Valuation
import Mathlib.Data.List.Induction
import Mathlib.Data.List.Perm.Basic

/-!
# What a compiled graph means

A label can be read back: the last operation that wrote it, applied to what its inputs read back to,
down to the images. Reading back the final label of a compiled graph (`compile`) gives the term that
the selection of effects stands for: each image scaled and moved, the segments joined by a chain of
blends or one after another, and a grade and an overlay over the whole.

Headlines:
* `readBack_eq_run`: reading back is the run of the interpretation that keeps every operation.
* `kinds_foldl_blend`: a chain of blends holds its segments and its blends and nothing else.
* **`compile_meaning`**: the final label of a compiled graph reads back to `selectionTerm`, and the
  operations of the graph are those of that term.
-/

namespace Slideshow.Graph

open Scalar
open scoped List

variable {α : Type}

/-! ## Reading back -/

/-- A stream as a term: an image, or what an operation makes of other streams. -/
inductive StreamTerm (α : Type) where
  | image (number : Nat)
  | made (kind : Kind α) (inputs : List (StreamTerm α))

/-- The stream that a label names after some operations, given with the last one first. -/
def readBack (pads : Nat) : List (Operation α) → String → Option (StreamTerm α)
  | [], label => padValues pads (fun i => some (.image i)) label
  | op :: earlier, label =>
    if label = op.output then (op.inputs.mapM (readBack pads earlier)).map (.made op.kind)
    else readBack pads earlier label

/-- The stream that the final label of a graph names. -/
def FilterGraph.meaning (g : FilterGraph α) : Option (StreamTerm α) :=
  readBack g.inputs.length g.operations.reverse finalLabel

mutual

/-- The operations of a term, those of its inputs first. -/
def StreamTerm.kinds : StreamTerm α → List (Kind α)
  | .image _ => []
  | .made kind inputs => StreamTerm.kindsOfAll inputs ++ [kind]

def StreamTerm.kindsOfAll : List (StreamTerm α) → List (Kind α)
  | [] => []
  | t :: r => t.kinds ++ StreamTerm.kindsOfAll r

end

/-! ## What a selection stands for -/

section

variable [Scalar α] (s : RenderSettings α) (spec : EffectSpec α)

/-- Image `i`, scaled and moved. -/
def segmentTerm (i : Nat) (x : ImageInput α) : StreamTerm α :=
  .made (.motion spec.motionOrDefault (frameCount x.seconds s.fps))
    [.made (.scaleCrop s.width s.height) [.image i]]

def segmentTerms (inputs : List (ImageInput α)) : List (StreamTerm α) :=
  inputs.mapIdx (segmentTerm s spec)

/-- Where blend `k` starts: where the first `k + 1` segments end. -/
def blendStart (durations : List α) (k : Nat) : α := (durations.take (k + 1)).foldl (· + ·) zero

/-- Segments blended from the left: blend `k` takes what the ones before have made and segment
`k + 1`. -/
def chainTerm (t : Transition) (td : α) (durations : List α) (first : StreamTerm α)
    (rest : List (StreamTerm α)) : StreamTerm α :=
  rest.zipIdx.foldl (fun made m => .made (.blend t td (blendStart durations m.2)) [made, m.1]) first

/-- Segments joined: by a chain of blends when a transition was asked for and fits, else one after
another. -/
def joinTerm (durations : List α) (ms : List (StreamTerm α)) : StreamTerm α :=
  match spec.transition,
    Timeline.blendLength? durations spec.transitionDuration s.maxTransitionFraction, ms with
  | some t, some td, first :: rest => chainTerm t td durations first rest
  | _, _, ms => .made (.concat ms.length) ms

def gradeTerm (x : StreamTerm α) : StreamTerm α :=
  match spec.color with
  | some c => .made (.colorGrade c) [x]
  | none => x

/-- The overlay's own source, put over a stream. -/
def overlayTerm (x : StreamTerm α) : StreamTerm α :=
  match spec.overlay with
  | some o =>
    .made (.overlayComposite o .screen (overlayOpacity o)) [x, .made (.overlaySource o) []]
  | none => x

/-- The video that a selection of effects stands for. -/
def selectionTerm (durations : List α) (inputs : List (ImageInput α)) : StreamTerm α :=
  overlayTerm spec (gradeTerm spec (joinTerm s spec durations (segmentTerms s spec inputs)))

end

/-! ## Reading back is a run -/

/-- The interpretation that keeps every operation. -/
def keeping : Interpretation α (StreamTerm α) := fun kind inputs => some (.made kind inputs)

theorem readBack_eq_run (pads : Nat) (ops : List (Operation α)) :
    readBack pads ops.reverse = run keeping (padValues pads fun i => some (.image i)) ops := by
  induction ops using List.reverseRecOn with
  | nil => rfl
  | append_singleton ops op ih =>
    funext label
    rw [List.reverse_append, List.reverse_singleton, List.singleton_append, run_append, ← ih]
    show (if label = op.output then _ else _) = Valuation.set _ _ _ label
    unfold Valuation.set
    split
    · unfold Operation.value
      cases op.inputs.mapM (readBack pads ops.reverse) <;> rfl
    · rfl

/-! ## Terms and their operations -/

theorem kindsOfAll_append : ∀ (xs ys : List (StreamTerm α)),
    StreamTerm.kindsOfAll (xs ++ ys) = StreamTerm.kindsOfAll xs ++ StreamTerm.kindsOfAll ys
  | [], _ => rfl
  | x :: xs, ys => by
    simp only [List.cons_append, StreamTerm.kindsOfAll, kindsOfAll_append xs ys, List.append_assoc]

theorem chainValue_keeping (t : Transition) (td : α) : ∀ (pairs : List (α × StreamTerm α))
    (first : StreamTerm α), chainValue keeping t td (some first) pairs =
      some (pairs.foldl (fun made p => .made (.blend t td p.1) [made, p.2]) first)
  | [], _ => rfl
  | p :: r, first => chainValue_keeping t td r (.made (.blend t td p.1) [first, p.2])

/-- **A chain of blends holds its segments and its blends and nothing else.** -/
theorem kinds_foldl_blend (t : Transition) (td : α) : ∀ (pairs : List (α × StreamTerm α))
    (first : StreamTerm α),
    (pairs.foldl (fun made p => StreamTerm.made (.blend t td p.1) [made, p.2]) first).kinds ~
      first.kinds ++ StreamTerm.kindsOfAll (pairs.map Prod.snd) ++
        (pairs.map Prod.fst).map fun offset => .blend t td offset
  | [], first => by simp [StreamTerm.kindsOfAll]
  | p :: r, first => by
    refine (kinds_foldl_blend t td r _).trans ?_
    simp only [StreamTerm.kinds, StreamTerm.kindsOfAll, List.map_cons, List.append_nil,
      List.append_assoc, List.cons_append, List.nil_append]
    exact ((List.perm_middle.symm.trans (.refl _)).append_left _).append_left _

theorem kinds_gradeTerm (spec : EffectSpec α) (x : StreamTerm α) (current : String) :
    (gradeTerm spec x).kinds =
      x.kinds ++ (gradeStage (α := α) spec.color current).operations.map fun op => op.kind := by
  unfold gradeTerm gradeStage
  cases spec.color with
  | none => exact (List.append_nil _).symm
  | some c =>
    simp only [StreamTerm.kinds, StreamTerm.kindsOfAll, List.append_nil, List.map_cons,
      List.map_nil]

theorem gradeValue_keeping (spec : EffectSpec α) (x : StreamTerm α) :
    gradeValue keeping spec.color (some x) = some (gradeTerm spec x) := by
  unfold gradeValue gradeTerm
  cases spec.color <;> rfl

theorem overlayValue_keeping (spec : EffectSpec α) (x : StreamTerm α) :
    overlayValue keeping spec.overlay (some x) = some (overlayTerm spec x) := by
  unfold overlayValue overlayTerm
  cases spec.overlay <;> rfl

variable [Scalar α]

theorem kindsOfAll_segmentTerms (s : RenderSettings α) (spec : EffectSpec α) :
    ∀ (inputs : List (ImageInput α)), StreamTerm.kindsOfAll (segmentTerms s spec inputs) =
      inputs.flatMap fun x =>
        [.scaleCrop s.width s.height,
          .motion spec.motionOrDefault (frameCount x.seconds s.fps)] := by
  intro inputs
  induction inputs using List.reverseRecOn with
  | nil => rfl
  | append_singleton inputs x ih =>
    rw [segmentTerms, List.mapIdx_concat, kindsOfAll_append, List.flatMap_append, ← ih]
    rfl

/-! ## The join -/

/-- Every blend of a chain with the segment that it takes. -/
theorem zip_partialSums {durations : List α} {rest : List (StreamTerm α)}
    (h : rest.length + 1 = durations.length) :
    (Timeline.partialSums zero durations).zip rest =
      rest.zipIdx.map fun m => (blendStart durations m.2, m.1) := by
  have hlen : (Timeline.partialSums zero durations).length = rest.length := by
    rw [Timeline.length_partialSums]
    omega
  refine List.ext_getElem (by simp [hlen]) fun k hk _ => ?_
  have hk' : k < rest.length := by simpa [hlen] using hk
  have hsum := Timeline.getElem?_partialSums zero durations k (by omega)
  rw [List.getElem?_eq_getElem (by omega), Option.some.injEq] at hsum
  simp only [List.getElem_zip, List.getElem_map, List.getElem_zipIdx, hsum, Nat.zero_add]
  rfl

theorem chainTerm_eq {durations : List α} {rest : List (StreamTerm α)}
    (h : rest.length + 1 = durations.length) (t : Transition) (td : α) (first : StreamTerm α) :
    chainTerm t td durations first rest =
      ((Timeline.partialSums zero durations).zip rest).foldl
        (fun made p => .made (.blend t td p.1) [made, p.2]) first := by
  rw [zip_partialSums h, List.foldl_map]
  rfl

theorem joinValue_keeping (s : RenderSettings α) (spec : EffectSpec α) {durations : List α}
    {ms : List (StreamTerm α)} (h : ms.length = durations.length) :
    joinValue keeping spec (timelineOf s spec durations) ms =
      some (joinTerm s spec durations ms) := by
  rw [timelineOf_eq]
  unfold joinValue joinTerm
  cases spec.transition with
  | none => rfl
  | some t =>
    cases htd : Timeline.blendLength? durations spec.transitionDuration s.maxTransitionFraction with
    | none => rfl
    | some td =>
      obtain ⟨d, e, r, hd, -, -⟩ := Timeline.blendLength?_eq_some htd
      obtain ⟨first, rest, rfl⟩ := List.exists_cons_of_length_pos (l := ms) (by simp [h, hd])
      show chainValue keeping t td (some first) ((Timeline.partialSums zero durations).zip rest) =
        some (chainTerm t td durations first rest)
      rw [chainValue_keeping, chainTerm_eq (by simpa using h)]

theorem kinds_joinTerm (s : RenderSettings α) (spec : EffectSpec α) {durations : List α}
    {ms : List (StreamTerm α)} (h : ms.length = durations.length) :
    (joinTerm s spec durations ms).kinds ~ StreamTerm.kindsOfAll ms ++
      (joined spec (timelineOf s spec durations) ms.length).operations.map fun op => op.kind := by
  rw [timelineOf_eq]
  unfold joinTerm joined joinStage
  cases spec.transition with
  | none => exact .refl _
  | some t =>
    cases htd : Timeline.blendLength? durations spec.transitionDuration s.maxTransitionFraction with
    | none => exact .refl _
    | some td =>
      obtain ⟨d, e, r, hd, -, -⟩ := Timeline.blendLength?_eq_some htd
      obtain ⟨first, rest, rfl⟩ := List.exists_cons_of_length_pos (l := ms) (by simp [h, hd])
      have hrest : rest.length + 1 = durations.length := by simpa using h
      show (chainTerm t td durations first rest).kinds ~ _ ++
        (blendOperations t td 0 (movedLabel 0) (Timeline.partialSums zero durations)).map _
      have hlen : (Timeline.partialSums zero durations).length = rest.length := by
        rw [Timeline.length_partialSums]
        omega
      have hkinds := kinds_foldl_blend t td ((Timeline.partialSums zero durations).zip rest) first
      rw [List.map_snd_zip (by omega), List.map_fst_zip (by omega), ← chainTerm_eq hrest] at hkinds
      rw [map_kind_blendOperations]
      exact hkinds

theorem kinds_overlayTerm (s : RenderSettings α) (spec : EffectSpec α) (total : α)
    (x : StreamTerm α) (current : String) :
    (overlayTerm spec x).kinds =
      x.kinds ++ (overlayStage s spec.overlay total current).operations.map fun op => op.kind := by
  unfold overlayTerm overlayStage
  cases spec.overlay with
  | none => exact (List.append_nil _).symm
  | some o =>
    simp only [StreamTerm.kinds, StreamTerm.kindsOfAll, List.append_nil, List.nil_append,
      List.append_assoc, List.cons_append]
    rfl

/-! ## Compiled graphs -/

/-- The segments of a graph, read back. -/
theorem segmentValue_keeping (s : RenderSettings α) (spec : EffectSpec α)
    (inputs : List (ImageInput α)) (i : Nat) (hi : i < inputs.length)
    (hm : i < (segmentTerms s spec inputs).length) :
    segmentValue keeping s spec.motionOrDefault inputs[i].seconds
        (padValues inputs.length (fun i => some (.image i)) (imagePad i)) =
      some (segmentTerms s spec inputs)[i] := by
  rw [padValues_imagePad hi]
  simp only [segmentTerms, List.getElem_mapIdx]
  rfl

section

variable (s : RenderSettings α) (spec : EffectSpec α) {images : List String} {durations : List α}
  (h : images.length = durations.length)

include h

theorem length_segmentTerms_compiled :
    (segmentTerms s spec (compiled images durations s spec).inputs).length = images.length := by
  rw [segmentTerms, List.length_mapIdx, length_inputs_compiled h]

/-- The operations of the term are those of the stages, in another order. -/
theorem kinds_selectionTerm :
    (selectionTerm s spec durations (compiled images durations s spec).inputs).kinds ~
      (stagedOperations s spec (timelineOf s spec durations) images.length).map
        fun op => op.kind := by
  have hms := length_segmentTerms_compiled s spec h
  have hsegments : StreamTerm.kindsOfAll
      (segmentTerms s spec (compiled images durations s spec).inputs) =
        (segmentOperations s spec.motionOrDefault 0 (timelineOf s spec durations).rendered).map
          fun op => op.kind := by
    rw [kindsOfAll_segmentTerms, map_kind_segmentOperations, ← map_seconds_compiled h s spec,
      List.flatMap_map]
  have hjoin := kinds_joinTerm s spec (hms.trans h)
  rw [hms, hsegments] at hjoin
  unfold selectionTerm stagedOperations graded overlaid
  rw [kinds_overlayTerm s, kinds_gradeTerm, List.map_append, List.map_append, List.map_append]
  exact (hjoin.append_right _).append_right _

/-- The final label of a compiled graph reads back to the term of the selection. -/
theorem meaning_compiled : (compiled images durations s spec).meaning =
    some (selectionTerm s spec durations (compiled images durations s spec).inputs) := by
  have hms := length_segmentTerms_compiled s spec h
  obtain ⟨hrendered, hblends⟩ := timelineOf_sizes s spec durations
  have hinputs := length_inputs_compiled h s spec
  have hstages := run_stagedOperations keeping s spec (timelineOf s spec durations)
    (segmentTerms s spec (compiled images durations s spec).inputs)
    (padValues (compiled images durations s spec).inputs.length fun i => some (.image i))
    (by rw [hms, hrendered, h]) (by rw [hms, h]; exact hblends) fun j hj hr => by
      have hj' : j < (compiled images durations s spec).inputs.length := by omega
      have hseconds : (timelineOf s spec durations).rendered[j] =
          (compiled images durations s spec).inputs[j].seconds := by
        simp only [← map_seconds_compiled h s spec, List.getElem_map]
      rw [hseconds]
      exact segmentValue_keeping s spec _ j hj' hj
  rw [joinValue_keeping s spec (hms.trans h), gradeValue_keeping, overlayValue_keeping, hms]
    at hstages
  have hends := stagedOperations_endsIn s spec (timelineOf s spec durations) images.length
    fun ht => List.length_pos_iff.mp (by have := hblends ht; omega)
  rw [FilterGraph.meaning, readBack_eq_run]
  show run keeping _ (operationsOf s spec (timelineOf s spec durations) images.length) _ = _
  rw [operationsOf_eq, run_relabelLast keeping hends]
  exact hstages

end

/-- **A compiled graph means what was selected.** -/
theorem compile_meaning {images : List String} {durations : List α} {s : RenderSettings α}
    {spec : EffectSpec α} {g : FilterGraph α} (h : compile images durations s spec = .ok g) :
    g.inputs.map (fun x => x.path) = images ∧
      g.meaning = some (selectionTerm s spec durations g.inputs) ∧
      g.operations.map (fun op => op.kind) ~ (selectionTerm s spec durations g.inputs).kinds := by
  obtain ⟨⟨-, hlen, -⟩, -, rfl⟩ := compile_eq_ok_iff.mp h
  refine ⟨map_path_compiled hlen s spec, meaning_compiled s spec hlen, ?_⟩
  show (operationsOf s spec (timelineOf s spec durations) images.length).map _ ~ _
  rw [operationsOf_eq, map_kind_relabelLast]
  exact (kinds_selectionTerm s spec hlen).symm

/-- Two images with every stage mean the overlaid grade of their blend. -/
theorem compile_meaning_pair : ∃ g : FilterGraph Float,
    compile ["a.jpg", "b.jpg"] [10, 10] (.ofConfig {})
        ⟨some .fade, some .kenburns, some .vintage, some .lightLeaks, 1⟩ = .ok g ∧
      g.meaning = some (selectionTerm (.ofConfig {})
        ⟨some .fade, some .kenburns, some .vintage, some .lightLeaks, 1⟩ [10, 10] g.inputs) := by
  have h :=
    compile_eq_ok_iff.mpr ⟨accepted_pair, by decide, Eq.refl (compiled ["a.jpg", "b.jpg"] [10, 10]
    (.ofConfig {}) ⟨some .fade, some .kenburns, some .vintage, some .lightLeaks, 1⟩)⟩
  exact ⟨_, h, (compile_meaning h).2.1⟩

end Slideshow.Graph
