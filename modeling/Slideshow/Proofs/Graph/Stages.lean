import Slideshow.Proofs.Graph.Label
import Slideshow.Proofs.Graph.Timeline
import Mathlib.Algebra.Group.Nat.Defs

/-!
# A compiled graph, stage by stage

What `compile` returns when it accepts its images and lengths, and how the operations of the graph
are put together: those of the stages in order, the last one relabelled.

Headlines:
* **`compile_eq_ok_iff`**, `compile_eq_failed_iff`, `compile_eq_panicked_iff`: which images and
  lengths are accepted, the graph they give, and when `compile` panics.
* `stagedOperations`: the operations before the last one gets the final label.
* `relabelLast_concat`, `relabelLast_split`: relabelling changes the last output and nothing else.
* **`stagedOperations_endsIn`**: the operations end in the stream that the last stage names.
-/

namespace Slideshow.Graph

open Scalar

variable {α : Type}

/-! ## Relabelling -/

/-- The last operation writes the stream `label`. -/
def EndsIn (ops : List (Operation α)) (label : String) : Prop :=
  ∃ front op, ops = front ++ [op] ∧ op.output = label

theorem EndsIn.append {ops : List (Operation α)} {label : String} (h : EndsIn ops label)
    (before : List (Operation α)) : EndsIn (before ++ ops) label := by
  obtain ⟨front, op, rfl, ho⟩ := h
  exact ⟨before ++ front, op, (List.append_assoc _ _ _).symm, ho⟩

theorem relabelLast_concat : ∀ (front : List (Operation α)) (op : Operation α),
    relabelLast (front ++ [op]) = front ++ [{ op with output := finalLabel }]
  | [], _ => rfl
  | [_], _ => rfl
  | x :: y :: r, op => by
    show x :: relabelLast ((y :: r) ++ [op]) = _
    rw [relabelLast_concat (y :: r) op]
    rfl

/-- Two operations that do the same with the same streams, whatever they call the result. -/
def Operation.SameWork (a b : Operation α) : Prop := a.kind = b.kind ∧ a.inputs = b.inputs

theorem map_kind_relabelLast (ops : List (Operation α)) :
    (relabelLast ops).map (fun op => op.kind) = ops.map fun op => op.kind := by
  rcases List.eq_nil_or_concat' ops with rfl | ⟨front, op, rfl⟩
  · rfl
  · rw [relabelLast_concat, List.map_append, List.map_append]
    rfl

/-- Wherever relabelled operations are split, the original ones split alike. -/
theorem relabelLast_split : ∀ {ops before after : List (Operation α)} {op : Operation α},
    relabelLast ops = before ++ op :: after →
      ∃ op' after', ops = before ++ op' :: after' ∧ op'.SameWork op ∧
        after'.map (fun op => op.kind) = after.map fun op => op.kind
  | [], _, _, _, h => absurd h (by simp [relabelLast])
  | [x], [], _, _, h => by
    simp only [relabelLast, List.nil_append, List.cons.injEq] at h
    obtain ⟨rfl, rfl⟩ := h
    exact ⟨x, [], rfl, ⟨rfl, rfl⟩, rfl⟩
  | [x], b :: before, _, _, h => by
    simp [relabelLast] at h
  | x :: y :: r, [], _, _, h => by
    simp only [relabelLast, List.nil_append, List.cons.injEq] at h
    obtain ⟨rfl, rfl⟩ := h
    exact ⟨x, y :: r, rfl, ⟨rfl, rfl⟩, (map_kind_relabelLast (y :: r)).symm⟩
  | x :: y :: r, b :: before, _, _, h => by
    simp only [relabelLast, List.cons_append, List.cons.injEq] at h
    obtain ⟨rfl, h⟩ := h
    obtain ⟨op', after', he, hw, hk⟩ := relabelLast_split h
    exact ⟨op', after', by rw [he, List.cons_append], hw, hk⟩

/-- Wherever operations are split, the relabelled ones split alike. -/
theorem relabelLast_append : ∀ (before after : List (Operation α)) (op : Operation α),
    ∃ op' after', relabelLast (before ++ op :: after) = before ++ op' :: after' ∧
      op.SameWork op' ∧ after'.map (fun op => op.kind) = after.map fun op => op.kind
  | [], [], op => ⟨_, [], rfl, ⟨rfl, rfl⟩, rfl⟩
  | [], y :: r, op => ⟨op, relabelLast (y :: r), rfl, ⟨rfl, rfl⟩, map_kind_relabelLast (y :: r)⟩
  | [b], after, op => by
    obtain ⟨op', after', he, hw, hk⟩ := relabelLast_append [] after op
    exact ⟨op', after', congrArg (b :: ·) he, hw, hk⟩
  | b :: c :: before, after, op => by
    obtain ⟨op', after', he, hw, hk⟩ := relabelLast_append (c :: before) after op
    exact ⟨op', after', congrArg (b :: ·) he, hw, hk⟩

/-! ## Images with their lengths -/

theorem map_path_zipWith : ∀ {images : List String} {rendered : List α},
    images.length = rendered.length →
      (List.zipWith ImageInput.mk images rendered).map (fun x => x.path) = images
  | [], _, _ => rfl
  | _ :: _, [], h => absurd h (by simp)
  | image :: _, _ :: _, h => congrArg (image :: ·) (map_path_zipWith (by simpa using h))

theorem map_seconds_zipWith : ∀ {images : List String} {rendered : List α},
    images.length = rendered.length →
      (List.zipWith ImageInput.mk images rendered).map (fun x => x.seconds) = rendered
  | [], [], _ => rfl
  | [], _ :: _, h => absurd h (by simp)
  | _ :: _, [], h => absurd h (by simp)
  | _ :: _, d :: _, h => congrArg (d :: ·) (map_seconds_zipWith (by simpa using h))

variable [Scalar α]

/-! ## The stages of a graph -/

/-- The stream that the segments are joined to. -/
def joined (spec : EffectSpec α) (timeline : Timeline α) (n : Nat) : Stage α :=
  joinStage spec.transition timeline n

/-- The stages after the join. -/
def graded (spec : EffectSpec α) (timeline : Timeline α) (n : Nat) : Stage α :=
  gradeStage spec.color (joined spec timeline n).label

def overlaid (s : RenderSettings α) (spec : EffectSpec α) (timeline : Timeline α) (n : Nat) :
    Stage α :=
  overlayStage s spec.overlay timeline.total (graded spec timeline n).label

/-- The operations of all stages, before the last one gets the final label. -/
def stagedOperations (s : RenderSettings α) (spec : EffectSpec α) (timeline : Timeline α)
    (n : Nat) : List (Operation α) :=
  segmentOperations s spec.motionOrDefault 0 timeline.rendered ++
    (joined spec timeline n).operations ++ (graded spec timeline n).operations ++
    (overlaid s spec timeline n).operations

theorem operationsOf_eq (s : RenderSettings α) (spec : EffectSpec α) (timeline : Timeline α)
    (n : Nat) : operationsOf s spec timeline n = relabelLast (stagedOperations s spec timeline n) :=
  rfl

theorem map_kind_segmentOperations (s : RenderSettings α) (m : Motion) : ∀ (ds : List α) (i : Nat),
    (segmentOperations s m i ds).map (fun op => op.kind) =
      ds.flatMap fun d => [.scaleCrop s.width s.height, .motion m (frameCount d s.fps)]
  | [], _ => rfl
  | d :: r, i => by
    rw [segmentOperations, List.map_append, map_kind_segmentOperations s m r (i + 1)]
    rfl

theorem map_kind_blendOperations (t : Transition) (td : α) : ∀ (offsets : List α) (k : Nat)
    (current : String), (blendOperations t td k current offsets).map (fun op => op.kind) =
      offsets.map fun o => .blend t td o
  | [], _, _ => rfl
  | _ :: r, k, _ => congrArg (_ :: ·) (map_kind_blendOperations t td r (k + 1) (blendLabel k))

/-- A chain of blends ends in the stream of its last blend. -/
theorem blendOperations_endsIn (t : Transition) (td : α) : ∀ (offsets : List α) (k : Nat)
    (current : String), offsets ≠ [] →
      EndsIn (blendOperations t td k current offsets) (blendLabel (k + (offsets.length - 1)))
  | [], _, _, h => absurd rfl h
  | [o], k, current, _ => ⟨[], _, rfl, rfl⟩
  | o :: p :: r, k, current, _ => by
    have h := blendOperations_endsIn t td (p :: r) (k + 1) (blendLabel k) (List.cons_ne_nil p r)
    have e : k + ((o :: p :: r).length - 1) = k + 1 + ((p :: r).length - 1) := by
      simp only [List.length_cons]
      omega
    rw [e]
    exact h.append [_]

theorem joined_endsIn (spec : EffectSpec α) (timeline : Timeline α) (n : Nat)
    (h : timeline.transition.isSome = true → timeline.offsets ≠ []) :
    EndsIn (joined spec timeline n).operations (joined spec timeline n).label := by
  unfold joined joinStage
  split
  · rename_i t td _ htd
    have hne : timeline.offsets ≠ [] := h (by rw [htd]; rfl)
    have hlen := List.length_pos_iff.mpr hne
    show EndsIn _ (blendedLabel timeline.offsets.length)
    rw [blendedLabel, if_neg (by omega), ← Nat.zero_add (timeline.offsets.length - 1)]
    exact blendOperations_endsIn t td timeline.offsets 0 (movedLabel 0) hne
  · exact ⟨[], _, rfl, rfl⟩

/-- **The operations end in the stream that the last stage names.** -/
theorem stagedOperations_endsIn (s : RenderSettings α) (spec : EffectSpec α)
    (timeline : Timeline α) (n : Nat)
    (h : timeline.transition.isSome = true → timeline.offsets ≠ []) :
    EndsIn (stagedOperations s spec timeline n) (overlaid s spec timeline n).label := by
  have hjoin := (joined_endsIn spec timeline n h).append
    (segmentOperations s spec.motionOrDefault 0 timeline.rendered)
  unfold stagedOperations overlaid overlayStage
  cases spec.overlay with
  | some o => exact ⟨_, _, (List.append_cons ..).trans rfl, rfl⟩
  | none =>
    rw [List.append_nil]
    unfold graded gradeStage
    cases spec.color with
    | some c => exact ⟨_, _, rfl, rfl⟩
    | none => rwa [List.append_nil]

/-! ## What is accepted -/

/-- Images and lengths that a graph can be compiled from. -/
structure Accepted (images : List String) (durations : List α) : Prop where
  nonempty : images ≠ []
  same_length : images.length = durations.length
  positive : ∀ d ∈ durations, isPositive d = true

theorem inputFault?_eq_none_iff {images : List String} {durations : List α} :
    inputFault? images durations = none ↔ Accepted images durations := by
  unfold inputFault?
  constructor
  · intro h
    split at h
    · exact absurd h (by simp)
    · split at h
      · exact absurd h (by simp)
      · rename_i hne hlen
        rw [Option.map_eq_none_iff, List.find?_eq_none] at h
        exact ⟨by simpa using hne, by simpa using hlen, fun d hd => by simpa using h d hd⟩
  · rintro ⟨hne, hlen, hpos⟩
    rw [if_neg (by simpa using hne), if_neg (by simpa using hlen), Option.map_eq_none_iff,
      List.find?_eq_none]
    exact fun d hd => by simpa using hpos d hd

/-- A flare over a video so wide that four times the width is no word of 32 bits. -/
def TooWide (s : RenderSettings α) (spec : EffectSpec α) : Prop :=
  spec.overlay = some .lensFlare ∧ 2 ^ 30 ≤ s.width

instance (s : RenderSettings α) (spec : EffectSpec α) : Decidable (TooWide s spec) :=
  inferInstanceAs (Decidable (_ ∧ _))

theorem overlayFits_eq_false_iff {o : Overlay} {width : Nat} :
    overlayFits o width = false ↔ o = .lensFlare ∧ 2 ^ 30 ≤ width := by
  cases o with
  | lensFlare =>
    simp only [overlayFits, decide_eq_false_iff_not, Nat.pow_eq, true_and]
    omega
  | _ => simp [overlayFits]

omit [Scalar α] in
theorem layerFits_eq_false_iff {s : RenderSettings α} {spec : EffectSpec α} :
    layerFits s spec = false ↔ TooWide s spec := by
  unfold layerFits TooWide
  cases spec.overlay with
  | none => simp
  | some o => simp [overlayFits_eq_false_iff]

omit [Scalar α] in
theorem layerFits_iff {s : RenderSettings α} {spec : EffectSpec α} :
    layerFits s spec = true ↔ ¬TooWide s spec := by
  rw [← layerFits_eq_false_iff, Bool.not_eq_false]

section
variable {images : List String} {durations : List α} {s : RenderSettings α} {spec : EffectSpec α}

/-- **When `compile` returns a graph**, and which. -/
theorem compile_eq_ok_iff {g : FilterGraph α} :
    compile images durations s spec = .ok g ↔
      Accepted images durations ∧ ¬TooWide s spec ∧ g = compiled images durations s spec := by
  rw [← inputFault?_eq_none_iff, ← layerFits_iff]
  unfold compile
  cases inputFault? images durations with
  | none => cases layerFits s spec <;> simp [eq_comm]
  | some f => simp

/-- **When `compile` refuses** images and lengths, and with which words. -/
theorem compile_eq_failed_iff {e : Error} :
    compile images durations s spec = .error (.failed e) ↔
      ∃ f, inputFault? images durations = some f ∧ e = .validation f.message := by
  unfold compile
  cases inputFault? images durations with
  | none => cases layerFits s spec <;> simp [Halt.multiplied]
  | some f => simp [eq_comm]

/-- **When `compile` panics**, and with which words. -/
theorem compile_eq_panicked_iff {reason : String} :
    compile images durations s spec = .error (.panicked reason) ↔
      Accepted images durations ∧ TooWide s spec ∧ .panicked reason = Halt.multiplied := by
  rw [← inputFault?_eq_none_iff, ← layerFits_eq_false_iff]
  unfold compile
  cases inputFault? images durations with
  | none => cases layerFits s spec <;> simp [Halt.multiplied, eq_comm]
  | some f => simp

/-- Accepted images and lengths give their graph unless the flare is too wide. -/
theorem compile_accepted (h : Accepted images durations) :
    compile images durations s spec = .ok (compiled images durations s spec) ∨
      compile images durations s spec = .error .multiplied ∧ TooWide s spec := by
  by_cases hwide : TooWide s spec
  · exact .inr ⟨compile_eq_panicked_iff.mpr ⟨h, hwide, rfl⟩, hwide⟩
  · exact .inl (compile_eq_ok_iff.mpr ⟨h, hwide, rfl⟩)

end

/-! ## Sizes -/

/-- The plan behind a graph: blends when a transition was asked for and fits. -/
theorem timelineOf_eq (s : RenderSettings α) (spec : EffectSpec α) (durations : List α) :
    timelineOf s spec durations =
      match spec.transition,
        Timeline.blendLength? durations spec.transitionDuration s.maxTransitionFraction with
      | some _, some td => Timeline.blends td durations
      | _, _ => Timeline.cuts durations := by
  unfold timelineOf
  cases spec.transition with
  | none => exact Timeline.plan_none _ _
  | some t =>
    rw [Option.map_some, Timeline.plan_some]
    cases Timeline.blendLength? durations spec.transitionDuration s.maxTransitionFraction <;> rfl

/-- The plan behind a compiled graph has one rendered length for each image, and a blend between
any two neighbours or none at all. -/
theorem timelineOf_sizes (s : RenderSettings α) (spec : EffectSpec α) (durations : List α) :
    (timelineOf s spec durations).rendered.length = durations.length ∧
      ((timelineOf s spec durations).transition.isSome = true →
        2 ≤ durations.length ∧
          (timelineOf s spec durations).offsets.length + 1 = durations.length) :=
  ⟨Timeline.length_plan_rendered _ _ _, fun h => (Timeline.length_plan_offsets _ _ _ h).2⟩

theorem length_inputs_compiled {images : List String} {durations : List α}
    (h : images.length = durations.length) (s : RenderSettings α) (spec : EffectSpec α) :
    (compiled images durations s spec).inputs.length = images.length := by
  show (List.zipWith ImageInput.mk images (timelineOf s spec durations).rendered).length = _
  rw [List.length_zipWith, (timelineOf_sizes s spec durations).1, h, Nat.min_self]

theorem map_path_compiled {images : List String} {durations : List α}
    (h : images.length = durations.length) (s : RenderSettings α) (spec : EffectSpec α) :
    (compiled images durations s spec).inputs.map (fun x => x.path) = images :=
  map_path_zipWith (h.trans (timelineOf_sizes s spec durations).1.symm)

theorem map_seconds_compiled {images : List String} {durations : List α}
    (h : images.length = durations.length) (s : RenderSettings α) (spec : EffectSpec α) :
    (compiled images durations s spec).inputs.map (fun x => x.seconds) =
      (timelineOf s spec durations).rendered :=
  map_seconds_zipWith (h.trans (timelineOf_sizes s spec durations).1.symm)

/-- Two images of ten seconds each are accepted. -/
theorem accepted_pair : Accepted ["a.jpg", "b.jpg"] [(10 : Float), 10] :=
  ⟨by decide, rfl, by decide⟩

end Slideshow.Graph
