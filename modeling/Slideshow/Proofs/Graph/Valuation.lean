import Slideshow.Proofs.Graph.Stages

/-!
# Values of streams

An interpretation says what an operation of each kind makes of the values of its inputs. Run over a
graph, it gives every stream a value: `run` starts from the values of the image pads and takes the
operations in order. What the run of a compiled graph gives is said here once, for every
interpretation.

Headlines:
* `run_append`, `run_of_not_mem`: a run goes stage by stage and keeps what is not written.
* `run_segmentOperations`, `run_blendOperations`: the two unbounded stages.
* `run_relabelLast`: the final label has the value of the last operation.
* **`run_stagedOperations`**: the stages are the join of the segments, graded and overlaid.
-/

namespace Slideshow.Graph

variable {α β : Type}

/-- What an operation makes of the values of its inputs; nothing where it does not fit them. -/
abbrev Interpretation (α β : Type) := Kind α → List β → Option β

/-- The values of streams, by their labels. -/
abbrev Valuation (β : Type) := String → Option β

/-- The value that an operation gives to its output. -/
def Operation.value (I : Interpretation α β) (v : Valuation β) (op : Operation α) : Option β :=
  (op.inputs.mapM v).bind (I op.kind)

/-- The values after an operation. -/
def Valuation.set (v : Valuation β) (label : String) (value : Option β) : Valuation β :=
  fun l => if l = label then value else v l

/-- The values after some operations. -/
def run (I : Interpretation α β) : Valuation β → List (Operation α) → Valuation β
  | v, [] => v
  | v, op :: r => run I (v.set op.output (op.value I v)) r

/-- The values of `n` image pads: `f i` for the pad of number `i`. -/
def padValues (n : Nat) (f : Nat → Option β) : Valuation β := fun label =>
  ((List.range n).find? fun i => imagePad i == label).bind f

theorem padValues_imagePad {n i : Nat} (hi : i < n) (f : Nat → Option β) :
    padValues n f (imagePad i) = f i := by
  have h : (List.range n).find? (fun j => imagePad j == imagePad i) = some i := by
    rw [List.find?_range_eq_some]
    refine ⟨by simp, by simpa using hi, fun j hj => ?_⟩
    simpa [imagePad_inj] using Nat.ne_of_lt hj
  rw [padValues, h, Option.bind_some]

/-! ## Runs -/

@[simp] theorem Valuation.set_self (v : Valuation β) (label : String) (value : Option β) :
    v.set label value label = value := by
  unfold Valuation.set
  rw [if_pos rfl]

theorem Valuation.set_of_ne (v : Valuation β) {label l : String} (value : Option β)
    (h : l ≠ label) : v.set label value l = v l := by
  unfold Valuation.set
  rw [if_neg h]

theorem run_append (I : Interpretation α β) : ∀ (xs ys : List (Operation α)) (v : Valuation β),
    run I v (xs ++ ys) = run I (run I v xs) ys
  | [], _, _ => rfl
  | x :: xs, ys, v => run_append I xs ys (v.set x.output (x.value I v))

/-- A run keeps the value of a stream that it does not write. -/
theorem run_of_not_mem (I : Interpretation α β) {label : String} :
    ∀ {ops : List (Operation α)} {v : Valuation β}, label ∉ outputs ops →
      run I v ops label = v label
  | [], _, _ => rfl
  | op :: r, v, h => by
    rw [outputs_cons, List.mem_cons, not_or] at h
    rw [run, run_of_not_mem I h.2, Valuation.set_of_ne v _ h.1]

/-- The values of several streams, when each of them has one. -/
theorem mapM_eq_some {v : Valuation β} : ∀ {labels : List String} {values : List β},
    labels.map v = values.map some → labels.mapM v = some values
  | [], [], _ => rfl
  | [], _ :: _, h => absurd h (by simp)
  | _ :: _, [], h => absurd h (by simp)
  | l :: ls, x :: xs, h => by
    simp only [List.map_cons, List.cons.injEq] at h
    rw [List.mapM_cons, h.1, mapM_eq_some h.2]
    rfl

/-- Operations that do the same work have the same value. -/
theorem Operation.SameWork.value_eq {a b : Operation α} (h : a.SameWork b)
    (I : Interpretation α β) (v : Valuation β) : a.value I v = b.value I v := by
  unfold Operation.value
  rw [h.1, h.2]

theorem run_concat_output (I : Interpretation α β) (front : List (Operation α))
    (op : Operation α) (v : Valuation β) :
    run I v (front ++ [op]) op.output = op.value I (run I v front) := by
  rw [run_append]
  exact Valuation.set_self _ _ _

/-- The final label of relabelled operations has the value of the stream they end in. -/
theorem run_relabelLast (I : Interpretation α β) {ops : List (Operation α)} {label : String}
    (h : EndsIn ops label) (v : Valuation β) :
    run I v (relabelLast ops) finalLabel = run I v ops label := by
  obtain ⟨front, op, rfl, rfl⟩ := h
  rw [relabelLast_concat, run_concat_output]
  exact (run_concat_output I front op v).symm

theorem value_one (I : Interpretation α β) (v : Valuation β) (k : Kind α) (a out filter : String) :
    Operation.value I v ⟨k, [a], out, filter⟩ = (v a).bind fun x => I k [x] := by
  simp only [Operation.value, List.mapM_cons, List.mapM_nil]
  cases v a <;> rfl

theorem value_two (I : Interpretation α β) (v : Valuation β) (k : Kind α)
    (a b out filter : String) :
    Operation.value I v ⟨k, [a, b], out, filter⟩ =
      (v a).bind fun x => (v b).bind fun y => I k [x, y] := by
  simp only [Operation.value, List.mapM_cons, List.mapM_nil]
  cases v a <;> cases v b <;> rfl

/-! ## The stages of a graph -/

def gradeValue (I : Interpretation α β) (grade : Option ColorGrade) (x : Option β) : Option β :=
  match grade with
  | some c => x.bind fun a => I (.colorGrade c) [a]
  | none => x

def overlayValue (I : Interpretation α β) (overlay : Option Overlay) (x : Option β) : Option β :=
  match overlay with
  | some o => x.bind fun a => (I (.overlaySource o) []).bind fun layer =>
      I (.overlayComposite o .screen (overlayOpacity o)) [a, layer]
  | none => x

theorem run_concatOperation (I : Interpretation α β) (ms : List β) (v : Valuation β)
    (hm : ∀ j (hj : j < ms.length), v (movedLabel j) = some ms[j]) :
    run I v [concatOperation ms.length] "cat" = I (.concat ms.length) ms := by
  have hvalues : ((List.range ms.length).map movedLabel).mapM v = some ms := by
    refine mapM_eq_some (List.ext_getElem (by simp) fun j hj _ => ?_)
    simpa using hm j (by simpa using hj)
  show (v.set "cat" _) "cat" = _
  rw [Valuation.set_self, Operation.value, concatOperation, hvalues]
  rfl

theorem run_gradeStage (I : Interpretation α β) (grade : Option ColorGrade) (current : String)
    (v : Valuation β) :
    run I v (gradeStage grade current).operations (gradeStage (α := α) grade current).label =
      gradeValue I grade (v current) := by
  cases grade with
  | none => rfl
  | some c =>
    show (v.set "graded" _) "graded" = _
    rw [Valuation.set_self, value_one]
    rfl

variable [Scalar α]

/-- What a segment makes of the value of its image. -/
def segmentValue (I : Interpretation α β) (s : RenderSettings α) (m : Motion) (seconds : α)
    (image : Option β) : Option β :=
  (image.bind fun a => I (.scaleCrop s.width s.height) [a]).bind fun b =>
    I (.motion m (frameCount seconds s.fps)) [b]

theorem run_imageOperations (I : Interpretation α β) (s : RenderSettings α) (m : Motion)
    (i : Nat) (seconds : α) (v : Valuation β) :
    run I v (imageOperations s m i seconds) (movedLabel i) =
      segmentValue I s m seconds (v (imagePad i)) := by
  simp only [imageOperations, run, Valuation.set_self, value_one, segmentValue]

/-- **Segment `i + j` is image `i + j`, scaled and moved.** -/
theorem run_segmentOperations (I : Interpretation α β) (s : RenderSettings α) (m : Motion) :
    ∀ {ds : List α} {j : Nat} {d : α} (i : Nat) (v : Valuation β), ds[j]? = some d →
      run I v (segmentOperations s m i ds) (movedLabel (i + j)) =
        segmentValue I s m d (v (imagePad (i + j)))
  | [], _, _, _, _, h => absurd h (by simp)
  | d :: r, 0, _, i, v, h => by
    obtain rfl : d = _ := by simpa using h
    rw [segmentOperations, run_append, run_of_not_mem, Nat.add_zero, run_imageOperations]
    intro hm
    obtain ⟨k, hk, -, hl | hl⟩ := mem_outputs_segmentOperations hm
    · exact movedLabel_ne_scaledLabel _ _ hl
    · have := movedLabel_inj.mp hl
      omega
  | d :: r, j + 1, _, i, v, h => by
    have ih := run_segmentOperations I s m (i + 1) (run I v (imageOperations s m i d))
      (show r[j]? = _ by simpa using h)
    have e : i + 1 + j = i + (j + 1) := by omega
    rw [e] at ih
    rw [segmentOperations, run_append, ih, run_of_not_mem]
    intro hm
    rcases List.mem_cons.mp hm with hl | hl
    · exact scaledLabel_ne_imagePad _ _ hl.symm
    · exact movedLabel_ne_imagePad _ _ (List.mem_singleton.mp hl).symm

/-- The values of all segments, when each of them has one. -/
theorem run_segmentOperations_zero (I : Interpretation α β) (s : RenderSettings α) (m : Motion)
    {seconds : List α} {ms : List β} {v : Valuation β} (hlen : ms.length = seconds.length)
    (hm : ∀ j (hj : j < ms.length) (hr : j < seconds.length),
      segmentValue I s m seconds[j] (v (imagePad j)) = some ms[j])
    (j : Nat) (hj : j < ms.length) :
    run I v (segmentOperations s m 0 seconds) (movedLabel j) = some ms[j] := by
  have hrun := run_segmentOperations I s m 0 v
    (List.getElem?_eq_getElem (by omega : j < seconds.length))
  rw [Nat.zero_add, hm j hj (by omega)] at hrun
  exact hrun

/-- What a chain of blends makes of a first value and the values of further segments, each with the
start of its blend. -/
def chainValue (I : Interpretation α β) (t : Transition) (td : α) :
    Option β → List (α × β) → Option β
  | first, [] => first
  | first, (offset, b) :: r =>
    chainValue I t td (first.bind fun a => I (.blend t td offset) [a, b]) r

/-- **A chain of blends folds the segments from the left.** -/
theorem run_blendOperations (I : Interpretation α β) (t : Transition) (td : α) :
    ∀ (offsets : List α) (bs : List β) (k : Nat) (current : String) (v : Valuation β),
      offsets ≠ [] → bs.length = offsets.length →
      (∀ j (h : j < bs.length), v (movedLabel (k + 1 + j)) = some bs[j]) →
      run I v (blendOperations t td k current offsets) (blendLabel (k + (offsets.length - 1))) =
        chainValue I t td (v current) (offsets.zip bs)
  | [], _, _, _, _, h, _, _ => absurd rfl h
  | _ :: _, [], _, _, _, _, h, _ => absurd h (by simp)
  | [_], _ :: _ :: _, _, _, _, _, h, _ => absurd h (by simp)
  | [o], [b], k, current, v, _, _, hb => by
    have hb0 : v (movedLabel (k + 1)) = some b := hb 0 (by simp)
    show (v.set (blendLabel k) _) (blendLabel k) = _
    rw [Valuation.set_self, value_two, hb0]
    rfl
  | o :: p :: r, b :: bs, k, current, v, _, hlen, hb => by
    have hb0 : v (movedLabel (k + 1)) = some b := hb 0 (by simp)
    have e : k + ((o :: p :: r).length - 1) = k + 1 + ((p :: r).length - 1) := by
      simp only [List.length_cons]
      omega
    rw [e, blendOperations, run, run_blendOperations I t td (p :: r) bs (k + 1) (blendLabel k) _
      (List.cons_ne_nil p r) (by simpa using hlen), Valuation.set_self, value_two, hb0]
    · rfl
    · intro j hj
      have hj' := hb (j + 1) (by simpa using hj)
      rw [Valuation.set_of_ne _ _ (movedLabel_ne_blendLabel _ _),
        show k + 1 + 1 + j = k + 1 + (j + 1) by omega]
      simpa using hj'

/-- What the join makes of the values of the segments. -/
def joinValue (I : Interpretation α β) (spec : EffectSpec α) (timeline : Timeline α)
    (ms : List β) : Option β :=
  match spec.transition, timeline.transition with
  | some t, some td => chainValue I t td ms.head? (timeline.offsets.zip ms.tail)
  | _, _ => I (.concat ms.length) ms

/-- The join of segments with the values `ms`. -/
theorem run_joined (I : Interpretation α β) (spec : EffectSpec α) (timeline : Timeline α)
    (ms : List β) (v : Valuation β)
    (h : timeline.transition.isSome = true →
      2 ≤ ms.length ∧ timeline.offsets.length + 1 = ms.length)
    (hm : ∀ j (hj : j < ms.length), v (movedLabel j) = some ms[j]) :
    run I v (joined spec timeline ms.length).operations (joined spec timeline ms.length).label =
      joinValue I spec timeline ms := by
  unfold joined joinStage joinValue
  cases spec.transition with
  | none => exact run_concatOperation I ms v hm
  | some t =>
    cases htd : timeline.transition with
    | none => exact run_concatOperation I ms v hm
    | some td =>
      obtain ⟨hn, hlen⟩ := h (by rw [htd]; rfl)
      obtain ⟨m, rest, rfl⟩ := List.exists_cons_of_length_pos (show 0 < ms.length by omega)
      have hpos : 0 < timeline.offsets.length := by omega
      have hblend := run_blendOperations I t td timeline.offsets rest 0 (movedLabel 0) v
        (List.length_pos_iff.mp hpos) (by simpa using hlen.symm) fun j hj => by
          have := hm (j + 1) (by simpa using hj)
          rw [show 0 + 1 + j = j + 1 by omega]
          simpa using this
      rw [Nat.zero_add, hm 0 (by simp)] at hblend
      show run I v _ (blendedLabel timeline.offsets.length) = _
      rw [blendedLabel, if_neg (by omega)]
      exact hblend

theorem run_overlayStage (I : Interpretation α β) (s : RenderSettings α)
    (overlay : Option Overlay) (total : α) {current : String} (hc : current ≠ "ovl")
    (v : Valuation β) :
    run I v (overlayStage s overlay total current).operations
        (overlayStage s overlay total current).label = overlayValue I overlay (v current) := by
  cases overlay with
  | none => rfl
  | some o =>
    simp only [overlayStage, run, Valuation.set_self, value_two, Valuation.set_of_ne _ _ hc]
    rfl

/-- The stream before the overlay is not the generated layer. -/
theorem label_graded_ne_ovl (spec : EffectSpec α) (timeline : Timeline α) (n : Nat) :
    (graded spec timeline n).label ≠ "ovl" := by
  have hjoin : (joined spec timeline n).label ≠ "ovl" := by
    unfold joined joinStage
    split
    · show blendedLabel timeline.offsets.length ≠ "ovl"
      unfold blendedLabel
      split
      · exact ne_of_initial (by rw [initial_movedLabel]; decide)
      · exact ne_of_initial (by rw [initial_blendLabel]; decide)
    · exact ne_of_initial (a := "cat") (b := "ovl") (by decide)
  unfold graded gradeStage
  cases spec.color with
  | none => exact hjoin
  | some c => exact ne_of_initial (a := "graded") (b := "ovl") (by decide)

/-- **The stages are the join of the segments, graded and overlaid**: `ms` are the values of the
segments. -/
theorem run_stagedOperations (I : Interpretation α β) (s : RenderSettings α)
    (spec : EffectSpec α) (timeline : Timeline α) (ms : List β) (v : Valuation β)
    (hlen : ms.length = timeline.rendered.length)
    (h : timeline.transition.isSome = true →
      2 ≤ ms.length ∧ timeline.offsets.length + 1 = ms.length)
    (hm : ∀ j (hj : j < ms.length) (hr : j < timeline.rendered.length),
      segmentValue I s spec.motionOrDefault timeline.rendered[j] (v (imagePad j)) = some ms[j]) :
    run I v (stagedOperations s spec timeline ms.length)
        (overlaid s spec timeline ms.length).label =
      overlayValue I spec.overlay (gradeValue I spec.color (joinValue I spec timeline ms)) := by
  have hsegments := run_segmentOperations_zero I s spec.motionOrDefault hlen hm
  unfold stagedOperations overlaid
  rw [run_append, run_append, run_append, run_overlayStage I s spec.overlay timeline.total
    (label_graded_ne_ovl spec timeline ms.length)]
  unfold graded
  rw [run_gradeStage, run_joined I spec timeline ms _ h hsegments]

end Slideshow.Graph
