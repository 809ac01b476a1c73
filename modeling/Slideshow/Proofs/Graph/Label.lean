import Slideshow.Graph.Compile
import Std.Data.String.ToNat
import Mathlib.Data.List.Nodup

/-!
# The labels of a compiled graph

Every family of labels begins with a letter of its own, and image pads begin with a digit, so that
labels of two families never meet; inside a family the number tells them apart.

Headlines:
* `imagePad_inj`, `scaledLabel_inj`, `movedLabel_inj`, `blendLabel_inj`.
* `mem_outputs_segmentOperations`, `mem_outputs_blendOperations`: the labels that the two
  unbounded stages write.
* **`outputs_segmentOperations_nodup`**, **`outputs_blendOperations_nodup`**: each of them once.
-/

namespace Slideshow.Graph

variable {α : Type}

/-! ## First characters -/

/-- The first character of a label. -/
def initial (label : String) : Option Char := label.toList.head?

theorem ne_of_initial {a b : String} (h : initial a ≠ initial b) : a ≠ b :=
  fun e => h (congrArg initial e)

@[simp] theorem initial_scaledLabel (i : Nat) : initial (scaledLabel i) = some 's' := by
  simp [initial, scaledLabel]

@[simp] theorem initial_movedLabel (i : Nat) : initial (movedLabel i) = some 'm' := by
  simp [initial, movedLabel]

@[simp] theorem initial_blendLabel (k : Nat) : initial (blendLabel k) = some 'x' := by
  simp [initial, blendLabel]

/-- An image pad begins with a digit. -/
theorem initial_imagePad (i : Nat) : ∃ c, initial (imagePad i) = some c ∧ c.isDigit = true := by
  obtain ⟨c, cs, h⟩ := List.exists_cons_of_ne_nil (Nat.toDigits_ne_nil (n := i) (b := 10))
  refine ⟨c, ?_, Nat.isDigit_of_mem_toDigits (b := 10) (n := i) (by omega) (by omega) ?_⟩
  · simp [initial, imagePad, h]
  · rw [h]
    exact List.mem_cons_self

/-- A label that begins with no digit is no image pad. -/
theorem ne_imagePad {label : String} {c : Char} (h : initial label = some c)
    (hc : c.isDigit = false) (i : Nat) : label ≠ imagePad i := by
  obtain ⟨d, hd, hdigit⟩ := initial_imagePad i
  rintro rfl
  rw [h, Option.some.injEq] at hd
  rw [hd, hdigit] at hc
  exact absurd hc (by decide)

theorem scaledLabel_ne_imagePad (i j : Nat) : scaledLabel i ≠ imagePad j :=
  ne_imagePad (initial_scaledLabel i) (by decide) j

theorem movedLabel_ne_imagePad (i j : Nat) : movedLabel i ≠ imagePad j :=
  ne_imagePad (initial_movedLabel i) (by decide) j

theorem finalLabel_ne_imagePad (j : Nat) : finalLabel ≠ imagePad j :=
  ne_imagePad (c := 'v') (by decide) (by decide) j

theorem movedLabel_ne_scaledLabel (i j : Nat) : movedLabel i ≠ scaledLabel j :=
  ne_of_initial (by simp)

theorem movedLabel_ne_blendLabel (i k : Nat) : movedLabel i ≠ blendLabel k :=
  ne_of_initial (by simp)

/-! ## Numbers -/

theorem imagePad_inj {i j : Nat} : imagePad i = imagePad j ↔ i = j := by
  simp [imagePad, Nat.toString_eq_repr, Nat.repr_inj]

theorem scaledLabel_inj {i j : Nat} : scaledLabel i = scaledLabel j ↔ i = j := by
  simp [scaledLabel, Nat.toString_eq_repr, Nat.repr_inj]

theorem movedLabel_inj {i j : Nat} : movedLabel i = movedLabel j ↔ i = j := by
  simp [movedLabel, Nat.toString_eq_repr, Nat.repr_inj]

theorem blendLabel_inj {i j : Nat} : blendLabel i = blendLabel j ↔ i = j := by
  simp [blendLabel, Nat.toString_eq_repr, Nat.repr_inj]

/-! ## The labels that operations read and write -/

/-- The labels that operations write, in order. -/
def outputs (ops : List (Operation α)) : List String := ops.map fun op => op.output

/-- The labels that operations read, in order. -/
def consumed (ops : List (Operation α)) : List String := ops.flatMap fun op => op.inputs

@[simp] theorem outputs_nil : outputs ([] : List (Operation α)) = [] := rfl

@[simp] theorem outputs_cons (op : Operation α) (r : List (Operation α)) :
    outputs (op :: r) = op.output :: outputs r := rfl

@[simp] theorem outputs_append (xs ys : List (Operation α)) :
    outputs (xs ++ ys) = outputs xs ++ outputs ys :=
  List.map_append

@[simp] theorem consumed_nil : consumed ([] : List (Operation α)) = [] := rfl

@[simp] theorem consumed_cons (op : Operation α) (r : List (Operation α)) :
    consumed (op :: r) = op.inputs ++ consumed r := rfl

variable [Scalar α]

theorem outputs_segmentOperations_cons (s : RenderSettings α) (m : Motion) (i : Nat) (d : α)
    (r : List α) : outputs (segmentOperations s m i (d :: r)) =
      scaledLabel i :: movedLabel i :: outputs (segmentOperations s m (i + 1) r) := rfl

theorem outputs_blendOperations_cons (t : Transition) (td : α) (k : Nat) (current : String)
    (o : α) (r : List α) : outputs (blendOperations t td k current (o :: r)) =
      blendLabel k :: outputs (blendOperations t td (k + 1) (blendLabel k) r) := rfl

theorem mem_outputs_segmentOperations {s : RenderSettings α} {m : Motion} {label : String} :
    ∀ {ds : List α} {i : Nat}, label ∈ outputs (segmentOperations s m i ds) →
      ∃ j, i ≤ j ∧ j < i + ds.length ∧ (label = scaledLabel j ∨ label = movedLabel j)
  | [], _, h => absurd h List.not_mem_nil
  | d :: r, i, h => by
    rw [outputs_segmentOperations_cons, List.mem_cons, List.mem_cons] at h
    rw [List.length_cons]
    rcases h with h | h | h
    · exact ⟨i, Nat.le_refl i, by omega, Or.inl h⟩
    · exact ⟨i, Nat.le_refl i, by omega, Or.inr h⟩
    · obtain ⟨j, hij, hj, hl⟩ := mem_outputs_segmentOperations h
      exact ⟨j, by omega, by omega, hl⟩

theorem mem_outputs_blendOperations {t : Transition} {td : α} {label : String} :
    ∀ {offsets : List α} {k : Nat} {current : String},
      label ∈ outputs (blendOperations t td k current offsets) →
      ∃ j, k ≤ j ∧ j < k + offsets.length ∧ label = blendLabel j
  | [], _, _, h => absurd h List.not_mem_nil
  | o :: r, k, current, h => by
    rw [outputs_blendOperations_cons, List.mem_cons] at h
    rw [List.length_cons]
    rcases h with h | h
    · exact ⟨k, Nat.le_refl k, by omega, h⟩
    · obtain ⟨j, hkj, hj, hl⟩ := mem_outputs_blendOperations h
      exact ⟨j, by omega, by omega, hl⟩

/-- **The segments write every label once.** -/
theorem outputs_segmentOperations_nodup (s : RenderSettings α) (m : Motion) :
    ∀ (ds : List α) (i : Nat), (outputs (segmentOperations s m i ds)).Nodup
  | [], _ => List.nodup_nil
  | d :: r, i => by
    rw [outputs_segmentOperations_cons, List.nodup_cons, List.nodup_cons]
    refine ⟨fun h => ?_, fun h => ?_, outputs_segmentOperations_nodup s m r (i + 1)⟩
    · rcases List.mem_cons.mp h with h | h
      · exact movedLabel_ne_scaledLabel i i h.symm
      · obtain ⟨j, hij, -, hl | hl⟩ := mem_outputs_segmentOperations h
        · have := scaledLabel_inj.mp hl
          omega
        · exact movedLabel_ne_scaledLabel j i hl.symm
    · obtain ⟨j, hij, -, hl | hl⟩ := mem_outputs_segmentOperations h
      · exact movedLabel_ne_scaledLabel i j hl
      · have := movedLabel_inj.mp hl
        omega

/-- **A chain of blends writes every label once.** -/
theorem outputs_blendOperations_nodup (t : Transition) (td : α) :
    ∀ (offsets : List α) (k : Nat) (current : String),
      (outputs (blendOperations t td k current offsets)).Nodup
  | [], _, _ => List.nodup_nil
  | o :: r, k, current => by
    rw [outputs_blendOperations_cons, List.nodup_cons]
    refine ⟨fun h => ?_, outputs_blendOperations_nodup t td r (k + 1) (blendLabel k)⟩
    obtain ⟨j, hkj, -, hl⟩ := mem_outputs_blendOperations h
    have := blendLabel_inj.mp hl
    omega

end Slideshow.Graph
