import Slideshow.Graph.Compile

/-!
# What a plan of a timeline can be

`Timeline.plan` has two outcomes: hard cuts, or blends of one length. `plan_none` and `plan_some`
say when it has which, so that nothing else opens `plan`.

Headlines:
* **`plan_some`**: a requested transition gives blends of `blendLength?`, or hard cuts without one.
* `blendLength?_eq_some`: blends are longer than nothing and lie between two or more segments.
* `plan_total`, `length_plan_rendered`, `length_plan_offsets`: the sizes of a plan.
* `getElem?_partialSums`: blend `k` starts after the first `k + 1` segments.
-/

namespace Slideshow.Graph.Timeline

open Scalar

variable {α : Type} [Scalar α]

/-- The plan with blends of length `td`. -/
def blends (td : α) (durations : List α) : Timeline α :=
  ⟨some td, extended td durations, partialSums zero durations, sum durations⟩

/-- The length of the blends between segments: what fits of the one asked for, if there are two
segments to blend and something is left of it. -/
def blendLength? (durations : List α) (asked fraction : α) : Option α :=
  match durations with
  | d :: e :: r =>
    let td := fitted asked fraction (shortest d (e :: r))
    if isAbove td then some td else none
  | _ => none

theorem plan_none (durations : List α) (fraction : α) :
    plan durations none fraction = cuts durations := by
  simp only [plan]

/-- **What a plan is.** -/
theorem plan_some (durations : List α) (asked fraction : α) :
    plan durations (some asked) fraction =
      match blendLength? durations asked fraction with
      | some td => blends td durations
      | none => cuts durations := by
  match durations with
  | [] => simp only [plan, blendLength?]
  | [_] => simp only [plan, blendLength?]
  | d :: e :: r =>
    simp only [plan, blendLength?]
    split <;> rfl

/-- Blends have a length above zero and lie between two or more segments. -/
theorem blendLength?_eq_some {durations : List α} {asked fraction td : α}
    (h : blendLength? durations asked fraction = some td) :
    ∃ d e r, durations = d :: e :: r ∧ isAbove td = true ∧
      td = fitted asked fraction (shortest d (e :: r)) := by
  match durations with
  | [] => exact absurd h (by simp [blendLength?])
  | [_] => exact absurd h (by simp [blendLength?])
  | d :: e :: r =>
    simp only [blendLength?] at h
    split at h
    · rename_i habove
      obtain rfl := Option.some.inj h
      exact ⟨d, e, r, rfl, habove, rfl⟩
    · exact absurd h (by simp)

/-- A plan is one of hard cuts or one of blends that fit. -/
theorem plan_cases (durations : List α) (requested : Option α) (fraction : α) :
    plan durations requested fraction = cuts durations ∨
      ∃ asked td, requested = some asked ∧ blendLength? durations asked fraction = some td ∧
        plan durations requested fraction = blends td durations := by
  cases requested with
  | none => exact Or.inl (plan_none durations fraction)
  | some asked =>
    rw [plan_some]
    cases h : blendLength? durations asked fraction with
    | none => exact Or.inl rfl
    | some td => exact Or.inr ⟨asked, td, rfl, h, rfl⟩

theorem length_extended (extra : α) : ∀ ds : List α, (extended extra ds).length = ds.length
  | [] => rfl
  | [_] => rfl
  | d :: e :: r => by
    simp only [extended, List.length_cons, length_extended extra (e :: r)]

theorem length_partialSums : ∀ (start : α) (ds : List α),
    (partialSums start ds).length = ds.length - 1
  | _, [] => rfl
  | _, [_] => rfl
  | start, d :: e :: r => by
    rw [partialSums, List.length_cons, length_partialSums (start + d) (e :: r)]
    simp only [List.length_cons]
    omega

/-- The sum after the first `k + 1` items, as long as one is left. -/
theorem getElem?_partialSums : ∀ (start : α) (ds : List α) (k : Nat), k + 1 < ds.length →
    (partialSums start ds)[k]? = some ((ds.take (k + 1)).foldl (· + ·) start)
  | start, d :: e :: r, 0, _ => by
    simp only [partialSums, List.getElem?_cons_zero, List.take_succ_cons, List.take_zero,
      List.foldl_cons, List.foldl_nil]
  | start, d :: e :: r, k + 1, h => by
    rw [partialSums, List.getElem?_cons_succ, List.take_succ_cons, List.foldl_cons]
    exact getElem?_partialSums (start + d) (e :: r) k (by simpa using h)
  | _, [], _, h => absurd h (by simp)
  | _, [_], _, h => absurd h (by simp)

section

variable (durations : List α) (requested : Option α) (fraction : α)

theorem plan_total : (plan durations requested fraction).total = sum durations := by
  rcases plan_cases durations requested fraction with h | ⟨_, _, _, _, h⟩ <;> rw [h] <;> rfl

theorem length_plan_rendered :
    (plan durations requested fraction).rendered.length = durations.length := by
  rcases plan_cases durations requested fraction with h | ⟨_, _, _, _, h⟩
  · rw [h]
    rfl
  · rw [h]
    exact length_extended _ durations

/-- A plan with blends was asked for, and has a blend between any two neighbours. -/
theorem length_plan_offsets (h : (plan durations requested fraction).transition.isSome = true) :
    requested.isSome = true ∧ 2 ≤ durations.length ∧
      (plan durations requested fraction).offsets.length + 1 = durations.length := by
  rcases plan_cases durations requested fraction with hp | ⟨asked, td, rfl, htd, hp⟩
  · rw [hp] at h
    exact absurd h (by simp [cuts])
  · obtain ⟨d, e, r, rfl, -, -⟩ := blendLength?_eq_some htd
    rw [hp]
    refine ⟨rfl, by simp, ?_⟩
    show (partialSums zero (d :: e :: r)).length + 1 = _
    rw [length_partialSums]
    simp

end

end Slideshow.Graph.Timeline
