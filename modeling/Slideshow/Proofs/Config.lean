import Slideshow.Config

/-!
# Configurations that pass

A configuration is checked for one fault after another, and each check is for what must not be. What
must be instead is `Config.Usable`.

Headlines:
* **`check_iff`**: a configuration passes exactly if it is usable.
-/

namespace Slideshow.Config

open Scalar

/-- Settings that a video can be made with. What is no number is not below another one, nor above
it. -/
structure Usable (c : Config) : Prop where
  width : c.video.width ≠ 0
  height : c.video.height ≠ 0
  evenWidth : c.video.width % 2 = 0
  evenHeight : c.video.height % 2 = 0
  fps : c.video.fps ≠ 0
  minSeconds : isPositive c.duration.minSeconds = true
  maxSeconds : isPositive c.duration.maxSeconds = true
  window : ¬c.duration.minSeconds > c.duration.maxSeconds
  fallbackSeconds : isPositive c.duration.fallbackSeconds = true
  transitionDuration : isPositive c.effects.defaultTransitionDuration = true
  transitionLimit : ¬c.effects.defaultTransitionDuration > maxTransitionSeconds
  referenceBitrate : c.duration.referenceBitrate ≠ 0
  maxZoom : ¬c.effects.maxZoom < 1
  panZoom : ¬c.effects.panZoom < 1
  maxConcurrent : c.jobs.maxConcurrent ≠ 0

theorem refused_iff {p : Prop} [Decidable p] (f : Fault) (rest : Option Fault) :
    (if p then some f else rest) = none ↔ ¬p ∧ rest = none := by
  by_cases h : p <;> simp [h]

theorem fault?_eq_none_iff (c : Config) : c.fault? = none ↔ c.Usable := by
  unfold fault?
  simp only [refused_iff, Bool.or_eq_true, beq_iff_eq, bne_iff_ne, Bool.not_eq_true',
    decide_eq_true_eq, not_or, and_assoc, Bool.not_eq_false, ne_eq, Decidable.not_not, and_true]
  constructor
  · rintro ⟨width, height, evenWidth, evenHeight, fps, minSeconds, maxSeconds, window,
      fallbackSeconds, transitionDuration, transitionLimit, referenceBitrate, maxZoom, panZoom,
      maxConcurrent⟩
    constructor <;> assumption
  · rintro ⟨⟩
    simp only [*, not_false_eq_true, and_self]

/-- **A configuration passes exactly if it is usable.** -/
theorem check_iff (c : Config) : c.check = .ok () ↔ c.Usable := by
  rw [← fault?_eq_none_iff, check]
  cases c.fault? <;> simp

end Slideshow.Config
