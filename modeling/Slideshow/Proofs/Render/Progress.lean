import Slideshow.Encode.Basic
import Slideshow.Proofs.Order
import Slideshow.Proofs.Trial

/-!
# What an encode tells about its progress

An encoder may print anything; what is told of it are fractions that rise from zero to at most one.
`Climbs low fs` is that for what is still to come when `low` is the last fraction told,
`Climbs.rising` is what it comes to.

Headlines:
* `progressOf_climbs`: the lines of a run tell fractions that climb, from wherever it stood.
* **`encode_tells`**: the events of an encode and its result.
-/

namespace Slideshow

open Scalar

/-- Each fraction is above the one before it, and none is above one. -/
structure Rising (fractions : List Float) : Prop where
  increasing : fractions.Pairwise (· < ·)
  positive : ∀ f ∈ fractions, 0 < f
  atMostOne : ∀ f ∈ fractions, f ≤ 1

/-- Fractions rise from a last one. -/
def Climbs : Float → List Float → Prop
  | _, [] => True
  | low, f :: fs => low < f ∧ f ≤ 1 ∧ Climbs f fs

theorem getLastD_append (fs gs : List Float) (low : Float) :
    (fs ++ gs).getLastD low = gs.getLastD (fs.getLastD low) := by
  simp [List.getLastD_eq_getLast?, List.getLast?_append]

/-- A last one of one is told. -/
theorem getLast?_of_getLastD {fs : List Float} (h : fs.getLastD 0 = 1) : fs.getLast? = some 1 := by
  rw [List.getLastD_eq_getLast?] at h
  cases hl : fs.getLast? with
  | none =>
    rw [hl] at h
    exact absurd h (by decide)
  | some f =>
    rw [hl] at h
    exact congrArg some h

namespace Climbs

theorem append {fs gs : List Float} : ∀ {low : Float}, Climbs low fs → Climbs (fs.getLastD low) gs →
    Climbs low (fs ++ gs) := by
  induction fs with
  | nil => exact fun _ hg => hg
  | cons f fs ih =>
    intro low hf hg
    rw [List.getLastD_cons] at hg
    exact ⟨hf.1, hf.2.1, ih hf.2.2 hg⟩

theorem above {fs : List Float} : ∀ {low : Float}, Climbs low fs → ∀ f ∈ fs, low < f := by
  induction fs with
  | nil => exact fun _ f hf => absurd hf List.not_mem_nil
  | cons g fs ih =>
    intro low h f hf
    rcases List.mem_cons.mp hf with rfl | hf
    · exact h.1
    · exact float_lt_of_le_of_lt (float_le_of_lt h.1) (ih h.2.2 f hf)

/-- **What climbs from zero is rising.** -/
theorem rising {fs : List Float} : ∀ {low : Float}, 0 ≤ low → Climbs low fs → Rising fs := by
  induction fs with
  | nil => exact fun _ _ => ⟨.nil, by simp, by simp⟩
  | cons f fs ih =>
    intro low h0 h
    have hpos : 0 < f := float_lt_of_le_of_lt h0 h.1
    have hfs := ih (float_le_of_lt hpos) h.2.2
    refine ⟨.cons h.2.2.above hfs.increasing, ?_, ?_⟩
    · exact List.forall_mem_cons.mpr ⟨hpos, hfs.positive⟩
    · exact List.forall_mem_cons.mpr ⟨h.2.1, hfs.atMostOne⟩

theorem last_le_one {fs : List Float} : ∀ {low : Float}, low ≤ 1 → Climbs low fs →
    fs.getLastD low ≤ 1 := by
  induction fs with
  | nil => exact fun h _ => h
  | cons f fs ih =>
    intro low _ h
    rw [List.getLastD_cons]
    exact ih h.2.1 h.2.2

end Climbs

/-! ## Progress -/

namespace Progress

/-- What one time tells climbs, and the fraction is the last one told. -/
theorem observe_climbs (p : Progress) (elapsed : Float) :
    Climbs p.fraction (p.observe elapsed).1.toList ∧
      (p.observe elapsed).2.fraction = (p.observe elapsed).1.toList.getLastD p.fraction := by
  unfold observe fractionAt?
  split
  · next fraction h =>
    split at h
    · obtain rfl := Option.some.inj h
      unfold advance
      split
      · next hlt => exact ⟨⟨hlt, clamp_le_one hlt, trivial⟩, rfl⟩
      · exact ⟨trivial, rfl⟩
    · cases h
  · exact ⟨trivial, rfl⟩

/-- The end makes the last fraction told exactly one. -/
theorem finish_climbs (p : Progress) (h : p.fraction ≤ 1) :
    Climbs p.fraction p.finish.1.toList ∧ p.finish.1.toList.getLastD p.fraction = 1 := by
  unfold finish advance
  split
  · next hlt => exact ⟨⟨hlt, float_one_le_one, trivial⟩, rfl⟩
  · next hlt => exact ⟨trivial, eq_one h hlt⟩

end Progress

namespace Encoder

theorem progressOf_climbs (lines : List String) : ∀ p : Progress,
    Climbs p.fraction (progressOf p lines).1 ∧
      (progressOf p lines).2.fraction = (progressOf p lines).1.getLastD p.fraction := by
  induction lines with
  | nil => exact fun p => ⟨trivial, rfl⟩
  | cons line rest ih =>
    intro p
    unfold progressOf
    split
    · exact ih p
    · next elapsed _ =>
      obtain ⟨hclimbs, hlast⟩ := p.observe_climbs elapsed
      obtain ⟨hrest, hlater⟩ := ih (p.observe elapsed).2
      rw [hlast] at hrest
      refine ⟨hclimbs.append hrest, ?_⟩
      show (progressOf (p.observe elapsed).2 rest).2.fraction =
        ((p.observe elapsed).1.toList ++ (progressOf (p.observe elapsed).2 rest).1).getLastD
          p.fraction
      rw [hlater, hlast, getLastD_append]

/-- With the end, the lines of a run tell fractions that climb to one. -/
theorem progressOf_finish (total : Float) (lines : List String) :
    Climbs 0
      ((progressOf (.ofTotal total) lines).1 ++
        (progressOf (.ofTotal total) lines).2.finish.1.toList) ∧
      ((progressOf (.ofTotal total) lines).1 ++
          (progressOf (.ofTotal total) lines).2.finish.1.toList).getLastD 0 = 1 := by
  obtain ⟨hclimbs, hlast⟩ := progressOf_climbs lines (.ofTotal total)
  have hle : (progressOf (.ofTotal total) lines).2.fraction ≤ 1 := by
    rw [hlast]
    exact hclimbs.last_le_one float_zero_le_one
  obtain ⟨hend, hone⟩ := Progress.finish_climbs _ hle
  rw [hlast] at hend hone
  exact ⟨hclimbs.append hend, (getLastD_append _ _ _).trans hone⟩

/-- The events of an encode with some result. -/
inductive Tells : Encoded → Prop
  /-- It did not start. -/
  | unstarted (states : List EncodeState) (e : Error) : Tells (failing [] states e)
  /-- It failed on its way. -/
  | failed (line : String) (fractions : List Float) (states : List EncodeState) (e : Error)
      (climbs : Climbs 0 fractions) :
      Tells (failing (.started line :: fractions.map .progress) states e)
  /-- It came to its end, and the last fraction told is one. -/
  | succeeded (line : String) (fractions : List Float) (states : List EncodeState) (output : String)
      (summary : EncodeSummary) (climbs : Climbs 0 fractions) (last : fractions.getLastD 0 = 1) :
      Tells ⟨.started line :: fractions.map .progress ++ [.succeeded output], states, .ok summary⟩

/-- **What an encode tells fits its result**, whatever the encoder prints and does. -/
theorem encode_tells (e : Encoder) (r : EncodeRequest) :
    Ensures (fun _ => True) (e.encode r) fun encoded _ => Tells encoded := by
  unfold encode
  split
  · exact .pure _ fun _ _ => .unstarted _ _
  · next tool _ =>
    refine .bind (.any _) fun ⟨said, outcome⟩ => ?_
    have hclimbs := (progressOf_climbs said (.ofTotal r.seconds)).1
    obtain ⟨hend, hone⟩ := progressOf_finish r.seconds said
    dsimp only
    split
    · exact .pure _ fun _ _ => .failed _ _ _ _ hclimbs
    · refine .bind (.any _) fun made => ?_
      split
      · exact .pure _ fun _ _ => .failed _ _ _ _ hclimbs
      · refine .pure _ fun _ _ => ?_
        rw [List.cons_append, ← List.map_append]
        exact .succeeded _ _ _ _ _ hend hone

end Encoder

end Slideshow
