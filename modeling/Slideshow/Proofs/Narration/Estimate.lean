import Slideshow.Proofs.Monotone
import Slideshow.Proofs.Narration.Duration

/-!
# What an estimate gives

An estimate (`estimate_detailed`) goes through its tiers in their order: what the container says,
what is printed, the size of the file, and what is given for the case that nothing else is known.
The last tier always has a length, so there is always an estimate.

* `Evidence.Offers`: what a tier offers, told by the answers and by the settings;
  `Evidence.Supports`: what an estimate is by them.
* `Probe.Counts`: readings of the machine that count the questions.
* `sizeEstimate?` is the length from a size where moving into a window that is none stops the
  program.

Headlines:
* **`offers_fileSize_mono`**: larger files are not estimated to be shorter.
* **`Probe.estimate_supported`**: an estimate is a positive length from the first tier that offers
  one, and nothing is asked twice.
-/

namespace Slideshow

open Decimal Scalar

/-! ## Offers -/

/-- Its place among the tiers. -/
def DurationSource.tier : DurationSource → ℕ
  | .probe => 0
  | .diagnostic => 1
  | .fileSize => 2
  | .fallback => 3

/-- What there is to know about a recording: the answers to both questions, and the size of the file
if it is there. -/
structure Evidence where
  told : Except Error Float
  printed : Except Error Float
  size : Option ℕ

/-- What a probe tells when it is asked both questions, and what is then known about the file. -/
def Probe.evidence (p : Probe) (path : String) (m : Machine) : Evidence :=
  let asked := (p.duration path).run m
  let opened := (p.scan path).run asked.2
  ⟨asked.1, opened.1, (opened.2.files.metadata opened.2.here path).toOption.map (·.size)⟩

/-- The bounds on the lengths from sizes are a window of positive lengths. -/
structure DurationConfig.HasWindow (c : DurationConfig) : Prop where
  min : isPositive c.minSeconds = true
  max : isPositive c.maxSeconds = true
  le : c.minSeconds ≤ c.maxSeconds

/-- The length that a file of some size has at the reference bit rate. -/
def DurationConfig.played (c : DurationConfig) (bytes : ℕ) : Float :=
  Float.ofNat bytes * 8 / Float.ofNat c.referenceBitrate

/-- What a tier offers. -/
inductive Evidence.Offers (g : Evidence) (c : DurationConfig) (fallback : Float) :
    DurationSource → Float → Prop
  | probe {x : Float} (h : g.told = .ok x) (hx : isPositive x = true) : Offers g c fallback .probe x
  | diagnostic {x : Float} (h : g.printed = .ok x) (hx : isPositive x = true) :
    Offers g c fallback .diagnostic x
  /-- A file that is not empty has a length at a bit rate that is not zero, moved into the
  window. -/
  | fileSize {bytes : ℕ} (h : g.size = some bytes) (hbytes : 0 < bytes)
  (hrate : 0 < c.referenceBitrate) (hwindow : c.HasWindow) :
    Offers g c fallback .fileSize (clamp (c.played bytes) c.minSeconds c.maxSeconds)
  | given (h : isPositive fallback = true) : Offers g c fallback .fallback fallback
  | configured (h : isPositive fallback = false) (h' : isPositive c.fallbackSeconds = true) :
    Offers g c fallback .fallback c.fallbackSeconds
  | lastResort (h : isPositive fallback = false) (h' : isPositive c.fallbackSeconds = false) :
    Offers g c fallback .fallback 30

/-- An estimate is a positive length, which its tier offers and no tier before it does; one from a
size lies in the window. -/
structure Evidence.Supports (g : Evidence) (c : DurationConfig) (fallback : Float)
    (e : DurationEstimate) : Prop where
  finite : e.seconds.isFinite = true
  positive : 0 < e.seconds
  offered : g.Offers c fallback e.source e.seconds
  first : ∀ s x, s.tier < e.source.tier → ¬g.Offers c fallback s x
  window : e.source = .fileSize → c.minSeconds ≤ e.seconds ∧ e.seconds ≤ c.maxSeconds

/-! ## Lengths from sizes -/

section
variable {c : DurationConfig} {bytes bytes' : ℕ} {x : Float}

/-- The positive lengths are the numbers above zero that are finite. -/
theorem isPositive_iff_lt : isPositive x = true ↔ x.isFinite = true ∧ 0 < x :=
  Bool.and_eq_true_iff.trans (and_congr_right' decide_eq_true_iff)

theorem le_self_of_isPositive (h : isPositive x = true) : x ≤ x :=
  float_le_self (isPositive_iff_lt.mp h).1

theorem hasWindow_iff : c.HasWindow ↔
    (!isPositive c.minSeconds || !isPositive c.maxSeconds || c.minSeconds > c.maxSeconds) =
        false := by
  constructor
  · rintro ⟨hmin, hmax, hle⟩
    rw [hmin, hmax, decide_eq_false (float_not_lt hle)]
    rfl
  · intro h
    simp only [Bool.or_eq_false_iff, Bool.not_eq_false'] at h
    obtain ⟨⟨hmin, hmax⟩, hle⟩ := h
    exact ⟨hmin, hmax,
      float_le_of_not_lt (le_self_of_isPositive hmin) (le_self_of_isPositive hmax)
        (of_decide_eq_false hle)⟩

/-- A length comes from a size unless there are no bytes, no bit rate or no window. -/
theorem sizeEstimate_eq_some : sizeEstimate bytes c = some x ↔
    0 < bytes ∧ 0 < c.referenceBitrate ∧ c.HasWindow ∧
        clamp (c.played bytes) c.minSeconds c.maxSeconds = x := by
  rw [sizeEstimate, hasWindow_iff]
  split
  · next hnone =>
    refine iff_of_false nofun fun h => ?_
    simp only [Bool.or_eq_true, beq_iff_eq] at hnone
    omega
  · next hsome =>
    simp only [Bool.or_eq_true, beq_iff_eq, not_or] at hsome
    split
    · next hnone => exact iff_of_false nofun fun h => absurd (hnone.symm.trans h.2.2.1) nofun
    · next hwindow =>
      rw [Option.some.injEq]
      exact ⟨fun h => ⟨by omega, by omega, Bool.eq_false_iff.mpr hwindow, h⟩, fun h => h.2.2.2⟩

/-- Moves into a window, and stops if its ends are in the wrong order or no numbers. -/
def clamp? (x low high : Float) : Option Float :=
  if low ≤ high then some (clamp x low high) else none

/-- The length from a size, if there is one; none of both if moving into the window stops the
program. -/
def sizeEstimate? (bytes : ℕ) (c : DurationConfig) : Option (Option Float) :=
  if bytes == 0 || c.referenceBitrate == 0 then some none
  else if !isPositive c.minSeconds || !isPositive c.maxSeconds || c.minSeconds >
    c.maxSeconds then some none
  else (clamp? (Float.ofNat bytes * 8 / Float.ofNat c.referenceBitrate) c.minSeconds
    c.maxSeconds).map some

/-- **No window stops the program.** -/
theorem sizeEstimate?_eq (bytes : ℕ) (c : DurationConfig) :
    sizeEstimate? bytes c = some (sizeEstimate bytes c) := by
  unfold sizeEstimate? sizeEstimate
  split
  · rfl
  · split
    · rfl
    · next hwindow =>
        rw [clamp?, if_pos (hasWindow_iff.mpr (Bool.eq_false_iff.mpr hwindow)).le, Option.map_some]

theorem roundsOnce_eightfold : RoundsOnce (· * 8) (· * 8) :=
  RoundsOnce.mul (worth_ofNat (n := 8) (by decide)) (by norm_num)

/-- Dividing by a bit rate of 64 bits rounds once. -/
theorem roundsOnce_rate (hrate : c.referenceBitrate < 2 ^ 64) (hpos : 0 < c.referenceBitrate) :
    ∃ q : ℚ, RoundsOnce (· / Float.ofNat c.referenceBitrate) (· / q) := by
  obtain ⟨m, e, hm, hunpack⟩ := unpack_ofNat_finite hpos hrate
  refine ⟨magnitude m e, RoundsOnce.div (worth_of_unpack hunpack) ?_⟩
  rw [magnitude]
  positivity

theorem isAmount_played (hrate : c.referenceBitrate < 2 ^ 64) (hpos : 0 < c.referenceBitrate)
    (bytes : ℕ) :
    IsAmount (c.played bytes) := by
  obtain ⟨q, hdivide⟩ := roundsOnce_rate hrate hpos
  exact hdivide.isAmount (roundsOnce_eightfold.isAmount (nearly_ofNat bytes).isAmount)

/-- **Larger files do not play shorter.** -/
theorem played_mono (hrate : c.referenceBitrate < 2 ^ 64) (hpos : 0 < c.referenceBitrate)
    (hle : bytes ≤ bytes') :
    c.played bytes ≤ c.played bytes' := by
  obtain ⟨q, hdivide⟩ := roundsOnce_rate hrate hpos
  have hbytes : Float.ofNat bytes ≤ Float.ofNat bytes' :=
    (nearly_ofNat bytes).le (nearly_ofNat bytes') (Nat.cast_le.mpr hle)
  have hamount : ∀ n, IsAmount (Float.ofNat n) := fun n => (nearly_ofNat n).isAmount
  exact hdivide.le (roundsOnce_eightfold.isAmount (hamount _))
    (roundsOnce_eightfold.isAmount (hamount _))
    (roundsOnce_eightfold.le (hamount _) (hamount _) hbytes)

end

/-! ## Tiers -/

section
variable {g : Evidence} {c : DurationConfig} {fallback : Float}

/-- A probe's answer is offered if it is a positive length. -/
theorem usable?_eq_some {answer : Except Error Float} {x : Float} :
    usable? answer = some x ↔ answer = .ok x ∧ isPositive x = true := by
  unfold usable?
  split
  · next seconds =>
    split
    · next hpositive =>
      rw [Option.some.injEq, Except.ok.injEq]
      exact ⟨fun h => ⟨h, h ▸ hpositive⟩, fun h => h.1⟩
    · next hnot =>
      refine iff_of_false nofun ?_
      rintro ⟨h, hx⟩
      cases h
      exact hnot hx
  · exact iff_of_false nofun fun h => nomatch h.1

theorem not_offers_probe (h : usable? g.told = none) (x : Float) :
    ¬g.Offers c fallback .probe x := by
  rintro ⟨htold, hx⟩
  rw [usable?_eq_some.mpr ⟨htold, hx⟩] at h
  cases h

theorem not_offers_diagnostic (h : usable? g.printed = none) (x : Float) :
    ¬g.Offers c fallback .diagnostic x := by
  rintro (_ | ⟨hprinted, hx⟩)
  rw [usable?_eq_some.mpr ⟨hprinted, hx⟩] at h
  cases h

theorem not_offers_fileSize (h : g.size.bind (sizeEstimate · c) = none) (x : Float) :
    ¬g.Offers c fallback .fileSize x := by
  rintro (_ | _ | ⟨hsize, hbytes, hpos, hwindow⟩)
  rw [hsize, Option.bind_some, sizeEstimate_eq_some.mpr ⟨hbytes, hpos, hwindow, rfl⟩] at h
  cases h

/-- The last tier offers the first length that can be used, or thirty seconds. -/
theorem offers_fallback :
    g.Offers c fallback .fallback (fallbackSeconds fallback c.fallbackSeconds) := by
  unfold fallbackSeconds
  cases hgiven : isPositive fallback with
  | true => exact .given hgiven
  | false =>
    cases hconfigured : isPositive c.fallbackSeconds with
    | true => exact .configured hgiven hconfigured
    | false => exact .lastResort hgiven hconfigured

theorem supports_probe {x : Float} (h : usable? g.told = some x) :
    g.Supports c fallback ⟨x, .probe⟩ := by
  obtain ⟨htold, hx⟩ := usable?_eq_some.mp h
  obtain ⟨hfinite, hpositive⟩ := isPositive_iff_lt.mp hx
  exact ⟨hfinite, hpositive, .probe htold hx, fun s _ hs => absurd hs (Nat.not_lt_zero _), nofun⟩

theorem supports_diagnostic {x : Float} (htold : usable? g.told = none)
    (h : usable? g.printed = some x) :
    g.Supports c fallback ⟨x, .diagnostic⟩ := by
  obtain ⟨hprinted, hx⟩ := usable?_eq_some.mp h
  obtain ⟨hfinite, hpositive⟩ := isPositive_iff_lt.mp hx
  refine ⟨hfinite, hpositive, .diagnostic hprinted hx, fun s x (hs : s.tier < 1) => ?_, nofun⟩
  cases s with
  | probe => exact not_offers_probe htold x
  | _ => exact absurd hs (by decide)

/-- Without a usable answer, the estimate comes from the size or from what is given. -/
theorem supports_unprobed (hrate : c.referenceBitrate < 2 ^ 64) (htold : usable? g.told = none)
    (hprinted : usable? g.printed = none) :
    g.Supports c fallback (unprobedEstimate g.size c fallback) := by
  have hseconds : isPositive (unprobedEstimate g.size c fallback).seconds = true :=
    unprobedEstimate_isPositive hrate fallback
  obtain ⟨hfinite, hpositive⟩ := isPositive_iff_lt.mp hseconds
  cases hsize : g.size.bind (sizeEstimate · c) with
  | some x =>
    have hestimate : unprobedEstimate g.size c fallback = ⟨x, .fileSize⟩ := by
      rw [unprobedEstimate, hsize]
    obtain ⟨bytes, hbytes, hx⟩ := Option.bind_eq_some_iff.mp hsize
    obtain ⟨hnonempty, hpos, hwindow, rfl⟩ := sizeEstimate_eq_some.mp hx
    rw [hestimate] at hfinite hpositive ⊢
    refine ⟨hfinite, hpositive, .fileSize hbytes hnonempty hpos hwindow,
      fun s x (hs : s.tier < 2) => ?_, fun _ => ?_⟩
    · cases s with
      | probe => exact not_offers_probe htold x
      | diagnostic => exact not_offers_diagnostic hprinted x
      | _ => exact absurd hs (by decide)
    · exact clamp_within hwindow.le (isAmount_played hrate hpos bytes).le_self
  | none =>
    have hestimate : unprobedEstimate g.size c fallback =
        ⟨fallbackSeconds fallback c.fallbackSeconds, .fallback⟩ := by
      rw [unprobedEstimate, hsize]
    rw [hestimate] at hfinite hpositive ⊢
    refine ⟨hfinite, hpositive, offers_fallback, fun s x hs => ?_, nofun⟩
    cases s with
    | probe => exact not_offers_probe htold x
    | diagnostic => exact not_offers_diagnostic hprinted x
    | fileSize => exact not_offers_fileSize hsize x
    | fallback => exact absurd hs (lt_irrefl _)

/-- **Larger files are not estimated to be shorter.** -/
theorem offers_fileSize_mono {g' : Evidence} {fallback' x x' : Float} {bytes bytes' : ℕ}
    (hrate : c.referenceBitrate < 2 ^ 64) (h : g.Offers c fallback .fileSize x)
    (h' : g'.Offers c fallback' .fileSize x') (hbytes : g.size = some bytes)
    (hbytes' : g'.size = some bytes') (hle : bytes ≤ bytes') : x ≤ x' := by
  obtain _ | _ | ⟨hsize, -, hpos, hwindow⟩ := h
  obtain _ | _ | ⟨hsize', -, -, -⟩ := h'
  obtain rfl := Option.some.inj (hsize.symm.trans hbytes)
  obtain rfl := Option.some.inj (hsize'.symm.trans hbytes')
  exact clamp_mono hwindow.le (played_mono hrate hpos hle)

end

/-! ## Questions -/

/-- Readings of the machine that count how often a probe is asked for what the container says, and
for what is printed. -/
structure Probe.Counts (p : Probe) (durations scans : Machine → ℕ) : Prop where
  duration : ∀ path m, durations ((p.duration path).run m).2 = durations m + 1 ∧
    scans ((p.duration path).run m).2 = scans m
  scan : ∀ path m, durations ((p.scan path).run m).2 = durations m ∧
    scans ((p.scan path).run m).2 = scans m + 1

/-- Looking at the size of a file leaves the machine as it is. -/
theorem Probe.sizeOf_run (path : String) (m : Machine) :
    Probe.sizeOf path m = ((m.files.metadata m.here path).toOption.map (·.size), m) := by
  unfold Probe.sizeOf
  simp only [bind, StateT.bind, Machine.metadata]
  cases m.files.metadata m.here path <;> rfl

/-- The machine after an unwatched estimate: the second question is asked if the first answer cannot
be used. -/
def Probe.after (p : Probe) (path : String) (m : Machine) : Machine :=
  let asked := (p.duration path).run m
  if (usable? asked.1).isSome then asked.2 else ((p.scan path).run asked.2).2

/-- The estimate that evidence gives. -/
def Evidence.estimate (g : Evidence) (c : DurationConfig) (fallback : Float) : DurationEstimate :=
  match usable? g.told, usable? g.printed with
  | some x, _ => ⟨x, .probe⟩
  | none, some x => ⟨x, .diagnostic⟩
  | none, none => unprobedEstimate g.size c fallback

/-- **An unwatched estimate** is that of the evidence. -/
theorem Probe.estimate_unwatched (p : Probe) (c : DurationConfig) (path : String) (fallback : Float)
    (m : Machine) :
    p.estimate c false path fallback m =
        (some ((p.evidence path m).estimate c fallback), p.after path m) := by
  rcases hasked : (p.duration path).run m with ⟨told, asked⟩
  rcases hopened : (p.scan path).run asked with ⟨printed, opened⟩
  have hevidence : p.evidence path m =
      ⟨told, printed, (opened.files.metadata opened.here path).toOption.map (·.size)⟩ := by
    simp only [Probe.evidence, hasked, hopened]
  have hafter : p.after path m = if (usable? told).isSome then asked else opened := by
    simp only [Probe.after, hasked, hopened]
  rw [hevidence, hafter, Evidence.estimate]
  have hunstopped : ∀ m, Probe.wasStopped false m = (false, m) := fun _ => rfl
  unfold Probe.estimate
  simp only [Probe.mustStop, bind, pure, StateT.bind, StateT.pure, Bool.false_eq_true, if_false,
    hasked, hunstopped]
  cases usable? told with
  | some x => rfl
  | none =>
    simp only [bind, StateT.bind, Bool.false_eq_true, if_false, hopened, hunstopped]
    cases usable? printed with
    | some x => rfl
    | none =>
      simp only [bind, StateT.bind, Probe.sizeOf_run]
      rfl

/-- **The estimate is supported by the evidence.** -/
theorem Evidence.supports_estimate (g : Evidence) {c : DurationConfig}
    (hrate : c.referenceBitrate < 2 ^ 64) (fallback : Float) :
    g.Supports c fallback (g.estimate c fallback) := by
  unfold Evidence.estimate
  split
  · next htold => exact supports_probe htold
  · next htold hprinted => exact supports_diagnostic htold hprinted
  · next htold hprinted => exact supports_unprobed hrate htold hprinted

/-- The estimate is what the container says if that can be used. -/
theorem Evidence.source_eq_probe_iff (g : Evidence) (c : DurationConfig) (fallback : Float) :
    (g.estimate c fallback).source = .probe ↔ (usable? g.told).isSome = true := by
  unfold Evidence.estimate
  split
  · next htold => exact iff_of_true rfl (htold ▸ rfl)
  · next htold _ => exact iff_of_false nofun (htold ▸ nofun)
  · next htold _ =>
    refine iff_of_false ?_ (htold ▸ nofun)
    unfold unprobedEstimate
    split <;> nofun

/-- Every question is asked once, and the second one only if it has to be. -/
theorem Probe.Counts.after {p : Probe} {durations scans : Machine → ℕ}
    (h : p.Counts durations scans) (c : DurationConfig) (path : String) (fallback : Float)
    (m : Machine) : durations (p.after path m) = durations m + 1 ∧
      scans (p.after path m) = scans m + if ((p.evidence path m).estimate c fallback).source =
          .probe then 0 else 1 := by
  obtain ⟨hasked, hunopened⟩ := h.duration path m
  obtain ⟨hkept, hopened⟩ := h.scan path ((p.duration path).run m).2
  have hafter : p.after path m =
    if (usable? (p.evidence path m).told).isSome then ((p.duration path).run m).2
      else ((p.scan path).run ((p.duration path).run m).2).2 := rfl
  simp only [Evidence.source_eq_probe_iff, hafter]
  split
  · exact ⟨hasked, hunopened⟩
  · exact ⟨hkept.trans hasked, hopened.trans (congrArg (· + 1) hunopened)⟩

/-- **An estimate is a positive length from the first tier that offers one.** The first question is
asked once, the second one only if the first answer cannot be used; no window stops the program, and
a larger file is not estimated to be shorter. The bit rate is a number of 64 bits. -/
theorem Probe.estimate_supported {c : DurationConfig} (hrate : c.referenceBitrate < 2 ^ 64)
    (p : Probe) (path : String) (fallback : Float) (m : Machine) :
    ∃ e after, p.estimate c false path fallback m = (some e, after) ∧
      (p.evidence path m).Supports c fallback e ∧
      (∀ durations scans, p.Counts durations scans →
        durations after = durations m + 1 ∧
          scans after = scans m + if e.source = .probe then 0 else 1) ∧
      (∀ bytes, sizeEstimate? bytes c = some (sizeEstimate bytes c)) ∧
      ∀ (p' : Probe) (path' : String) (fallback' : Float) (m' : Machine) (e' :
        DurationEstimate) (after' : Machine) (bytes bytes' : ℕ),
        p'.estimate c false path' fallback' m' = (some e', after') → e.source = .fileSize →
          e'.source = .fileSize →
          (p.evidence path m).size = some bytes → (p'.evidence path' m').size = some bytes' →
            bytes ≤ bytes' →
            e.seconds ≤ e'.seconds := by
  refine ⟨_, _, p.estimate_unwatched c path fallback m,
    (p.evidence path m).supports_estimate hrate fallback, fun _ _ h =>
      h.after c path fallback m, fun bytes => sizeEstimate?_eq bytes c, ?_⟩
  intro p' path' fallback' m' e' after' bytes bytes' hrun hsource hsource' hbytes hbytes' hle
  have hoffers := ((p.evidence path m).supports_estimate hrate fallback).offered
  have hoffers' := ((p'.evidence path' m').supports_estimate hrate fallback').offered
  rw [p'.estimate_unwatched, Prod.mk.injEq, Option.some.injEq] at hrun
  rw [hrun.1, hsource'] at hoffers'
  rw [hsource] at hoffers
  exact offers_fileSize_mono hrate hoffers hoffers' hbytes hbytes' hle

/-- A probe that knows nothing; the first question takes a step of the clock, the second one is seen
from outside. -/
def ignorant : Probe where
  duration path := do
    modify Machine.tick
    throw (Probe.undiagnosed path)
  scan path := do
    modify (·.happen (.refused "ffmpeg" [path] .missing))
    return 0

theorem ignorant_counts : ignorant.Counts (·.clock) (·.happenings.length) :=
  ⟨fun _ _ => ⟨rfl, rfl⟩, fun _ _ => ⟨rfl, List.length_append⟩⟩

/-- A machine without files. -/
def untouched : Machine :=
  { circumstances := { draw := fun _ _ => 0, jobId := .ofRandom, time := fun n => ⟨n, 0⟩ } }

/-- It is asked both questions once, before the given length is taken. -/
theorem Probe.estimate_supported_ignorant :
    ∃ e after, ignorant.estimate {} false "voice.mp3" 12 untouched = (some e, after) ∧
    e.source = .fallback ∧ e.seconds = 12 ∧ after.clock = 1 ∧ after.happenings.length = 1 := by
  obtain ⟨e, after, hrun, -, hcounts, -⟩ :=
    Probe.estimate_supported (c := {}) (by decide) ignorant "voice.mp3" 12 untouched
  have hgiven : (ignorant.estimate {} false "voice.mp3" 12 untouched).1 = some ⟨12, .fallback⟩ :=
    rfl
  obtain rfl : e = ⟨12, .fallback⟩ := by
    rw [hrun] at hgiven
    exact Option.some.inj hgiven
  obtain ⟨hclock, hhappenings⟩ := hcounts _ _ ignorant_counts
  exact ⟨_, after, hrun, rfl, rfl, hclock, hhappenings⟩

end Slideshow
