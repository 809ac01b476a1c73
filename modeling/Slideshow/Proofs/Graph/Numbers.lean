import Slideshow.Narration.Duration
import Slideshow.Proofs.Config
import Slideshow.Proofs.Effect.Options
import Slideshow.Proofs.Graph.Definite
import Slideshow.Proofs.Graph.Fit

/-!
# The numbers of graphs

The numbers in a graph come from settings, through maxima, minima and divisions, and from a length,
through its parts and their sums. What is no number gives way to one in a maximum or a minimum, and
what is infinite does so in a minimum only. The greatest zoom and the zoom of pans are maxima, and
the rate of a slow zoom is taken as it is: these three, which no check of a configuration refuses
when they are infinite or, the rate, no number, are all that can make the text of a graph
indefinite, next to the pixel format.

* `EffectsConfig.Bounds` says which of them have to be finite for a motion.

Headlines:
* `isFinite_atLeastOne`, `isFinite_shakeReach`: when limits of motions are finite.
* `isFinite_total`, `isFinite_offset`, `isFinite_fitted`: the numbers of a timeline are finite.
* **`compile_definite`**: when the text of a graph is definite.
-/

namespace Slideshow

open Decimal Scalar Float.Model

section
variable {x y : Float} {p : ℚ}

/-! ## Limits of motions -/

/-- There is one infinite number above zero. -/
theorem eq_infinite_of_unpack (h : x.toModel.unpack = .infinity .positive) : x = infinite := by
  have hbits : ∀ n : ℕ, n < 2 ^ 64 → Parts.ofBits n = .infinite false → n = 2047 * 2 ^ 52 := by
    intro n hn hparts
    simp only [Parts.ofBits, Nat.pow_eq] at hparts
    split at hparts
    · next hexponent =>
      have hexponent : n / 2 ^ 52 % 2 ^ 11 = 2047 := eq_of_beq hexponent
      split at hparts
      · next hmantissa =>
        have hmantissa : n % 2 ^ 52 = 0 := eq_of_beq hmantissa
        have hsign : n / 2 ^ 63 % 2 ≠ 1 := by simpa using hparts
        omega
      · cases hparts
    · split at hparts <;> cases hparts
  have hx : Parts.ofFloat x = .infinite false := by
    rw [ofFloat_eq, h]
    rfl
  have hparts : Parts.ofFloat infinite = .infinite false := by decide
  have heq : x.toModel.toBits = (infinite : Float).toModel.toBits :=
    UInt64.toNat_inj.mp
      ((hbits _ x.toModel.toBits.toNat_lt hx).trans
        (hbits _ (infinite : Float).toModel.toBits.toNat_lt hparts).symm)
  obtain ⟨⟨bits, valid⟩⟩ := x
  obtain rfl : bits = (infinite : Float).toModel.toBits := heq
  rfl

/-- **A zoom of at least one is finite unless it is infinite**: what is no number gives way to
one. -/
theorem isFinite_atLeastOne : isFinite (atLeastOne x) = true ↔ x ≠ infinite := by
  have hone : isFinite (one : Float) = true := by decide
  constructor
  · rintro hfinite rfl
    exact absurd hfinite (by decide)
  · intro hne
    rcases isFinite_or x with ⟨hx, -⟩ | hnan | ⟨hnan, s, hs⟩
    · exact isFinite_maximum hx hone
    · rw [atLeastOne, maximum, if_pos hnan]
      exact hone
    · cases s with
      | positive => exact absurd (eq_infinite_of_unpack hs) hne
      | negative =>
        rw [atLeastOne, maximum, hnan, if_neg Bool.false_ne_true, isNaN_of_isFinite hone,
          if_neg Bool.false_ne_true, less_infinity hone hs]
        exact hone

theorem worth_of_one_le (h : 1 ≤ x) (hx : isFinite x = true) : ∃ q, 1 ≤ q ∧ Worth x q := by
  have hone := worth_ofNat (n := 1) (by decide)
  have hpositive : isPositive x = true :=
    Bool.and_eq_true_iff.mpr ⟨hx, isAbove_iff.mpr (float_lt_of_lt_of_le (by decide) h)⟩
  obtain ⟨q, -, hworth⟩ := isPositive_iff_worth.mp hpositive
  rw [Nat.cast_one] at hone
  exact ⟨q, (hone.le_iff hworth).mp h, hworth⟩

theorem one_le_atLeastOne (x : Float) : 1 ≤ atLeastOne x := by
  unfold atLeastOne maximum
  split
  · exact float_one_le_one
  · next hx =>
    split
    · next hone => exact absurd hone (by decide)
    · split
      · exact float_one_le_one
      · next hless =>
        exact float_le_of_not_lt float_one_le_one
          (le_self_of_isNaN (Bool.eq_false_iff.mpr hx)) fun h => hless (less_iff.mpr h)

/-- Finite numbers compare with an infinity by its sign. -/
theorem infinity_less {s : UnpackedFloat.Sign} (hx : isFinite x = true)
    (hy : y.toModel.unpack = .infinity s) :
    less x y = !isNegativeSign s := by
  have hfinite : x.toModel.unpack.isFinite = true := hx
  rw [less_eq, hy]
  cases hu : x.toModel.unpack with
  | notANumber => rw [hu] at hfinite; cases hfinite
  | infinity t => rw [hu] at hfinite; cases hfinite
  | zero t => cases s <;> rfl
  | finite t m e hm => cases s <;> rfl

/-- **Anything, limited by a finite number and kept above zero, is finite.** -/
theorem isFinite_within (x : Float) (hy : isFinite y = true) :
    isFinite (maximum (minimum x y) zero) = true := by
  have hzero : isFinite (zero : Float) = true := by decide
  rcases isFinite_or x with ⟨hx, -⟩ | hnan | ⟨hnan, s, hs⟩
  · exact isFinite_limited hx y
  · rw [minimum, if_pos hnan]
    exact isFinite_maximum hy hzero
  · rw [minimum, hnan, if_neg Bool.false_ne_true, isNaN_of_isFinite hy, if_neg Bool.false_ne_true,
      infinity_less hy hs]
    cases s with
    | positive => exact isFinite_maximum hy hzero
    | negative =>
      show isFinite (maximum x zero) = true
      rw [maximum, hnan, if_neg Bool.false_ne_true, isNaN_of_isFinite hzero,
        if_neg Bool.false_ne_true, less_infinity hzero hs]
      exact hzero

/-- **A shake is finite if the zoom is**, however far it is to go. -/
theorem isFinite_shakeReach {c : MotionConfig Float} {side : ℕ} (hside : side < 2 ^ 32)
    (h : c.panZoom ≠ infinite) :
    isFinite (shakeReach c (Scalar.ofNat side)) = true := by
  obtain ⟨z, hz, hzoom⟩ := worth_of_one_le (one_le_atLeastOne c.panZoom) (isFinite_atLeastOne.mpr h)
  have hworth : Worth (Scalar.ofNat side) side := worth_ofNat (lt_trans hside (by decide))
  have htwo : Worth (two : Float) (2 : ℕ) := worth_ofNat (n := 2) (by decide)
  have hquotient : (side : ℚ) / z ≤ side := div_le_self hworth.nonneg hz
  obtain ⟨r, hr, hrounds⟩ :=
    hworth.div hzoom (lt_of_lt_of_le one_pos hz) (hquotient.trans hworth.le_largest)
  obtain ⟨d, hd, hroom⟩ := hworth.sub hr (hrounds.le hworth hquotient)
  have hhalf : d / (2 : ℕ) ≤ d := div_le_self hd.nonneg (by norm_num)
  obtain ⟨t, ht, -⟩ := hd.div htwo (by norm_num) (hhalf.trans hd.le_largest)
  exact isFinite_within c.shakeAmplitude ht.isFinite

theorem isFinite_lastIndex {frames : ℕ} (h : frames < 2 ^ 32) :
    isFinite (Scalar.ofNat (lastIndex frames) : Float) = true := by
  have hsmall : lastIndex frames < 2 ^ 53 := by
    unfold lastIndex
    omega
  exact (worth_ofNat hsmall).isFinite

/-- What has to be finite of the settings of a motion. -/
def MotionConfig.Bounds (c : MotionConfig Float) : Motion → Prop
  | .static | .rotateClockwise | .rotateCounter => True
  | .kenburns => isFinite c.kenburnsRate = true ∧ c.maxZoom ≠ infinite
  | .zoomIn | .zoomOut => c.maxZoom ≠ infinite
  | .panLeft | .panRight | .panUp | .panDown | .shake => c.panZoom ≠ infinite

/-- **The numbers of a motion are finite** if the settings that bound it are. -/
theorem isFinite_numbers (m : Motion) {frames width height : ℕ} (c : MotionConfig Float)
    (hframes : frames < 2 ^ 32) (hwidth : width < 2 ^ 32) (hheight : height < 2 ^ 32) :
    (∀ x ∈ Graph.MotionForm.numbers m frames (c.limits width height), isFinite x = true) ↔
        c.Bounds m := by
  have hlast := isFinite_lastIndex hframes
  cases m <;>
    simp [Graph.MotionForm.numbers, MotionConfig.limits, MotionConfig.Bounds, isFinite_atLeastOne,
      hlast]
  intro hzoom
  exact ⟨isFinite_shakeReach hwidth hzoom, isFinite_shakeReach hheight hzoom⟩

/-! ## Parts of a length -/

/-- The parts of a length are not longer than the length. -/
theorem part_le {seconds : Float} {count : ℕ} (hseconds : Worth seconds p) (hcount : 0 < count)
    (hpart : isPositive (seconds / Float.ofNat count) = true) :
    ∃ q, Worth (seconds / Float.ofNat count) q ∧ q ≤ p := by
  rcases unpack_ofNat_cases hcount with hinfinite | ⟨n, f, hn, hfinite, -, hone⟩
  · -- what is divided by an infinite number is zero
    obtain ⟨m, e, hm, hunpack⟩ := isPositive_iff.mp hpart
    have hzero : (seconds / Float.ofNat count).toModel.unpack = .zero .positive := by
      show UnpackedFloat.unpack _ (UnpackedFloat.pack _ (UnpackedFloat.div _ seconds.toModel.unpack
        (Float.ofNat count).toModel.unpack)) = _
      rcases hseconds.cases with ⟨hX, -⟩ | ⟨k, g, hk, -, hX, -⟩ <;>
        rw [hX, hinfinite, UnpackedFloat.div] <;> rfl
    rw [hzero] at hunpack
    cases hunpack
  · have hquotient : p / magnitude n f ≤ p := div_le_self hseconds.nonneg hone
    obtain ⟨q, hq, hrounds⟩ := hseconds.div (worth_of_unpack hfinite) (lt_of_lt_of_le one_pos hone)
      (hquotient.trans hseconds.le_largest)
    exact ⟨q, hq, hrounds.le hseconds hquotient⟩

/-- What is between zero and a finite number is finite. -/
theorem isFinite_of_lt (hx : 0 < x) (hlt : x < y) (hy : isFinite y = true) : isFinite x = true := by
  rcases isFinite_or x with ⟨h, -⟩ | hnan | ⟨-, s, hs⟩
  · exact h
  · rw [isNaN_of_le (float_le_of_lt hlt)] at hnan
    cases hnan
  · have hbelow := (less_infinity hy hs).symm.trans (less_iff.mpr hlt)
    have hzero : isFinite (0 : Float) = true := by decide
    have habove : less x 0 = true := (less_infinity hzero hs).trans hbelow
    exact absurd (less_iff.mp habove) (float_not_lt (float_le_of_lt hx))

end

end Slideshow

namespace Slideshow.Graph

open Decimal Scalar

/-! ## Timelines -/

namespace Timeline

/-- Lengths of not more than so many seconds have finite sums, however many they are. -/
def IsModest (durations : List Float) : Prop := ∀ d ∈ durations, ∃ q, Worth d q ∧ q ≤ 2 ^ 30

section
variable {durations : List Float}

theorem isFinite_foldl {start : Float} {p : ℚ} (hstart : Worth start p) (hp : p ≤ 2 ^ 30)
    (h : IsModest durations) :
    isFinite (durations.foldl (· + ·) start) = true := by
  have hlimit : (2 : ℚ) ^ 30 ≤ magnitude (2 ^ 52) 31 := by
    rw [magnitude]
    norm_num
  obtain ⟨s, hs, -⟩ :=
    Worth.foldl_add (e := 31) (by decide) (by decide) durations start p hstart (hp.trans hlimit)
    (fun d hd => (h d hd).imp fun q hq => ⟨hq.1, hq.2.trans (by norm_num)⟩)
  exact hs.isFinite

theorem isFinite_total (h : IsModest durations) : isFinite (sum durations) = true := by
  cases durations with
  | nil => decide
  | cons d r =>
    obtain ⟨hd, hr⟩ := List.forall_mem_cons.mp h
    obtain ⟨q, hworth, hq⟩ := hd
    show isFinite (r.foldl (· + ·) (-zero + d)) = true
    exact isFinite_foldl hworth.negativeZero_add hq hr

theorem isFinite_offset (h : IsModest durations) :
    ∀ o ∈ partialSums zero durations, isFinite o = true := by
  intro o ho
  obtain ⟨k, hk⟩ := List.mem_iff_getElem?.mp ho
  have hlength : k + 1 < durations.length := by
    have hlt := (List.getElem?_eq_some_iff.mp hk).1
    rw [length_partialSums] at hlt
    omega
  rw [getElem?_partialSums zero durations k hlength] at hk
  obtain rfl := Option.some.inj hk
  exact isFinite_foldl worth_zero (by norm_num) fun d hd => h d (List.mem_of_mem_take hd)

/-- What fits of a finite length is finite. -/
theorem isFinite_fitted {asked fraction s : Float} (hasked : isFinite asked = true)
    (h : isAbove (fitted asked fraction s) = true) : isFinite (fitted asked fraction s) = true := by
  have habove := isAbove_iff.mp h
  unfold fitted minimum at habove ⊢
  rw [isNaN_of_isFinite hasked, if_neg Bool.false_ne_true] at habove ⊢
  split
  · exact hasked
  · split
    · next hnan hless =>
      rw [if_neg hnan, if_pos hless] at habove
      exact isFinite_of_lt habove (less_iff.mp hless) hasked
    · exact hasked

/-- **The numbers of a plan are finite** if its segments are modest and the length asked for is
finite. -/
theorem isFinite_plan (h : IsModest durations) {requested : Option Float}
    (hrequested : ∀ asked, requested = some asked →
    isFinite asked = true) (fraction : Float) :
    isFinite (plan durations requested fraction).total = true ∧
    (∀ o ∈ (plan durations requested fraction).offsets, isFinite o = true) ∧
    ∀ td, (plan durations requested fraction).transition = some td → isFinite td = true := by
  rw [plan_total]
  refine ⟨isFinite_total h, ?_⟩
  rcases plan_cases durations requested fraction with hplan | ⟨asked, td, hasked, htd, hplan⟩
  · rw [hplan]
    exact ⟨List.forall_mem_nil _, fun _ hnone => nomatch hnone⟩
  · rw [hplan]
    refine ⟨isFinite_offset h, fun td' heq => ?_⟩
    obtain rfl : td = td' := Option.some.inj heq
    obtain ⟨_, _, _, -, habove, rfl⟩ := blendLength?_eq_some htd
    exact isFinite_fitted (hrequested asked hasked) habove

end

end Timeline

/-! ## Compiled graphs -/

section
variable {s : RenderSettings Float} {spec : EffectSpec Float} {durations : List Float}

/-- What a compiled graph does has finite numbers, if those of its motion are. -/
theorem Kind.Used.numbers {n : Nat} {k : Kind Float}
    (hused : k.Used s spec (timelineOf s spec durations) n) (hwidth : s.width < 2 ^ 32)
    (hheight : s.height < 2 ^ 32) (hmodest : Timeline.IsModest durations)
    (hasked : isFinite spec.transitionDuration = true) (hformat : Definite s.pixelFormat.toList)
    (hbounds : s.motion.Bounds spec.motionOrDefault) :
    k.IsFinite s (timelineOf s spec durations).total := by
  have hrequested : ∀ asked, (spec.transition.map fun _ => spec.transitionDuration) = some asked →
      isFinite asked = true := by
    intro asked h
    obtain ⟨_, -, rfl⟩ := Option.map_eq_some_iff.mp h
    exact hasked
  obtain ⟨htotal, hoffsets, htd⟩ :=
    Timeline.isFinite_plan hmodest hrequested s.maxTransitionFraction
  cases hused with
  | scaleCrop => exact hformat
  | motion seconds =>
    exact (isFinite_numbers _ _ (frameCount_bounds seconds s.fps).2 hwidth hheight).mpr hbounds
  | blend _ fits start => exact ⟨htd _ fits, hoffsets _ start⟩
  | concat => trivial
  | colorGrade _ => trivial
  | overlaySource _ => exact ⟨htotal, hformat⟩
  | overlayComposite _ =>
    rename_i o _
    show isFinite (overlayOpacity o) = true
    cases o <;> decide

/-- The first image of a compiled graph is scaled and moved. -/
theorem exists_first {images : List String} (h : Accepted images durations)
    (s : RenderSettings Float) (spec : EffectSpec Float) :
    ∃ seconds : Float,
      ∀ k ∈ [Kind.scaleCrop s.width s.height,
        .motion spec.motionOrDefault (frameCount seconds s.fps)],
      k ∈ (compiled images durations s spec).operations.map fun op => op.kind := by
  obtain ⟨d, r, hrendered⟩ : ∃ d r, (timelineOf s spec durations).rendered = d :: r := by
    refine List.exists_cons_of_ne_nil (List.length_pos_iff.mp ?_)
    rw [(timelineOf_sizes s spec durations).1, ← h.same_length]
    exact List.length_pos_iff.mpr h.nonempty
  refine ⟨d, fun k hk => ?_⟩
  have hkinds : (compiled images durations s spec).operations.map (fun op => op.kind) =
      (stagedOperations s spec (timelineOf s spec durations) images.length).map fun op =>
        op.kind := by
    show (operationsOf s spec (timelineOf s spec durations) images.length).map _ = _
    rw [operationsOf_eq, map_kind_relabelLast]
  rw [hkinds, stagedOperations, List.append_assoc, List.append_assoc, List.map_append,
    map_kind_segmentOperations, hrendered, List.flatMap_cons]
  exact List.mem_append_left _ (List.mem_append_left _ hk)

/-- The graph of a split has segments of modest length. -/
theorem isModest_split {images : List String} {total : Float} {count : Nat}
    (hlong : total ≤ 1000000000) (hdurations : segmentDurations total count = .ok durations)
    (h : Accepted images durations) : Timeline.IsModest durations := by
  unfold segmentDurations at hdurations
  split at hdurations
  · cases hdurations
  · next hcount =>
    split at hdurations
    · next hpositive =>
      obtain rfl := Except.ok.inj hdurations
      obtain ⟨p, -, hp⟩ := isPositive_iff_worth.mp hpositive
      have hlimit : Worth (1000000000 : Float) (1000000000 : ℕ) := worth_ofNat (by decide)
      have hmodest : p ≤ 2 ^ 30 := ((hp.le_iff hlimit).mp hlong).trans (by norm_num)
      intro d hd
      have hpart := h.positive d hd
      obtain rfl := List.eq_of_mem_replicate hd
      obtain ⟨q, hq, hle⟩ := part_le hp (Nat.pos_of_ne_zero hcount) hpart
      exact ⟨q, hq, hle.trans hmodest⟩
    · cases hdurations

end

end Slideshow.Graph

namespace Slideshow

open Scalar

/-- The length of transitions of a selection is finite if the default is. -/
theorem EffectOptions.transition_of_resolve {o : EffectOptions} {default : Float}
    {spec : EffectSpec Float} (h : o.resolve default = .ok spec)
    (hdefault : isFinite default = true) : isFinite spec.transitionDuration = true := by
  rcases EffectOptions.length_of_resolve h with heq | hasked
  · rwa [heq]
  · exact ((EffectOptions.isDuration_iff _).mp hasked).1

namespace Graph

/-- **When the text of a graph is definite.** With a configuration that passes, the parts of at most
a billion seconds and a selection that is resolved with the configuration's transitions, all words
of the text are names and finite numbers exactly if those of the pixel format are and the settings
of the motion are finite where it depends on them; then nothing in the text says that something is
no number or infinite. -/
theorem compile_definite {c : Config} {options : EffectOptions} {spec : EffectSpec Float}
    {images : List String} {durations : List Float} {total : Float} {count : Nat}
    {g : FilterGraph Float} (hcheck : c.check = .ok ()) (hwidth : c.video.width < 2 ^ 32)
    (hheight : c.video.height < 2 ^ 32) (hlong : total ≤ 1000000000)
    (hdurations : segmentDurations total count = .ok durations)
    (hspec : options.resolve c.effects.defaultTransitionDuration = .ok spec)
    (hg : compile images durations (.ofConfig c) spec = .ok g) :
    (Definite g.filterComplex.toList ↔
      Definite c.video.pixelFormat.toList ∧
        (MotionConfig.ofEffects c.effects).Bounds spec.motionOrDefault) ∧
    (Definite g.filterComplex.toList → ∀ u ∈ undefinedTexts, ¬u <:+: g.filterComplex.toList) := by
  obtain ⟨haccepted, -, rfl⟩ := compile_eq_ok_iff.mp hg
  have hregular := regular_compiled images durations (.ofConfig c) spec
  refine ⟨?_, not_undefined⟩
  rw [definite_filterComplex hregular]
  constructor
  · intro hfinite
    obtain ⟨seconds, hfirst⟩ := exists_first haccepted (.ofConfig c) spec
    have hkinds := fun k hk => List.forall_mem_map.mpr hfinite k (hfirst k hk)
    refine ⟨hkinds _ List.mem_cons_self, ?_⟩
    exact (isFinite_numbers _ _ (frameCount_bounds seconds _).2 hwidth hheight).mp
      (hkinds _ (List.mem_cons_of_mem _ List.mem_cons_self))
  · rintro ⟨hformat, hbounds⟩ op hop
    have hdefault := (Bool.and_eq_true_iff.mp (c.check_iff.mp hcheck).transitionDuration).1
    have hasked := EffectOptions.transition_of_resolve hspec hdefault
    exact (hregular op hop).kind.numbers hwidth hheight
      (isModest_split hlong hdurations haccepted) hasked hformat hbounds

/-- A configuration with settings that are no numbers and give way to some. -/
def evasive : Config :=
  { effects := { maxZoom := 0 / 0, shakeAmplitude := 0 / 0, maxTransitionFraction := 0 / 0 } }

/-- Shaken images with slides between them and particles over them. -/
theorem compile_definite_evasive :
    evasive.check = .ok () ∧ segmentDurations (20 : Float) 2 = .ok [20 / 2, 20 / 2] ∧
    ({ preset := some "energetic" } : EffectOptions).resolve
      evasive.effects.defaultTransitionDuration =
      .ok ⟨some .slideLeft, some .shake, some .vibrant, some .particles, 0.8⟩ ∧
    ∃ g, compile ["a.jpg", "b.jpg"] [20 / 2, 20 / 2] (.ofConfig evasive)
      ⟨some .slideLeft, some .shake, some .vibrant, some .particles, 0.8⟩ = .ok g ∧
          Definite g.filterComplex.toList := by
  have hcheck : evasive.check = .ok () := rfl
  have hdurations : segmentDurations (20 : Float) 2 = .ok [20 / 2, 20 / 2] := rfl
  have hspec : ({ preset := some "energetic" } : EffectOptions).resolve
    evasive.effects.defaultTransitionDuration =
      .ok ⟨some .slideLeft, some .shake, some .vibrant, some .particles, 0.8⟩ := rfl
  have haccepted : Accepted ["a.jpg", "b.jpg"] [(20 / 2 : Float), 20 / 2] :=
    ⟨by decide, rfl, by decide⟩
  have hg :=
    compile_eq_ok_iff.mpr ⟨haccepted, by
      decide, Eq.refl (compiled ["a.jpg", "b.jpg"] [20 / 2, 20 / 2] (.ofConfig evasive)
    ⟨some .slideLeft, some .shake, some .vibrant, some .particles, 0.8⟩)⟩
  have hzoom : evasive.effects.panZoom ≠ infinite := fun h =>
    absurd (congrArg isFinite h) (by decide)
  refine ⟨hcheck, hdurations, hspec, _, hg, ?_⟩
  exact (compile_definite hcheck (by decide) (by decide) (by decide) hdurations hspec hg).1.mpr
    ⟨by decide, hzoom⟩

/-- A configuration whose slow zoom has a rate that is no number. -/
def unsteady : Config := { effects := { kenburnsRate := 0 / 0 } }

/-- The rate of a slow zoom is written as it is, when it is no number too. -/
theorem compile_indefinite : unsteady.check = .ok () ∧
    segmentDurations (10 : Float) 1 = .ok [10 / 1] ∧
    ({ motion := some "kenburns" } : EffectOptions).resolve
      unsteady.effects.defaultTransitionDuration =
      .ok ⟨none, some .kenburns, none, none, 0.8⟩ ∧
    ∃ g, compile ["a.jpg"] [10 / 1]
    (.ofConfig unsteady) ⟨none, some .kenburns, none, none, 0.8⟩ = .ok g ∧
      ['N', 'a', 'N'] <:+: g.filterComplex.toList := by
  have haccepted : Accepted ["a.jpg"] [(10 / 1 : Float)] := ⟨by decide, rfl, by decide⟩
  exact ⟨rfl, rfl, rfl, _, compile_eq_ok_iff.mpr ⟨haccepted, by decide, rfl⟩, by
    decide +kernel⟩

end Graph

end Slideshow
