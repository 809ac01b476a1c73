import Slideshow.Proofs.Effect.Options
import Slideshow.Proofs.Encode.Invocation
import Slideshow.Proofs.Graph.Fit
import Slideshow.Proofs.Graph.Geometry
import Slideshow.Proofs.Graph.Numbers
import Slideshow.Proofs.Remains

/-!
# Which lengths are told

Images, blends and overlays have lengths above zero, but the encoder is told them as decimals
(`build_encode_args`, `num`): those of images with three places, the others with four. What is at
most half a unit of the last place is told as zero. The length of the whole, for which an overlay is
made, can also be too large for a number; the others cannot.

* `Conveys`: how a text tells a length above zero.
* `Kind.TellsLength` are the lengths in the filter of an operation, and `Invocation.TellsLengths`
  all those that a call tells.

Headlines:
* `positive_transition`, `positive_rendered`, `above_total`: the lengths of a plan are above zero.
* `argument?_blend`, `seconds_printed`: where filters say how long something lasts.
* **`compiled_tellsLengths`**: the encoder is told a length above zero exactly if something remains
  of it.
-/

namespace Slideshow

open Scalar Decimal

namespace Graph

/-! ## Lengths of plans -/

namespace Timeline

variable {durations : List Float} {requested : Option Float} {fraction td : Float}

/-- Blends last longer than nothing and at most five seconds, if they may be asked for. -/
theorem positive_transition (hpositive : ∀ d ∈ durations, isPositive d = true)
    (hrequested : ∀ asked, requested = some asked → EffectOptions.isDuration asked = true)
    (h : (plan durations requested fraction).transition = some td) :
    ∃ q, Worth td q ∧ 0 < q ∧ q ≤ 5 := by
  rcases plan_cases durations requested fraction with hplan | ⟨asked, td', rfl, hlength, hplan⟩
  · rw [hplan] at h
    cases h
  · obtain ⟨d, e, r, rfl, habove, hfitted⟩ := blendLength?_eq_some hlength
    obtain ⟨hfinite, hasked, hmost⟩ :=
      (EffectOptions.isDuration_iff asked).mp (hrequested asked rfl)
    obtain ⟨-, hle, -⟩ := (plan_fits (by simp) hpositive hasked fraction).1 td h
    obtain rfl : td' = td := by
      rw [hplan] at h
      exact Option.some.inj h
    have hpositive : isPositive td' = true := by
      rw [hfitted] at habove ⊢
      exact Bool.and_eq_true_iff.mpr ⟨isFinite_fitted hfinite habove, habove⟩
    obtain ⟨q, hq, hworth⟩ := isPositive_iff_worth.mp hpositive
    have hfive : Worth maxTransitionSeconds 5 := worth_ofNat (n := 5) (by decide)
    exact ⟨q, hworth, hq, (hworth.le_iff hfive).mp (float_le_trans hle hmost)⟩

/-- Segments that are made longer by a blend still have lengths above zero. -/
theorem positive_extended {q : ℚ} (htd : Worth td q) (hq : 0 < q) (hsmall : q < 2 ^ (971 : ℤ) / 2) :
    ∀ {ds : List Float},
    (∀ d ∈ ds, isPositive d = true) → ∀ x ∈ extended td ds, isPositive x = true
  | [], _ => List.forall_mem_nil _
  | [_], h => h
  | d :: e :: r, h => by
    obtain ⟨hd, hr⟩ := List.forall_mem_cons.mp h
    obtain ⟨p, hp, hworth⟩ := isPositive_iff_worth.mp hd
    obtain ⟨s, hs, hle⟩ := hworth.add_small htd hq hsmall
    exact List.forall_mem_cons.mpr
      ⟨isPositive_iff_worth.mpr ⟨s, hp.trans_le hle, hs⟩, positive_extended htd hq hsmall hr⟩

/-- **Segments are rendered at lengths above zero**, and none of these is infinite. -/
theorem positive_rendered (hpositive : ∀ d ∈ durations, isPositive d = true)
    (hrequested : ∀ asked, requested = some asked → EffectOptions.isDuration asked = true) :
    ∀ x ∈ (plan durations requested fraction).rendered, isPositive x = true := by
  rcases plan_cases durations requested fraction with hplan | ⟨asked, td, rfl, -, hplan⟩
  · rw [hplan]
    exact hpositive
  · have htransition : (plan durations (some asked) fraction).transition = some td := by
      rw [hplan]; rfl
    obtain ⟨q, hworth, hq, hfive⟩ := positive_transition hpositive hrequested htransition
    have hsmall : q < 2 ^ (971 : ℤ) / 2 := by
      calc q ≤ 5 := hfive
        _ < 2 ^ (4 : ℤ) / 2 := by norm_num
        _ ≤ 2 ^ (971 : ℤ) / 2 :=
          div_le_div_of_nonneg_right (zpow_le_zpow_right₀ one_le_two (by decide)) two_pos.le
    rw [hplan]
    exact positive_extended hworth hq hsmall hpositive

/-- A sum that is above zero stays above zero with lengths added to it. -/
theorem above_foldl : ∀ (ds : List Float) {x : Float}, IsAmount x → 0 < x →
    (∀ d ∈ ds, isPositive d = true) →
    IsAmount (ds.foldl (· + ·) x) ∧ 0 < ds.foldl (· + ·) x
  | [], _, hx, habove, _ => ⟨hx, habove⟩
  | d :: r, x, hx, habove, h => by
    obtain ⟨hd, hr⟩ := List.forall_mem_cons.mp h
    obtain ⟨q, hq, hworth⟩ := isPositive_iff_worth.mp hd
    exact above_foldl r ((RoundsOnce.add hworth hq).isAmount hx)
      (float_lt_of_lt_of_le habove (hx.le_add hworth hq)) hr

/-- **The whole is longer than nothing**, but can be infinite. -/
theorem above_total (hne : durations ≠ []) (hpositive : ∀ d ∈ durations, isPositive d = true) :
    IsAmount (plan durations requested fraction).total ∧
        0 < (plan durations requested fraction).total := by
  rw [plan_total]
  obtain ⟨d, r, rfl⟩ := List.exists_cons_of_ne_nil hne
  obtain ⟨hd, hr⟩ := List.forall_mem_cons.mp hpositive
  obtain ⟨q, hq, hworth⟩ := isPositive_iff_worth.mp hd
  have hfirst := hworth.negativeZero_add
  exact above_foldl r (.inl ⟨q, hfirst⟩) ((worth_zero.lt_iff hfirst).mpr hq) hr

/-- The lengths of a timeline are above zero, and only the whole can be infinite. -/
structure Above (timeline : Timeline Float) : Prop where
  transition : ∀ td, timeline.transition = some td → isPositive td = true
  rendered : ∀ x ∈ timeline.rendered, isPositive x = true
  total : IsAmount timeline.total ∧ 0 < timeline.total

end Timeline

/-- **The lengths of the timeline of accepted images** are above zero, if the transitions may be
asked for. -/
theorem above_timelineOf {images : List String} {durations : List Float}
    (h : Accepted images durations) (s : RenderSettings Float) {spec : EffectSpec Float}
    (hspec : EffectOptions.isDuration spec.transitionDuration = true) :
    (timelineOf s spec durations).Above := by
  have hrequested : ∀ asked, (spec.transition.map fun _ => spec.transitionDuration) = some asked →
      EffectOptions.isDuration asked = true := by
    intro asked hasked
    obtain ⟨_, -, rfl⟩ := Option.map_eq_some_iff.mp hasked
    exact hspec
  have hdurations : durations ≠ [] := by
    rintro rfl
    exact h.nonempty (List.length_eq_zero_iff.mp h.same_length)
  refine ⟨fun td htd => ?_, Timeline.positive_rendered h.positive hrequested,
    Timeline.above_total hdurations h.positive⟩
  obtain ⟨q, hworth, hq, -⟩ := Timeline.positive_transition h.positive hrequested htd
  exact isPositive_iff_worth.mpr ⟨q, hq, hworth⟩

/-! ## Lengths in filters -/

theorem isValue_blendName (t : Transition) : IsValue (blendName t).toList := by
  cases t <;> decide

/-- What a blend says. -/
theorem argument?_blend (s : RenderSettings Float) (total : Float) (t : Transition)
    (duration offset : Float) :
    argument? (spelled (template s total (.blend t duration offset))) "xfade".toList
      "duration".toList =
      some (numeralChars duration) := by
  have htext : spelled (template s total (.blend t duration offset)) = "xfade".toList ++
    '=' :: [':'].intercalate
      ([("transition".toList, (blendName t).toList), ("duration".toList, numeralChars duration),
        ("offset".toList, numeralChars offset)].map written) := by
    simp [template, written]
  rw [htext]
  refine argument?_only (by decide) ?_ (by simp) (.tail _ (.head _))
  simp only [List.forall_mem_cons, List.not_mem_nil, false_imp_iff, implies_true, and_true]
  exact ⟨⟨by decide, isValue_blendName t⟩, ⟨by decide, isValue_numeral duration⟩, by
    decide, isValue_numeral offset⟩

/-- The filter in which the source of an overlay begins. -/
def sourceName : Overlay → List Char
  | .lightLeaks | .lensFlare => "gradients".toList
  | _ => "color".toList

/-- **The filter of an overlay says how long it lasts.** -/
theorem seconds_printed {c : Canvas} (h : IsValue c.seconds.toList) (o : Overlay)
    (pixelFormat : String) :
    argument? (spelled (overlayTemplate c o ++ formatTemplate pixelFormat)) (sourceName o)
    ['d'] = some c.seconds.toList := by
  have hlast {size : List Char} : (['d'], c.seconds.toList) ∈ blackOptions c size :=
    .tail _ (.tail _ (.tail _ (.head _)))
  have hthird {more} : (['d'], c.seconds.toList) ∈ gradientsOptions c ++ more :=
    .tail _ (.tail _ (.head _))
  have hspecks (s : Specks) : argument?
    (spelled (specksTemplate c s ++ formatTemplate pixelFormat)) "color".toList ['d'] =
      some c.seconds.toList := by
    simp only [specksTemplate, Part.size, spelled_append, List.append_assoc]
    exact argument?_black h (isValue_size _ _) hlast _
  cases o with
  | lightLeaks => exact argument?_leaks h pixelFormat hthird
  | lensFlare => exact argument?_flare h pixelFormat hthird
  | scratches =>
    have hsize : IsValue (toString c.width ++ "x1").toList := by
      rw [String.toList_append]
      exact (isValue_toString c.width).append (by decide)
    simp only [overlayTemplate, spelled_append, List.append_assoc]
    exact argument?_black h hsize hlast _
  | _ => exact hspecks _

end Graph

/-! ## What is told -/

/-- How a text with so many places tells a length above zero: it is a number above zero exactly if
something remains of the length. -/
structure Conveys (places : ℕ) (x : Float) (text : List Char) : Prop where
  positive : 0 < x
  above_iff : 0 < literalValue text ↔ Remains places x

theorem above_of_isPositive {x : Float} (h : isPositive x = true) : IsAmount x ∧ 0 < x := by
  obtain ⟨q, hq, hworth⟩ := isPositive_iff_worth.mp h
  exact ⟨.inl ⟨q, hworth⟩, (worth_zero.lt_iff hworth).mpr hq⟩

namespace Graph

/-- The filter of a blend tells its length, and that of the source of an overlay the length of the
whole. -/
def Kind.TellsLength (total : Float) (filter : List Char) : Kind Float → Prop
  | .blend _ duration _ =>
    ∃ text, argument? filter "xfade".toList "duration".toList = some text ∧ Conveys 4 duration text
  | .overlaySource o =>
    ∃ text, argument? filter (sourceName o) ['d'] = some text ∧ Conveys 4 total text
  | _ => True

theorem Operation.Regular.tellsLength {s : RenderSettings Float} {spec : EffectSpec Float}
    {timeline : Timeline Float} {n : Nat} {op : Operation Float} (h : op.Regular s spec timeline n)
    (habove : timeline.Above) :
    op.kind.TellsLength timeline.total op.filter.toList := by
  have hfilter := h.filter
  have hused := h.kind
  generalize op.kind = k at hfilter hused ⊢
  cases hused with
  | @blend t td offset _ fits _ =>
    obtain ⟨hamount, hpositive⟩ := above_of_isPositive (habove.transition td fits)
    rw [hfilter]
    exact ⟨_, argument?_blend s timeline.total t td offset, hpositive, numeral_above_iff hamount⟩
  | @overlaySource o _ =>
    obtain ⟨hamount, hpositive⟩ := habove.total
    have hprinted := seconds_printed (c := ⟨s.width, s.height, s.fps, numeralText timeline.total⟩)
      (isValue_numeralText timeline.total) o s.pixelFormat
    rw [toList_numeralText] at hprinted
    rw [hfilter, template]
    exact ⟨_, hprinted, hpositive, numeral_above_iff hamount⟩
  | _ => trivial

end Graph

/-- The value of an option of an input. -/
def Source.value? (source : Source) (option : String) : Option String :=
  (source.options.find? (·.1 == option)).map (·.2)

namespace Invocation

open Slideshow.Graph

/-- An input is an image, and its options tell for how long it is shown. -/
def TellsImage (source : Source) (image : ImageInput Float) : Prop :=
  source.path = image.path ∧ ∃ text, source.value? "-t" = some text ∧
    Conveys 3 image.seconds text.toList

theorem tellsImage_imageSource (fps : Nat) {image : ImageInput Float}
    (h : isPositive image.seconds = true) :
    TellsImage (imageSource fps image.path image.seconds) image := by
  obtain ⟨hamount, hpositive⟩ := above_of_isPositive h
  refine ⟨rfl, fixed 3 image.seconds, rfl, hpositive, ?_⟩
  rw [fixed, String.toList_ofList]
  exact fixed_above_iff (by decide) hamount

/-- A call tells the lengths of a graph: the images with theirs, in order and before the last input,
and the graph with those of blends and overlays. -/
structure TellsLengths (call : Invocation) (g : FilterGraph Float) : Prop where
  images : List.Forall₂ TellsImage call.sources.dropLast g.inputs
  graph : call.values "-filter_complex" = [g.filterComplex]
  operations : ∀ op ∈ g.operations, op.kind.TellsLength g.timelineSeconds op.filter.toList

/-- **The encoder is told a length above zero exactly if something remains of it**: more than half a
thousandth of a second for an image, and more than half a tenth of that for a blend and for an
overlay, which moreover must not be infinite. So it is with every selection whose transitions have a
length that may be asked for, as those have that options are resolved to. -/
theorem compiled_tellsLengths {images : List String} {durations : List Float}
    {s : RenderSettings Float} {spec : EffectSpec Float} {g : FilterGraph Float}
    (h : compile images durations s spec = .ok g)
    (hspec : EffectOptions.isDuration spec.transitionDuration = true) (settings : EncodeSettings)
    (audio output : String) (expected : Float) :
    ∃ call, read? (EncodeRequest.arguments ⟨g, audio, output, expected⟩ settings) = some call ∧
      call.TellsLengths g := by
  obtain ⟨haccepted, -, rfl⟩ := compile_eq_ok_iff.mp h
  have hread := read?_arguments ⟨compiled images durations s spec, audio, output, expected⟩ settings
  have habove := above_timelineOf haccepted s hspec
  have himages : ∀ i ∈ (compiled images durations s spec).inputs, isPositive i.seconds = true := by
    intro i hi
    obtain ⟨k, hk, rfl⟩ := List.getElem_of_mem hi
    simp only [compiled, List.getElem_zipWith]
    exact habove.rendered _ (List.getElem_mem _)
  refine ⟨_, hread, ?_, (values_arguments _ _ hread).1, fun op hop =>
    (regular_compiled images durations s spec op hop).tellsLength habove⟩
  rw [List.dropLast_concat, List.forall₂_map_left_iff]
  exact List.forall₂_same.mpr fun i hi => tellsImage_imageSource settings.fps (himages i hi)

/-- Two images with the blends and light leaks of options that leave their length to the default. -/
theorem compiled_tellsLengths_leaks :
    ({ transition := some "fade", overlay := some "light_leaks" } : EffectOptions).resolve 1 =
      .ok ⟨some .fade, none, none, some .lightLeaks, 1⟩ ∧
    ∃ g call, compile ["a.jpg", "b.jpg"] [10, 10]
    (.ofConfig {}) ⟨some .fade, none, none, some .lightLeaks, 1⟩ = .ok g ∧
      read? (EncodeRequest.arguments ⟨g, "v.mp3", "o.mp4", 20⟩ (.ofConfig {})) = some call ∧
          call.TellsLengths g := by
  have hresolve :
    ({ transition := some "fade", overlay := some "light_leaks" } : EffectOptions).resolve 1 =
      .ok ⟨some .fade, none, none, some .lightLeaks, 1⟩ := rfl
  have hspec := EffectOptions.isDuration_of_resolve hresolve (by decide)
  have hg := compile_eq_ok_iff.mpr
    ⟨accepted_pair, by decide, Eq.refl (compiled ["a.jpg", "b.jpg"] [10, 10] (.ofConfig {})
    ⟨some .fade, none, none, some .lightLeaks, 1⟩)⟩
  obtain ⟨call, hread, htells⟩ := compiled_tellsLengths hg hspec (.ofConfig {}) "v.mp3" "o.mp4" 20
  exact ⟨hresolve, _, call, hg, hread, htells⟩

/-- Of two images for a fifty thousandth of a second each, no length is left: the images, the blend
between them and the particles over them last for zero seconds. -/
theorem lengths_vanish : EffectOptions.isDuration 0.8 = true ∧ ∃ g call,
    compile ["a.jpg", "b.jpg"] [0.00002, 0.00002]
    (.ofConfig {}) ⟨some .fade, none, none, some .particles, 0.8⟩ = .ok g ∧
      read? (EncodeRequest.arguments ⟨g, "v.mp3", "o.mp4", 0.00004⟩ (.ofConfig {})) = some call ∧
      (∀ source ∈ call.sources.dropLast, source.value? "-t" = some "0.000") ∧
      (∃ op ∈ g.operations, op.kind.name = "transition_blend" ∧
        argument? op.filter.toList "xfade".toList "duration".toList = some ['0']) ∧
      ∃ op ∈ g.operations, op.kind.name = "overlay_source" ∧
          argument? op.filter.toList "color".toList ['d'] = some ['0'] := by
  have haccepted : Accepted ["a.jpg", "b.jpg"] [(0.00002 : Float), 0.00002] :=
    ⟨by decide, rfl, by decide +kernel⟩
  have hg := compile_eq_ok_iff.mpr
    ⟨haccepted, by decide, Eq.refl (compiled ["a.jpg", "b.jpg"] [0.00002, 0.00002] (.ofConfig {})
    ⟨some .fade, none, none, some .particles, 0.8⟩)⟩
  exact ⟨rfl, _, _, hg, read?_arguments _ _, by decide +kernel, by decide +kernel, by
    decide +kernel⟩

end Invocation

end Slideshow
