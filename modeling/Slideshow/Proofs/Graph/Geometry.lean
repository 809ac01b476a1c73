import Slideshow.Proofs.Config
import Slideshow.Proofs.Graph.Arguments
import Slideshow.Proofs.Graph.Template

/-!
# Where overlays lie

Pixels and frames are counted in words of 32 bits, in which a product can be too large and a
quotient needs something to be divided by. The parts of a frame that an overlay is put together from
(`overlay_layer`, `specks`) are quotients, except that four fifths of a width are a product first.

* `times?` and `over?` are products and quotients of words, if there are any.
* `layout?` is where an overlay lies in a frame, counted in words; `Layout.Inside` and
  `Layout.Printed` say that it lies in the frame and that this is what the filter says.
* `Kind.Fits` says this of the overlay of a graph, and that the frames of its motion can be counted.

Headlines:
* `layout?_eq_none_iff`: which overlays cannot be counted.
* `layout_inside`: overlays lie in the frame.
* `argument?_first`, `argument?_only`: what a filter says whose options are values.
* `layout_printed`: the filter says where its overlay lies.
* **`compile_fits`**: images and lengths that are accepted give a graph that fits, unless a flare is
  too wide. `flare_overflows`: there are such flares.
-/

namespace Slideshow.Graph

open Scalar

/-! ## Words of 32 bits -/

/-- The product of two words, if it is one. -/
def times? (a b : Nat) : Option Nat := if a * b < 2 ^ 32 then some (a * b) else none

/-- The quotient of two words, if there is one. -/
def over? (a b : Nat) : Option Nat := if b = 0 then none else some (a / b)

theorem times?_of_lt {a b : Nat} (h : a * b < 2 ^ 32) : times? a b = some (a * b) := if_pos h

theorem times?_of_le {a b : Nat} (h : 2 ^ 32 ≤ a * b) : times? a b = none := if_neg h.not_gt

theorem over?_of_ne_zero {a b : Nat} (h : b ≠ 0) : over? a b = some (a / b) := if_neg h

/-! ## Layouts -/

/-- Where an overlay lies. -/
inductive Layout where
  /-- Everywhere. -/
  | everywhere
  /-- In a small frame, which is scaled up. -/
  | small (width height : Nat)
  /-- Between two points. -/
  | beam (x0 y0 x1 y1 : Nat)
deriving DecidableEq, Repr

namespace Layout

/-- A layout lies in a frame. -/
def Inside (width height : Nat) : Layout → Prop
  | everywhere => True
  | small w h => 0 < w ∧ w ≤ width ∧ 0 < h ∧ h ≤ height
  | beam x0 y0 x1 y1 => x0 < width ∧ y0 < height ∧ x1 ≤ width ∧ y1 < height

/-- The text of a number of pixels. -/
def pixels (n : Nat) : List Char := (toString n).toList

/-- A filter says where its layer lies. -/
def Printed (source : List Char) : Layout → Prop
  | everywhere => True
  | small w h =>
    argument? source ['c', 'o', 'l', 'o', 'r'] ['s'] = some (pixels w ++ 'x' :: pixels h)
  | beam x0 y0 x1 y1 =>
    argument? source "gradients".toList ['x', '0'] = some (pixels x0) ∧
    argument? source "gradients".toList ['y', '0'] = some (pixels y0) ∧
    argument? source "gradients".toList ['x', '1'] = some (pixels x1) ∧
    argument? source "gradients".toList ['y', '1'] = some (pixels y1)

end Layout

/-- A frame smaller by a divisor, but not without pixels. -/
def reduced? (width height divisor : Nat) : Option Layout := do
  let w ← over? width divisor
  let h ← over? height divisor
  return .small (max w 1) (max h 1)

/-- Where an overlay lies in a frame, counted in words. -/
def layout? (o : Overlay) (width height : Nat) : Option Layout :=
  match o with
  | .particles | .snow => reduced? width height 4
  | .dust | .rain => reduced? width height 2
  | .bokeh => reduced? width height 8
  | .scratches => some (.small width 1)
  | .lightLeaks => some .everywhere
  | .lensFlare => do
    let x0 ← over? (← times? width 4) 5
    return .beam x0 (← over? height 5) width (← over? height 2)

section
variable {width height : Nat}

theorem reduced?_eq {divisor : Nat} (h : divisor ≠ 0) :
    reduced? width height divisor =
        some (.small (max (width / divisor) 1) (max (height / divisor) 1)) := by
  simp [reduced?, over?_of_ne_zero h]

theorem layout?_lensFlare (h : width < 2 ^ 30) :
    layout? .lensFlare width height =
        some (.beam (width * 4 / 5) (height / 5) width (height / 2)) := by
  have hproduct : times? width 4 = some (width * 4) := times?_of_lt (by omega)
  simp [layout?, hproduct, over?]

/-- **All overlays can be counted**, except a flare in a frame so wide that four times its width is
no word. -/
theorem layout?_eq_none_iff (o : Overlay) :
    layout? o width height = none ↔ o = .lensFlare ∧ 2 ^ 30 ≤ width := by
  cases o with
  | lensFlare =>
    by_cases h : width < 2 ^ 30
    · rw [layout?_lensFlare h]
      simp
      omega
    · have hproduct : times? width 4 = none := times?_of_le (by omega)
      simp [layout?, hproduct]
      omega
  | _ => simp [layout?, reduced?_eq]

theorem eq_beam_of_layout {l : Layout} (h : layout? .lensFlare width height = some l) :
    width < 2 ^ 30 ∧ l = .beam (width * 4 / 5) (height / 5) width (height / 2) := by
  have hnarrow : width < 2 ^ 30 := by
    by_contra hwide
    rw [(layout?_eq_none_iff .lensFlare).mpr ⟨rfl, not_lt.mp hwide⟩] at h
    cases h
  rw [layout?_lensFlare hnarrow] at h
  exact ⟨hnarrow, (Option.some.inj h).symm⟩

theorem reduced_inside {divisor : Nat} (hwidth : 0 < width) (hheight : 0 < height) :
    (Layout.small (max (width / divisor) 1) (max (height / divisor) 1)).Inside width height := by
  have hw := Nat.div_le_self width divisor
  have hh := Nat.div_le_self height divisor
  simp only [Layout.Inside]
  omega

/-- **Overlays lie in the frame.** -/
theorem layout_inside {o : Overlay} {l : Layout} (hwidth : 0 < width) (hheight : 0 < height)
    (h : layout? o width height = some l) : l.Inside width height := by
  cases o with
  | lensFlare =>
    obtain ⟨-, rfl⟩ := eq_beam_of_layout h
    simp only [Layout.Inside]
    omega
  | scratches =>
    obtain rfl := Option.some.inj h
    simp only [Layout.Inside]
    omega
  | lightLeaks =>
    obtain rfl := Option.some.inj h
    trivial
  | _ =>
    simp only [layout?] at h
    rw [reduced?_eq (by decide)] at h
    obtain rfl := Option.some.inj h
    exact reduced_inside hwidth hheight

end

/-! ## Options -/

theorem IsValue.isWhole {cs : List Char} (h : IsValue cs) {separator : Char}
    (hseparator : isValueChar separator = false) :
    isWhole separator false cs = true :=
  isWhole_plain fun c hc => ⟨h.ne (by decide) c hc, h.ne hseparator c hc⟩

theorem isWhole_intercalate {separator c : Char} (hq : c ≠ quote) (hc : c ≠ separator) :
    ∀ {xs : List (List Char)},
    (∀ x ∈ xs, isWhole separator false x = true) →
      isWhole separator false ([c].intercalate xs) = true
  | [], _ => rfl
  | [x], h => by
    rw [List.intercalate_singleton]
    exact h x List.mem_cons_self
  | x :: y :: r, h => by
    obtain ⟨hx, hr⟩ := List.forall_mem_cons.mp h
    rw [List.intercalate_cons_cons, List.append_assoc, List.singleton_append]
    exact isWhole_joined hq hc hx (isWhole_intercalate hq hc hr)

section
variable {os : List (List Char × List Char)} {name key value : List Char}

theorem IsValue.ne_equals {cs : List Char} (h : IsValue cs) : '=' ∉ cs :=
  fun hmem => h.ne (by decide) '=' hmem rfl

/-- An option whose name and value are values is in one piece. -/
theorem isWhole_written {o : List Char × List Char} (h : IsValue o.1 ∧ IsValue o.2)
    {separator : Char} (hseparator : isValueChar separator = false) (hne : '=' ≠ separator) :
    isWhole separator false (written o) = true :=
  isWhole_joined (by decide) hne (h.1.isWhole hseparator) (h.2.isWhole hseparator)

/-- A filter whose options are values is in one piece. -/
theorem isWhole_values (hname : IsValue name) (h : ∀ o ∈ os, IsValue o.1 ∧ IsValue o.2) :
    isWhole ',' false (name ++ '=' :: [':'].intercalate (os.map written)) = true := by
  have hwritten : ∀ x ∈ os.map written, isWhole ',' false x = true :=
    List.forall_mem_map.mpr fun o ho => isWhole_written (h o ho) (by decide) (by decide)
  exact isWhole_joined (by decide) (by decide) (hname.isWhole (by decide))
    (isWhole_intercalate (by decide) (by decide) hwritten)

/-- **One of the options of a filter**, if all of them are values and none is said twice. -/
theorem option?_value (h : ∀ o ∈ os, IsValue o.1 ∧ IsValue o.2) (hkeys : (os.map (·.1)).Nodup)
    (hmem : (key, value) ∈ os) :
    option? ([':'].intercalate (os.map written)) key = some value := by
  have hwritten : ∀ o ∈ os, '=' ∉ o.1 ∧ isWhole ':' false (written o) = true := fun o ho =>
    ⟨(h o ho).1.ne_equals, isWhole_written (h o ho) (by decide) (by decide)⟩
  have hfind : os.find? (·.1 == key) = some (key, value) := by
    cases hfound : os.find? (·.1 == key) with
    | none => exact absurd (List.find?_eq_none.mp hfound _ hmem) (by simp)
    | some o =>
      have hkey : o.1 = key := by simpa using List.find?_some hfound
      exact congrArg some
        (List.inj_on_of_nodup_map hkeys (List.mem_of_find?_eq_some hfound) hmem hkey)
  have hquote : ∀ c ∈ value, (c != quote) = true :=
    fun c hc => bne_iff_ne.mpr ((h _ hmem).2.ne (by decide) c hc)
  rw [option?_written (List.ne_nil_of_mem hmem) hwritten, hfind, Option.map_some,
    List.filter_eq_self.mpr hquote]

/-- **An argument of a filter** at the beginning of a chain. -/
theorem argument?_first (hname : IsValue name) (h : ∀ o ∈ os, IsValue o.1 ∧ IsValue o.2)
    (hkeys : (os.map (·.1)).Nodup) (hmem : (key, value) ∈ os) (rest : List Char) :
    argument? (name ++ '=' :: [':'].intercalate (os.map written) ++ ',' :: rest) name key =
        some value :=
  (argument?_here (isWhole_values hname h) hname.ne_equals key rest).trans
    (option?_value h hkeys hmem)

/-- An argument of a filter that stands alone. -/
theorem argument?_only (hname : IsValue name) (h : ∀ o ∈ os, IsValue o.1 ∧ IsValue o.2)
    (hkeys : (os.map (·.1)).Nodup) (hmem : (key, value) ∈ os) :
    argument? (name ++ '=' :: [':'].intercalate (os.map written)) name key = some value :=
  (argument?_last (isWhole_values hname h) hname.ne_equals key).trans (option?_value h hkeys hmem)

end

/-! ## What filters say -/

section
variable {c : Canvas}

/-- What a black source is told. -/
def blackOptions (c : Canvas) (size : List Char) : List (List Char × List Char) :=
  [(['c'], "black".toList), (['s'], size), (['r'], (toString c.fps).toList),
    (['d'], c.seconds.toList)]

/-- What a source of drifting colors is told first. -/
def gradientsOptions (c : Canvas) : List (List Char × List Char) :=
  [(['s'], (toString c.width ++ "x" ++ toString c.height).toList), (['r'], (toString c.fps).toList),
    (['d'], c.seconds.toList)]

/-- What light leaks are told. -/
def leaksOptions (c : Canvas) : List (List Char × List Char) :=
  gradientsOptions c ++ [(['c', '0'], "0xff7a1a".toList), (['c', '1'], "0xffd27a".toList),
    ("nb_colors".toList, ['2']), ("speed".toList, "0.015".toList)]

/-- What a flare is told. -/
def flareOptions (c : Canvas) : List (List Char × List Char) :=
  gradientsOptions c ++ [("type".toList, "radial".toList), (['c', '0'], "0xfff4d6".toList),
    (['c', '1'], "0x000000".toList), ("nb_colors".toList, ['2']),
    (['x', '0'], Layout.pixels (c.width * 4 / 5)), (['y', '0'], Layout.pixels (c.height / 5)),
    (['x', '1'], Layout.pixels c.width), (['y', '1'], Layout.pixels (c.height / 2)),
      ("speed".toList, ['0'])]

/-- What a black source says. -/
theorem argument?_black (hseconds : IsValue c.seconds.toList) {size : List Char}
    (hsize : IsValue size) {key value : List Char} (h : (key, value) ∈ blackOptions c size)
    (rest : List Char) :
    argument? (spelled (blackTemplate c (.number size)) ++ rest)
    ['c', 'o', 'l', 'o', 'r'] key = some value := by
  have htext : spelled (blackTemplate c (.number size)) ++ rest = ['c', 'o', 'l', 'o', 'r'] ++
    '=' :: [':'].intercalate
      ((blackOptions c size).map written) ++ ',' :: ("format=gray".toList ++ rest) := by
    simp [blackTemplate, blackOptions, written]
  rw [htext]
  refine argument?_first (by decide) ?_ (by simp [blackOptions]) h _
  simp only [blackOptions, List.forall_mem_cons, List.not_mem_nil, false_imp_iff, implies_true,
    and_true]
  exact ⟨⟨by decide, by decide⟩, ⟨by decide, hsize⟩, ⟨by decide, isValue_toString c.fps⟩, by
    decide, hseconds⟩

theorem isValue_gradientsOptions (hseconds : IsValue c.seconds.toList) :
    ∀ o ∈ gradientsOptions c, IsValue o.1 ∧ IsValue o.2 := by
  simp only [gradientsOptions, List.forall_mem_cons, List.not_mem_nil, false_imp_iff, implies_true,
    and_true]
  exact ⟨⟨by decide, isValue_size c.width c.height⟩, ⟨by decide, isValue_toString c.fps⟩, by
    decide, hseconds⟩

/-- What light leaks say. -/
theorem argument?_leaks (hseconds : IsValue c.seconds.toList) (pixelFormat : String)
    {key value : List Char} (h : (key, value) ∈ leaksOptions c) :
    argument? (spelled (overlayTemplate c .lightLeaks ++ formatTemplate pixelFormat))
        "gradients".toList key = some value := by
  have htext : spelled (overlayTemplate c .lightLeaks ++ formatTemplate pixelFormat) =
    "gradients".toList ++ '=' ::
      [':'].intercalate ((leaksOptions c).map written) ++
          ',' :: ("setsar=1,format=".toList ++ pixelFormat.toList) := by
    simp [overlayTemplate, gradientsTemplate, formatTemplate, leaksOptions, gradientsOptions,
      written]
  rw [htext]
  refine argument?_first (by decide) ?_ (by simp [leaksOptions, gradientsOptions]) h _
  refine List.forall_mem_append.mpr ⟨isValue_gradientsOptions hseconds, ?_⟩
  decide

/-- What a flare says. -/
theorem argument?_flare (hseconds : IsValue c.seconds.toList) (pixelFormat : String)
    {key value : List Char} (h : (key, value) ∈ flareOptions c) :
    argument? (spelled (overlayTemplate c .lensFlare ++ formatTemplate pixelFormat))
        "gradients".toList key = some value := by
  have htext : spelled (overlayTemplate c .lensFlare ++ formatTemplate pixelFormat) =
    "gradients".toList ++ '=' ::
      [':'].intercalate ((flareOptions c).map written) ++
          ',' :: ("setsar=1,format=".toList ++ pixelFormat.toList) := by
    simp [overlayTemplate, gradientsTemplate, formatTemplate, flareOptions, gradientsOptions,
      written, Layout.pixels]
  have hpixels : ∀ n, IsValue (Layout.pixels n) := isValue_toString
  rw [htext]
  refine argument?_first (by decide) ?_ (by simp [flareOptions, gradientsOptions]) h _
  refine List.forall_mem_append.mpr ⟨isValue_gradientsOptions hseconds, ?_⟩
  simp only [List.forall_mem_cons, List.not_mem_nil, false_imp_iff, implies_true, and_true]
  exact ⟨⟨by decide, by decide⟩, ⟨by decide, by decide⟩, ⟨by decide, by decide⟩,
    ⟨by decide, by decide⟩, ⟨by decide, hpixels _⟩, ⟨by decide, hpixels _⟩, ⟨by decide, hpixels _⟩,
    ⟨by decide, hpixels _⟩, by decide, by decide⟩

theorem printed_specks (hseconds : IsValue c.seconds.toList) (s : Specks) (rest : List Char) :
    (Layout.small (max (c.width / s.divisor) 1) (max (c.height / s.divisor) 1)).Printed
        (spelled (specksTemplate c s) ++ rest) := by
  have hsize := isValue_size (max (c.width / s.divisor) 1) (max (c.height / s.divisor) 1)
  simp only [Layout.Printed, specksTemplate, Part.size, spelled_append, List.append_assoc]
  refine (argument?_black hseconds hsize (.tail _ (.head _)) _).trans (congrArg some ?_)
  simp [Layout.pixels]

/-- **The filter of an overlay says where it lies**, if that can be counted. -/
theorem layout_printed {o : Overlay} {l : Layout} (hseconds : IsValue c.seconds.toList)
    (h : layout? o c.width c.height = some l) (pixelFormat : String) :
    l.Printed (spelled (overlayTemplate c o ++ formatTemplate pixelFormat)) := by
  have hreduced : ∀ {s : Specks}, s.divisor ≠ 0 → reduced? c.width c.height s.divisor = some l →
      l.Printed (spelled (specksTemplate c s ++ formatTemplate pixelFormat)) := by
    intro s hs hl
    rw [reduced?_eq hs] at hl
    obtain rfl := Option.some.inj hl
    rw [spelled_append]
    exact printed_specks hseconds s _
  cases o with
  | lensFlare =>
    obtain ⟨-, rfl⟩ := eq_beam_of_layout h
    exact ⟨argument?_flare hseconds pixelFormat (by simp [flareOptions]),
      argument?_flare hseconds pixelFormat (by simp [flareOptions]),
      argument?_flare hseconds pixelFormat (by simp [flareOptions]),
      argument?_flare hseconds pixelFormat (by simp [flareOptions])⟩
  | scratches =>
    obtain rfl := Option.some.inj h
    have hsize : IsValue (toString c.width ++ "x1").toList := by
      rw [String.toList_append]
      exact (isValue_toString c.width).append (by decide)
    simp only [Layout.Printed, overlayTemplate, spelled_append, List.append_assoc]
    exact (argument?_black hseconds hsize (.tail _ (.head _)) _).trans
      (congrArg some (String.toList_append))
  | lightLeaks =>
    obtain rfl := Option.some.inj h
    trivial
  | particles => exact hreduced (by decide) h
  | snow => exact hreduced (by decide) h
  | dust => exact hreduced (by decide) h
  | rain => exact hreduced (by decide) h
  | bokeh => exact hreduced (by decide) h

end

/-! ## Compiled graphs -/

/-- The frames of a motion can be counted, and an overlay can be counted and lies in the frame,
where its filter says. -/
def Kind.Fits (width height : Nat) (filter : List Char) : Kind Float → Prop
  | .motion _ frames =>
    0 < frames ∧ frames < 2 ^ 32 ∧ 0 < lastIndex frames ∧ lastIndex frames < 2 ^ 32
  | .overlaySource o =>
    ∃ l, layout? o width height = some l ∧ l.Inside width height ∧ l.Printed filter
  | _ => True

/-- A graph has the overlay that was asked for. -/
theorem Operation.Regular.overlay_eq {s : RenderSettings Float} {spec : EffectSpec Float}
    {timeline : Timeline Float} {n : Nat} {op : Operation Float} (h : op.Regular s spec timeline n)
    {o : Overlay} (hkind : op.kind = .overlaySource o) : spec.overlay = some o := by
  have hused := h.kind
  rw [hkind] at hused
  cases hused with
  | overlaySource ho => exact ho

theorem Operation.Regular.fits {s : RenderSettings Float} {spec : EffectSpec Float}
    {timeline : Timeline Float} {n : Nat} {op : Operation Float} (h : op.Regular s spec timeline n)
    (hfits : ¬TooWide s spec) (hwidth : 0 < s.width) (hheight : 0 < s.height) :
    op.kind.Fits s.width s.height op.filter.toList := by
  have hoverlay := fun o => h.overlay_eq (o := o)
  have hfilter := h.filter
  have hused := h.kind
  generalize hkind : op.kind = k at hfilter hused hoverlay ⊢
  cases hused with
  | motion seconds =>
    obtain ⟨hlow, hhigh⟩ := frameCount_bounds seconds s.fps
    simp only [Kind.Fits, lastIndex]
    omega
  | @overlaySource o _ =>
    rw [hfilter, template]
    have hcounted : layout? o s.width s.height ≠ none := by
      rw [Ne, layout?_eq_none_iff]
      rintro ⟨rfl, hwide⟩
      exact hfits ⟨hoverlay _ rfl, hwide⟩
    obtain ⟨l, hl⟩ := Option.ne_none_iff_exists'.mp hcounted
    have hprinted := layout_printed (c := ⟨s.width, s.height, s.fps, numeralText timeline.total⟩)
      (isValue_numeralText timeline.total) hl s.pixelFormat
    exact ⟨l, hl, layout_inside hwidth hheight hl, hprinted⟩
  | _ => trivial

/-- **Accepted images and lengths give a graph that fits.** With a configuration that passes, there
is a graph exactly if there are images, as many lengths, all lengths are finite and above zero, and
no flare is asked for that is so wide that four times the width is no word; other images and lengths
are refused, and such a flare ends in a panic. All frames of a graph can be counted, and its overlay
lies in the frame where the filter says. -/
theorem compile_fits {c : Config} (hcheck : c.check = .ok ()) (images : List String)
    (durations : List Float) (spec : EffectSpec Float) :
    ((∃ g, compile images durations (.ofConfig c) spec = .ok g) ↔
      Accepted images durations ∧ ¬(spec.overlay = some .lensFlare ∧ 2 ^ 30 ≤ c.video.width)) ∧
    ((∃ reason, compile images durations (.ofConfig c) spec =
      .error (.failed (.validation reason))) ↔
      ¬Accepted images durations) ∧
    (compile images durations (.ofConfig c) spec = .error .multiplied ↔
      Accepted images durations ∧ spec.overlay = some .lensFlare ∧ 2 ^ 30 ≤ c.video.width) ∧
    ∀ g, compile images durations (.ofConfig c) spec = .ok g →
      ∀ op ∈ g.operations, op.kind.Fits c.video.width c.video.height op.filter.toList := by
  have husable := c.check_iff.mp hcheck
  refine ⟨⟨fun ⟨g, hg⟩ => ?_, fun ⟨haccepted, hfits⟩ => ?_⟩,
    ⟨fun ⟨reason, hreason⟩ => ?_, fun hrefused => ?_⟩,
    ⟨fun hpanic => ?_, fun ⟨haccepted, hwide⟩ => ?_⟩, fun g hg op hop => ?_⟩
  · obtain ⟨haccepted, hfits, -⟩ := compile_eq_ok_iff.mp hg
    exact ⟨haccepted, hfits⟩
  · exact ⟨_, compile_eq_ok_iff.mpr ⟨haccepted, hfits, rfl⟩⟩
  · obtain ⟨f, hf, -⟩ := compile_eq_failed_iff.mp hreason
    rw [← inputFault?_eq_none_iff, hf]
    simp
  · have hfault : inputFault? images durations ≠ none :=
      fun h => hrefused (inputFault?_eq_none_iff.mp h)
    obtain ⟨fault, hfault⟩ := Option.ne_none_iff_exists'.mp hfault
    exact ⟨fault.message, compile_eq_failed_iff.mpr ⟨fault, hfault, rfl⟩⟩
  · obtain ⟨haccepted, hwide, -⟩ := compile_eq_panicked_iff.mp hpanic
    exact ⟨haccepted, hwide⟩
  · exact compile_eq_panicked_iff.mpr ⟨haccepted, hwide, rfl⟩
  · obtain ⟨-, hfits, rfl⟩ := compile_eq_ok_iff.mp hg
    exact (regular_compiled images durations (.ofConfig c) spec op hop).fits hfits
      (Nat.pos_of_ne_zero husable.width) (Nat.pos_of_ne_zero husable.height)

/-- Two images with a flare over them; one without a length. -/
theorem compile_fits_flare : ({} : Config).check = .ok () ∧
    (∃ g, compile ["a.jpg", "b.jpg"] [10, 10] (.ofConfig {})
        ⟨some .fade, some .shake, none, some .lensFlare, 1⟩ = .ok g ∧
      ∀ op ∈ g.operations, op.kind.Fits 1920 1080 op.filter.toList) ∧
    ∃ reason, compile ["a.jpg"] [0]
    (.ofConfig {}) ⟨some .fade, some .shake, none, some .lensFlare, 1⟩ =
      .error (.failed (.validation reason)) := by
  have hcheck : ({} : Config).check = .ok () := rfl
  obtain ⟨hexists, -, -, hfits⟩ := compile_fits hcheck ["a.jpg", "b.jpg"] [10, 10]
    ⟨some .fade, some .shake, none, some .lensFlare, 1⟩
  obtain ⟨g, hg⟩ := hexists.mpr ⟨accepted_pair, by decide⟩
  have hzero : ¬Accepted ["a.jpg"] [(0 : Float)] := fun h =>
    absurd (h.positive 0 List.mem_cons_self) (by decide)
  exact ⟨hcheck, ⟨g, hg, hfits g hg⟩, (compile_fits hcheck _ _ _).2.1.mpr hzero⟩

/-- A configuration for a video of a billion pixels in each row. -/
def wide : Config := { video := { width := 2 ^ 30 } }

/-- Four times such a width is no word: no graph with a flare is compiled, and nothing is said to be
wrong with the image and its length. -/
theorem flare_overflows : wide.check = .ok () ∧ Accepted ["a.jpg"] [(10 : Float)] ∧
    layout? .lensFlare wide.video.width wide.video.height = none ∧
    compile ["a.jpg"] [10] (.ofConfig wide) ⟨none, none, none, some .lensFlare, 0.8⟩ =
      .error .multiplied := by
  have haccepted : Accepted ["a.jpg"] [(10 : Float)] := ⟨by decide, rfl, by decide⟩
  exact ⟨rfl, haccepted, by decide, compile_eq_panicked_iff.mpr ⟨haccepted, ⟨rfl, by decide⟩, rfl⟩⟩

end Slideshow.Graph
