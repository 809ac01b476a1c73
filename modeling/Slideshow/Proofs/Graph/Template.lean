import Slideshow.Proofs.Graph.Stages
import Slideshow.Proofs.Graph.Words

/-!
# Filters as templates

The filter of an operation is determined by what the operation does: a fixed text, in which numbers
and expressions are put, and at its end the pixel format of the settings, as it stands there. What
is fixed can be looked through once for each kind of operation; of what is put in it is enough to
know what it can be.

* `Part` is a piece of a filter; `spelled` puts pieces together.
* `template` are the pieces of the filter of an operation.
* `IsLabel` are the labels of the streams that compiled graphs make, and `Kind.Used` is what their
  operations do.
* `Part.Inserts` says what a piece may put in: numbers and expressions, or the text of the settings.

Headlines:
* `inserts_template`: nothing else is put into templates.
* `toList_motion`, `toList_overlay`: the texts of motions and overlays are those of their templates.
* **`regular_compiled`**: so are all filters of a compiled graph.
-/

namespace Slideshow.Graph

/-! ## Templates -/

/-- A piece of a filter. -/
inductive Part where
  /-- The same text in all filters of a kind. -/
  | fixed (text : String)
  /-- A number, a size or an expression. -/
  | number (text : List Char)
  /-- A text of the settings. -/
  | free (text : String)

namespace Part

def chars : Part → List Char
  | fixed text => text.toList
  | number text => text
  | free text => text.toList

def nat (n : Nat) : Part := .number (toString n).toList

def size (width height : Nat) : Part := .number (toString width ++ "x" ++ toString height).toList

def expression (e : Expression) : Part := .number e.chars

def numeral (x : Float) : Part := .number (Decimal.numeralChars x)

@[simp] theorem chars_fixed (text : String) : (fixed text).chars = text.toList := rfl

@[simp] theorem chars_number (text : List Char) : (number text).chars = text := rfl

@[simp] theorem chars_free (text : String) : (free text).chars = text.toList := rfl

@[simp] theorem chars_nat (n : Nat) : (nat n).chars = (toString n).toList := rfl

@[simp] theorem chars_size (width height : Nat) :
    (size width height).chars = (toString width ++ "x" ++ toString height).toList := rfl

@[simp] theorem chars_expression (e : Expression) : (expression e).chars = e.chars := rfl

@[simp] theorem chars_numeral (x : Float) : (numeral x).chars = Decimal.numeralChars x := rfl

end Part

/-- The text of some pieces. -/
def spelled (parts : List Part) : List Char := parts.flatMap Part.chars

/-- The zooming filter. -/
def zoompanTemplate (zoom x y : Expression) (width height fps : Nat) : List Part :=
  [.fixed "zoompan=z='", .expression zoom, .fixed "':x='", .expression x, .fixed "':y='",
    .expression y, .fixed "':d=1:s=", .size width height, .fixed ":fps=", .nat fps]

/-- The filter of a motion. -/
def motionTemplate (f : MotionForm) (width height fps : Nat) : List Part :=
  match f with
  | .still => [.fixed "fps=", .nat fps]
  | .window zoom x y => zoompanTemplate zoom x y width height fps
  | .turn angle =>
    zoompanTemplate (.ofNat 1) (.ofNat 0) (.ofNat 0) width height fps ++
      [.fixed ",rotate=a='", .expression angle, .fixed "':ow=", .nat width, .fixed ":oh=",
        .nat height, .fixed ":c=black"]

/-- A black source. -/
def blackTemplate (c : Canvas) (size : Part) : List Part :=
  [.fixed "color=c=black:s=", size, .fixed ":r=", .nat c.fps, .fixed ":d=",
    .number c.seconds.toList, .fixed ",format=gray"]

/-- A source of drifting colors, up to its options. -/
def gradientsTemplate (c : Canvas) : List Part :=
  [.fixed "gradients=s=", .size c.width c.height, .fixed ":r=", .nat c.fps, .fixed ":d=",
    .number c.seconds.toList]

/-- Lights each pixel by chance. -/
def sparksTemplate (density : String) (brightness : Nat) : List Part :=
  [.fixed ",", .fixed "geq=lum='if(lt(random(1),", .fixed density, .fixed "),", .nat brightness,
    .fixed ",0)'"]

def scaledTemplate (c : Canvas) (scaling : String) : List Part :=
  [.fixed ",", .fixed "scale=", .nat c.width, .fixed ":", .nat c.height, .fixed ":flags=",
    .fixed scaling]

def specksTemplate (c : Canvas) (s : Specks) : List Part :=
  blackTemplate c (.size (max (c.width / s.divisor) 1) (max (c.height / s.divisor) 1)) ++
    (sparksTemplate s.density s.brightness ++ (scaledTemplate c s.scaling ++
      match s.shaping with
      | some shaping => [.fixed ",", .fixed shaping]
      | none => []))

/-- The source of an overlay. -/
def overlayTemplate (c : Canvas) : Overlay → List Part
  | .particles => specksTemplate c ⟨4, "0.0008", 255, "bilinear", some "gblur=sigma=1.5"⟩
  | .lightLeaks =>
    gradientsTemplate c ++ [.fixed ":c0=0xff7a1a:c1=0xffd27a:nb_colors=2:speed=0.015"]
  | .dust => specksTemplate c ⟨2, "0.0004", 220, "neighbor", none⟩
  | .scratches =>
    blackTemplate c (.number (toString c.width ++ "x1").toList) ++
      (sparksTemplate "0.003" 200 ++ scaledTemplate c "neighbor")
  | .bokeh => specksTemplate c ⟨8, "0.002", 255, "bilinear", some "gblur=sigma=12"⟩
  | .lensFlare =>
    gradientsTemplate c ++ [.fixed ":type=radial:c0=0xfff4d6:c1=0x000000:nb_colors=2:x0=",
      .nat (c.width * 4 / 5), .fixed ":y0=", .nat (c.height / 5), .fixed ":x1=", .nat c.width,
      .fixed ":y1=", .nat (c.height / 2), .fixed ":speed=0"]
  | .rain => specksTemplate c ⟨2, "0.002", 200, "neighbor", some "avgblur=sizeX=1:sizeY=24"⟩
  | .snow => specksTemplate c ⟨4, "0.0015", 255, "bilinear", some "gblur=sigma=2"⟩

/-- The pixel format at the end of a filter. -/
def formatTemplate (pixelFormat : String) : List Part :=
  [.fixed ",setsar=1,format=", .free pixelFormat]

/-- The pieces of the filter of an operation, in a video of some length. -/
def template (s : RenderSettings Float) (total : Float) : Kind Float → List Part
  | .scaleCrop width height =>
    [.fixed "scale=", .nat width, .fixed ":", .nat height,
      .fixed ":force_original_aspect_ratio=increase,crop=", .nat width, .fixed ":", .nat height] ++
        formatTemplate s.pixelFormat
  | .motion m frames =>
    motionTemplate (MotionForm.of m frames (s.motion.limits s.width s.height)) s.width s.height
      s.fps
  | .blend t duration offset =>
    [.fixed "xfade=transition=", .fixed (blendName t), .fixed ":duration=", .numeral duration,
      .fixed ":offset=", .numeral offset]
  | .concat segments => [.fixed "concat=n=", .nat segments, .fixed ":v=1:a=0"]
  | .colorGrade g => [.fixed (gradeFilter g)]
  | .overlaySource o =>
    overlayTemplate ⟨s.width, s.height, s.fps, numeralText total⟩ o ++ formatTemplate s.pixelFormat
  | .overlayComposite _ mode opacity =>
    [.fixed "blend=all_mode=", .fixed mode.name, .fixed ":all_opacity=", .numeral opacity,
      .fixed ":shortest=1"]

/-! ## The filters of templates -/

@[simp] theorem spelled_nil : spelled [] = [] := rfl

@[simp] theorem spelled_cons (p : Part) (parts : List Part) :
    spelled (p :: parts) = p.chars ++ spelled parts := rfl

@[simp] theorem spelled_append (as bs : List Part) :
    spelled (as ++ bs) = spelled as ++ spelled bs := List.flatMap_append

theorem toList_numeralText (x : Float) : (numeralText x).toList = Decimal.numeralChars x :=
  String.toList_ofList

theorem toList_zoompan (zoom x y : Expression) (width height fps : Nat) :
    (MotionForm.zoompan zoom x y width height fps).toList =
        spelled (zoompanTemplate zoom x y width height fps) := by
  unfold MotionForm.zoompan
  simp [zoompanTemplate, text_toList]

theorem toList_motion (f : MotionForm) (width height fps : Nat) :
    (f.filter width height fps).toList = spelled (motionTemplate f width height fps) := by
  cases f with
  | still => simp [MotionForm.filter, motionTemplate]
  | window zoom x y => exact toList_zoompan zoom x y width height fps
  | turn angle =>
    simp [MotionForm.filter, toList_zoompan, motionTemplate, text_toList]

theorem toList_black (c : Canvas) (size : String) :
    (c.black size).toList = spelled (blackTemplate c (.number size.toList)) := by
  unfold Canvas.black
  simp [blackTemplate]

theorem toList_sparks (density : String) (brightness : Nat) :
    ',' :: (Canvas.sparks density brightness).toList =
        spelled (sparksTemplate density brightness) := by
  unfold Canvas.sparks
  simp [sparksTemplate]

theorem toList_scaled (c : Canvas) (scaling : String) :
    ',' :: (c.scaled scaling).toList = spelled (scaledTemplate c scaling) := by
  simp [Canvas.scaled, scaledTemplate]

theorem toList_gradients (c : Canvas) : c.gradients.toList = spelled (gradientsTemplate c) := by
  simp [Canvas.gradients, Canvas.size, gradientsTemplate]

theorem toList_specks (c : Canvas) (s : Specks) :
    (c.specks s).toList = spelled (specksTemplate c s) := by
  simp only [specksTemplate, Part.size,
    spelled_append, ← toList_black, ← toList_sparks, ← toList_scaled]
  cases hshaping : s.shaping <;> simp [Canvas.specks, hshaping]

theorem toList_overlay (c : Canvas) (o : Overlay) :
    (c.overlay o).toList = spelled (overlayTemplate c o) := by
  cases o with
  | lightLeaks =>
    simp [Canvas.overlay, overlayTemplate, toList_gradients]
  | lensFlare =>
    simp [Canvas.overlay, overlayTemplate, toList_gradients]
  | scratches =>
    simp only [overlayTemplate, spelled_append, ← toList_black, ← toList_sparks, ← toList_scaled]
    simp [Canvas.overlay]
  | _ => exact toList_specks c _

theorem toList_format (pixelFormat : String) :
    (",setsar=1,format=" ++ pixelFormat).toList = spelled (formatTemplate pixelFormat) := by
  simp [formatTemplate]

/-! ## What is put in -/

/-- What numbers, sizes and expressions are written with. -/
def isInsertedChar (c : Char) : Bool := isExpressionChar c || c == '_'

/-- What a piece may put in, if there is one text of the settings. -/
def Part.Inserts (setting : String) : Part → Prop
  | .fixed _ => True
  | .number text => text.all isInsertedChar = true
  | .free text => text = setting

section
variable {setting : String}

theorem inserts_value {text : List Char} (h : IsValue text) :
    (Part.number text).Inserts setting := by
  refine List.all_eq_true.mpr fun c hc => ?_
  have hvalue := List.all_eq_true.mp h c hc
  simp only [isValueChar, Bool.or_eq_true, beq_iff_eq] at hvalue
  rcases hvalue with (hword | rfl) | rfl
  · simp [isInsertedChar, isExpressionChar, hword]
  · decide
  · decide

theorem inserts_expression {e : Expression} (h : e.Worded) : (Part.expression e).Inserts setting :=
  List.all_eq_true.mpr fun c hc => by
    rw [isInsertedChar, List.all_eq_true.mp (all_isExpressionChar h) c hc, Bool.true_or]

@[simp] theorem inserts_fixed (text : String) : (Part.fixed text).Inserts setting := trivial

@[simp] theorem inserts_nat (n : Nat) : (Part.nat n).Inserts setting :=
  inserts_value (isValue_toString n)

@[simp] theorem inserts_size (width height : Nat) : (Part.size width height).Inserts setting :=
  inserts_value (isValue_size width height)

@[simp] theorem inserts_numeral (x : Float) : (Part.numeral x).Inserts setting :=
  inserts_value (isValue_numeral x)

@[simp] theorem inserts_free (setting : String) : (Part.free setting).Inserts setting := rfl

theorem inserts_motion {f : MotionForm} (h : ∀ e ∈ f.expressions, e.Worded)
    (width height fps : Nat) :
    ∀ p ∈ motionTemplate f width height fps, p.Inserts setting := by
  have hexpressions : ∀ e ∈ f.expressions, (Part.expression e).Inserts setting :=
    fun e he => inserts_expression (h e he)
  cases f <;> simp_all [motionTemplate, zoompanTemplate, MotionForm.expressions]

theorem inserts_specks {c : Canvas} (h : IsValue c.seconds.toList) (s : Specks) :
    ∀ p ∈ specksTemplate c s, p.Inserts setting := by
  have hseconds : (Part.number c.seconds.toList).Inserts setting := inserts_value h
  cases hshaping : s.shaping <;>
    simp [specksTemplate, blackTemplate, sparksTemplate, scaledTemplate, hshaping, hseconds]

theorem inserts_overlay {c : Canvas} (h : IsValue c.seconds.toList) (o : Overlay) :
    ∀ p ∈ overlayTemplate c o, p.Inserts setting := by
  have hseconds : (Part.number c.seconds.toList).Inserts setting := inserts_value h
  cases o with
  | lightLeaks => simp [overlayTemplate, gradientsTemplate, hseconds]
  | lensFlare => simp [overlayTemplate, gradientsTemplate, hseconds]
  | scratches =>
    have hthin : (Part.number (toString c.width ++ "x1").toList).Inserts setting := by
      rw [String.toList_append]
      exact inserts_value ((isValue_toString c.width).append (by decide))
    simp only [overlayTemplate, blackTemplate, sparksTemplate, scaledTemplate,
      List.forall_mem_append, List.forall_mem_cons, List.not_mem_nil, false_imp_iff, implies_true,
      inserts_fixed, inserts_nat, hseconds, hthin, and_true]
  | _ => exact inserts_specks h _

/-- The length of the whole is a number. -/
theorem isValue_numeralText (x : Float) : IsValue (numeralText x).toList := by
  rw [toList_numeralText]
  exact isValue_numeral x

/-- **What is put into the filters of operations**: numbers and expressions, and the pixel
format. -/
theorem inserts_template (s : RenderSettings Float) (total : Float) (k : Kind Float) :
    ∀ p ∈ template s total k, p.Inserts s.pixelFormat := by
  cases k with
  | motion m frames => exact inserts_motion (MotionForm.worded_of m frames _) _ _ _
  | overlaySource o =>
    refine List.forall_mem_append.mpr
      ⟨inserts_overlay (c := ⟨s.width, s.height, s.fps, numeralText total⟩)
        (isValue_numeralText total) o, ?_⟩
    simp [formatTemplate]
  | _ => simp [template, formatTemplate]

end

/-! ## Labels -/

/-- The labels of the streams that compiled graphs make. -/
inductive IsLabel : String → Prop where
  | scaled (i : Nat) : IsLabel (scaledLabel i)
  | moved (i : Nat) : IsLabel (movedLabel i)
  | blend (k : Nat) : IsLabel (blendLabel k)
  | cat : IsLabel "cat"
  | graded : IsLabel "graded"
  | ovl : IsLabel "ovl"
  | composited : IsLabel "composited"
  | final : IsLabel finalLabel

theorem toList_imagePad (i : Nat) : (imagePad i).toList = Decimal.natDigits i ++ [':', 'v'] := by
  rw [imagePad, String.toList_append, toList_toString]
  rfl

/-! ## Graphs -/

/-- What is said of operations and their text holds of a graph if it holds of none, of one, and of
one in front of others, with a semicolon between them. -/
theorem filterComplex_induction {P : List (Operation Float) → List Char → Prop} (hnil : P [] [])
    (hsingle : ∀ op, P [op] op.render.toList)
    (hcons : ∀ op ops cs, P ops cs → P (op :: ops) (op.render.toList ++ ';' :: cs))
    (g : FilterGraph Float) :
    P g.operations g.filterComplex.toList := by
  rw [FilterGraph.filterComplex]
  induction g.operations with
  | nil => exact hnil
  | cons op r ih =>
    cases r with
    | nil =>
      rw [List.map_singleton, String.intercalate_singleton]
      exact hsingle op
    | cons op' r =>
      simpa [String.intercalate_cons_cons] using hcons op (op' :: r) _ ih

/-! ## Compiled graphs -/

/-- The frames of a segment, of which there is at least one, are counted in a word of 32 bits. -/
theorem frameCount_bounds (seconds : Float) (fps : Nat) :
    1 ≤ frameCount seconds fps ∧ frameCount seconds fps < 2 ^ 32 := by
  unfold frameCount
  simp only [Nat.pow_eq]
  omega

/-- What the operations of a compiled graph do. -/
inductive Kind.Used (s : RenderSettings Float) (spec : EffectSpec Float) (timeline : Timeline Float)
    (n : Nat) : Kind Float → Prop where
  | scaleCrop : Used s spec timeline n (.scaleCrop s.width s.height)
  | motion (seconds : Float) : Used s spec timeline n
    (.motion spec.motionOrDefault (frameCount seconds s.fps))
  | blend {t : Transition} {td offset : Float} (asked : spec.transition = some t)
    (fits : timeline.transition = some td)
      (start : offset ∈ timeline.offsets) : Used s spec timeline n (.blend t td offset)
  | concat : Used s spec timeline n (.concat n)
  | colorGrade {g : ColorGrade} (asked : spec.color = some g) :
    Used s spec timeline n (.colorGrade g)
  | overlaySource {o : Overlay} (asked : spec.overlay = some o) :
    Used s spec timeline n (.overlaySource o)
  | overlayComposite {o : Overlay} (asked : spec.overlay = some o) :
      Used s spec timeline n (.overlayComposite o .screen (overlayOpacity o))

/-- The filter of an operation is the one of its template, and what it does and its labels are those
of compiled graphs. -/
structure Operation.Regular (s : RenderSettings Float) (spec : EffectSpec Float)
    (timeline : Timeline Float) (n : Nat) (op : Operation Float) : Prop where
  kind : op.kind.Used s spec timeline n
  filter : op.filter.toList = spelled (template s timeline.total op.kind)
  output : IsLabel op.output
  inputs : ∀ l ∈ op.inputs, (∃ i, l = imagePad i) ∨ IsLabel l

section
variable {s : RenderSettings Float} {spec : EffectSpec Float} {timeline : Timeline Float} {n : Nat}

theorem regular_scaleCrop (i : Nat) : Operation.Regular s spec timeline n
    ⟨.scaleCrop s.width s.height, [imagePad i], scaledLabel i,
        scaleCropFilter s.width s.height s.pixelFormat⟩ where
  kind := .scaleCrop
  filter := by
    unfold scaleCropFilter
    simp [template, formatTemplate]
  output := .scaled i
  inputs := List.forall_mem_singleton.mpr (.inl ⟨i, rfl⟩)

theorem regular_motion (seconds : Float) (i : Nat) : Operation.Regular s spec timeline n
    ⟨.motion spec.motionOrDefault (frameCount seconds s.fps), [scaledLabel i], movedLabel i,
      motionFilter spec.motionOrDefault
          (frameCount seconds s.fps) s.width s.height s.fps s.motion⟩ where
  kind := .motion seconds
  filter := toList_motion _ _ _ _
  output := .moved i
  inputs := List.forall_mem_singleton.mpr (.inr (.scaled i))

theorem regular_blend {t : Transition} {td offset : Float} (asked : spec.transition = some t)
    (fits : timeline.transition = some td) (start : offset ∈ timeline.offsets) {current : String}
    (h : IsLabel current) (k : Nat) :
    Operation.Regular s spec timeline n
      ⟨.blend t td offset, [current, movedLabel (k + 1)], blendLabel k,
          blendFilter t td offset⟩ where
  kind := .blend asked fits start
  filter := by
    unfold blendFilter
    simp [template, toList_numeralText]
  output := .blend k
  inputs := List.forall_mem_cons.mpr ⟨.inr h, List.forall_mem_singleton.mpr (.inr (.moved (k + 1)))⟩

theorem regular_concat : Operation.Regular s spec timeline n (concatOperation n) where
  kind := .concat
  filter := by simp [template, concatOperation]
  output := .cat
  inputs := List.forall_mem_map.mpr fun i _ => .inr (.moved i)

theorem regular_colorGrade {g : ColorGrade} (asked : spec.color = some g) {current : String}
    (h : IsLabel current) :
    Operation.Regular s spec timeline n ⟨.colorGrade g, [current], "graded", gradeFilter g⟩ where
  kind := .colorGrade asked
  filter := by simp [template]
  output := .graded
  inputs := List.forall_mem_singleton.mpr (.inr h)

theorem regular_overlaySource {o : Overlay} (asked : spec.overlay = some o) :
    Operation.Regular s spec timeline n
    ⟨.overlaySource o, [], "ovl",
        (OverlayLayer.of o s.width s.height s.fps timeline.total s.pixelFormat).source⟩ where
  kind := .overlaySource asked
  filter := by
    rw [template, spelled_append, ← toList_overlay, ← toList_format]
    simp only [OverlayLayer.of, String.toList_append, List.append_assoc]
  output := .ovl
  inputs := List.forall_mem_nil _

theorem regular_overlayComposite {o : Overlay} (asked : spec.overlay = some o) {current : String}
    (h : IsLabel current) :
    Operation.Regular s spec timeline n ⟨.overlayComposite o .screen (overlayOpacity o),
      [current, "ovl"], "composited",
      compositeFilter BlendMode.screen.name (overlayOpacity o)⟩ where
  kind := .overlayComposite asked
  filter := by
    unfold compositeFilter
    simp [template, toList_numeralText]
  output := .composited
  inputs := List.forall_mem_cons.mpr ⟨.inr h, List.forall_mem_singleton.mpr (.inr .ovl)⟩

theorem regular_segments : ∀ (ds : List Float) (i : Nat),
    ∀ op ∈ segmentOperations s spec.motionOrDefault i ds, op.Regular s spec timeline n
  | [], _ => List.forall_mem_nil _
  | d :: r, i => List.forall_mem_append.mpr
    ⟨List.forall_mem_cons.mpr
      ⟨regular_scaleCrop i, List.forall_mem_singleton.mpr (regular_motion d i)⟩,
      regular_segments r (i + 1)⟩

theorem regular_blends {t : Transition} {td : Float} (asked : spec.transition = some t)
    (fits : timeline.transition = some td) :
    ∀ (offsets : List Float) (k : Nat) {current : String}, offsets ⊆ timeline.offsets →
      IsLabel current →
      ∀ op ∈ blendOperations t td k current offsets, op.Regular s spec timeline n
  | [], _, _, _, _ => List.forall_mem_nil _
  | _ :: r, k, _, hstarts, h => List.forall_mem_cons.mpr
    ⟨regular_blend asked fits (hstarts List.mem_cons_self) h k,
      regular_blends asked fits r (k + 1) (List.subset_of_cons_subset hstarts) (.blend k)⟩

theorem regular_joined :
    IsLabel (joined spec timeline n).label ∧
        ∀ op ∈ (joined spec timeline n).operations, op.Regular s spec timeline n := by
  unfold joined joinStage
  split
  · next t td asked fits =>
    refine ⟨?_, regular_blends asked fits _ 0 (List.Subset.refl _) (.moved 0)⟩
    show IsLabel (blendedLabel _)
    unfold blendedLabel
    split
    · exact .moved 0
    · exact .blend _
  · exact ⟨.cat, List.forall_mem_singleton.mpr regular_concat⟩

theorem regular_graded :
    IsLabel (graded spec timeline n).label ∧
        ∀ op ∈ (graded spec timeline n).operations, op.Regular s spec timeline n := by
  have hjoined := (@regular_joined s spec timeline n).1
  unfold graded gradeStage
  split
  · next asked => exact ⟨.graded, List.forall_mem_singleton.mpr (regular_colorGrade asked hjoined)⟩
  · exact ⟨hjoined, List.forall_mem_nil _⟩

theorem regular_staged : ∀ op ∈ stagedOperations s spec timeline n,
    op.Regular s spec timeline n := by
  have hgraded := @regular_graded s spec timeline n
  refine List.forall_mem_append.mpr ⟨List.forall_mem_append.mpr ⟨List.forall_mem_append.mpr
    ⟨regular_segments _ _, regular_joined.2⟩, hgraded.2⟩, ?_⟩
  unfold overlaid overlayStage
  split
  · next asked => exact List.forall_mem_cons.mpr ⟨regular_overlaySource asked,
      List.forall_mem_singleton.mpr (regular_overlayComposite asked hgraded.1)⟩
  · exact List.forall_mem_nil _

end

/-- **The operations of a compiled graph** do what was asked for, with the filters of their
templates. -/
theorem regular_compiled (images : List String) (durations : List Float) (s : RenderSettings Float)
    (spec : EffectSpec Float) :
    ∀ op ∈ (compiled images durations s spec).operations,
        op.Regular s spec (timelineOf s spec durations) images.length := by
  have hstaged := @regular_staged s spec (timelineOf s spec durations) images.length
  show ∀ op ∈ operationsOf s spec (timelineOf s spec durations) images.length, _
  rw [operationsOf_eq]
  rcases List.eq_nil_or_concat'
    (stagedOperations s spec (timelineOf s spec durations) images.length) with h | ⟨front, last, h⟩
  · rw [h]
    exact List.forall_mem_nil _
  · rw [h] at hstaged ⊢
    obtain ⟨hfront, hlast⟩ := List.forall_mem_append.mp hstaged
    have hregular := hlast last List.mem_cons_self
    rw [relabelLast_concat]
    exact List.forall_mem_append.mpr
      ⟨hfront, List.forall_mem_singleton.mpr
        ⟨hregular.kind, hregular.filter, .final, hregular.inputs⟩⟩

end Slideshow.Graph
