import Slideshow.Proofs.Graph.Template

/-!
# When the text of a graph is definite

What is fixed in a filter is definite for each kind of operation, and between it and what is put in
stands no letter and no digit. So a filter is definite if what is put in is, which are numbers and
the pixel format of the settings.

* `isTidy` are the templates that keep what is put in apart, and `inserted` is what is put in.
* `Kind.IsFinite` says of an operation that its numbers are finite.

Headlines:
* `definite_spelled`: a tidy template is definite if what is put in is.
* **`definite_filterComplex`**: the text of a graph is definite if the numbers of its operations are
  finite.
-/

namespace Slideshow.Graph

open Scalar

/-! ## Tidy templates -/

namespace Part

/-- A fixed text that begins between words. -/
def opens : Part → Bool
  | fixed text => text.toList.head?.any (!isWordChar ·)
  | _ => false

/-- A fixed text that ends between words. -/
def closes : Part → Bool
  | fixed text => text.toList.getLast?.any (!isWordChar ·)
  | _ => false

/-- What is put in. -/
def inserted? : Part → Option (List Char)
  | fixed _ => none
  | number text => some text
  | free text => some text.toList

/-- What is fixed is definite. -/
def isSound : Part → Bool
  | fixed text => decide (Definite text.toList)
  | _ => true

end Part

/-- Between any two pieces words end. -/
def separated : List Part → Bool
  | p :: q :: r => (p.closes || q.opens) && separated (q :: r)
  | _ => true

/-- What is fixed is definite, and what is put in stands apart from it. -/
def isTidy (parts : List Part) : Bool := separated parts && parts.all Part.isSound

/-- What is put into some pieces. -/
def inserted (parts : List Part) : List (List Char) := parts.filterMap Part.inserted?

theorem boundary_spelled {p : Part} (h : p.opens = true) (r : List Part) :
    Boundary (spelled (p :: r)) := by
  cases p with
  | fixed text =>
    intro c hc
    rw [spelled_cons, Part.chars_fixed] at hc
    rw [Part.opens] at h
    cases htext : text.toList with
    | nil => simp [htext] at h
    | cons d ds =>
      obtain rfl : d = c := by simpa [htext] using hc
      simpa [htext] using h
  | number text => cases h
  | free text => cases h

theorem definite_closed {p : Part} (h : p.closes = true) (bs : List Char) :
    Definite (p.chars ++ bs) ↔ Definite p.chars ∧ Definite bs := by
  cases p with
  | fixed text =>
    rw [Part.closes] at h
    rw [Part.chars_fixed]
    rcases List.eq_nil_or_concat' text.toList with htext | ⟨front, c, htext⟩
    · simp [htext] at h
    · have hc : isWordChar c = false := by simpa [htext] using h
      have hnil : Definite [] := List.forall_mem_nil _
      rw [htext, List.append_assoc, List.singleton_append, definite_between hc, definite_between hc,
        and_iff_left hnil]
  | number text => cases h
  | free text => cases h

theorem definite_separated : ∀ {parts : List Part}, separated parts = true →
    (Definite (spelled parts) ↔ ∀ p ∈ parts, Definite p.chars)
  | [], _ => iff_of_true (List.forall_mem_nil _) (List.forall_mem_nil _)
  | [p], _ => by simp
  | p :: q :: r, h => by
    obtain ⟨hbetween, hrest⟩ := Bool.and_eq_true_iff.mp h
    rw [List.forall_mem_cons, ← definite_separated hrest, spelled_cons]
    rcases Bool.or_eq_true_iff.mp hbetween with hcloses | hopens
    · exact definite_closed hcloses _
    · exact definite_append (boundary_spelled hopens r)

/-- **A tidy template is definite if what is put in is.** -/
theorem definite_spelled {parts : List Part} (h : isTidy parts = true) :
    Definite (spelled parts) ↔ ∀ cs ∈ inserted parts, Definite cs := by
  obtain ⟨hseparated, hsound⟩ := Bool.and_eq_true_iff.mp h
  rw [List.all_eq_true] at hsound
  rw [definite_separated hseparated]
  simp only [inserted, List.mem_filterMap]
  constructor
  · rintro hall cs ⟨p, hp, hcs⟩
    have hdefinite := hall p hp
    cases p with
    | fixed text => cases hcs
    | number text => cases hcs; exact hdefinite
    | free text => cases hcs; exact hdefinite
  · intro hall p hp
    cases hpart : p with
    | fixed text =>
      have hfixed := hsound p hp
      rw [hpart] at hfixed
      exact of_decide_eq_true hfixed
    | number text => exact hall text ⟨p, hp, by rw [hpart]; rfl⟩
    | free text => exact hall text.toList ⟨p, hp, by rw [hpart]; rfl⟩

/-! ## The templates of operations -/

/-- The numbers of an operation are finite, and the pixel format, where it is written, is
definite. -/
def Kind.IsFinite (s : RenderSettings Float) (total : Float) : Kind Float → Prop
  | .scaleCrop _ _ => Definite s.pixelFormat.toList
  | .motion m frames =>
    ∀ x ∈ MotionForm.numbers m frames (s.motion.limits s.width s.height), isFinite x = true
  | .blend _ duration offset => isFinite duration = true ∧ isFinite offset = true
  | .concat _ => True
  | .colorGrade _ => True
  | .overlaySource _ => isFinite total = true ∧ Definite s.pixelFormat.toList
  | .overlayComposite _ _ opacity => isFinite opacity = true

theorem definite_toString (n : Nat) : Definite (toString n).toList := by
  rw [toList_toString]
  exact definite_natDigits n

theorem definite_sizeText (width height : Nat) :
    Definite (toString width ++ "x" ++ toString height).toList := by
  simp only [String.toList_append, toList_toString, List.append_assoc]
  exact definite_size width height

theorem inserted_zoompan (zoom x y : Expression) (width height fps : Nat) :
    inserted (zoompanTemplate zoom x y width height fps) =
    [zoom.chars, x.chars, y.chars, (toString width ++ "x" ++ toString height).toList,
      (toString fps).toList] := rfl

theorem inserted_append (as bs : List Part) : inserted (as ++ bs) = inserted as ++ inserted bs :=
  List.filterMap_append

/-- A motion is definite if its expressions are. -/
theorem definite_motion (f : MotionForm) (width height fps : Nat) :
    Definite (spelled (motionTemplate f width height fps)) ↔
        ∀ e ∈ f.expressions, Definite e.chars := by
  cases f with
  | still =>
    refine iff_of_true ?_ (List.forall_mem_nil _)
    rw [definite_spelled rfl]
    exact List.forall_mem_singleton.mpr (definite_toString fps)
  | window zoom x y =>
    rw [motionTemplate, definite_spelled rfl, inserted_zoompan]
    simp only [MotionForm.expressions, List.forall_mem_cons, List.not_mem_nil, false_imp_iff,
      implies_true, definite_sizeText, definite_toString, and_true]
  | turn angle =>
    have hinserted : inserted (motionTemplate (.turn angle) width height fps) =
        inserted (zoompanTemplate (.ofNat 1) (.ofNat 0) (.ofNat 0) width height fps) ++
          [angle.chars, (toString width).toList, (toString height).toList] := rfl
    rw [definite_spelled rfl, hinserted, inserted_zoompan]
    simp only [MotionForm.expressions, List.forall_mem_cons, List.forall_mem_append,
      List.not_mem_nil, false_imp_iff, implies_true, definite_sizeText, definite_toString, and_true,
      and_assoc]

theorem isTidy_overlay (c : Canvas) (o : Overlay) (pixelFormat : String) :
    isTidy (overlayTemplate c o ++ formatTemplate pixelFormat) = true := by
  cases o <;> rfl

theorem inserted_specks (c : Canvas) (s : Specks) : inserted (specksTemplate c s) =
    [(toString (max (c.width / s.divisor) 1) ++ "x" ++
      toString (max (c.height / s.divisor) 1)).toList, (toString c.fps).toList,
      c.seconds.toList, (toString s.brightness).toList, (toString c.width).toList,
          (toString c.height).toList] := by
  rcases s with ⟨divisor, density, brightness, scaling, _ | shaping⟩ <;> rfl

/-- What is put into the source of an overlay are sizes, numbers and its length. -/
theorem definite_overlay (c : Canvas) (o : Overlay) (pixelFormat : String) :
    Definite (spelled (overlayTemplate c o ++ formatTemplate pixelFormat)) ↔
      Definite c.seconds.toList ∧ Definite pixelFormat.toList := by
  have hthin : Definite (toString c.width ++ "x1").toList := by
    rw [String.toList_append, toList_toString]
    exact definite_size c.width 1
  have hspecks : ∀ s, (∀ cs ∈ inserted (specksTemplate c s), Definite cs) ↔
      Definite c.seconds.toList := by
    intro s
    simp only [inserted_specks, List.forall_mem_cons, List.not_mem_nil, false_imp_iff, implies_true,
      definite_sizeText, definite_toString, true_and, and_true]
  rw [definite_spelled (isTidy_overlay c o pixelFormat), inserted_append, List.forall_mem_append]
  refine and_congr ?_ List.forall_mem_singleton
  cases o with
  | scratches =>
    have hinserted : inserted (overlayTemplate c .scratches) = [(toString c.width ++ "x1").toList,
      (toString c.fps).toList, c.seconds.toList, (toString 200).toList, (toString c.width).toList,
      (toString c.height).toList] := rfl
    simp only [hinserted, List.forall_mem_cons, List.not_mem_nil, false_imp_iff, implies_true,
      hthin, definite_toString, true_and, and_true]
  | lightLeaks =>
    have hinserted : inserted (overlayTemplate c .lightLeaks) =
      [(toString c.width ++ "x" ++ toString c.height).toList, (toString c.fps).toList,
        c.seconds.toList] := rfl
    simp only [hinserted, List.forall_mem_cons, List.not_mem_nil, false_imp_iff, implies_true,
      definite_sizeText, definite_toString, true_and, and_true]
  | lensFlare =>
    have hinserted : inserted (overlayTemplate c .lensFlare) =
      [(toString c.width ++ "x" ++ toString c.height).toList, (toString c.fps).toList,
        c.seconds.toList, (toString (c.width * 4 / 5)).toList, (toString (c.height / 5)).toList,
        (toString c.width).toList,
        (toString (c.height / 2)).toList] := rfl
    simp only [hinserted, List.forall_mem_cons, List.not_mem_nil, false_imp_iff, implies_true,
      definite_sizeText, definite_toString, true_and, and_true]
  | _ => exact hspecks _

/-- **The filter of an operation is definite if its numbers are finite.** -/
theorem definite_template (s : RenderSettings Float) (total : Float) (k : Kind Float) :
    Definite (spelled (template s total k)) ↔ k.IsFinite s total := by
  cases k with
  | scaleCrop width height =>
    have hinserted : inserted (template s total (.scaleCrop width height)) =
      [(toString width).toList, (toString height).toList,
      (toString width).toList, (toString height).toList, s.pixelFormat.toList] := rfl
    rw [definite_spelled rfl, hinserted]
    simp only [List.forall_mem_cons, List.not_mem_nil, false_imp_iff, implies_true,
      definite_toString, true_and, and_true]
    rfl
  | motion m frames =>
    exact (definite_motion _ s.width s.height s.fps).trans
      (MotionForm.definite_expressions m frames _)
  | blend t duration offset =>
    have htidy : isTidy (template s total (.blend t duration offset)) = true := by cases t <;> rfl
    have hinserted : inserted (template s total (.blend t duration offset)) =
      [Decimal.numeralChars duration, Decimal.numeralChars offset] := rfl
    rw [definite_spelled htidy, hinserted, List.forall_mem_cons, List.forall_mem_singleton,
      definite_numeral, definite_numeral]
    rfl
  | concat segments =>
    rw [definite_spelled rfl]
    exact iff_of_true (List.forall_mem_singleton.mpr (definite_toString segments)) trivial
  | colorGrade g =>
    have htidy : isTidy (template s total (.colorGrade g)) = true := by cases g <;> rfl
    rw [definite_spelled htidy]
    exact iff_of_true (List.forall_mem_nil _) trivial
  | overlaySource o =>
    refine (definite_overlay _ o s.pixelFormat).trans ?_
    rw [toList_numeralText, definite_numeral]
    rfl
  | overlayComposite o mode opacity =>
    have htidy : isTidy (template s total (.overlayComposite o mode opacity)) = true := by
      cases mode
      rfl
    rw [definite_spelled htidy]
    exact List.forall_mem_singleton.trans (definite_numeral opacity)

/-! ## Graphs -/

/-- A letter with a number behind it. -/
theorem definite_counted {c : Char} (hc : c.isAlpha = true) (hn : c ≠ 'n') (hN : c ≠ 'N')
    (i : Nat) :
    Definite (c :: Decimal.natDigits i) := by
  have hdigits : ∀ d ∈ Decimal.natDigits i, Decimal.isDigit d = true :=
    fun _ => Decimal.isDigit_of_mem_natDigits
  have hletter : ∀ d : Char, d ≠ c → Decimal.isDigit d = false → d ∉ c :: Decimal.natDigits i := by
    intro d hd hdigit hmem
    rcases List.mem_cons.mp hmem with heq | hmem
    · exact hd heq
    · rw [hdigits d hmem] at hdigit
      cases hdigit
  refine (definite_word (List.cons_ne_nil _ _) fun d hd => ?_).mpr
    (isDefinite_of_not_mem (hletter 'n' hn.symm (by decide)) (hletter 'N' hN.symm (by decide))
      (.inl hc))
  rcases List.mem_cons.mp hd with rfl | hd
  · simp [isWordChar, Char.isAlphanum, hc]
  · exact isWordChar_of_isDigit (hdigits d hd)

theorem IsLabel.definite {l : String} (h : IsLabel l) : Definite l.toList := by
  cases h with
  | scaled i =>
    simp only [scaledLabel, String.toList_append, toList_toString]
    exact definite_counted (by decide) (by decide) (by decide) i
  | moved i =>
    simp only [movedLabel, String.toList_append, toList_toString]
    exact definite_counted (by decide) (by decide) (by decide) i
  | blend k =>
    simp only [blendLabel, String.toList_append, toList_toString]
    exact definite_counted (by decide) (by decide) (by decide) k
  | cat => decide
  | graded => decide
  | ovl => decide
  | composited => decide
  | final => decide

theorem definite_imagePad (i : Nat) : Definite (imagePad i).toList := by
  have hv : Definite ['v'] := by decide
  rw [toList_imagePad]
  exact (definite_between (by decide)).mpr ⟨definite_natDigits i, hv⟩

/-- Labels in front of a text. -/
theorem definite_bracketed {cs : List Char} :
    ∀ {labels : List String}, (∀ l ∈ labels, Definite l.toList) →
    (Definite ((String.join (labels.map Operation.bracketed)).toList ++ cs) ↔ Definite cs)
  | [], _ => by simp
  | l :: labels, h => by
    obtain ⟨hl, hlabels⟩ := List.forall_mem_cons.mp h
    have htext : (String.join ((l :: labels).map Operation.bracketed)).toList ++ cs =
        '[' ::
            (l.toList ++ ']' :: ((String.join (labels.map Operation.bracketed)).toList ++ cs)) := by
      simp [Operation.bracketed]
    rw [htext, definite_symbol (by decide), definite_between (by decide), and_iff_right hl,
      definite_bracketed hlabels]

section
variable {s : RenderSettings Float} {spec : EffectSpec Float} {timeline : Timeline Float} {n : Nat}

theorem Operation.Regular.definite_render {op : Operation Float}
    (h : op.Regular s spec timeline n) :
    Definite op.render.toList ↔ op.kind.IsFinite s timeline.total := by
  have htext : op.render.toList = (String.join (op.inputs.map Operation.bracketed)).toList ++
      (spelled (template s timeline.total op.kind) ++ '[' :: (op.output.toList ++ [']'])) := by
    rw [← h.filter]
    simp [Operation.render, Operation.bracketed]
  have hnil : Definite [] := List.forall_mem_nil _
  have hinputs : ∀ l ∈ op.inputs, Definite l.toList := by
    intro l hl
    rcases h.inputs l hl with ⟨i, rfl⟩ | hlabel
    · exact definite_imagePad i
    · exact hlabel.definite
  rw [htext, definite_bracketed hinputs, definite_between (by decide), definite_between (by decide),
    definite_template, and_iff_left ⟨h.output.definite, hnil⟩]

/-- **The text of a graph is definite if the numbers of its operations are finite.** -/
theorem definite_filterComplex {g : FilterGraph Float}
    (h : ∀ op ∈ g.operations, op.Regular s spec timeline n) :
    Definite g.filterComplex.toList ↔ ∀ op ∈ g.operations, op.kind.IsFinite s timeline.total := by
  have hnil : Definite [] := List.forall_mem_nil _
  refine filterComplex_induction (P := fun ops cs => (∀ op ∈ ops, op.Regular s spec timeline n) →
    (Definite cs ↔ ∀ op ∈ ops, op.kind.IsFinite s timeline.total)) ?_ ?_ ?_ g h
  · exact fun _ => iff_of_true hnil (List.forall_mem_nil _)
  · intro op hop
    rw [List.forall_mem_singleton]
    exact (List.forall_mem_singleton.mp hop).definite_render
  · intro op ops cs ih hops
    obtain ⟨hop, hops⟩ := List.forall_mem_cons.mp hops
    rw [List.forall_mem_cons, definite_between (by decide), hop.definite_render, ih hops]

end

end Slideshow.Graph
