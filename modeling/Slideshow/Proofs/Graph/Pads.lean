import Slideshow.Proofs.Graph.Linear
import Slideshow.Proofs.Graph.Template

/-!
# The pads in the text of a graph

The text of a graph says in brackets which streams its filters read and write. A bracket in quotes
or behind a backslash is none, so that a text is read from left to right. Streams that are no
operation's are those of inputs, and their labels begin with the number of the input. Filters have
no brackets, but at their end stands the pixel format, as it is set.

* `Scan` is how far a text is read, and `labels` is what stands in its brackets.
* `isPad` are the labels of inputs, and `pads` the ones in a text.
* `Names` says of a text that it is complete and which inputs it names, and `IsInert` that it names
  none.
* `streams` are the streams of a graph, and `unread` those that are left.

Headlines:
* `pads_steady`: a template whose quotes are closed names no input if its pixel format does not.
* **`unread_compiled`**: one stream of a compiled graph is left, the last one.
* **`pads_filterComplex`**: the text of a compiled graph names its images, each once.
-/

namespace Slideshow.Graph

/-! ## Reading labels -/

/-- How far a text is read. -/
inductive Scan where
  | plain
  /-- In quotes. -/
  | quoted
  /-- Behind a backslash. -/
  | escaped
  /-- In brackets, with what was read of the label. -/
  | label (begun : List Char)
deriving DecidableEq, Repr

namespace Scan

/-- One character more. -/
def next : Scan → Char → Scan
  | plain, c =>
    if c = quote then quoted
    else if c = '\x5c' then escaped
    else if c = '[' then label []
    else plain
  | quoted, c => if c = quote then plain else quoted
  | escaped, _ => plain
  | label begun, c => if c = ']' then plain else label (begun ++ [c])

/-- The label that a character ends. -/
def ended? : Scan → Char → Option (List Char)
  | label begun, c => if c = ']' then some begun else none
  | _, _ => none

/-- How far a text is read at its end. -/
def after (r : Scan) (cs : List Char) : Scan := cs.foldl next r

end Scan

/-- The labels in a text that is read from somewhere on. -/
def labels : Scan → List Char → List (List Char)
  | _, [] => []
  | r, c :: cs => (r.ended? c).toList ++ labels (r.next c) cs

/-- Labels of inputs begin with a number. -/
def isPad (label : List Char) : Bool := label.head?.any Decimal.isDigit

/-- The labels of inputs in a text. -/
def pads (r : Scan) (cs : List Char) : List (List Char) := (labels r cs).filter isPad

/-- A text that is complete by itself and names these inputs. -/
def Names (cs : List Char) (inputs : List (List Char)) : Prop :=
  Scan.plain.after cs = .plain ∧ pads .plain cs = inputs

/-- A text that is complete by itself and names no input. -/
def IsInert (cs : List Char) : Prop := Names cs []

instance (cs : List Char) : Decidable (IsInert cs) :=
  inferInstanceAs (Decidable (Scan.plain.after cs = .plain ∧ pads .plain cs = []))

/-- Two brackets in a text, of which one is in quotes. -/
example : labels .plain "[0:v]format=gray,drawtext='[1:v]'[s0]".toList =
    ["0:v".toList, "s0".toList] := by decide

theorem Scan.after_append (r : Scan) (as bs : List Char) :
    r.after (as ++ bs) = (r.after as).after bs :=
  List.foldl_append

theorem labels_append : ∀ (r : Scan) (as bs : List Char),
    labels r (as ++ bs) = labels r as ++ labels (r.after as) bs
  | _, [], _ => rfl
  | r, c :: as, bs => by
    rw [List.cons_append, labels, labels, labels_append (r.next c) as bs, List.append_assoc]
    rfl

theorem pads_append (r : Scan) (as bs : List Char) :
    pads r (as ++ bs) = pads r as ++ pads (r.after as) bs := by
  rw [pads, labels_append, List.filter_append]
  rfl

theorem Names.append {as bs : List Char} {xs ys : List (List Char)} (ha : Names as xs)
    (hb : Names bs ys) :
    Names (as ++ bs) (xs ++ ys) := by
  rw [Names, Scan.after_append, pads_append, ha.1, ha.2]
  exact ⟨hb.1, congrArg (xs ++ ·) hb.2⟩

/-! ## Templates -/

/-- What a reader takes for itself, outside of brackets. -/
def isSpecial (c : Char) : Bool := c == quote || c == '\x5c' || c == '['

/-- A number puts in nothing special, and a text of the settings is inert. -/
def Part.IsHarmless : Part → Prop
  | .fixed _ => True
  | .number text => text.all (!isSpecial ·) = true
  | .free text => IsInert text.toList

/-- How far a piece is read at its end, if it names no input and is put in where it may be. -/
def Part.lead? (r : Scan) : Part → Option Scan
  | .fixed text => if pads r text.toList = [] then some (r.after text.toList) else none
  | .number _ => if r = .plain ∨ r = .quoted then some r else none
  | .free _ => if r = .plain then some .plain else none

/-- A template in which quotes are closed and no input is named. -/
def isSteady (parts : List Part) : Bool := parts.foldlM Part.lead? Scan.plain == some .plain

/-- What is not special is passed over. -/
theorem passed {r : Scan} (hr : r = .plain ∨ r = .quoted) :
    ∀ {cs : List Char}, cs.all (!isSpecial ·) = true →
    r.after cs = r ∧ labels r cs = []
  | [], _ => ⟨rfl, rfl⟩
  | c :: cs, h => by
    obtain ⟨hc, hcs⟩ := Bool.and_eq_true_iff.mp h
    simp only [isSpecial, Bool.not_eq_true', Bool.or_eq_false_iff, beq_eq_false_iff_ne, ne_eq] at hc
    obtain ⟨⟨hquote, hslash⟩, hbracket⟩ := hc
    have hnext : r.next c = r ∧ r.ended? c = none := by
      rcases hr with rfl | rfl <;> simp [Scan.next, Scan.ended?, hquote, hslash, hbracket]
    obtain ⟨hafter, hlabels⟩ := passed hr hcs
    rw [Scan.after, List.foldl_cons, labels, hnext.1, hnext.2]
    exact ⟨hafter, by simpa using hlabels⟩

theorem Part.lead {p : Part} {r r' : Scan} (hp : p.IsHarmless) (h : p.lead? r = some r') :
    r.after p.chars = r' ∧ pads r p.chars = [] := by
  cases p with
  | fixed text =>
    simp only [Part.lead?] at h
    split at h
    · next hpads => exact ⟨Option.some.inj h, hpads⟩
    · cases h
  | number text =>
    simp only [Part.lead?] at h
    split at h
    · next hr =>
      obtain rfl := Option.some.inj h
      obtain ⟨hafter, hlabels⟩ := passed hr hp
      exact ⟨hafter, by rw [pads, Part.chars_number, hlabels]; rfl⟩
    · cases h
  | free text =>
    simp only [Part.lead?] at h
    split at h
    · next hr =>
      obtain rfl := Option.some.inj h
      rw [hr]
      exact hp
    · cases h

/-- **A steady template** is complete by itself and names no input, if what is put in is
harmless. -/
theorem pads_steady {parts : List Part} (h : isSteady parts = true)
    (hparts : ∀ p ∈ parts, p.IsHarmless) :
    IsInert (spelled parts) := by
  have hall : ∀ {parts : List Part} {r r' : Scan}, (∀ p ∈ parts, p.IsHarmless) →
    parts.foldlM Part.lead? r = some r' →
      r.after (spelled parts) = r' ∧ pads r (spelled parts) = [] := by
    intro parts
    induction parts with
    | nil =>
      intro r r' _ h
      exact ⟨Option.some.inj h, rfl⟩
    | cons p parts ih =>
      intro r r' hparts h
      obtain ⟨hp, hparts⟩ := List.forall_mem_cons.mp hparts
      rw [List.foldlM_cons] at h
      obtain ⟨r₁, hlead, hrest⟩ := Option.bind_eq_some_iff.mp h
      obtain ⟨hafter, hpads⟩ := Part.lead hp hlead
      obtain ⟨hafterRest, hpadsRest⟩ := ih hparts hrest
      rw [spelled_cons, Scan.after_append, pads_append, hafter, hpads]
      exact ⟨hafterRest, hpadsRest⟩
  exact hall hparts (eq_of_beq h)

/-! ## The templates of operations -/

theorem isSpecial_inserted {c : Char} (h : isInsertedChar c = true) : isSpecial c = false := by
  cases hspecial : isSpecial c with
  | false => rfl
  | true =>
    have hcases : c = quote ∨ c = '\x5c' ∨ c = '[' := by simpa [isSpecial, or_assoc] using hspecial
    rcases hcases with rfl | rfl | rfl <;> exact absurd h (by decide)

/-- **What is put into the filters of operations is harmless** if the pixel format is. -/
theorem isHarmless_template {s : RenderSettings Float} (h : IsInert s.pixelFormat.toList)
    (total : Float) (k : Kind Float) :
    ∀ p ∈ template s total k, p.IsHarmless := by
  intro p hp
  have hinserts := inserts_template s total k p hp
  cases p with
  | fixed text => trivial
  | number text =>
    exact List.all_eq_true.mpr fun c hc => by
      rw [isSpecial_inserted (List.all_eq_true.mp hinserts c hc)]; rfl
  | free text =>
    obtain rfl : text = s.pixelFormat := hinserts
    exact h

theorem isSteady_template (s : RenderSettings Float) (total : Float) (k : Kind Float) :
    isSteady (template s total k) = true := by
  cases k with
  | motion m frames =>
    show isSteady (motionTemplate _ _ _ _) = true
    cases MotionForm.of m frames (s.motion.limits s.width s.height) <;> rfl
  | blend t duration offset => cases t <;> rfl
  | colorGrade g => cases g <;> rfl
  | overlaySource o => cases o <;> rfl
  | overlayComposite o mode opacity =>
    cases mode
    rfl
  | _ => rfl

/-! ## Operations -/

/-- The labels of inputs among some labels. -/
def padsAmong (ls : List String) : List (List Char) := (ls.map String.toList).filter isPad

theorem padsAmong_append (as bs : List String) :
    padsAmong (as ++ bs) = padsAmong as ++ padsAmong bs := by
  rw [padsAmong, List.map_append, List.filter_append]
  rfl

/-- A label without a closing bracket in it. -/
def IsClean (label : String) : Prop := ']' ∉ label.toList

theorem IsLabel.isValue {l : String} (h : IsLabel l) : IsValue l.toList := by
  have hcounted : ∀ {letter : String} {i : Nat}, IsValue letter.toList →
      IsValue (letter ++ toString i).toList := by
    intro letter i hletter
    rw [String.toList_append]
    exact hletter.append (isValue_toString i)
  cases h with
  | scaled i => exact hcounted (by decide)
  | moved i => exact hcounted (by decide)
  | blend k => exact hcounted (by decide)
  | _ => decide

theorem IsLabel.isPad {l : String} (h : IsLabel l) : Graph.isPad l.toList = false := by
  cases h with
  | scaled i => simp [Graph.isPad, scaledLabel, Decimal.isDigit]
  | moved i => simp [Graph.isPad, movedLabel, Decimal.isDigit]
  | blend k => simp [Graph.isPad, blendLabel, Decimal.isDigit]
  | _ => decide

theorem IsLabel.isClean {l : String} (h : IsLabel l) : IsClean l :=
  fun hmem => h.isValue.ne (by decide) _ hmem rfl

theorem isPad_imagePad (i : Nat) : isPad (imagePad i).toList = true := by
  obtain ⟨c, cs, h⟩ := List.exists_cons_of_ne_nil (Decimal.natDigits_ne_nil i)
  have hc : Decimal.isDigit c = true :=
    Decimal.isDigit_of_mem_natDigits (n := i) (by rw [h]; exact List.mem_cons_self)
  rw [toList_imagePad, h]
  exact hc

theorem isClean_imagePad (i : Nat) : IsClean (imagePad i) := by
  intro h
  rw [toList_imagePad] at h
  rcases List.mem_append.mp h with h | h
  · exact absurd (Decimal.isDigit_of_mem_natDigits h) (by decide)
  · exact absurd h (by decide)

/-- A label in brackets is read as it is. -/
theorem names_bracketed {label : String} (h : IsClean label) :
    Names (Operation.bracketed label).toList (padsAmong [label]) := by
  have hread : ∀ {cs begun : List Char}, ']' ∉ cs →
    (Scan.label begun).after (cs ++ [']']) = .plain ∧
      labels (.label begun) (cs ++ [']']) = [begun ++ cs] := by
    intro cs
    induction cs with
    | nil =>
      intro begun _
      simp [Scan.after, Scan.next, Scan.ended?, labels]
    | cons c cs ih =>
      intro begun h
      obtain ⟨hc, hcs⟩ := not_or.mp (mt List.mem_cons.mpr h)
      obtain ⟨hafter, hlabels⟩ := @ih (begun ++ [c]) hcs
      have hnext : (Scan.label begun).next c = .label (begun ++ [c]) := if_neg (Ne.symm hc)
      have hended : (Scan.label begun).ended? c = none := if_neg (Ne.symm hc)
      rw [List.cons_append, Scan.after, List.foldl_cons, labels, hnext, hended, hlabels]
      exact ⟨hafter, by simp⟩
  have htext : (Operation.bracketed label).toList = '[' :: (label.toList ++ [']']) := by
    simp [Operation.bracketed]
  obtain ⟨hafter, hlabels⟩ := @hread _ [] h
  rw [htext]
  exact ⟨hafter, congrArg (List.filter isPad) hlabels⟩

theorem names_inputs : ∀ {ls : List String}, (∀ l ∈ ls, IsClean l) →
    Names (String.join (ls.map Operation.bracketed)).toList (padsAmong ls)
  | [], _ => ⟨rfl, rfl⟩
  | l :: ls, h => by
    obtain ⟨hl, hls⟩ := List.forall_mem_cons.mp h
    have htext : (String.join ((l :: ls).map Operation.bracketed)).toList =
        (Operation.bracketed l).toList ++ (String.join (ls.map Operation.bracketed)).toList := by
          simp
    rw [htext, ← List.singleton_append, padsAmong_append]
    exact (names_bracketed hl).append (names_inputs hls)

section
variable {s : RenderSettings Float} {spec : EffectSpec Float} {timeline : Timeline Float} {n : Nat}

/-- **The text of an operation names the inputs that it reads**, if the pixel format names none. -/
theorem Operation.Regular.names_render {op : Operation Float} (h : op.Regular s spec timeline n)
    (hformat : IsInert s.pixelFormat.toList) : Names op.render.toList (padsAmong op.inputs) := by
  have hinputs : ∀ l ∈ op.inputs, IsClean l := by
    intro l hl
    rcases h.inputs l hl with ⟨i, rfl⟩ | hlabel
    · exact isClean_imagePad i
    · exact hlabel.isClean
  have hfilter : IsInert op.filter.toList := by
    rw [h.filter]
    exact pads_steady (isSteady_template s _ _) (isHarmless_template hformat _ _)
  have houtput : padsAmong [op.output] = [] := by simp [padsAmong, h.output.isPad]
  have hrender := ((names_inputs hinputs).append hfilter).append (names_bracketed h.output.isClean)
  rw [houtput, List.append_nil, List.append_nil] at hrender
  rw [Operation.render, String.toList_append, String.toList_append]
  exact hrender

/-- **The text of a graph names the inputs that its operations read.** -/
theorem names_filterComplex {g : FilterGraph Float}
    (h : ∀ op ∈ g.operations, op.Regular s spec timeline n)
    (hformat : IsInert s.pixelFormat.toList) :
    Names g.filterComplex.toList (padsAmong (consumed g.operations)) := by
  refine filterComplex_induction
    (P := fun ops cs => (∀ op ∈ ops, op.Regular s spec timeline n) →
      Names cs (padsAmong (consumed ops)))
    ?_ ?_ ?_ g h
  · exact fun _ => ⟨rfl, rfl⟩
  · intro op hop
    have hrender := (List.forall_mem_singleton.mp hop).names_render hformat
    rwa [consumed_cons, consumed_nil, List.append_nil]
  · intro op ops cs ih hops
    obtain ⟨hop, hops⟩ := List.forall_mem_cons.mp hops
    have hseparated : Names (';' :: cs) (padsAmong (consumed ops)) := ih hops
    rw [consumed_cons, padsAmong_append]
    exact (hop.names_render hformat).append hseparated

end

/-! ## Compiled graphs -/

/-- The streams of a graph: those of its inputs and those that its operations make. -/
def streams (g : FilterGraph Float) : List String :=
  labelsFrom imagePad 0 g.inputs.length ++ outputs g.operations

/-- The streams that no operation reads. -/
def unread (g : FilterGraph Float) : List String :=
  (streams g).filter fun l => decide (l ∉ consumed g.operations)

section
variable {images : List String} {durations : List Float} (hlen : images.length = durations.length)
include hlen

/-- The operations of a compiled graph are those of its stages, the last one under the final
label. -/
theorem operations_compiled (s : RenderSettings Float) (spec : EffectSpec Float) : ∃ front op,
    stagedOperations s spec (timelineOf s spec durations) images.length = front ++ [op] ∧
      op.output = (overlaid s spec (timelineOf s spec durations) images.length).label ∧
      (compiled images durations s spec).operations = front ++
          [{ op with output := finalLabel }] := by
  obtain ⟨-, hblends⟩ := timelineOf_sizes s spec durations
  rw [← hlen] at hblends
  obtain ⟨front, op, hstaged, hop⟩ :=
    stagedOperations_endsIn s spec (timelineOf s spec durations) images.length
    fun hs => List.length_pos_iff.mp (by have := hblends hs; omega)
  refine ⟨front, op, hstaged, hop, ?_⟩
  show operationsOf s spec (timelineOf s spec durations) images.length = _
  rw [operationsOf_eq, hstaged, relabelLast_concat]

theorem outputLabel_compiled (s : RenderSettings Float) (spec : EffectSpec Float) :
    (compiled images durations s spec).outputLabel = finalLabel := by
  obtain ⟨front, op, -, -, hops⟩ := operations_compiled hlen s spec
  rw [FilterGraph.outputLabel, hops, List.getLast?_concat]

/-- **What a compiled graph reads**: all of its streams but the last, each once. -/
theorem streams_compiled (s : RenderSettings Float) (spec : EffectSpec Float) :
    (streams (compiled images durations s spec)).Nodup ∧
      (streams (compiled images durations s spec)).Perm
          (consumed (compiled images durations s spec).operations ++ [finalLabel]) := by
  obtain ⟨hrendered, hblends⟩ := timelineOf_sizes s spec durations
  rw [← hlen] at hrendered hblends
  have hthreaded :=
    threaded_stagedOperations s spec (timelineOf s spec durations)
      (by rw [hrendered]; exact hblends)
  obtain ⟨front, op, hstaged, hop, hops⟩ := operations_compiled hlen s spec
  rw [hrendered, hstaged, ← hop] at hthreaded
  rw [streams, length_inputs_compiled hlen, hops]
  exact ⟨labels_relabelled_nodup hstaged, hthreaded.relabel.balance⟩

/-- **One stream of a compiled graph is left**, the last one. -/
theorem unread_compiled (s : RenderSettings Float) (spec : EffectSpec Float) :
    unread (compiled images durations s spec) = [finalLabel] := by
  obtain ⟨hnodup, hperm⟩ := streams_compiled hlen s spec
  have hfinal : finalLabel ∉ consumed (compiled images durations s spec).operations := fun hmem =>
    (List.nodup_append.mp (hperm.nodup_iff.mp hnodup)).2.2 _ hmem _ (List.mem_singleton_self _) rfl
  have hleft := hperm.filter fun l =>
    decide (l ∉ consumed (compiled images durations s spec).operations)
  have hread : (consumed (compiled images durations s spec).operations).filter
      (fun l => decide (l ∉ consumed (compiled images durations s spec).operations)) = [] := by
    simp
  rw [List.filter_append, hread, List.nil_append, List.filter_singleton,
    decide_eq_true hfinal] at hleft
  exact List.perm_singleton.mp hleft

/-- **The text of a compiled graph names its images**, each once. -/
theorem pads_filterComplex {s : RenderSettings Float} (hformat : IsInert s.pixelFormat.toList)
    (spec : EffectSpec Float) :
    (pads .plain (compiled images durations s spec).filterComplex.toList).Perm
      ((List.range images.length).map fun i => (imagePad i).toList) := by
  have hregular := regular_compiled images durations s spec
  have himages : padsAmong (labelsFrom imagePad 0 images.length) =
      (List.range images.length).map fun i => (imagePad i).toList := by
    rw [padsAmong, labelsFrom_zero, List.map_map]
    exact List.filter_eq_self.mpr (List.forall_mem_map.mpr fun i _ => isPad_imagePad i)
  have hmade : padsAmong (outputs (compiled images durations s spec).operations) = [] := by
    refine List.filter_eq_nil_iff.mpr
      (List.forall_mem_map.mpr (List.forall_mem_map.mpr fun op hop => ?_))
    rw [(hregular op hop).output.isPad]
    exact Bool.false_ne_true
  have hfinal : padsAmong [finalLabel] = [] := by decide
  have hperm : (padsAmong (streams (compiled images durations s spec))).Perm
      (padsAmong (consumed (compiled images durations s spec).operations ++ [finalLabel])) :=
    ((streams_compiled hlen s spec).2.map String.toList).filter isPad
  rw [streams, length_inputs_compiled hlen, padsAmong_append, padsAmong_append, himages, hmade,
    hfinal, List.append_nil, List.append_nil] at hperm
  rw [(names_filterComplex hregular hformat).2]
  exact hperm.symm

end

end Slideshow.Graph
