import Slideshow.Proofs.Graph.Pads

/-!
# Reading a graph back

The text of a graph (`to_filter_complex`) is read without knowing what filters there are: it is
parted at semicolons, and each piece is a row of labels in brackets, a filter, and one label in
brackets. The filters that are written have neither brackets nor semicolons in them, except that the
pixel format of the settings stands in them as it is. If it has none, the pieces are the operations.

* `isDelimiter` are the characters that a text is parted by, and `Undelimited` texts have none of
  them.
* `clause?` reads a piece; nothing in it knows how pieces are written.

Headlines:
* `splitOn_filterComplex`: the pieces of a text are those of its operations.
* `clause?_render`: an operation is read from its piece.
* **`filterComplex_readsBack`**: the text of a compiled graph reads back as the graph.
-/

namespace Slideshow.Graph

/-! ## Reading pieces -/

/-- The brackets around labels, and what stands between operations. -/
def isDelimiter (c : Char) : Bool := c == '[' || c == ']' || c == ';'

/-- A text with no delimiter in it. -/
def Undelimited (cs : List Char) : Prop := ∀ c ∈ cs, isDelimiter c = false

theorem isDelimiter_eq_false {c : Char} (hopen : c ≠ '[') (hclose : c ≠ ']')
    (hsemicolon : c ≠ ';') : isDelimiter c = false := by
  simp [isDelimiter, hopen, hclose, hsemicolon]

/-- What is read of an operation. -/
structure Clause where
  inputs : List String
  filter : String
  output : String
deriving DecidableEq, Repr

/-- The labels in brackets at the beginning of a text, and the rest. In brackets, what was read of
the label is given. -/
def leading? : Option (List Char) → List Char → Option (List String × List Char)
  | none, [] => some ([], [])
  | some _, [] => none
  | none, c :: cs => if c = '[' then leading? (some []) cs else some ([], c :: cs)
  | some begun, c :: cs =>
    if c = ']' then (leading? none cs).map fun (labels, rest) =>
      (String.ofList begun :: labels, rest)
    else leading? (some (begun ++ [c])) cs

/-- The label in brackets at the end of a text, and what stands in front of it. -/
def final? (cs : List Char) : Option (List Char × String) :=
  match cs.reverse with
  | [] => none
  | c :: r =>
    if c = ']' then
      match r.dropWhile (· != '[') with
      | [] => none
      | _ :: front => some (front.reverse, String.ofList (r.takeWhile (· != '[')).reverse)
    else none

/-- Reads a piece of the text of a graph. -/
def clause? (piece : List Char) : Option Clause := do
  let (inputs, rest) ← leading? none piece
  let (filter, output) ← final? rest
  return ⟨inputs, String.ofList filter, output⟩

/-- A blend. -/
example : clause? "[m0][m1]xfade=transition=fade[x0]".toList =
    some ⟨["m0", "m1"], "xfade=transition=fade", "x0"⟩ := by decide

/-- What is to be read of an operation. -/
def Operation.clause {α : Type} (op : Operation α) : Clause := ⟨op.inputs, op.filter, op.output⟩

theorem toList_bracketed (label : String) :
    (Operation.bracketed label).toList = '[' :: (label.toList ++ [']']) := by
  simp [Operation.bracketed]

theorem leading?_bracketed {label : String} (h : ']' ∉ label.toList) (rest : List Char) :
    leading? none ((Operation.bracketed label).toList ++ rest) =
      (leading? none rest).map fun (labels, rest) => (label :: labels, rest) := by
  have hread : ∀ {cs : List Char} (begun : List Char), ']' ∉ cs →
    leading? (some begun) (cs ++ ']' :: rest) =
      (leading? none rest).map fun (labels, rest) =>
        (String.ofList (begun ++ cs) :: labels, rest) := by
    intro cs
    induction cs with
    | nil =>
      intro begun _
      rw [List.nil_append, List.append_nil, leading?, if_pos rfl]
    | cons c cs ih =>
      intro begun h
      obtain ⟨hc, hcs⟩ := not_or.mp (mt List.mem_cons.mpr h)
      rw [List.cons_append, leading?, if_neg (Ne.symm hc), ih (begun ++ [c]) hcs, List.append_assoc,
        List.singleton_append]
  have htext : (Operation.bracketed label).toList ++ rest =
      '[' :: (label.toList ++ ']' :: rest) := by
    rw [toList_bracketed, List.cons_append, List.append_assoc, List.singleton_append]
  rw [htext, leading?, if_pos rfl, hread [] h, List.nil_append, String.ofList_toList]

theorem leading?_inputs {c : Char} (hc : c ≠ '[') (rest : List Char) :
    ∀ {labels : List String}, (∀ l ∈ labels, ']' ∉ l.toList) →
      leading? none ((String.join (labels.map Operation.bracketed)).toList ++ c :: rest) =
        some (labels, c :: rest)
  | [], _ => if_neg hc
  | l :: labels, h => by
    obtain ⟨hl, hlabels⟩ := List.forall_mem_cons.mp h
    have htext : (String.join ((l :: labels).map Operation.bracketed)).toList =
        (Operation.bracketed l).toList ++
          (String.join (labels.map Operation.bracketed)).toList := by simp
    rw [htext, List.append_assoc, leading?_bracketed hl, leading?_inputs hc rest hlabels]
    rfl

theorem final?_bracketed {label : String} (h : '[' ∉ label.toList) (front : List Char) :
    final? (front ++ (Operation.bracketed label).toList) = some (front, label) := by
  have hreverse : (front ++ (Operation.bracketed label).toList).reverse =
      ']' :: (label.toList.reverse ++ '[' :: front.reverse) := by
    rw [toList_bracketed]
    simp
  have hlabel : ∀ c ∈ label.toList.reverse, (c != '[') = true := fun c hc =>
    bne_iff_ne.mpr fun heq => h (heq ▸ List.mem_reverse.mp hc)
  have hdrop : ('[' :: front.reverse).dropWhile (· != '[') = '[' :: front.reverse :=
    List.dropWhile_cons_of_neg (by decide)
  have htake : ('[' :: front.reverse).takeWhile (· != '[') = [] :=
    List.takeWhile_cons_of_neg (by decide)
  unfold final?
  rw [hreverse]
  dsimp only
  rw [if_pos rfl, List.dropWhile_append_of_pos hlabel, List.takeWhile_append_of_pos hlabel, hdrop,
    htake, List.append_nil]
  dsimp only
  rw [List.reverse_reverse, List.reverse_reverse, String.ofList_toList]

/-! ## Operations -/

theorem Undelimited.not_mem {cs : List Char} (h : Undelimited cs) {c : Char}
    (hc : isDelimiter c = true) : c ∉ cs := fun hmem =>
  absurd hc (by rw [h c hmem]; exact Bool.false_ne_true)

/-- What is written between delimiters: labels without them, and a filter without them that is not
empty. -/
structure Operation.Separable (op : Operation Float) : Prop where
  inputs : ∀ l ∈ op.inputs, Undelimited l.toList
  filter : Undelimited op.filter.toList
  filled : op.filter.toList ≠ []
  output : Undelimited op.output.toList

/-- **An operation is read from its piece.** -/
theorem clause?_render {op : Operation Float} (h : op.Separable) :
    clause? op.render.toList = some op.clause := by
  obtain ⟨c, cs, hfilter⟩ := List.exists_cons_of_ne_nil h.filled
  have hc : c ≠ '[' := by
    rintro rfl
    exact h.filter.not_mem rfl (hfilter ▸ List.mem_cons_self)
  have hlabels : ∀ l ∈ op.inputs, ']' ∉ l.toList := fun l hl => (h.inputs l hl).not_mem rfl
  have htext : op.render.toList = (String.join (op.inputs.map Operation.bracketed)).toList ++
      c :: (cs ++ (Operation.bracketed op.output).toList) := by
    rw [Operation.render, String.toList_append, String.toList_append, hfilter, List.append_assoc,
      List.cons_append]
  rw [clause?, htext, leading?_inputs hc _ hlabels, ← List.cons_append, ← hfilter]
  dsimp only [bind, Option.bind]
  rw [final?_bracketed (h.output.not_mem rfl)]
  dsimp only
  rw [String.ofList_toList]
  rfl

theorem Operation.Separable.semicolon {op : Operation Float} (h : op.Separable) :
    ';' ∉ op.render.toList := by
  have hbracketed : ∀ {l : String}, Undelimited l.toList →
      ';' ∉ (Operation.bracketed l).toList := by
    intro l hl hmem
    rw [toList_bracketed] at hmem
    simp only [List.mem_cons, List.mem_append, List.not_mem_nil, or_false] at hmem
    rcases hmem with hopen | hlabel | hclose
    · exact absurd hopen (by decide)
    · exact hl.not_mem rfl hlabel
    · exact absurd hclose (by decide)
  intro hmem
  rw [Operation.render, String.toList_append, String.toList_append] at hmem
  rcases List.mem_append.mp hmem with hmem | houtput
  · rcases List.mem_append.mp hmem with hinputs | hfilter
    · rw [String.toList_join] at hinputs
      obtain ⟨text, htext, hmem⟩ := List.mem_flatMap.mp hinputs
      obtain ⟨l, hl, rfl⟩ := List.mem_map.mp htext
      exact hbracketed (h.inputs l hl) hmem
    · exact h.filter.not_mem rfl hfilter
  · exact hbracketed h.output houtput

/-- **The pieces of a text are those of its operations.** -/
theorem splitOn_filterComplex {g : FilterGraph Float} (hne : g.operations ≠ [])
    (h : ∀ op ∈ g.operations, op.Separable) :
    g.filterComplex.toList.splitOn ';' = g.operations.map fun op => op.render.toList := by
  have hpieces : ∀ piece ∈ g.operations.map fun op => op.render.toList, ';' ∉ piece :=
    List.forall_mem_map.mpr fun op hop => (h op hop).semicolon
  have htext : g.filterComplex.toList =
      [';'].intercalate (g.operations.map fun op => op.render.toList) := by
    rw [FilterGraph.filterComplex, String.toList_intercalate, List.map_map]
    rfl
  rw [htext, List.splitOn_intercalate ';' hpieces (mt List.map_eq_nil_iff.mp hne)]

/-! ## Templates -/

/-- Templates whose fixed texts have no delimiters, and that begin with one that is not empty. -/
def isPlain (parts : List Part) : Bool :=
  (match parts with
    | .fixed text :: _ => !text.toList.isEmpty
    | _ => false) &&
  parts.all fun
    | .fixed text => text.toList.all (!isDelimiter ·)
    | _ => true

theorem isPlain_template (s : RenderSettings Float) (total : Float) (k : Kind Float) :
    isPlain (template s total k) = true := by
  cases k with
  | motion m frames =>
    show isPlain (motionTemplate _ _ _ _) = true
    cases MotionForm.of m frames (s.motion.limits s.width s.height) <;> rfl
  | blend t duration offset => cases t <;> rfl
  | colorGrade g => cases g <;> rfl
  | overlaySource o => cases o <;> rfl
  | overlayComposite o mode opacity =>
    cases mode
    rfl
  | _ => rfl

theorem isDelimiter_inserted {c : Char} (h : isInsertedChar c = true) : isDelimiter c = false := by
  refine isDelimiter_eq_false ?_ ?_ ?_ <;>
  · rintro rfl
    exact absurd h (by decide)

theorem Part.Inserts.undelimited {setting : String} (hsetting : Undelimited setting.toList)
    {p : Part} (h : p.Inserts setting)
    (hfixed : ∀ text, p = .fixed text → Undelimited text.toList) : Undelimited p.chars := by
  cases p with
  | fixed text => exact hfixed text rfl
  | number text => exact fun c hc => isDelimiter_inserted (List.all_eq_true.mp h c hc)
  | free text =>
    obtain rfl : text = setting := h
    exact hsetting

/-- What is spelled from plain pieces has no delimiters, if the text of the settings has none, and
it is not empty. -/
theorem spelled_plain {setting : String} (hsetting : Undelimited setting.toList) {parts : List Part}
    (hplain : isPlain parts = true) (hparts : ∀ p ∈ parts, p.Inserts setting) :
    Undelimited (spelled parts) ∧ spelled parts ≠ [] := by
  obtain ⟨hbegins, hall⟩ := Bool.and_eq_true_iff.mp hplain
  constructor
  · intro c hc
    obtain ⟨p, hp, hc⟩ := List.mem_flatMap.mp hc
    refine (hparts p hp).undelimited hsetting ?_ c hc
    rintro text rfl d hd
    have htext := List.all_eq_true.mp hall _ hp
    simpa using List.all_eq_true.mp htext d hd
  · cases parts with
    | nil => exact absurd hbegins Bool.false_ne_true
    | cons p parts =>
      cases p with
      | fixed text =>
        have htext : text.toList ≠ [] := by simpa using hbegins
        rw [spelled_cons, Part.chars_fixed]
        exact List.append_ne_nil_of_left_ne_nil htext _
      | _ => exact absurd hbegins Bool.false_ne_true

/-! ## Compiled graphs -/

theorem IsValue.undelimited {cs : List Char} (h : IsValue cs) : Undelimited cs := fun c hc =>
  isDelimiter_eq_false (h.ne (by decide) c hc) (h.ne (by decide) c hc) (h.ne (by decide) c hc)

theorem undelimited_imagePad (i : Nat) : Undelimited (imagePad i).toList := by
  intro c hc
  rw [toList_imagePad] at hc
  rcases List.mem_append.mp hc with hdigit | hend
  · have hdigits : IsValue (Decimal.natDigits i) :=
      isValue_of_words fun d hd => isWordChar_of_isDigit (Decimal.isDigit_of_mem_natDigits hd)
    exact hdigits.undelimited c hdigit
  · have hpad : Undelimited [':', 'v'] :=
      List.forall_mem_cons.mpr ⟨rfl, List.forall_mem_singleton.mpr rfl⟩
    exact hpad c hend

theorem Operation.Regular.separable {s : RenderSettings Float} {spec : EffectSpec Float}
    {timeline : Timeline Float} {n : Nat} {op : Operation Float} (h : op.Regular s spec timeline n)
    (hformat : Undelimited s.pixelFormat.toList) : op.Separable := by
  obtain ⟨hfilter, hfilled⟩ :=
    spelled_plain hformat (isPlain_template s timeline.total op.kind)
      (inserts_template s timeline.total op.kind)
  rw [← h.filter] at hfilter hfilled
  refine ⟨fun l hl => ?_, hfilter, hfilled, h.output.isValue.undelimited⟩
  rcases h.inputs l hl with ⟨i, rfl⟩ | hlabel
  · exact undelimited_imagePad i
  · exact hlabel.isValue.undelimited

/-- **The pieces of a compiled graph are its operations.** -/
theorem clauses_compiled {images : List String} {durations : List Float}
    (hlen : images.length = durations.length) {s : RenderSettings Float}
    (hformat : Undelimited s.pixelFormat.toList) (spec : EffectSpec Float) :
    ((compiled images durations s spec).filterComplex.toList.splitOn ';').map clause? =
      (compiled images durations s spec).operations.map fun op => some op.clause := by
  have hseparable : ∀ op ∈ (compiled images durations s spec).operations, op.Separable :=
    fun op hop =>
    (regular_compiled images durations s spec op hop).separable hformat
  obtain ⟨front, op, -, -, hops⟩ := operations_compiled hlen s spec
  have hne : (compiled images durations s spec).operations ≠ [] := by
    rw [hops]
    exact List.append_ne_nil_of_right_ne_nil _ (List.cons_ne_nil _ _)
  rw [splitOn_filterComplex hne hseparable, List.map_map]
  exact List.map_congr_left fun op hop => clause?_render (hseparable op hop)

/-- **The text of a compiled graph reads back as the graph.** If the pixel format has neither
brackets nor semicolons, the text parts at its semicolons into one piece for each operation, in
order, and of each piece the labels at the beginning, the label at the end and what stands between
them are the inputs, the output and the filter of the operation. -/
theorem filterComplex_readsBack {images : List String} {durations : List Float}
    {s : RenderSettings Float} {spec : EffectSpec Float} {g : FilterGraph Float}
    (h : compile images durations s spec = .ok g)
    (hformat : ∀ c ∈ s.pixelFormat.toList, c ≠ '[' ∧ c ≠ ']' ∧ c ≠ ';') :
    (g.filterComplex.toList.splitOn ';').map clause? = g.operations.map fun op =>
      some ⟨op.inputs, op.filter, op.output⟩ := by
  obtain ⟨⟨-, hlen, -⟩, -, rfl⟩ := compile_eq_ok_iff.mp h
  have hundelimited : Undelimited s.pixelFormat.toList := by
    intro c hc
    obtain ⟨hopen, hclose, hsemicolon⟩ := hformat c hc
    exact isDelimiter_eq_false hopen hclose hsemicolon
  exact clauses_compiled hlen hundelimited spec

/-- Two images with a transition. -/
theorem filterComplex_readsBack_pair : ∃ g, compile ["a.jpg", "b.jpg"] [10, 10] (.ofConfig {})
    ⟨some .fade, some .kenburns, some .vintage, some .lightLeaks, 1⟩ = .ok g ∧
    (g.filterComplex.toList.splitOn ';').map clause? = g.operations.map fun op =>
      some ⟨op.inputs, op.filter, op.output⟩ := by
  have hg := compile_eq_ok_iff.mpr
    ⟨accepted_pair, by decide, Eq.refl (compiled ["a.jpg", "b.jpg"] [10, 10] (.ofConfig {})
    ⟨some .fade, some .kenburns, some .vintage, some .lightLeaks, 1⟩)⟩
  exact ⟨_, hg, filterComplex_readsBack hg (by simp [RenderSettings.ofConfig])⟩

end Slideshow.Graph
