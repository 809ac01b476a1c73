import Slideshow.Json.Parser
import Slideshow.Proofs.Json.Number
import Slideshow.Proofs.Json.Quoted

/-!
# Documents that are read back

What is written on many lines is read back, but for its numbers: one that is not finite is written
as `null`, and the digits of another one may be read as its neighbour.

* `reread?` is what the digits of a number are read as, `Kept` says that this is the number.
* `Legible` says that all numbers of a document are read as some numbers, `readBack` is the document
  with those.
* `value?_pretty`, `items?_pretty`, `fields?_pretty`: one lemma for each reader, with the rest of
  the text open.

Headline:
* **`parseChars?_pretty`**: a document is read as what its numbers are read as.
-/

namespace Slideshow.Json

open Decimal

section
variable [FloatReader]

/-! ## Numbers -/

/-- What the digits of a number are read as. -/
def reread? (x : Float) : Option Float := do
  let cs ← jsonNumber? x
  let (t, rest) ← readNumber? cs
  match t.document, rest with
  | .float y, [] => some y
  | _, _ => none

/-- A number whose digits are read as it. -/
def Kept (x : Float) : Prop := reread? x = some x

instance (x : Float) : Decidable (Kept x) := inferInstanceAs (Decidable (reread? x = some x))

theorem reread?_eq_some {x y : Float} (h : reread? x = some y) :
    ∃ cs t, jsonNumber? x = some cs ∧ readNumber? cs = some (t, []) ∧ t.document = .float y := by
  obtain ⟨cs, hcs, h⟩ := Option.bind_eq_some_iff.mp h
  obtain ⟨⟨t, rest⟩, ht, h⟩ := Option.bind_eq_some_iff.mp h
  dsimp only at h
  split at h
  · next z hz =>
    cases h
    exact ⟨cs, t, hcs, ht, hz⟩
  · cases h

/-- What a number is read as, if it is read at all. -/
def rereadOrSame (x : Float) : Float := (reread? x).getD x

theorem rereadOrSame_of_kept {x : Float} (h : Kept x) : rereadOrSame x = x := by
  rw [rereadOrSame, show reread? x = some x from h, Option.getD_some]

/-! ## Documents -/

mutual

/-- All numbers of a document are read as some numbers, and nothing in it is only read. -/
def Legible : Document → Prop
  | .null | .bool _ | .string _ => True
  | .integer n => -2 ^ 63 ≤ n ∧ n < 2 ^ 64
  | .float x => (reread? x).isSome
  | .list items => LegibleItems items
  | .table fields => LegibleFields fields
  | .openList _ | .unreadable => False

def LegibleItems : List Document → Prop
  | [] => True
  | d :: r => Legible d ∧ LegibleItems r

def LegibleFields : List (String × Document) → Prop
  | [] => True
  | (_, d) :: r => Legible d ∧ LegibleFields r

end

mutual

/-- A document with the numbers that its own are read as. -/
def readBack : Document → Document
  | .float x => .float (rereadOrSame x)
  | .list items => .list (readBackItems items)
  | .table fields => .table (readBackFields fields)
  | d => d

def readBackItems : List Document → List Document
  | [] => []
  | d :: r => readBack d :: readBackItems r

def readBackFields : List (String × Document) → List (String × Document)
  | [] => []
  | (name, d) :: r => (name, readBack d) :: readBackFields r

end

theorem legibleItems_iff {items : List Document} : LegibleItems items ↔ ∀ d ∈ items, Legible d := by
  induction items with
  | nil => simp [LegibleItems]
  | cons d r ih => simp [LegibleItems, ih]

theorem legibleFields_iff {fields : List (String × Document)} :
    LegibleFields fields ↔ ∀ f ∈ fields, Legible f.2 := by
  induction fields with
  | nil => simp [LegibleFields]
  | cons f r ih => simp [LegibleFields, ih]

theorem readBackItems_eq_map (items : List Document) :
    readBackItems items = items.map readBack := by
  induction items with
  | nil => rfl
  | cons d r ih => rw [readBackItems, ih, List.map_cons]

end

/-! ## Blanks -/

theorem skipSpace_append {ws : List Char} (h : ∀ c ∈ ws, isSpace c = true) (cs : List Char) :
    skipSpace (ws ++ cs) = skipSpace cs := by
  induction ws with
  | nil => rfl
  | cons w ws ih =>
    obtain ⟨hw, hws⟩ := List.forall_mem_cons.mp h
    rw [List.cons_append, skipSpace, List.dropWhile_cons_of_pos hw]
    exact ih hws

theorem skipSpace_cons {c : Char} (h : isSpace c = false) (cs : List Char) :
    skipSpace (c :: cs) = c :: cs :=
  List.dropWhile_cons_of_neg (by simp [h])

theorem isSpace_newline {level : Nat} : ∀ c ∈ newline level, isSpace c = true := by
  intro c hc
  rcases List.mem_cons.mp hc with rfl | hc
  · decide
  · rw [List.eq_of_mem_replicate hc]
    decide

theorem isSpace_blank : ∀ c ∈ [' '], isSpace c = true := List.forall_mem_singleton.mpr rfl

theorem skipSpace_newline (level : Nat) (cs : List Char) :
    skipSpace (newline level ++ cs) = skipSpace cs :=
  skipSpace_append isSpace_newline cs

/-- Values are looked for behind blanks. -/
theorem value?_append [FloatReader] {ws : List Char} (h : ∀ c ∈ ws, isSpace c = true) (fuel : Nat)
    (cs : List Char) :
    value? fuel (ws ++ cs) = value? fuel cs := by
  cases fuel with
  | zero => rw [value?, value?]
  | succ fuel => rw [value?, value?, skipSpace_append h]

theorem ends_newline (level : Nat) (cs : List Char) : Ends (newline level ++ cs) :=
  ends_cons _ (by decide)

/-! ## Heads -/

/-- A text begins like a value: with no blank, and not with a closing bracket. -/
def Begins (cs : List Char) : Prop := ∃ c r, cs = c :: r ∧ isSpace c = false ∧ c ≠ ']'

theorem digit_ne {c : Char} (h : c = '-' ∨ isDigit c = true) :
    isSpace c = false ∧ c ≠ ']' ∧ c ≠ '"' ∧ c ≠ '[' ∧ c ≠ '\x7b' ∧ c ≠ 'n' ∧ c ≠ 't' ∧ c ≠ 'f' := by
  have hne : ∀ d : Char, d ≠ '-' → isDigit d = false → c ≠ d := by
    rintro d hminus hdigit rfl
    rcases h with h | h
    · exact hminus h
    · rw [hdigit] at h
      cases h
  refine ⟨?_, hne _ (by decide) (by decide), hne _ (by decide) (by decide),
    hne _ (by decide) (by decide), hne _ (by decide) (by decide), hne _ (by decide) (by decide),
    hne _ (by decide) (by decide),
    hne _ (by decide) (by decide)⟩
  have h1 := hne ' ' (by decide) (by decide)
  have h2 := hne '\n' (by decide) (by decide)
  have h3 := hne '\t' (by decide) (by decide)
  have h4 := hne '\r' (by decide) (by decide)
  simp [isSpace, h1, h2, h3, h4]

/-- **What reads as a number by itself** is read as it in front of anything that ends a number. -/
theorem value?_number [FloatReader] {cs rest : List Char} {t : NumberText}
    (h : readNumber? cs = some (t, [])) (hrest : Ends rest) (fuel : Nat) :
    value? (fuel + 1) (cs ++ rest) = some (t.document, rest) ∧ Begins cs := by
  cases cs with
  | nil => cases h
  | cons c cs =>
    obtain ⟨hspace, hbracket, h1, h2, h3, h4, h5, h6⟩ := digit_ne (head_of_readNumber? h)
    have happend := readNumber?_append hrest h
    rw [List.cons_append] at happend ⊢
    refine ⟨?_, c, cs, rfl, hspace, hbracket⟩
    rw [value?, skipSpace_cons hspace]
    simp [happend]

/-! ## Values -/

/-- A value without parts. -/
def Plain : Document → Prop
  | .null | .bool _ | .integer _ | .float _ | .string _ => True
  | .list _ | .openList _ | .table _ | .unreadable => False

theorem prettyChars_plain {d : Document} (hd : Plain d) (level : Nat) :
    prettyChars level d = scalarText d := by
  cases d with
  | list items => exact absurd hd id
  | openList items => exact absurd hd id
  | table fields => exact absurd hd id
  | unreadable => exact absurd hd id
  | _ => rfl

/-- A value without parts is read back. -/
theorem value?_plain [FloatReader] {d : Document} (hplain : Plain d) (hd : Legible d)
    {rest : List Char} (hrest : Ends rest) (fuel : Nat) :
    value? (fuel + 1) (scalarText d ++ rest) = some (readBack d, rest) ∧ Begins (scalarText d) := by
  cases d with
  | null => exact ⟨by rfl, _, _, rfl, by decide⟩
  | bool b => cases b <;> exact ⟨by rfl, _, _, rfl, by decide⟩
  | integer n =>
    obtain ⟨t, hread, hdocument⟩ := readNumber?_integerText hd.1 hd.2
    have hvalue := value?_number hread hrest fuel
    rwa [hdocument] at hvalue
  | float x =>
    obtain ⟨y, hy⟩ := Option.isSome_iff_exists.mp hd
    obtain ⟨cs, t, htext, hread, hdocument⟩ := reread?_eq_some hy
    have hvalue := value?_number hread hrest fuel
    rw [hdocument] at hvalue
    rwa [scalarText, htext, readBack, rereadOrSame, hy]
  | string s =>
    obtain ⟨body, ps, hquote, hscan, hjoin⟩ := scan_quote s.toList rest
    refine ⟨?_, _, _, rfl, by decide⟩
    rw [scalarText, hquote, value?, skipSpace_cons (by decide)]
    simp [hscan, stringOfPieces, hjoin, readBack]
  | _ => exact absurd hplain id

theorem begins_pretty [FloatReader] {d : Document} (hd : Legible d) (level : Nat) :
    Begins (prettyChars level d) := by
  have hplain : Plain d → Begins (prettyChars level d) := fun h =>
    prettyChars_plain h level ▸ (value?_plain h hd ends_nil 0).2
  cases d with
  | list items => cases items <;> exact ⟨'[', _, rfl, by decide⟩
  | table fields => cases fields <;> exact ⟨'\x7b', _, rfl, by decide⟩
  | openList items => exact absurd hd id
  | unreadable => exact absurd hd id
  | _ => exact hplain trivial

theorem Begins.length_pos {cs : List Char} (h : Begins cs) : 0 < cs.length := by
  obtain ⟨c, r, rfl, -⟩ := h
  exact Nat.succ_pos _

/-- The names of fields are read back. -/
theorem tableOfFields_map (fields : List (String × Document)) :
    tableOfFields (fields.map fun f => (some f.1.toList, f.2)) = .table fields := by
  have hmap : (fields.map fun f => (some f.1.toList, f.2)).mapM
      (fun f => f.1.map fun name => (String.ofList name, f.2)) = some fields := by
    induction fields with
    | nil => rfl
    | cons f r ih => simp [ih]
  rw [tableOfFields, hmap]

/-! ### One step of each reader -/

/-- A list that is not empty is read as its items. -/
theorem value?_list [FloatReader] {fuel : Nat} {cs rest : List Char} {items : List Document}
    (hbegins : ∀ r, skipSpace cs ≠ ']' :: r) (h : items? fuel cs = some (items, rest)) :
    value? (fuel + 1) ('[' :: cs) = some (.list items, rest) := by
  rw [value?, skipSpace_cons (by decide)]
  simp [h]

/-- A table that is not empty is read as its fields. -/
theorem value?_table [FloatReader] {fuel : Nat} {cs rest : List Char}
    {fields : List (String × Document)} (hbegins : ∀ r, skipSpace cs ≠ '\x7d' :: r)
    (h : fields? fuel cs = some (fields.map fun f => (some f.1.toList, f.2), rest)) :
    value? (fuel + 1) ('\x7b' :: cs) = some (.table fields, rest) := by
  rw [value?, skipSpace_cons (by decide)]
  simp [h, tableOfFields_map]

theorem items?_last [FloatReader] {fuel : Nat} {cs close rest : List Char} {d : Document}
    (hvalue : value? fuel cs = some (d, close)) (hclose : skipSpace close = ']' :: rest) :
    items? (fuel + 1) cs = some ([d], rest) := by
  simp [items?, hvalue, hclose]

theorem items?_cons [FloatReader] {fuel : Nat} {cs next rest : List Char} {d : Document}
    {ds : List Document} (hvalue : value? fuel cs = some (d, ',' :: next))
    (hnext : items? fuel next = some (ds, rest)) :
    items? (fuel + 1) cs = some (d :: ds, rest) := by
  simp [items?, hvalue, skipSpace_cons (c := ',') (by decide), hnext]

section
variable [FloatReader] {ws gap : List Char} (hws : ∀ c ∈ ws, isSpace c = true)
  (hgap : ∀ c ∈ gap, isSpace c = true)
  {name text rest : List Char} {d : Document} {fuel : Nat}
include hws hgap

theorem fields?_last {close : List Char} (hvalue : value? fuel text = some (d, close))
    (hclose : skipSpace close = '\x7d' :: rest) :
    fields? (fuel + 1) (ws ++ (quote name ++ ':' :: (gap ++ text))) =
        some ([(some name, d)], rest) := by
  obtain ⟨body, ps, hquote, hscan, hjoin⟩ := scan_quote name (':' :: (gap ++ text))
  have hspace : value? fuel (gap ++ text) = value? fuel text := value?_append hgap fuel text
  rw [fields?, skipSpace_append hws, hquote, skipSpace_cons (by decide)]
  simp [hscan, hjoin, hspace, skipSpace_cons (c := ':') (by decide), hvalue, hclose]

theorem fields?_cons {next : List Char} {fs : List (Option (List Char) × Document)}
    (hvalue : value? fuel text = some (d, ',' :: next))
    (hnext : fields? fuel next = some (fs, rest)) :
    fields? (fuel + 1) (ws ++ (quote name ++ ':' :: (gap ++ text))) =
        some ((some name, d) :: fs, rest) := by
  obtain ⟨body, ps, hquote, hscan, hjoin⟩ := scan_quote name (':' :: (gap ++ text))
  have hspace : value? fuel (gap ++ text) = value? fuel text := value?_append hgap fuel text
  rw [fields?, skipSpace_append hws, hquote, skipSpace_cons (by decide)]
  simp [hscan, hjoin, hspace, skipSpace_cons (c := ':') (by decide),
    skipSpace_cons (c := ',') (by decide), hvalue, hnext]

end

/-! ### Lists and tables -/

theorem length_newline_pos (level : Nat) : 0 < (newline level).length := Nat.succ_pos _

/-- Each item stands on a line of its own. -/
theorem prettyItems_cons (level : Nat) (d : Document) (r : List Document) :
    ∃ tail, prettyItems level (d :: r) = newline level ++ (prettyChars level d ++ tail) ∧
      (r = [] ∧ tail = [] ∨ r ≠ [] ∧ tail = ',' :: prettyItems level r) := by
  cases r with
  | nil => exact ⟨[], by rw [prettyItems, List.append_nil], .inl ⟨rfl, rfl⟩⟩
  | cons e r => exact ⟨_, by rw [prettyItems, List.append_assoc], .inr ⟨List.cons_ne_nil _ _, rfl⟩⟩

theorem prettyFields_cons (level : Nat) (name : String) (d : Document)
    (r : List (String × Document)) :
    ∃ tail, prettyFields level ((name, d) :: r) =
        newline level ++ (quote name.toList ++ ':' :: ' ' :: (prettyChars level d ++ tail)) ∧
      (r = [] ∧ tail = [] ∨ r ≠ [] ∧ tail = ',' :: prettyFields level r) := by
  cases r with
  | nil => exact ⟨[], by simp [prettyFields], .inl ⟨rfl, rfl⟩⟩
  | cons e r => exact ⟨_, by simp [prettyFields], .inr ⟨List.cons_ne_nil _ _, rfl⟩⟩

mutual

/-- A value is read back up to what ends it. -/
theorem value?_pretty [FloatReader] (d : Document) (hd : Legible d) (level fuel : Nat)
    {rest : List Char} (hrest : Ends rest) (hfuel : 2 * (prettyChars level d).length ≤ fuel) :
    value? fuel (prettyChars level d ++ rest) = some (readBack d, rest) := by
  obtain ⟨fuel, rfl⟩ : ∃ n, fuel = n + 1 := by
    have := (begins_pretty hd level).length_pos
    exact ⟨fuel - 1, by omega⟩
  have hplain : Plain d →
      value? (fuel + 1) (prettyChars level d ++ rest) = some (readBack d, rest) := fun h =>
    prettyChars_plain h level ▸ (value?_plain h hd hrest fuel).1
  match d with
  | .list [] => rfl
  | .list (e :: r) =>
    have htext : prettyChars level (.list (e :: r)) ++ rest =
        '[' :: (prettyItems (level + 1) (e :: r) ++ (newline level ++ ']' :: rest)) := by
      simp [prettyChars]
    have hlength : (prettyItems (level + 1) (e :: r)).length <
        (prettyChars level (.list (e :: r))).length := by
      simp only [prettyChars, List.cons_append, List.length_cons, List.length_append]
      omega
    rw [htext]
    refine value?_list ?_
      (items?_pretty (e :: r) (List.cons_ne_nil e r) hd (level + 1) fuel _ rest ?_
      (ends_newline _ _) (by omega))
    · obtain ⟨tail, hitems, -⟩ := prettyItems_cons (level + 1) e r
      obtain ⟨c, cs, hc, hspace, hbracket⟩ := begins_pretty hd.1 (level + 1)
      intro r'
      rw [hitems, hc, List.append_assoc, skipSpace_newline, List.cons_append, List.cons_append,
        skipSpace_cons hspace]
      exact fun h => hbracket (List.cons.inj h).1
    · rw [skipSpace_newline, skipSpace_cons (by decide)]
  | .table [] => rfl
  | .table ((name, e) :: r) =>
    have htext : prettyChars level (.table ((name, e) :: r)) ++ rest =
        '\x7b' ::
            (prettyFields (level + 1) ((name, e) :: r) ++ (newline level ++ '\x7d' :: rest)) := by
      simp [prettyChars]
    have hlength : (prettyFields (level + 1) ((name, e) :: r)).length <
        (prettyChars level (.table ((name, e) :: r))).length := by
      simp only [prettyChars, List.cons_append, List.length_cons, List.length_append]
      omega
    rw [htext]
    refine value?_table ?_
      (fields?_pretty ((name, e) :: r) (List.cons_ne_nil _ r) hd (level + 1) fuel _ rest ?_
      (ends_newline _ _) (by omega))
    · obtain ⟨tail, hfields, -⟩ := prettyFields_cons (level + 1) name e r
      intro r'
      rw [hfields, List.append_assoc, skipSpace_newline, quote, List.cons_append, List.cons_append,
        List.cons_append, skipSpace_cons (by decide)]
      exact fun h => absurd (List.cons.inj h).1 (by decide)
    · rw [skipSpace_newline, skipSpace_cons (by decide)]
  | .null | .bool _ | .integer _ | .float _ | .string _ => exact hplain trivial
  | .openList _ | .unreadable => exact absurd hd id

/-- The items of a list are read back with the closing bracket. -/
theorem items?_pretty [FloatReader] (items : List Document) (hne : items ≠ [])
    (hitems : LegibleItems items) (level fuel : Nat) (close rest : List Char)
    (hclose : skipSpace close = ']' :: rest) (hends : Ends close)
    (hfuel : 2 * (prettyItems level items).length ≤ fuel) :
    items? fuel (prettyItems level items ++ close) = some (readBackItems items, rest) := by
  match items with
  | [] => exact absurd rfl hne
  | d :: r =>
    obtain ⟨tail, htext, htail⟩ := prettyItems_cons level d r
    have hpos := length_newline_pos level
    rw [htext, List.length_append, List.length_append] at hfuel
    obtain ⟨fuel, rfl⟩ : ∃ n, fuel = n + 1 := ⟨fuel - 1, by omega⟩
    have hvalue : ∀ after, Ends after →
      value? fuel (newline level ++ (prettyChars level d ++ after)) =
        some (readBack d, after) := fun after hafter => by
      rw [value?_append isSpace_newline]
      exact value?_pretty d hitems.1 level fuel hafter (by omega)
    rw [htext, List.append_assoc, List.append_assoc]
    obtain ⟨rfl, rfl⟩ | ⟨hr, rfl⟩ := htail
    · exact items?_last (hvalue close hends) hclose
    · rw [List.length_cons] at hfuel
      exact items?_cons (hvalue _ (ends_cons _ (by decide)))
        (items?_pretty r hr hitems.2 level fuel close rest hclose hends (by omega))

/-- The fields of a table are read back with the closing brace. -/
theorem fields?_pretty [FloatReader] (fields : List (String × Document)) (hne : fields ≠ [])
    (hfields : LegibleFields fields) (level fuel : Nat) (close rest : List Char)
    (hclose : skipSpace close = '\x7d' :: rest) (hends : Ends close)
    (hfuel : 2 * (prettyFields level fields).length ≤ fuel) :
    fields? fuel (prettyFields level fields ++ close) =
      some ((readBackFields fields).map fun f => (some f.1.toList, f.2), rest) := by
  match fields with
  | [] => exact absurd rfl hne
  | (name, d) :: r =>
    obtain ⟨tail, htext, htail⟩ := prettyFields_cons level name d r
    have hpos := length_newline_pos level
    rw [htext, List.length_append, List.length_append, List.length_cons, List.length_cons,
      List.length_append]
      at hfuel
    obtain ⟨fuel, rfl⟩ : ∃ n, fuel = n + 1 := ⟨fuel - 1, by omega⟩
    have hvalue : ∀ after, Ends after →
        value? fuel (prettyChars level d ++ after) = some (readBack d, after) :=
      fun after hafter => value?_pretty d hfields.1 level fuel hafter (by omega)
    rw [htext, List.append_assoc, List.append_assoc, List.cons_append, List.cons_append,
      List.append_assoc]
    obtain ⟨rfl, rfl⟩ | ⟨hr, rfl⟩ := htail
    · exact fields?_last isSpace_newline isSpace_blank (hvalue close hends) hclose
    · rw [List.length_cons] at hfuel
      exact fields?_cons isSpace_newline isSpace_blank (hvalue _ (ends_cons _ (by decide)))
        (fields?_pretty r hr hfields.2 level fuel close rest hclose hends (by omega))

end

/-- **A document is read as what its numbers are read as.** -/
theorem parseChars?_pretty [FloatReader] {d : Document} (hd : Legible d) (level : Nat) :
    parseChars? (prettyChars level d) = some (readBack d) := by
  have hvalue :=
    value?_pretty d hd level (2 * (prettyChars level d).length + 1) ends_nil (Nat.le_succ _)
  rw [List.append_nil] at hvalue
  rw [parseChars?, hvalue]
  rfl

end Slideshow.Json
