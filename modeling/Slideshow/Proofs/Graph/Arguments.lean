import Slideshow.Graph.Camera

/-!
# The arguments of filters

A chain of filters is written with commas between them, a filter with an equals sign between its
name and its options and with colons between these; what stands in quotes is no separator. The value
of an option is found by the names of the filter and of the option.

Headlines:
* `argument?` finds a value in the text of a chain.
* `pieces_append`, `pieces_intercalate`: texts without separators are the pieces.
* `argument?_here`, `argument?_behind`: the filter in front is the one, or is passed over.
* `option?_here`, `option?_behind`, `option?_written`: so are options.
-/

namespace Slideshow.Graph

/-! ## Pieces of texts -/

/-- What stands around values with separators in them. -/
def quote : Char := '\x27'

/-- Puts a character in front of the first piece. -/
def inFront (c : Char) : List (List Char) → List (List Char)
  | [] => [[c]]
  | p :: ps => (c :: p) :: ps

/-- The pieces of a text between separators outside of quotes. -/
def pieces (separator : Char) : Bool → List Char → List (List Char)
  | _, [] => [[]]
  | quoted, c :: r =>
    if c = quote then inFront c (pieces separator (!quoted) r)
    else if c = separator ∧ quoted = false then [] :: pieces separator false r
    else inFront c (pieces separator quoted r)

/-- A text up to an equals sign, and behind it. -/
def cut (cs : List Char) : List Char × List Char :=
  (cs.takeWhile (· != '='), (cs.dropWhile (· != '=')).drop 1)

/-- The value of an option of a filter. -/
def option? (options key : List Char) : Option (List Char) :=
  (((pieces ':' false options).map cut).find? (·.1 == key)).map fun o => o.2.filter (· != quote)

/-- The value of an option of the first filter of some name. -/
def argument? (chain name key : List Char) : Option (List Char) :=
  (((pieces ',' false chain).map cut).find? (·.1 == name)).bind fun f => option? f.2 key

/-! ## Texts in one piece -/

/-- Whether no separator stands outside of quotes and every quote is closed. -/
def isWhole (separator : Char) : Bool → List Char → Bool
  | quoted, [] => !quoted
  | quoted, c :: r =>
    if c = quote then isWhole separator (!quoted) r
    else if c = separator ∧ quoted = false then false
    else isWhole separator quoted r

section

variable {separator : Char}

theorem pieces_whole : ∀ {quoted : Bool} {cs : List Char},
    isWhole separator quoted cs = true → pieces separator quoted cs = [cs]
  | _, [], _ => rfl
  | quoted, c :: r, h => by
    unfold isWhole at h
    unfold pieces
    by_cases hq : c = quote
    · rw [if_pos hq] at h ⊢
      rw [pieces_whole h]
      rfl
    · rw [if_neg hq] at h ⊢
      by_cases hs : c = separator ∧ quoted = false
      · rw [if_pos hs] at h
        exact absurd h Bool.false_ne_true
      · rw [if_neg hs] at h ⊢
        rw [pieces_whole h]
        rfl

/-- A whole text in front of a separator is the first piece. -/
theorem pieces_append (hsep : separator ≠ quote) : ∀ {quoted : Bool} {cs : List Char},
    isWhole separator quoted cs = true → ∀ rest,
      pieces separator quoted (cs ++ separator :: rest) = cs :: pieces separator false rest
  | quoted, [], h, rest => by
    have hquoted : quoted = false := by simpa [isWhole] using h
    rw [List.nil_append, pieces, if_neg hsep, if_pos ⟨rfl, hquoted⟩]
  | quoted, c :: r, h, rest => by
    unfold isWhole at h
    rw [List.cons_append, pieces]
    by_cases hq : c = quote
    · rw [if_pos hq] at h ⊢
      rw [pieces_append hsep h rest]
      rfl
    · rw [if_neg hq] at h ⊢
      by_cases hs : c = separator ∧ quoted = false
      · rw [if_pos hs] at h
        exact absurd h Bool.false_ne_true
      · rw [if_neg hs] at h ⊢
        rw [pieces_append hsep h rest]
        rfl

/-- Whole texts with separators between them are the pieces. -/
theorem pieces_intercalate (hsep : separator ≠ quote) : ∀ {xs : List (List Char)}, xs ≠ [] →
    (∀ x ∈ xs, isWhole separator false x = true) →
      pieces separator false ([separator].intercalate xs) = xs
  | [], h, _ => absurd rfl h
  | [x], _, h => by
    rw [List.intercalate_singleton]
    exact pieces_whole (h x List.mem_cons_self)
  | x :: y :: r, _, h => by
    obtain ⟨hx, hr⟩ := List.forall_mem_cons.mp h
    rw [List.intercalate_cons_cons, List.append_assoc, List.singleton_append, pieces_append hsep hx,
      pieces_intercalate hsep (List.cons_ne_nil y r) hr]

theorem isWhole_append : ∀ {quoted : Bool} {as bs : List Char}, isWhole separator quoted as = true →
    isWhole separator false bs = true → isWhole separator quoted (as ++ bs) = true
  | quoted, [], bs, ha, hb => by
    have hquoted : quoted = false := by simpa [isWhole] using ha
    rw [hquoted]
    exact hb
  | quoted, c :: r, bs, ha, hb => by
    unfold isWhole at ha
    rw [List.cons_append, isWhole]
    by_cases hq : c = quote
    · rw [if_pos hq] at ha ⊢
      exact isWhole_append ha hb
    · rw [if_neg hq] at ha ⊢
      by_cases hs : c = separator ∧ quoted = false
      · rw [if_pos hs] at ha
        exact absurd ha Bool.false_ne_true
      · rw [if_neg hs] at ha ⊢
        exact isWhole_append ha hb

/-- Two whole texts, and a character between them that is no separator. -/
theorem isWhole_joined {as bs : List Char} {c : Char} (hq : c ≠ quote) (hc : c ≠ separator)
    (ha : isWhole separator false as = true) (hb : isWhole separator false bs = true) :
    isWhole separator false (as ++ c :: bs) = true :=
  isWhole_append ha (by rwa [isWhole, if_neg hq, if_neg fun h => hc h.1])

/-- A text with neither quotes nor separators. -/
theorem isWhole_plain : ∀ {cs : List Char}, (∀ c ∈ cs, c ≠ quote ∧ c ≠ separator) →
    isWhole separator false cs = true
  | [], _ => rfl
  | c :: r, h => by
    obtain ⟨hq, hs⟩ := h c List.mem_cons_self
    rw [isWhole, if_neg hq, if_neg fun hc => hs hc.1]
    exact isWhole_plain fun d hd => h d (List.mem_cons_of_mem _ hd)

/-- A value in quotes. -/
def quotedText (cs : List Char) : List Char := quote :: cs ++ [quote]

theorem isWhole_quotedText {cs : List Char} (h : quote ∉ cs) :
    isWhole separator false (quotedText cs) = true := by
  have hinside : ∀ {cs : List Char}, quote ∉ cs →
      isWhole separator true (cs ++ [quote]) = true := by
    intro cs h
    induction cs with
    | nil => rw [List.nil_append, isWhole, if_pos rfl]; rfl
    | cons c r ih =>
      rw [List.cons_append, isWhole, if_neg fun hc => h (by simp [hc]),
        if_neg fun hs => Bool.false_ne_true hs.2.symm]
      exact ih fun hr => h (List.mem_cons_of_mem _ hr)
  rw [quotedText, List.cons_append, isWhole, if_pos rfl]
  exact hinside h

theorem filter_quotedText {cs : List Char} (h : quote ∉ cs) :
    (quotedText cs).filter (· != quote) = cs := by
  have hcs : cs.filter (· != quote) = cs := List.filter_eq_self.mpr fun c hc =>
    bne_iff_ne.mpr fun he => h (he ▸ hc)
  rw [quotedText, List.cons_append, List.filter_cons_of_neg (by simp), List.filter_append, hcs]
  simp

end

/-! ## Finding a value -/

theorem cut_eq {key : List Char} (h : '=' ∉ key) (value : List Char) :
    cut (key ++ '=' :: value) = (key, value) := by
  have hkey : ∀ c ∈ key, (c != '=') = true := fun c hc => bne_iff_ne.mpr fun he => h (he ▸ hc)
  rw [cut, List.takeWhile_append_of_pos hkey, List.dropWhile_append_of_pos hkey,
    List.takeWhile_cons_of_neg (by decide), List.dropWhile_cons_of_neg (by decide),
    List.append_nil, List.drop_one, List.tail_cons]

variable {key value : List Char}

theorem option?_here (h : isWhole ':' false (key ++ '=' :: value) = true) (hkey : '=' ∉ key)
    (rest : List Char) :
    option? (key ++ '=' :: value ++ ':' :: rest) key = some (value.filter (· != quote)) := by
  rw [option?, pieces_append (by decide) h, List.map_cons, cut_eq hkey,
    List.find?_cons_of_pos (by simp)]
  rfl

theorem option?_behind (h : isWhole ':' false (key ++ '=' :: value) = true) (hkey : '=' ∉ key)
    {other : List Char} (hne : key ≠ other) (rest : List Char) :
    option? (key ++ '=' :: value ++ ':' :: rest) other = option? rest other := by
  rw [option?, pieces_append (by decide) h, List.map_cons, cut_eq hkey,
    List.find?_cons_of_neg (by simpa using hne)]
  rfl

/-- An option as it is written. -/
def written (o : List Char × List Char) : List Char := o.1 ++ '=' :: o.2

/-- **The value of an option** among others as they are written is the one of the first option with
its name. -/
theorem option?_written {os : List (List Char × List Char)} (hne : os ≠ [])
    (h : ∀ o ∈ os, '=' ∉ o.1 ∧ isWhole ':' false (written o) = true) (key : List Char) :
    option? ([':'].intercalate (os.map written)) key = (os.find? (·.1 == key)).map fun o =>
      o.2.filter (· != quote) := by
  have hpieces := @pieces_intercalate ':' (by decide) (os.map written) (by simpa using hne)
    (List.forall_mem_map.mpr fun o ho => (h o ho).2)
  have hcut : (os.map written).map cut = os := by
    rw [List.map_map]
    exact (List.map_congr_left fun o ho => cut_eq (h o ho).1 o.2).trans (List.map_id' os)
  rw [option?, hpieces, hcut]

variable {name options : List Char}

theorem argument?_last (h : isWhole ',' false (name ++ '=' :: options) = true)
    (hname : '=' ∉ name) (key : List Char) :
    argument? (name ++ '=' :: options) name key = option? options key := by
  rw [argument?, pieces_whole h, List.map_singleton, cut_eq hname,
    List.find?_cons_of_pos (by simp)]
  rfl

theorem argument?_here (h : isWhole ',' false (name ++ '=' :: options) = true)
    (hname : '=' ∉ name) (key rest : List Char) :
    argument? (name ++ '=' :: options ++ ',' :: rest) name key = option? options key := by
  rw [argument?, pieces_append (by decide) h, List.map_cons, cut_eq hname,
    List.find?_cons_of_pos (by simp)]
  rfl

theorem argument?_behind (h : isWhole ',' false (name ++ '=' :: options) = true)
    (hname : '=' ∉ name) {other : List Char} (hne : name ≠ other) (key rest : List Char) :
    argument? (name ++ '=' :: options ++ ',' :: rest) other key = argument? rest other key := by
  rw [argument?, pieces_append (by decide) h, List.map_cons, cut_eq hname,
    List.find?_cons_of_neg (by simpa using hne)]
  rfl

theorem argument?_none (h : isWhole ',' false (name ++ '=' :: options) = true)
    (hname : '=' ∉ name) {other : List Char} (hne : name ≠ other) (key : List Char) :
    argument? (name ++ '=' :: options) other key = none := by
  rw [argument?, pieces_whole h, List.map_singleton, cut_eq hname,
    List.find?_cons_of_neg (by simpa using hne)]
  rfl

end Slideshow.Graph
