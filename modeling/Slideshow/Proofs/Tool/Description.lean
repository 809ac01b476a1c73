import Mathlib.Data.List.Basic
import Mathlib.Order.Nat
import Slideshow.Tool.Command

/-!
# What the line about a command identifies

The line that is told about a command (`describe`) looks like one of a shell, so that it can be read
back: unquoted blanks separate words, what stands between single quotes is literal, and an unquoted
backslash makes the next character literal. An argument with a blank or a semicolon is quoted and is
read back whatever else is in it. One without is written as it is, also with quotes and backslashes
in it, and the program is never quoted.

* `Shell.words?` reads a line; it goes from `Shell.State` to state and knows nothing of how the line
  is written.
* `Shell.eq_of_isPrefix_word`: what the first word of a text can be; `Shell.words?_joined_iff`:
  which of the words in a line are read back.
* `Command.Faithful`: what is not quoted stands for itself.

Headlines:
* **`Command.words?_describe_iff`**: a command is read back from its line exactly when it is
  faithful.
* **`Command.describe_identifies`**: two faithful commands with one line are the same program with
  the same arguments.
-/

namespace Slideshow

/-! ## Reading a line -/

namespace Shell

/-- The characters that separate words. -/
def separates (c : Char) : Bool := c == ' ' || c == '\t' || c == '\n'

/-- Where the reader of a line stands, with what it has of a word. -/
inductive State where
  | between
  | plain (word : List Char)
  /-- Between single quotes. -/
  | quoted (word : List Char)
  /-- Behind a backslash. -/
  | escaped (word : List Char)

/-- One more character, which does not separate words, outside of quotes. -/
def State.extend (word : List Char) (c : Char) : State :=
  if c = '\'' then .quoted word else if c = '\\' then .escaped word else .plain (word ++ [c])

/-- The words of a line; none if a quote is open or a backslash stands at its end. -/
def words? : State → List Char → Option (List (List Char))
  | .between, [] => some []
  | .plain word, [] => some [word]
  | .quoted _, [] | .escaped _, [] => none
  | .between, c :: r => if separates c then words? .between r else words? (.extend [] c) r
  | .plain word, c :: r =>
    if separates c then (words? .between r).map (word :: ·) else words? (.extend word c) r
  | .quoted word, c :: r => words? (if c = '\'' then .plain word else .quoted (word ++ [c])) r
  | .escaped word, c :: r => words? (.plain (word ++ [c])) r

/-- A character that stands for itself wherever it is. -/
def IsPlain (c : Char) : Prop := separates c = false ∧ c ≠ '\'' ∧ c ≠ '\\'

theorem State.extend_plain {c : Char} (h : IsPlain c) (word : List Char) :
    State.extend word c = .plain (word ++ [c]) := by
  rw [State.extend, if_neg h.2.1, if_neg h.2.2]

theorem words?_plain {cs : List Char} (h : ∀ c ∈ cs, IsPlain c) (word rest : List Char) :
    words? (.plain word) (cs ++ rest) = words? (.plain (word ++ cs)) rest := by
  induction cs generalizing word with
  | nil => rw [List.nil_append, List.append_nil]
  | cons c cs ih =>
    obtain ⟨hc, hcs⟩ := List.forall_mem_cons.mp h
    rw [List.cons_append, words?, hc.1, if_neg Bool.false_ne_true, State.extend_plain hc, ih hcs,
      List.append_assoc, List.singleton_append]

/-- A word begins with the first character that does not separate. -/
theorem words?_begin {c : Char} (h : separates c = false) (rest : List Char) :
    words? .between (c :: rest) = words? (.plain []) (c :: rest) := by
  rw [words?, words?, h, if_neg Bool.false_ne_true, if_neg Bool.false_ne_true]

/-- Inside quotes, a text is read up to the quote that ends it; a quote in it was written
outside. -/
theorem words?_escaped (cs word rest : List Char) :
    words? (.quoted word)
    (cs.flatMap (fun c => if c == '\'' then ['\'', '\\', '\'', '\''] else [c]) ++ '\'' :: rest) =
      words? (.plain (word ++ cs)) rest := by
  induction cs generalizing word with
  | nil => rw [List.flatMap_nil, List.nil_append, words?, if_pos rfl, List.append_nil]
  | cons c cs ih =>
    rw [List.flatMap_cons, List.append_assoc]
    by_cases hc : c = '\''
    · have hreopen : words? (.plain word) ('\\' :: '\'' :: '\'' :: (cs.flatMap (fun c =>
          if c == '\'' then ['\'', '\\', '\'', '\''] else [c]) ++ '\'' :: rest)) =
              words? (.plain (word ++ ['\''] ++ cs)) rest := by
        rw [words?, if_neg (by decide), State.extend, if_neg (by decide), if_pos rfl, words?,
          words?, if_neg (by decide), State.extend, if_pos rfl, ih]
      subst hc
      rw [if_pos (beq_self_eq_true _), List.cons_append, words?, if_pos rfl]
      simp only [List.cons_append, List.nil_append]
      rw [hreopen, List.append_assoc, List.singleton_append]
    · rw [if_neg fun h => hc (beq_iff_eq.mp h), List.singleton_append, words?, if_neg hc, ih,
        List.append_assoc, List.singleton_append]

/-- A quoted word is read whatever is in it. -/
theorem words?_quoted (cs rest : List Char) :
    words? .between (Command.quoted cs ++ rest) = words? (.plain cs) rest := by
  rw [Command.quoted, List.cons_append, List.cons_append, List.append_assoc, List.singleton_append,
    words?, if_neg (by decide), State.extend, if_pos rfl, words?_escaped, List.nil_append]

/-! ## How a word grows -/

/-- The word that the reader is in. -/
def State.word? : State → Option (List Char)
  | .between => none
  | .plain word | .quoted word | .escaped word => some word

/-- A word that is begun is never taken back. -/
theorem isPrefix_of_words? {text : List Char} :
    ∀ {s : State} {word v : List Char} {vs : List (List Char)},
    words? s text = some (v :: vs) → s.word? = some word → word <+: v := by
  induction text with
  | nil =>
    intro s word v vs h hs
    cases s with
    | between => cases hs
    | plain w =>
      obtain rfl : w = word := Option.some.inj hs
      exact (List.cons.inj (Option.some.inj h)).1 ▸ List.prefix_rfl
    | quoted w => cases h
    | escaped w => cases h
  | cons c r ih =>
    -- one more character
    have hmore : ∀ {s : State} {word v : List Char} {vs : List (List Char)},
      words? s r = some (v :: vs) →
        s.word? = some (word ++ [c]) → word <+: v :=
          fun h hs => (List.prefix_append _ _).trans (ih h hs)
    intro s word v vs h hs
    cases s with
    | between => cases hs
    | plain w =>
      obtain rfl : w = word := Option.some.inj hs
      rw [words?] at h
      split at h
      · obtain ⟨ws, -, hws⟩ := Option.map_eq_some_iff.mp h
        exact (List.cons.inj hws).1 ▸ List.prefix_rfl
      · rw [State.extend] at h
        split at h
        · exact ih h rfl
        · split at h
          · exact ih h rfl
          · exact hmore h rfl
    | quoted w =>
      obtain rfl : w = word := Option.some.inj hs
      rw [words?] at h
      split at h
      · exact ih h rfl
      · exact hmore h rfl
    | escaped w =>
      obtain rfl : w = word := Option.some.inj hs
      rw [words?] at h
      exact hmore h rfl

/-- How a text leads from a word to a longer one, by no more than that text. If it is by all of it,
from outside of quotes, then no quote and no backslash was in it. -/
structure Leads (s : State) (word cs : List Char) (s' : State) (more : List Char) : Prop where
  reads : ∀ rest, words? s (cs ++ rest) = words? s' rest
  grows : s'.word? = some (word ++ more)
  length_le : more.length ≤ cs.length
  whole : s = .plain word → more.length = cs.length → s' = .plain (word ++ more) ∧
    ∀ c ∈ cs, c ≠ '\'' ∧ c ≠ '\\'

section
variable {s s₁ s' : State} {word cs more : List Char} {c : Char}

theorem Leads.nil (h : s.word? = some word) : Leads s word [] s [] where
  reads := fun _ => rfl
  grows := by rw [h, List.append_nil]
  length_le := le_rfl
  whole := fun hplain _ => ⟨by rw [hplain, List.append_nil], fun _ hc => absurd hc List.not_mem_nil⟩

/-- A character that only changes how the reader stands is lost. -/
theorem Leads.lose (h : Leads s₁ word cs s' more)
    (hstep : ∀ rest, words? s (c :: rest) = words? s₁ rest) :
    Leads s word (c :: cs) s' more where
  reads := fun rest => (hstep _).trans (h.reads rest)
  grows := h.grows
  length_le := Nat.le_succ_of_le h.length_le
  whole := fun _ hlength => absurd (h.length_le.trans_lt (Nat.lt_succ_self _)) hlength.not_lt

/-- One that is read as itself makes the word longer. -/
theorem Leads.keep (h : Leads s₁ (word ++ [c]) cs s' more)
    (hstep : ∀ rest, words? s (c :: rest) = words? s₁ rest)
    (hplain : s = .plain word → s₁ = .plain (word ++ [c]) ∧ c ≠ '\'' ∧ c ≠ '\\') :
    Leads s word (c :: cs) s' (c :: more) := by
  have hword : word ++ [c] ++ more = word ++ c :: more := by
    rw [List.append_assoc, List.singleton_append]
  refine ⟨fun rest => (hstep _).trans (h.reads rest), hword ▸ h.grows, Nat.succ_le_succ h.length_le,
    fun hs hlength => ?_⟩
  obtain ⟨hs₁, hsafe⟩ := hplain hs
  obtain ⟨hs', hrest⟩ := h.whole hs₁ (Nat.succ.inj hlength)
  exact ⟨hword ▸ hs', List.forall_mem_cons.mpr ⟨hsafe, hrest⟩⟩

end

/-- A text in which nothing separates leads on from every word. -/
theorem exists_leads {cs : List Char} (h : ∀ c ∈ cs, separates c = false) {s : State}
    {word : List Char} (hs : s.word? = some word) :
    ∃ (s' : State) (more : List Char), Leads s word cs s' more := by
  induction cs generalizing s word with
  | nil => exact ⟨s, [], .nil hs⟩
  | cons c cs ih =>
    obtain ⟨hc, hcs⟩ := List.forall_mem_cons.mp h
    cases s with
    | between => cases hs
    | plain w =>
      obtain rfl : w = word := Option.some.inj hs
      have hstep : ∀ rest, words? (.plain w) (c :: rest) = words? (.extend w c) rest :=
        fun rest => by
        rw [words?, hc, if_neg Bool.false_ne_true]
      by_cases hquote : c = '\''
      · obtain ⟨s', more, hleads⟩ := @ih hcs (.quoted w) w rfl
        exact ⟨s', more, hleads.lose fun rest => by rw [hstep, State.extend, if_pos hquote]⟩
      by_cases hbackslash : c = '\\'
      · obtain ⟨s', more, hleads⟩ := @ih hcs (.escaped w) w rfl
        exact ⟨s', more, hleads.lose fun rest => by
          rw [hstep, State.extend, if_neg hquote, if_pos hbackslash]⟩
      · obtain ⟨s', more, hleads⟩ := @ih hcs (.plain (w ++ [c])) (w ++ [c]) rfl
        exact ⟨s', c :: more,
          hleads.keep (fun rest => by rw [hstep, State.extend_plain ⟨hc, hquote, hbackslash⟩])
            fun _ => ⟨rfl, hquote, hbackslash⟩⟩
    | quoted w =>
      obtain rfl : w = word := Option.some.inj hs
      by_cases hquote : c = '\''
      · obtain ⟨s', more, hleads⟩ := @ih hcs (.plain w) w rfl
        exact ⟨s', more, hleads.lose fun rest => by rw [words?, if_pos hquote]⟩
      · obtain ⟨s', more, hleads⟩ := @ih hcs (.quoted (w ++ [c])) (w ++ [c]) rfl
        exact ⟨s', c :: more, hleads.keep (fun rest => by rw [words?, if_neg hquote]) fun hplain =>
          nomatch hplain⟩
    | escaped w =>
      obtain rfl : w = word := Option.some.inj hs
      obtain ⟨s', more, hleads⟩ := @ih hcs (.plain (w ++ [c])) (w ++ [c]) rfl
      exact ⟨s', c :: more, hleads.keep (fun rest => by rw [words?]) fun hplain => nomatch hplain⟩

section
variable {cs rest more v : List Char} {vs : List (List Char)} {s' s₁ : State} {b : Char}

/-- A character that is lost would have to be made up for by the separator behind the text, which is
not in it. -/
theorem Leads.not_isPrefix (h : Leads (.plain []) [] cs s' more) (hother : s' ≠ .plain more)
    (hcs : ∀ c ∈ cs, separates c = false) (hb : separates b = true)
    (hword : s₁.word? = some (more ++ [b])) (hread : words? s₁ rest = some (v :: vs)) :
    ¬cs <+: v := by
  intro hv
  have hlt : more.length < cs.length :=
    lt_of_le_of_ne h.length_le fun heq => hother (h.whole rfl heq).1
  have hgrown : more ++ [b] <+: cs :=
    List.prefix_of_prefix_length_le (isPrefix_of_words? hread hword) hv
      (by rw [List.length_append]; exact hlt)
  have hmem : b ∈ cs := hgrown.subset (List.mem_append_right _ List.mem_cons_self)
  exact absurd ((hcs b hmem).symm.trans hb) Bool.false_ne_true

/-- **The first word of a text is the part before the first separator, or does not begin with it.**
Inside quotes or behind a backslash, the separator would be a part of the word. -/
theorem eq_of_isPrefix_word (h : ∀ c ∈ cs, separates c = false)
    (hrest : ∀ c ∈ rest.head?, separates c = true)
    (hread : words? (.plain []) (cs ++ rest) = some (v :: vs)) (hv : cs <+: v) :
    v = cs ∧ ∀ c ∈ cs, c ≠ '\'' ∧ c ≠ '\\' := by
  obtain ⟨s', more, hleads⟩ := exists_leads h (s := .plain []) rfl
  rw [hleads.reads] at hread
  cases s' with
  | between => cases hleads.grows
  | plain w =>
    obtain rfl : w = more := Option.some.inj hleads.grows
    have hword : v = w := by
      cases rest with
      | nil => exact (List.cons.inj (Option.some.inj hread)).1.symm
      | cons b r =>
        rw [words?, hrest b rfl, if_pos rfl] at hread
        obtain ⟨ws, -, hws⟩ := Option.map_eq_some_iff.mp hread
        exact (List.cons.inj hws).1.symm
    subst hword
    have heq := hv.eq_of_length (le_antisymm hv.length_le hleads.length_le)
    exact ⟨heq.symm, (hleads.whole rfl (congrArg List.length heq).symm).2⟩
  | quoted w =>
    obtain rfl : w = more := Option.some.inj hleads.grows
    cases rest with
    | nil => cases hread
    | cons b r =>
      have hb : b ≠ '\'' := by
        rintro rfl
        exact absurd (hrest _ rfl) (by decide)
      rw [words?, if_neg hb] at hread
      exact absurd hv (hleads.not_isPrefix State.noConfusion h (hrest b rfl) rfl hread)
  | escaped w =>
    obtain rfl : w = more := Option.some.inj hleads.grows
    cases rest with
    | nil => cases hread
    | cons b r =>
      rw [words?] at hread
      exact absurd hv (hleads.not_isPrefix State.noConfusion h (hrest b rfl) rfl hread)

end

/-! ## Words in a line -/

/-- A word is written between quotes, or as it is if it can stand alone. -/
def Renders (text word : List Char) : Prop :=
  text = Command.quoted word ∨ text = word ∧ word ≠ [] ∧ ∀ c ∈ word, separates c = false

/-- A word that is not quoted is read back: no quote and no backslash is in it. -/
def Safe (text word : List Char) : Prop :=
  text = Command.quoted word ∨ ∀ c ∈ word, c ≠ '\'' ∧ c ≠ '\\'

section
variable {text word rest : List Char}

/-- A word that is safe is read up to its end. -/
theorem Renders.words? (h : Renders text word) (hsafe : Safe text word) :
    words? .between (text ++ rest) = Shell.words? (.plain word) rest := by
  have hquoted : text = Command.quoted word →
      Shell.words? .between (text ++ rest) = Shell.words? (.plain word) rest :=
    fun htext => htext ▸ words?_quoted word rest
  rcases h with htext | ⟨rfl, hne, hseparates⟩
  · exact hquoted htext
  rcases hsafe with htext | hsafe
  · exact hquoted htext
  cases text with
  | nil => exact absurd rfl hne
  | cons c cs =>
    have hplain := @words?_plain (c :: cs) (fun d hd => ⟨hseparates d hd, hsafe d hd⟩) [] rest
    rw [List.cons_append, words?_begin (hseparates c List.mem_cons_self), ← List.cons_append,
      hplain, List.nil_append]

/-- A word that is read back is safe. -/
theorem Renders.safe (h : Renders text word) (hrest : ∀ c ∈ rest.head?, separates c = true)
    {ws : List (List Char)} (hread : Shell.words? .between (text ++ rest) = some (word :: ws)) :
    Safe text word := by
  rcases h with htext | ⟨rfl, hne, hseparates⟩
  · exact .inl htext
  right
  cases text with
  | nil => exact absurd rfl hne
  | cons c cs =>
    rw [List.cons_append,
      words?_begin (hseparates c List.mem_cons_self), ← List.cons_append] at hread
    exact (eq_of_isPrefix_word hseparates hrest hread List.prefix_rfl).2

end

/-- A text with a separator in it, and none in front, is not the first word that is read from it. -/
theorem words?_ne_of_separates {c : Char} {cs rest : List Char} {ws : List (List Char)}
    (hc : separates c = false) (h : ∃ d ∈ cs, separates d = true) :
    words? .between (c :: cs ++ rest) ≠ some ((c :: cs) :: ws) := by
  intro hread
  obtain ⟨before, b, behind, hcs, hb, hbefore⟩ : ∃ before b behind,
    c :: cs = before ++ b :: behind ∧ separates b = true ∧
      ∀ d ∈ before, separates d = false := by
    obtain ⟨d, hd, hseparates⟩ := h
    obtain ⟨b, hfind⟩ := Option.isSome_iff_exists.mp
      (List.find?_isSome.mpr ⟨d, List.mem_cons_of_mem c hd, hseparates⟩)
    obtain ⟨hb, before, behind, hcs, hbefore⟩ := List.find?_eq_some_iff_append.mp hfind
    exact ⟨before, b, behind, hcs, hb, fun e he => by simpa using hbefore e he⟩
  rw [List.cons_append, words?_begin hc, ← List.cons_append, hcs, List.append_assoc,
    List.cons_append] at hread
  have hhead : ∀ d ∈ (b :: (behind ++ rest)).head?, separates d = true := by
    rintro d ⟨⟩
    exact hb
  have hword := (eq_of_isPrefix_word hbefore hhead hread (List.prefix_append _ _)).1
  exact List.cons_ne_nil _ _ (List.append_right_eq_self.mp hword)

theorem exists_intercalate_cons (separator text : List Char) (texts : List (List Char)) :
    ∃ rest, separator.intercalate (text :: texts) = text ++ rest := by
  cases texts with
  | nil => exact ⟨[], by simp⟩
  | cons next texts => exact ⟨_, List.intercalate_cons_cons.trans (List.append_assoc ..)⟩

/-- **Words in a line are read back exactly when all of them are safe.** -/
theorem words?_joined_iff {items : List (List Char × List Char)}
    (h : ∀ i ∈ items, Renders i.1 i.2) :
    words? .between ([' '].intercalate (items.map Prod.fst)) = some (items.map Prod.snd) ↔
        ∀ i ∈ items, Safe i.1 i.2 := by
  induction items with
  | nil => exact iff_of_true rfl fun _ h => absurd h List.not_mem_nil
  | cons i items ih =>
    obtain ⟨hi, hitems⟩ := List.forall_mem_cons.mp h
    -- behind the first word there is nothing, or a blank and the other words
    obtain ⟨rest, htext, hhead, hrest⟩ : ∃ rest,
      [' '].intercalate ((i :: items).map Prod.fst) = i.1 ++ rest ∧
        (∀ c ∈ rest.head?, separates c = true) ∧
        words? (.plain i.2) rest =
            (words? .between ([' '].intercalate (items.map Prod.fst))).map (i.2 :: ·) := by
      cases items with
      | nil => exact ⟨[], by simp, ⟨fun _ h => (Option.not_mem_none _ h).elim, rfl⟩⟩
      | cons j items =>
        refine ⟨' ' :: [' '].intercalate ((j :: items).map Prod.fst), ?_, ?_, by
          rw [words?, if_pos (by decide)]⟩
        · simp only [List.map_cons]
          rw [List.intercalate_cons_cons, List.append_assoc, List.singleton_append]
        · rintro c ⟨⟩
          decide
    rw [htext, List.map_cons, List.forall_mem_cons]
    constructor
    · intro hread
      have hsafe := hi.safe hhead hread
      rw [hi.words? hsafe, hrest] at hread
      obtain ⟨ws, hws, hcons⟩ := Option.map_eq_some_iff.mp hread
      exact ⟨hsafe, (ih hitems).mp (hws.trans (congrArg some (List.cons.inj hcons).2))⟩
    · rintro ⟨hsafe, hrestSafe⟩
      rw [hi.words? hsafe, hrest, (ih hitems).mpr hrestSafe]
      rfl

end Shell

/-! ## The line about a command -/

namespace Command

open Shell

/-- The words that a line about a command is read as. -/
def wordsOf? (line : String) : Option (List String) :=
  (words? .between line.toList).map (·.map String.ofList)

/-- A program whose path begins with something else than a blank. -/
def Begins (program : String) : Prop := ∃ c cs, program.toList = c :: cs ∧ separates c = false

/-- What is not quoted stands for itself: no quote and no backslash is in it, nor a blank in the
path of the program. -/
structure Faithful (c : Command) : Prop where
  program : ∀ ch ∈ c.program.toList, IsPlain ch
  arguments : ∀ a ∈ c.arguments, needsQuotes a.toList = false → ∀ ch ∈ a.toList, ch ≠ '\'' ∧
    ch ≠ '\\'

theorem isBlank_of_separates {c : Char} (h : separates c = true) : Text.isBlank c = true := by
  simp only [separates, Bool.or_eq_true, beq_iff_eq] at h
  rcases h with (rfl | rfl) | rfl <;> decide

/-- Quotes inside are written longer, and nothing is left out. -/
theorem length_le_escaped (cs : List Char) :
    cs.length ≤
        (cs.flatMap fun c => if c == '\'' then ['\'', '\\', '\'', '\''] else [c]).length := by
  induction cs with
  | nil => exact le_rfl
  | cons c cs ih =>
    rw [List.flatMap_cons, List.length_append, List.length_cons, Nat.add_comm]
    refine Nat.add_le_add ?_ ih
    split <;> simp

/-- A text is shorter than it is between quotes. -/
theorem ne_quoted (cs : List Char) : cs ≠ quoted cs := by
  intro h
  have hle := length_le_escaped cs
  have hlength := congrArg List.length h
  simp only [quoted, List.cons_append, List.length_cons, List.length_append,
    List.length_nil] at hlength
  omega

theorem toList_word (a : String) :
    (word a).toList = if needsQuotes a.toList then quoted a.toList else a.toList := by
  unfold word
  split
  · exact String.toList_ofList
  · rfl

theorem renders_word (a : String) : Renders (word a).toList a.toList := by
  rw [toList_word]
  split
  · exact .inl rfl
  · next hplain =>
    simp only [needsQuotes, Bool.or_eq_true, not_or, List.isEmpty_iff, Bool.not_eq_true,
      List.any_eq_false] at hplain
    refine .inr ⟨rfl, hplain.1, fun c hc => ?_⟩
    by_contra hseparates
    exact Bool.false_ne_true
      ((hplain.2 c hc).1.symm.trans (isBlank_of_separates (Bool.not_eq_false _ ▸ hseparates)))

theorem safe_word_iff (a : String) :
    Safe (word a).toList a.toList ↔
        (needsQuotes a.toList = false → ∀ c ∈ a.toList, c ≠ '\'' ∧ c ≠ '\\') := by
  rw [toList_word, Safe]
  cases needsQuotes a.toList with
  | true => exact iff_of_true (.inl rfl) fun h => nomatch h
  | false =>
    rw [if_neg Bool.false_ne_true]
    exact ⟨fun h _ => h.resolve_left (ne_quoted _), fun h => .inr (h rfl)⟩

/-- **A command is read back from its line exactly when it is faithful.** -/
theorem words?_describe_iff {c : Command} (h : Begins c.program) :
    wordsOf? c.describe = some (c.program :: c.arguments) ↔ c.Faithful := by
  have hline : c.describe.toList = [' '].intercalate
      (((c.program.toList, c.program.toList) :: c.arguments.map fun a =>
          ((word a).toList, a.toList)).map Prod.fst) := by
    rw [describe, String.toList_intercalate]
    simp [Function.comp_def]
  have hread : wordsOf? c.describe = some (c.program :: c.arguments) ↔
    words? .between c.describe.toList =
      some (((c.program.toList, c.program.toList) :: c.arguments.map fun a =>
          ((word a).toList, a.toList)).map Prod.snd) := by
    have hinjective : Function.Injective (List.map String.ofList) :=
      List.map_injective_iff.mpr fun a b h => String.ofList_injective h
    rw [wordsOf?, ← (Option.map_injective hinjective).eq_iff]
    simp [Function.comp_def]
  obtain ⟨first, more, hprogram, hfirst⟩ := h
  by_cases hseparates : ∃ d ∈ more, separates d = true
  · -- a blank in the path is lost
    refine iff_of_false (fun hback => ?_) fun hfaithful => ?_
    · rw [hread, hline, List.map_cons, List.map_cons, hprogram] at hback
      obtain ⟨rest, hrest⟩ := exists_intercalate_cons [' '] (first :: more)
        ((c.arguments.map fun a => ((word a).toList, a.toList)).map Prod.fst)
      exact words?_ne_of_separates hfirst hseparates (hrest ▸ hback)
    · obtain ⟨d, hd, hblank⟩ := hseparates
      have hplain := (hfaithful.program d (hprogram ▸ List.mem_cons_of_mem _ hd)).1
      exact Bool.false_ne_true (hplain.symm.trans hblank)
  have hunbroken : ∀ ch ∈ c.program.toList, separates ch = false := by
    rw [hprogram]
    exact List.forall_mem_cons.mpr
      ⟨hfirst, fun d hd => Bool.eq_false_iff.mpr fun hblank => hseparates ⟨d, hd, hblank⟩⟩
  have hne : c.program.toList ≠ [] := hprogram ▸ List.cons_ne_nil _ _
  have hjoined :=
    @words?_joined_iff
      ((c.program.toList, c.program.toList) :: c.arguments.map fun a => ((word a).toList, a.toList))
    (List.forall_mem_cons.mpr
      ⟨.inr ⟨rfl, hne, hunbroken⟩, List.forall_mem_map.mpr fun a _ => renders_word a⟩)
  rw [hread, hline, hjoined, List.forall_mem_cons, List.forall_mem_map]
  constructor
  · rintro ⟨hprogram, harguments⟩
    exact ⟨fun ch hch => ⟨hunbroken ch hch, hprogram.resolve_left (ne_quoted _) ch hch⟩,
      fun a ha => (safe_word_iff a).mp (harguments a ha)⟩
  · rintro ⟨hprogram, harguments⟩
    exact ⟨.inr fun ch hch => (hprogram ch hch).2, fun a ha =>
      (safe_word_iff a).mpr (harguments a ha)⟩

/-- **The line about a command identifies it exactly as far as it is faithful.** A program that
begins with something else than a blank is read back with its arguments, in order, exactly when
there is no blank in its path, and no quote and no backslash in what is not quoted, whatever stands
between quotes. So two such commands with one line are the same program with the same arguments. -/
theorem describe_identifies {c : Command} (h : Begins c.program) :
    (wordsOf? c.describe = some (c.program :: c.arguments) ↔ c.Faithful) ∧
      ∀ d : Command, Begins d.program → c.Faithful → d.Faithful → c.describe = d.describe →
        c.program = d.program ∧ c.arguments = d.arguments := by
  refine ⟨words?_describe_iff h, fun d hd hc hfaithful hline => ?_⟩
  have hread := (words?_describe_iff h).mpr hc
  rw [hline, (words?_describe_iff hd).mpr hfaithful] at hread
  exact List.cons.inj (Option.some.inj hread).symm

/-- A command with all that needs quotes in its arguments, and with quotes and backslashes there. -/
def awkward : Command where
  program := "/usr/bin/ffmpeg"
  arguments := ["-filter_complex", "[0:v]fps=30[v];[x]null[y]", "", "it's \\ a 'file'.mp4", "''; '"]

/-- It is read back from its line. -/
theorem describe_identifies_awkward : Begins awkward.program ∧ awkward.Faithful ∧
    awkward.describe =
      "/usr/bin/ffmpeg -filter_complex '[0:v]fps=30[v];[x]null[y]' '' 'it'\\''s \\ a '\\''file'\\''.mp4' " ++
      "''\\'''\\''; '\\'''" ∧
    wordsOf? awkward.describe = some (awkward.program :: awkward.arguments) := by
  have hbegins : Begins awkward.program := ⟨'/', "usr/bin/ffmpeg".toList, by decide, by decide⟩
  have hfaithful : awkward.Faithful :=
    ⟨by simp [awkward, IsPlain, separates], by simp [awkward, needsQuotes, Text.isBlank]⟩
  exact ⟨hbegins, hfaithful, by decide, (describe_identifies hbegins).1.mpr hfaithful⟩

/-- **What is not faithful is mistaken**: an argument with a quote and no blank leaves the quote
open, one with a backslash loses it, and a program with a blank is read as a program and its
argument. -/
theorem describe_confuses :
    wordsOf? (describe { program := "ffmpeg", arguments := ["it's"] }) = none ∧
      wordsOf? (describe { program := "ffmpeg", arguments := ["a\\b"] }) = some ["ffmpeg", "ab"] ∧
      describe { program := "my ffmpeg" } =
          describe { program := "my", arguments := ["ffmpeg"] } := by
  decide

end Command

end Slideshow
