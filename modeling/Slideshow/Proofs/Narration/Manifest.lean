import Mathlib.Data.List.Nodup
import Slideshow.Proofs.Render.Names

/-!
# What a manifest lists

A manifest (`manifest_contents`) is read line by line. Each line is the word `file` and one token:
text between single quotes is literal, and outside of them a backslash makes the next character
literal and a blank ends the token.

* `Manifest.listed?` reads a manifest, `item?` a line of it and `token?` a token.
* `Manifest.Breaks` says which characters end a line: the line feed alone (`Breaks.feed`), those of
  a demuxer (`Breaks.demuxer`), or others.

Headlines:
* **`Manifest.listed?_manifest`**: names without line breaks are read as they were listed, in order.
* **`Manifest.manifest_readsBack_iff`**: whatever ends a line, exactly the names without line breaks
  are.
* **`nodup_partFiles`**: the files of converted parts are different ones, however many there are.
-/

namespace Slideshow

open FileTree Decimal

namespace Manifest

/-! ## Reading -/

/-- The lines of a text; what follows the last line break is one more, unless it is empty. -/
def lines : List Char → List (List Char)
  | [] => []
  | c :: r =>
    if c = '\n' then [] :: lines r
    else
      match lines r with
      | [] => [[c]]
      | l :: ls => (c :: l) :: ls

/-- A blank inside a line. -/
def isBlank (c : Char) : Bool := c == ' ' || c == '\t' || c == '\r'

/-- How the next character of a token is read. -/
inductive Mode where
  | plain
  /-- Between single quotes. -/
  | quoted
  /-- Behind a backslash. -/
  | escaped

/-- The token that takes up the rest of a line; none if a blank ends it, or if a quote is open or a
backslash stands at the end. -/
def token? : Mode → List Char → Option (List Char)
  | .plain, [] => some []
  | .quoted, [] => none
  | .escaped, [] => none
  | .quoted, c :: r => if c = '\'' then token? .plain r else (token? .quoted r).map (c :: ·)
  | .escaped, c :: r => (token? .plain r).map (c :: ·)
  | .plain, c :: r =>
    if c = '\'' then token? .quoted r
    else if c = '\\' then token? .escaped r
    else if isBlank c then none
    else (token? .plain r).map (c :: ·)

/-- The name in a line. -/
def item? (line : List Char) : Option String :=
  if "file ".toList.isPrefixOf line then (token? .plain (line.drop 5)).map String.ofList else none

/-- The names that a text lists, if all of its lines have one. -/
def listed? (text : String) : Option (List String) := (lines text.toList).mapM item?

/-- Which characters end a line. The line feed is one, and what a line has besides its name is
none. -/
structure Breaks where
  isBreak : Char → Bool
  newline : isBreak '\n' = true
  inside : ∀ c ∈ "file '\\".toList, isBreak c = false

namespace Breaks

/-- The line feed alone. -/
def feed : Breaks := ⟨(· == '\n'), rfl, by simp⟩

/-- The characters that end a line for a demuxer. -/
def demuxer : Breaks := ⟨fun c => c == '\n' || c == '\r' || c == '\x00', rfl, by simp⟩

/-- The lines of a text under other line breaks. -/
def lines (b : Breaks) : List Char → List (List Char)
  | [] => []
  | c :: r =>
    if b.isBreak c then [] :: b.lines r
    else
      match b.lines r with
      | [] => [[c]]
      | l :: ls => (c :: l) :: ls

/-- The names that a text lists under other line breaks. -/
def listed? (b : Breaks) (text : String) : Option (List String) := (b.lines text.toList).mapM item?

/-- No line breaks stand in a text. -/
def Spare (b : Breaks) (cs : List Char) : Prop := ∀ c ∈ cs, b.isBreak c = false

variable {b : Breaks}

theorem lines_feed (cs : List Char) : feed.lines cs = Manifest.lines cs := by
  induction cs with
  | nil => rfl
  | cons c r ih =>
    rw [lines, Manifest.lines, ih]
    by_cases hc : c = '\n' <;> simp [feed, hc]

theorem lines_append {l : List Char} (h : b.Spare l) (r : List Char) :
    b.lines (l ++ '\n' :: r) = l :: b.lines r := by
  induction l with
  | nil => exact if_pos b.newline
  | cons c l ih =>
    obtain ⟨hc, hl⟩ := List.forall_mem_cons.mp h
    rw [List.cons_append, lines, if_neg (by rw [hc]; exact Bool.false_ne_true), ih hl]

/-- Line breaks stand between lines and in none of them. -/
theorem spare_of_mem_lines {cs l : List Char} (h : l ∈ b.lines cs) : b.Spare l := by
  induction cs generalizing l with
  | nil => cases h
  | cons c r ih =>
    rw [lines] at h
    split at h
    · rcases List.mem_cons.mp h with rfl | h
      · exact fun d hd => absurd hd List.not_mem_nil
      · exact ih h
    · next hc =>
      have hc : b.isBreak c = false := eq_false_of_ne_true hc
      split at h
      · rw [List.mem_singleton.mp h]
        exact List.forall_mem_singleton.mpr hc
      · next first rest hlines =>
        rcases List.mem_cons.mp h with rfl | h
        · exact List.forall_mem_cons.mpr ⟨hc, ih (hlines ▸ List.mem_cons_self)⟩
        · exact ih (hlines ▸ List.mem_cons_of_mem _ h)

end Breaks

/-! ## Tokens -/

theorem token?_close (r : List Char) : token? .quoted ('\'' :: r) = token? .plain r := by
  rw [token?, if_pos rfl]

theorem token?_open (r : List Char) : token? .plain ('\'' :: r) = token? .quoted r := by
  rw [token?, if_pos rfl]

theorem token?_backslash (c : Char) (r : List Char) :
    token? .plain ('\\' :: c :: r) = (token? .plain r).map (c :: ·) := by
  rw [token?, if_neg (by decide), if_pos rfl, token?]

theorem token?_literal {c : Char} (hc : c ≠ '\'') (r : List Char) :
    token? .quoted (c :: r) = (token? .quoted r).map (c :: ·) := by
  rw [token?, if_neg hc]

/-- Inside quotes, a text is read up to the quote that ends it; a quote in it was written
outside. -/
theorem token?_escaped (cs r : List Char) :
    token? .quoted
      (cs.flatMap (fun c => if c == '\'' then ['\'', '\\', '\'', '\''] else [c]) ++ '\'' :: r) =
      (token? .plain r).map (cs ++ ·) := by
  induction cs with
  | nil =>
    rw [List.flatMap_nil, List.nil_append, token?_close]
    exact Option.map_id'.symm
  | cons c cs ih =>
    rw [List.flatMap_cons, List.append_assoc]
    by_cases hc : c = '\''
    · rw [if_pos (beq_iff_eq.mpr hc), hc]
      simp only [List.cons_append, List.nil_append]
      -- the quote ends, a quote behind a backslash follows, and the text goes on between new quotes
      rw [token?_close, token?_backslash, token?_open, ih, Option.map_map]
      rfl
    · rw [if_neg fun h => hc (beq_iff_eq.mp h), List.singleton_append, token?_literal hc, ih,
        Option.map_map]
      rfl

/-- A quoted text is one token. -/
theorem token?_quoted (cs : List Char) : token? .plain (Command.quoted cs) = some cs := by
  rw [Command.quoted, List.cons_append, token?_open, token?_escaped, token?, Option.map_some,
    List.append_nil]

/-- What a token is read as stands in it. -/
theorem subset_of_token? {mode : Mode} {cs t : List Char} (h : token? mode cs = some t) :
    t ⊆ cs := by
  have hcons : ∀ {mode : Mode} {c : Char} {r : List Char}, (∀ {t}, token? mode r = some t → t ⊆ r) →
    ∀ {t},
      (token? mode r).map (c :: ·) = some t → t ⊆ c :: r := by
    intro mode c r ih t h
    obtain ⟨u, hu, rfl⟩ := Option.map_eq_some_iff.mp h
    exact List.cons_subset_cons c (ih hu)
  induction cs generalizing mode t with
  | nil =>
    cases mode <;> cases h
    exact List.nil_subset _
  | cons c r ih =>
    cases mode with
    | quoted =>
      rw [token?] at h
      split at h
      · exact List.subset_cons_of_subset c (ih h)
      · exact hcons ih h
    | escaped => exact hcons ih h
    | plain =>
      rw [token?] at h
      split at h
      · exact List.subset_cons_of_subset c (ih h)
      split at h
      · exact List.subset_cons_of_subset c (ih h)
      split at h
      · cases h
      · exact hcons ih h

theorem subset_of_item? {line : List Char} {n : String} (h : item? line = some n) :
    n.toList ⊆ line := by
  rw [item?] at h
  split at h
  · obtain ⟨t, ht, rfl⟩ := Option.map_eq_some_iff.mp h
    rw [String.toList_ofList]
    exact fun c hc => List.drop_subset 5 line (subset_of_token? ht hc)
  · cases h

/-! ## Manifests -/

/-- A line of a manifest without its end. -/
def bareLine (name : String) : List Char := "file ".toList ++ Command.quoted name.toList

theorem toList_manifest (names : List String) :
    (manifest names).toList = names.flatMap fun n => bareLine n ++ ['\n'] :=
  String.toList_ofList

theorem item?_bareLine (name : String) : item? (bareLine name) = some name := by
  rw [item?, bareLine, if_pos (List.isPrefixOf_iff_prefix.mpr (List.prefix_append _ _))]
  show (token? .plain (Command.quoted name.toList)).map String.ofList = _
  rw [token?_quoted, Option.map_some, String.ofList_toList]

/-- What a line has besides its name ends no line. -/
theorem spare_bareLine {b : Breaks} {name : String} (h : b.Spare name.toList) :
    b.Spare (bareLine name) := by
  have hquote : b.isBreak '\'' = false := b.inside _ (by decide)
  have hback : b.isBreak '\\' = false := b.inside _ (by decide)
  refine List.forall_mem_append.mpr
    ⟨fun c hc => b.inside c (List.mem_append_left ['\'', '\\'] hc), ?_⟩
  refine List.forall_mem_cons.mpr
    ⟨hquote, List.forall_mem_append.mpr ⟨fun c hc => ?_, List.forall_mem_singleton.mpr hquote⟩⟩
  obtain ⟨d, hd, hc⟩ := List.mem_flatMap.mp hc
  split at hc
  · simp only [List.mem_cons, List.not_mem_nil, or_false] at hc
    rcases hc with rfl | rfl | rfl | rfl <;> assumption
  · rw [List.mem_singleton.mp hc]
    exact h d hd

/-- Names without line breaks are read as they were listed, whatever ends a line. -/
theorem Breaks.listed?_manifest {b : Breaks} {names : List String}
    (h : ∀ n ∈ names, b.Spare n.toList) :
    b.listed? (manifest names) = some names := by
  rw [listed?, toList_manifest]
  induction names with
  | nil => rfl
  | cons n names ih =>
    obtain ⟨hn, hnames⟩ := List.forall_mem_cons.mp h
    rw [List.flatMap_cons, List.append_assoc, List.singleton_append,
      lines_append (spare_bareLine hn), List.mapM_cons, item?_bareLine, ih hnames]
    rfl

/-- What is read from lines has no line breaks. -/
theorem Breaks.spare_of_listed? {b : Breaks} {text : String} {names : List String}
    (h : b.listed? text = some names) :
    ∀ n ∈ names, b.Spare n.toList := by
  intro n hn
  obtain ⟨l, hl, hitem⟩ := exists_of_mapM_some h n hn
  exact fun c hc => spare_of_mem_lines hl c (subset_of_item? hitem hc)

/-- **Names without line breaks are read as they were listed.** -/
theorem listed?_manifest {names : List String} (h : ∀ n ∈ names, '\n' ∉ n.toList) :
    listed? (manifest names) = some names := by
  have hspare : ∀ n ∈ names, Breaks.feed.Spare n.toList := fun n hn c hc =>
    beq_eq_false_iff_ne.mpr fun hnewline => h n hn (hnewline ▸ hc)
  have hread := Breaks.listed?_manifest hspare
  rwa [Breaks.listed?, Breaks.lines_feed] at hread

/-- **A manifest can be inverted.** Whatever ends a line, the names that a manifest was made of are
read from it, all of them and in order, exactly if none of them has a line break in it. Quotes,
backslashes and blanks may stand anywhere in them. -/
theorem manifest_readsBack_iff (b : Breaks) (names : List String) :
    b.listed? (manifest names) = some names ↔ ∀ n ∈ names, ∀ c ∈ n.toList, b.isBreak c = false :=
  ⟨Breaks.spare_of_listed?, Breaks.listed?_manifest⟩

/-- For a demuxer, quotes next to each other, a backslash at the end, blanks and no characters at
all. -/
example : Breaks.demuxer.listed? (manifest ["''a'", "b\\", " \t", ""]) =
    some ["''a'", "b\\", " \t", ""] := rfl

end Manifest

/-! ## The files of converted parts -/

theorem toList_partName_eq (i : Nat) :
    (partName i).toList = "part".toList ++ ((padded 3 i).toList ++ ".wav".toList) := by
  simp [partName]

theorem newline_not_mem_partName (i : Nat) : '\n' ∉ (partName i).toList := by
  rw [toList_partName_eq, List.mem_append, List.mem_append, not_or, not_or]
  exact ⟨by decide, fun h => absurd (isDigit_of_mem_padded h) (by decide), by decide⟩

/-- **Parts with different numbers have different names**, also beyond three digits. -/
theorem partName_injective : Function.Injective partName := by
  intro i j h
  have hname := congrArg String.toList h
  rw [toList_partName_eq, toList_partName_eq, List.append_cancel_left_eq,
    List.append_cancel_right_eq, padded, padded, String.toList_ofList,
    String.toList_ofList] at hname
  have hvalue := congrArg natOfDigits hname
  rwa [natOfDigits_zeros_append, natOfDigits_zeros_append, natOfDigits_natDigits,
    natOfDigits_natDigits] at hvalue

/-- The names of converted parts are read as they were listed. -/
theorem Manifest.listed?_parts (n : Nat) :
    listed? (manifest ((List.range n).map partName)) = some ((List.range n).map partName) :=
  listed?_manifest fun _ hname => by
    obtain ⟨i, -, rfl⟩ := List.mem_map.mp hname
    exact newline_not_mem_partName i

namespace Workspace

/-- Different names lead to different files. -/
theorem file_inj (w : Workspace) {a b : String} (ha : IsName a) (hb : IsName b)
    (h : w.file a = w.file b) : a = b := by
  unfold file Path.join at h
  rw [ha.isAbsolute, hb.isAbsolute] at h
  split at h
  · exact h
  · split at h <;> simpa using h

/-- The files of the first `n` converted parts. -/
def partFiles (w : Workspace) (n : Nat) : List String :=
  (List.range n).map fun i => w.file (partName i)

/-- **They are different ones**, and none of them is the manifest. -/
theorem nodup_partFiles (w : Workspace) (n : Nat) :
    (w.file manifestName :: w.partFiles n).Nodup := by
  have hpart : ∀ i, IsName (partName i) := fun i => (WorkFile.part i).isName
  have hinjective : Function.Injective fun i => w.file (partName i) := fun i j h =>
    partName_injective (w.file_inj (hpart i) (hpart j) h)
  refine List.nodup_cons.mpr ⟨fun hmem => ?_, List.nodup_range.map hinjective⟩
  obtain ⟨i, -, hi⟩ := List.mem_map.mp hmem
  have hname := w.file_inj (hpart i) WorkFile.manifest.isName hi
  obtain ⟨cs, hcs, -⟩ := toList_partName i
  rw [hname] at hcs
  cases hcs

end Workspace

end Slideshow
