import Mathlib.Data.List.TakeWhile
import Slideshow.Machine.FileTree

/-!
# Where paths lead

A path that can be followed at all leads to one place, whatever stands in the tree: the tree only
decides whether it can be followed. So what happens at other places, and not on the way, does not
matter for a path.

* `place` is where a path leads, `way` are the directories that it goes through.
* `place_join`: where a path below another one leads.

Headlines:
* **`locate_eq_ok_iff`**: a path can be followed if everything on its way is a directory.
* **`find_congr`**: trees that agree on the way and at the place agree on what is found.
-/

namespace Slideshow.FileTree

/-! ## Names -/

/-- Where one more name leads. -/
def next (l : Location) (name : String) : Location :=
  if name == "." then l else if name == ".." then l.dropLast else l ++ [name]

/-- Where names lead. -/
def resolve (l : Location) (names : List String) : Location := names.foldl next l

/-- What names go through before the last of them. -/
def stations : Location → List String → List Location
  | _, [] => []
  | l, name :: rest => l :: stations (next l name) rest

/-- Names that can be the names of files. -/
def Short (names : List String) : Prop := ∀ n ∈ names, n.utf8ByteSize ≤ maxNameLength

theorem walk_cons (t : FileTree) (l : Location) (name : String) (rest : List String) :
    t.walk l (name :: rest) = match t.get? l with
      | none => .error .missing
      | some .directory =>
        if name.utf8ByteSize > maxNameLength then .error .nameTooLong else t.walk (next l name) rest
      | some _ => .error .notDirectory := by
  rw [walk]
  cases t.get? l with
  | none => rfl
  | some n =>
    cases n with
    | directory =>
      unfold next
      dsimp only
      split
      · rfl
      · split
        · rfl
        · split <;> rfl
    | _ => rfl

theorem walk_eq_ok_iff {t : FileTree} {names : List String} : ∀ {l k : Location},
    t.walk l names = .ok k ↔
      k = resolve l names ∧ Short names ∧ ∀ s ∈ stations l names, t.get? s = some .directory := by
  induction names with
  | nil =>
    intro l k
    constructor
    · intro h
      cases h
      exact ⟨rfl, by simp [Short], by simp [stations]⟩
    · rintro ⟨rfl, -, -⟩
      rfl
  | cons name rest ih =>
    intro l k
    rw [walk_cons]
    constructor
    · intro h
      split at h
      · cases h
      · next hl =>
        split at h
        · cases h
        · next hshort =>
          obtain ⟨rfl, hrest, hstations⟩ := ih.mp h
          exact ⟨rfl, List.forall_mem_cons.mpr ⟨Nat.le_of_not_lt hshort, hrest⟩,
            List.forall_mem_cons.mpr ⟨hl, hstations⟩⟩
      · cases h
    · rintro ⟨rfl, hshort, hstations⟩
      obtain ⟨hname, hrest⟩ := List.forall_mem_cons.mp hshort
      obtain ⟨hl, hlater⟩ := List.forall_mem_cons.mp hstations
      rw [hl]
      dsimp only
      rw [if_neg (Nat.not_lt.mpr hname)]
      exact ih.mpr ⟨rfl, hrest, hlater⟩

/-- Only what stands on the way matters. -/
theorem walk_congr {t u : FileTree} {names : List String} : ∀ {l : Location},
    (∀ s ∈ stations l names, t.get? s = u.get? s) → t.walk l names = u.walk l names := by
  induction names with
  | nil => exact fun _ => rfl
  | cons name rest ih =>
    intro l h
    obtain ⟨hl, hlater⟩ := List.forall_mem_cons.mp h
    rw [walk_cons, walk_cons, hl, ih hlater]

/-! ## Paths -/

/-- The names that are followed. -/
def followed (path : String) : List String :=
  names path ++ if Path.endsInSlash path then ["."] else []

/-- Where a path leads. -/
def place (here : Location) (path : String) : Location := resolve (start here path) (names path)

/-- What a path goes through. -/
def way (here : Location) (path : String) : List Location :=
  stations (start here path) (followed path)

/-- A text that can be the path of something. -/
structure IsPath (path : String) : Prop where
  noNul : ¬path.toList.contains '\x00' = true
  notEmpty : ¬path.isEmpty = true
  notLong : ¬path.utf8ByteSize > maxPathLength

theorem resolve_append (l : Location) (a b : List String) :
    resolve l (a ++ b) = resolve (resolve l a) b := List.foldl_append

theorem resolve_followed (here : Location) (path : String) :
    resolve (start here path) (followed path) = place here path := by
  rw [followed, resolve_append]
  split <;> rfl

/-- **A path can be followed if all on its way are directories**, and leads to its place then. -/
theorem locate_eq_ok_iff {t : FileTree} {here l : Location} {path : String} :
    t.locate here path = .ok l ↔ l = place here path ∧ IsPath path ∧ Short (followed path) ∧
      ∀ s ∈ way here path, t.get? s = some .directory := by
  have hwalk : t.walk (start here path) (followed path) = .ok l ↔ l = place here path ∧
      Short (followed path) ∧ ∀ s ∈ way here path, t.get? s = some .directory := by
    rw [walk_eq_ok_iff, resolve_followed, way]
  unfold locate
  constructor
  · intro h
    split at h
    · cases h
    · next hnul =>
      split at h
      · cases h
      · next hempty =>
        split at h
        · cases h
        · next hlong =>
          obtain ⟨hl, hrest⟩ := hwalk.mp h
          exact ⟨hl, ⟨hnul, hempty, hlong⟩, hrest⟩
  · rintro ⟨hl, hpath, hrest⟩
    rw [if_neg hpath.noNul, if_neg hpath.notEmpty, if_neg hpath.notLong]
    exact hwalk.mpr ⟨hl, hrest⟩

theorem locate_congr {t u : FileTree} {here : Location} {path : String}
    (h : ∀ s ∈ way here path, t.get? s = u.get? s) : t.locate here path = u.locate here path := by
  unfold locate
  rw [show t.walk (start here path) (names path ++ if Path.endsInSlash path then ["."] else []) =
    u.walk (start here path) _ from walk_congr h]

theorem find_eq_ok_iff {t : FileTree} {here l : Location} {n : Node} {path : String} :
    t.find here path = .ok (l, n) ↔ t.locate here path = .ok l ∧ t.get? l = some n := by
  unfold find
  constructor
  · intro h
    split at h
    · cases h
    · next k hk =>
      split at h
      · next m hm =>
        cases h
        exact ⟨hk, hm⟩
      · cases h
  · rintro ⟨hl, hn⟩
    rw [hl]
    dsimp only
    rw [hn]

/-- What is only missing has a path. -/
theorem isPath_of_missing {t : FileTree} {here : Location} {path : String}
    (h : t.find here path = .error .missing) (hpath : path ≠ "") :
    IsPath path := by
  unfold find locate at h
  have hempty : ¬path.isEmpty = true := by simpa using hpath
  by_cases hnul : path.toList.contains '\x00' = true
  · rw [if_pos hnul] at h
    cases h
  · by_cases hlong : path.utf8ByteSize > maxPathLength
    · rw [if_neg hnul, if_neg hempty, if_pos hlong] at h
      cases h
    · exact ⟨hnul, hempty, hlong⟩

/-- **Trees that agree on the way and at the place find the same.** -/
theorem find_congr {t u : FileTree} {here : Location} {path : String}
    (hway : ∀ s ∈ way here path, t.get? s = u.get? s)
    (hplace : t.get? (place here path) = u.get? (place here path)) :
    t.find here path = u.find here path := by
  unfold find
  rw [← locate_congr hway]
  cases h : t.locate here path with
  | error e => rfl
  | ok l =>
    obtain rfl := (locate_eq_ok_iff.mp h).1
    dsimp only
    rw [hplace]

/-! ## Paths below others -/

theorem segments_ne_nil (cs : List Char) : Path.segments cs ≠ [] := by
  cases cs with
  | nil => exact List.cons_ne_nil _ _
  | cons c cs =>
    unfold Path.segments
    split
    · exact List.cons_ne_nil _ _
    · split <;> exact List.cons_ne_nil _ _

theorem segments_slash (xs ys : List Char) :
    Path.segments (xs ++ '/' :: ys) = Path.segments xs ++ Path.segments ys := by
  induction xs with
  | nil => rfl
  | cons c xs ih =>
    rw [List.cons_append, Path.segments, Path.segments, ih]
    split
    · rfl
    · cases h : Path.segments xs with
      | nil => exact absurd h (segments_ne_nil xs)
      | cons s ss => rfl

/-- A slash ends what is in front of it. -/
theorem names_slash (xs ys : List Char) :
    names (String.ofList (xs ++ '/' :: ys)) = names (String.ofList xs) ++
        names (String.ofList ys) := by
  simp only [names, String.toList_ofList, segments_slash, List.filter_append, List.map_append]

theorem names_empty : names "" = [] := rfl

theorem eq_concat_of_endsInSlash {path : String} (h : Path.endsInSlash path = true) :
    ∃ cs, path = String.ofList (cs ++ ['/']) := by
  obtain ⟨cs, hcs⟩ := List.getLast?_eq_some_iff.mp (beq_iff_eq.mp h)
  exact ⟨cs, by rw [← hcs, String.ofList_toList]⟩

theorem join_empty {path : String} : Path.join "" path = path := by
  simp [Path.join]

/-- A path below another one is both with one slash between them. -/
theorem toList_join {base path : String} (hbase : base ≠ "") (h : Path.isAbsolute path = false) :
    ∃ cs, (Path.join base path).toList = cs ++ '/' :: path.toList ∧
      (base.toList = cs ∨ base.toList = cs ++ ['/']) := by
  have hnot : ¬(Path.isAbsolute path || base.isEmpty) = true := by simp [h, hbase]
  unfold Path.join
  rw [if_neg hnot]
  split
  · next hslash =>
    obtain ⟨cs, rfl⟩ := eq_concat_of_endsInSlash hslash
    exact ⟨cs, by simp, .inr (by simp)⟩
  · exact ⟨base.toList, by simp, .inl rfl⟩

/-- The names of a path below another one. -/
theorem names_join {base path : String} (h : Path.isAbsolute path = false) :
    names (Path.join base path) = names base ++ names path := by
  by_cases hbase : base = ""
  · subst hbase
    rw [join_empty, names_empty, List.nil_append]
  · obtain ⟨cs, hjoin, hcs⟩ := toList_join hbase h
    rw [← String.ofList_toList (s := Path.join base path), hjoin, names_slash, String.ofList_toList]
    rcases hcs with hcs | hcs <;> rw [← String.ofList_toList (s := base), hcs]
    rw [names_slash]
    simp [names_empty]

theorem isAbsolute_join {base path : String} (h : Path.isAbsolute path = false) :
    Path.isAbsolute (Path.join base path) = Path.isAbsolute base := by
  by_cases hbase : base = ""
  · subst hbase
    rw [join_empty, h]
    rfl
  · obtain ⟨cs, hjoin, hcs⟩ := toList_join hbase h
    unfold Path.isAbsolute
    rw [hjoin]
    cases cs with
    | nil => 
      rcases hcs with hcs | hcs
      · exact absurd (String.toList_eq_nil_iff.mp hcs) hbase
      · rw [hcs]
        rfl
    | cons c cs => rcases hcs with hcs | hcs <;> rw [hcs] <;> rfl

theorem start_join {base path : String} (here : Location) (h : Path.isAbsolute path = false) :
    start here (Path.join base path) = start here base := by
  rw [start, start, isAbsolute_join h]

/-- **Where a path below another one leads.** -/
theorem place_join {base path : String} (here : Location) (h : Path.isAbsolute path = false) :
    place here (Path.join base path) = resolve (place here base) (names path) := by
  rw [place, start_join here h, names_join h, resolve_append]
  rfl

theorem segments_plain {cs : List Char} (h : '/' ∉ cs) : Path.segments cs = [cs] := by
  induction cs with
  | nil => rfl
  | cons c cs ih =>
    obtain ⟨hc, hcs⟩ := List.ne_and_not_mem_of_not_mem_cons h
    simp [Path.segments, ih hcs, Ne.symm hc]

/-- The names of a plain name. -/
theorem names_plain {name : String} (hne : name ≠ "") (h : '/' ∉ name.toList) :
    names name = [name] := by
  have htoList : name.toList ≠ [] := fun hnil => hne (String.toList_eq_nil_iff.mp hnil)
  rw [names, segments_plain h]
  simp [htoList]

/-- A name of its own. -/
structure IsName (name : String) : Prop where
  notEmpty : name ≠ ""
  noSlash : '/' ∉ name.toList
  notDot : name ≠ "."
  notDots : name ≠ ".."

theorem isName_iff {name : String} : isName name = true ↔ IsName name := by
  simp only [isName, Bool.and_eq_true, bne_iff_ne, Bool.not_eq_true', List.contains_eq_mem,
    decide_eq_false_iff_not]
  exact ⟨fun ⟨⟨⟨h, h'⟩, h''⟩, h'''⟩ => ⟨h, h', h'', h'''⟩,
    fun h => ⟨⟨⟨h.notEmpty, h.noSlash⟩, h.notDot⟩, h.notDots⟩⟩

theorem IsName.isAbsolute {name : String} (h : IsName name) : Path.isAbsolute name = false := by
  unfold Path.isAbsolute
  cases hname : name.toList with
  | nil => rfl
  | cons c cs =>
    have hc : c ≠ '/' := fun hc => h.noSlash (by rw [hname, hc]; exact List.mem_cons_self)
    simpa using hc

/-- **Where a name in a directory leads.** -/
theorem place_join_name {base name : String} (here : Location) (h : IsName name) :
    place here (Path.join base name) = place here base ++ [name] := by
  rw [place_join here h.isAbsolute, names_plain h.notEmpty h.noSlash]
  show next (place here base) name = _
  simp [next, h.notDot, h.notDots]

/-! ## Slashes at the end -/

theorem names_slashes (cs : List Char) (k : Nat) :
    names (String.ofList (cs ++ List.replicate k '/')) = names (String.ofList cs) := by
  induction k with
  | zero => rw [List.replicate_zero, List.append_nil]
  | succ k ih =>
    rw [List.replicate_succ', ← List.append_assoc, names_slash, ih]
    simp [names_empty]

/-- A path is what is left of it without slashes at the end, and slashes. -/
theorem unslashed_spec (path : String) : unslashed path = path ∨
    ∃ cs k, cs ≠ [] ∧ unslashed path = String.ofList cs ∧
        path = String.ofList (cs ++ List.replicate k '/') := by
  have hsplit := List.takeWhile_append_dropWhile (p := (· == '/')) (l := path.toList.reverse)
  have hslashes : path.toList.reverse.takeWhile (· == '/') =
      List.replicate (path.toList.reverse.takeWhile (· == '/')).length '/' :=
    List.eq_replicate_of_mem fun c hc => by simpa using List.mem_takeWhile_imp hc
  unfold unslashed
  dsimp only
  split
  · exact .inl rfl
  · next hne =>
    refine .inr ⟨_, (path.toList.reverse.takeWhile (· == '/')).length, ?_, rfl, ?_⟩
    · simpa using hne
    · rw [← List.reverse_replicate, ← hslashes, ← List.reverse_append, hsplit, List.reverse_reverse,
        String.ofList_toList]

theorem names_unslashed (path : String) : names (unslashed path) = names path := by
  rcases unslashed_spec path with h | ⟨cs, k, -, hshort, hpath⟩
  · rw [h]
  · rw [hshort, hpath, names_slashes]

theorem start_unslashed (here : Location) (path : String) :
    start here (unslashed path) = start here path := by
  rcases unslashed_spec path with h | ⟨cs, k, hcs, hshort, hpath⟩
  · rw [h]
  · rw [hshort, hpath, start, start, Path.isAbsolute, Path.isAbsolute, String.toList_ofList,
      String.toList_ofList]
    cases cs with
    | nil => exact absurd rfl hcs
    | cons c cs => rfl

/-- Slashes at its end do not matter for where a path leads. -/
theorem place_unslashed (here : Location) (path : String) :
    place here (unslashed path) = place here path := by
  rw [place, place, start_unslashed, names_unslashed]

theorem unslashed_of_not_endsInSlash {path : String} (h : Path.endsInSlash path = false) :
    unslashed path = path := by
  rcases unslashed_spec path with h' | ⟨cs, k, -, hshort, hpath⟩
  · exact h'
  · cases k with
    | zero => rw [hshort, hpath, List.replicate_zero, List.append_nil]
    | succ k =>
      rw [hpath, Path.endsInSlash, String.toList_ofList, List.replicate_succ', ← List.append_assoc,
        List.getLast?_concat] at h
      cases h

/-! ## Trees in which everything stands in a directory -/

/-- Everything stands in a directory. -/
def Rooted (t : FileTree) : Prop :=
  ∀ l n, l ≠ [] → t.get? l = some n → t.get? l.dropLast = some .directory

theorem get?_root (t : FileTree) : t.get? [] = some .directory := if_pos rfl

/-- Only what is listed in a tree stands in it. -/
theorem rooted_of_nodes {t : FileTree} (h : ∀ e ∈ t.nodes, t.get? e.1.dropLast = some .directory) :
    Rooted t := by
  intro l n hl hget
  rw [get?, if_neg hl, Option.map_eq_some_iff] at hget
  obtain ⟨e, he, -⟩ := hget
  have hname : e.1 = l := by simpa using List.find?_some he
  exact hname ▸ h e (List.mem_of_find?_eq_some he)

section
variable {t : FileTree} (ht : Rooted t)
include ht

/-- What is above something is a directory. -/
theorem Rooted.above {rest : List String} : ∀ {l : Location} {name : String} {n : Node},
    t.get? (l ++ name :: rest) = some n → t.get? l = some .directory := by
  induction rest with
  | nil =>
    intro l name n hget
    have hparent := ht (l ++ [name]) n (by simp) hget
    rwa [List.dropLast_concat] at hparent
  | cons next rest ih =>
    intro l name n hget
    have hchild : t.get? (l ++ [name]) = some .directory := ih (by rwa [List.append_assoc])
    have hparent := ht (l ++ [name]) _ (by simp) hchild
    rwa [List.dropLast_concat] at hparent

/-- Nothing stands below what is no directory. -/
theorem Rooted.below {l : Location} (h : t.get? l ≠ some .directory) {k : Location}
    (hk : l.isPrefixOf k = true) (hne : k ≠ l) : t.get? k = none := by
  obtain ⟨rest, rfl⟩ := List.isPrefixOf_iff_prefix.mp hk
  cases rest with
  | nil => exact absurd (List.append_nil l) hne
  | cons name rest =>
    cases hget : t.get? (l ++ name :: rest) with
    | none => rfl
    | some n => exact absurd (ht.above hget) h

/-- Names through directories lead into a directory. -/
theorem Rooted.resolve {names : List String} :
    ∀ {l : Location}, l = [] ∨ t.get? l.dropLast = some .directory →
    (∀ s ∈ stations l names, t.get? s = some .directory) →
    FileTree.resolve l names = [] ∨
        t.get? (FileTree.resolve l names).dropLast = some .directory := by
  have hdrop : ∀ {l : Location}, t.get? l = some .directory →
      l = [] ∨ t.get? l.dropLast = some .directory := fun {l} hl =>
    (em (l = [])).imp_right fun hne => ht l _ hne hl
  induction names with
  | nil => exact fun h _ => h
  | cons name rest ih =>
    intro l _ hstations
    obtain ⟨hl, hlater⟩ := List.forall_mem_cons.mp hstations
    refine ih ?_ hlater
    unfold next
    split
    · exact hdrop hl
    · split
      · rcases hdrop hl with rfl | hparent
        · exact .inl rfl
        · exact hdrop hparent
      · right
        rwa [List.dropLast_concat]

end

/-- A path that does not begin at the root has names. -/
theorem names_ne_nil {path : String} (h : ¬path.isEmpty = true)
    (habs : Path.isAbsolute path = false) :
    names path ≠ [] := by
  have hpath : path.toList ≠ [] := fun hnil => h (by simpa using hnil)
  obtain ⟨c, cs, hcs⟩ := List.exists_cons_of_ne_nil hpath
  have hc : ¬(c == '/') = true := by
    rw [Path.isAbsolute, hcs] at habs
    simpa using habs
  rw [names, hcs, Path.segments, if_neg hc]
  split <;> simp

/-- A path that can be followed leads into a directory. -/
theorem Rooted.locate {t : FileTree} (ht : Rooted t) {here l : Location} {path : String}
    (h : t.locate here path = .ok l) (hl : l ≠ []) : t.get? l.dropLast = some .directory := by
  obtain ⟨rfl, hpath, -, hway⟩ := locate_eq_ok_iff.mp h
  rw [← resolve_followed] at hl ⊢
  refine (ht.resolve ?_ hway).resolve_left hl
  by_cases habs : Path.isAbsolute path = true
  · exact .inl (if_pos habs)
  · -- the current directory is looked at first
    have hnames := names_ne_nil hpath.notEmpty (Bool.not_eq_true _ ▸ habs)
    have hstart : start here path = here := if_neg habs
    obtain ⟨name, rest, hfollowed⟩ : ∃ name rest, followed path = name :: rest := by
      obtain ⟨name, rest, hcons⟩ := List.exists_cons_of_ne_nil hnames
      exact ⟨name, _, by rw [followed, hcons, List.cons_append]⟩
    have hhere : t.get? (start here path) = some .directory := by
      refine hway _ ?_
      rw [way, hfollowed]
      exact List.mem_cons_self
    exact (em (start here path = [])).imp_right fun hne => ht _ _ hne hhere

end Slideshow.FileTree
