import Slideshow.Proofs.Machine.Operations

/-!
# What is above a path

A path without its last name leads to where the path goes through, so directories that are made
above a path are made on its way.

* `intercalate_segments`, `segments_intercalate`: a path and its segments.
* `parent?_segments`: a path is its parent, its last name and what is void around it.

Headlines:
* **`names_parent`**: the names of a path are those of its parent, one more, and dots.
* **`parent?_join_name`**: what is above a name in a directory is that directory.
* **`Upward.place_mem_way`**: a path above another one leads to where that one goes through.
-/

namespace Slideshow.Path

open FileTree

/-! ## Segments -/

theorem slash_not_mem_segments (cs : List Char) : ∀ s ∈ segments cs, '/' ∉ s := by
  induction cs with
  | nil => simp [segments]
  | cons c cs ih =>
    rw [segments]
    split
    · exact List.forall_mem_cons.mpr ⟨List.not_mem_nil, ih⟩
    · next hc =>
      have hc' : '/' ≠ c := fun h => hc (by rw [← h]; rfl)
      cases h : segments cs with
      | nil => exact absurd h (segments_ne_nil cs)
      | cons s ss =>
        rw [h] at ih
        obtain ⟨hs, hss⟩ := List.forall_mem_cons.mp ih
        exact List.forall_mem_cons.mpr ⟨fun hmem => (List.mem_cons.mp hmem).elim hc' hs, hss⟩

/-- The segments with slashes between them are the text. -/
theorem intercalate_segments (cs : List Char) : List.intercalate ['/'] (segments cs) = cs := by
  induction cs with
  | nil => rfl
  | cons c cs ih =>
    rw [segments]
    cases h : segments cs with
    | nil => exact absurd h (segments_ne_nil cs)
    | cons s ss =>
      rw [h] at ih
      split
      · next hc => rw [List.intercalate_cons_cons, ih, beq_iff_eq.mp hc]; rfl
      · cases ss with
        | nil => rw [List.intercalate_singleton] at ih ⊢; rw [ih]
        | cons u us => rw [List.intercalate_cons_cons] at ih ⊢; rw [← ih]; rfl

/-- Segments are read back from the text. -/
theorem segments_intercalate {ss : List (List Char)} (hne : ss ≠ []) (h : ∀ s ∈ ss, '/' ∉ s) :
    segments (List.intercalate ['/'] ss) = ss := by
  induction ss with
  | nil => exact absurd rfl hne
  | cons s ss ih =>
    obtain ⟨hs, hss⟩ := List.forall_mem_cons.mp h
    cases ss with
    | nil => rw [List.intercalate_singleton, segments_plain hs]
    | cons t ts =>
      rw [List.intercalate_cons_cons, List.append_assoc, List.singleton_append, segments_slash,
        segments_plain hs, ih (List.cons_ne_nil _ _) hss, List.singleton_append]

/-! ## Void names -/

/-- What is dropped is void. -/
theorem dropVoid_spec : ∀ xs : List (List Char), ∃ dropped, xs = dropped ++ dropVoid xs ∧
    ∀ s ∈ dropped, isVoid s = true
  | [] => ⟨[], rfl, by simp⟩
  | [s] => ⟨[], rfl, by simp⟩
  | s :: t :: r => by
    unfold dropVoid
    split
    · next hs =>
      obtain ⟨dropped, heq, hvoid⟩ := dropVoid_spec (t :: r)
      exact ⟨s :: dropped, congrArg (s :: ·) heq, List.forall_mem_cons.mpr ⟨hs, hvoid⟩⟩
    · exact ⟨[], rfl, by simp⟩

/-- Only the first name of a path stays although it is void. -/
theorem dropVoid_head : ∀ {xs : List (List Char)} {s : List Char} {r : List (List Char)},
    dropVoid xs = s :: r →
    isVoid s = true → r = []
  | [], _, _, h, _ => nomatch h
  | [_], _, _, h, _ => (List.cons.inj h).2.symm
  | s :: t :: r, s', r', h, hvoid => by
    unfold dropVoid at h
    split at h
    · exact dropVoid_head h hvoid
    · next hs =>
      rw [(List.cons.inj h).1] at hs
      exact absurd hvoid hs

theorem dropVoid_ne_nil : ∀ {xs : List (List Char)}, xs ≠ [] → dropVoid xs ≠ []
  | [], h => absurd rfl h
  | [_], _ => List.cons_ne_nil _ _
  | s :: t :: r, _ => by
    unfold dropVoid
    split
    · exact dropVoid_ne_nil (List.cons_ne_nil t r)
    · exact List.cons_ne_nil _ _

/-! ## Parents -/

/-- The names among segments. -/
def texts (ss : List (List Char)) : List String := (ss.filter (· != [])).map String.ofList

theorem texts_append (ss ts : List (List Char)) : texts (ss ++ ts) = texts ss ++ texts ts := by
  rw [texts, List.filter_append, List.map_append]
  rfl

theorem dots_of_void {ss : List (List Char)} (h : ∀ s ∈ ss, isVoid s = true) :
    ∀ d ∈ texts ss, d = "." := by
  intro d hd
  obtain ⟨s, hs, rfl⟩ := List.mem_map.mp hd
  obtain ⟨hmem, hne⟩ := List.mem_filter.mp hs
  have hvoid := h s hmem
  simp only [isVoid, Bool.or_eq_true, beq_iff_eq] at hvoid
  rw [hvoid.resolve_left (by simpa using hne)]

section
variable {ss : List (List Char)}

/-- The text of segments has these names. -/
theorem names_ofReversed (h : ∀ s ∈ ss, '/' ∉ s) : names (ofReversed ss.reverse) = texts ss := by
  unfold ofReversed
  split
  · next heq => rw [List.reverse_eq_iff.mp heq]; rfl
  · rw [List.reverse_reverse]
    cases ss with
    | nil => rfl
    | cons s ss =>
      rw [names, String.toList_ofList, segments_intercalate (List.cons_ne_nil _ _) h]; rfl

/-- A text begins at the root if its first segment is empty and not the only one. -/
theorem isAbsolute_intercalate {s : List Char} (hs : '/' ∉ s) :
    isAbsolute (String.ofList (List.intercalate ['/'] (s :: ss))) = (s.isEmpty && !ss.isEmpty) := by
  unfold isAbsolute
  rw [String.toList_ofList]
  cases s with
  | nil =>
    cases ss with
    | nil => rfl
    | cons t ts => rw [List.intercalate_cons_cons]; rfl
  | cons c s =>
    have hc : c ≠ '/' := (List.ne_and_not_mem_of_not_mem_cons hs).1.symm
    cases ss with
    | nil => simpa [List.intercalate_singleton] using hc
    | cons t ts => simpa [List.intercalate_cons_cons] using hc

/-- The text of reversed segments begins at the root if the first segment is empty. -/
theorem isAbsolute_ofReversed (h : ∀ s ∈ ss, '/' ∉ s) :
    isAbsolute (ofReversed ss.reverse) = (ss.head? == some []) := by
  unfold ofReversed
  split
  · next heq => rw [List.reverse_eq_iff.mp heq]; rfl
  · next hroot =>
    rw [List.reverse_reverse]
    cases ss with
    | nil => rfl
    | cons s ss =>
      rw [isAbsolute_intercalate (h s List.mem_cons_self)]
      cases ss with
      | nil =>
        have hs : s ≠ [] := fun hs => hroot (by rw [hs]; rfl)
        simp [hs]
      | cons t ts => cases s <;> rfl

end

/-- A path is its parent, void segments, its last name and void segments; what has nothing in front
of its last name has no void segments there. -/
theorem parent?_segments {p q : String} (h : parent? p = some q) :
    ∃ above between s after, segments p.toList = above ++ (between ++ s :: after) ∧
      q = ofReversed above.reverse ∧
      s ≠ [] ∧ (∀ t ∈ between, isVoid t = true) ∧ (∀ t ∈ after, isVoid t = true) ∧
      (above = [] ∨ isVoid s = true → above = [] ∧ between = []) := by
  unfold parent? at h
  split at h
  · cases h
  · next s r hnames =>
    split at h
    · cases h
    · next hs =>
      cases h
      obtain ⟨after, hafter, hvoidAfter⟩ := dropVoid_spec (segments p.toList).reverse
      obtain ⟨between, hbetween, hvoid⟩ := dropVoid_spec r
      rw [show dropVoid (segments p.toList).reverse = s :: r from hnames] at hafter
      refine ⟨(dropVoid r).reverse, between.reverse, s, after.reverse,
        ?_, by rw [List.reverse_reverse], by
          simpa using hs, fun t ht => hvoid t (List.mem_reverse.mp ht), fun t ht =>
            hvoidAfter t (List.mem_reverse.mp ht), ?_⟩
      · rw [List.reverse_eq_iff.mp hafter]
        conv => lhs; rw [hbetween]
        simp
      · intro hnothing
        have hr : r = [] := hnothing.elim
          (fun h => by_contra fun hne => dropVoid_ne_nil hne (List.reverse_eq_nil_iff.mp h))
            (dropVoid_head hnames)
        rw [hr] at hbetween
        exact ⟨by rw [hr]; rfl, by rw [(List.append_eq_nil_iff.mp hbetween.symm).1]; rfl⟩

theorem isAbsolute_parent {p q : String} (h : parent? p = some q) :
    isAbsolute q = isAbsolute p := by
  obtain ⟨above, between, s, after, hsegments, rfl, hs, -, -, hnothing⟩ := parent?_segments h
  have hp : p = String.ofList (List.intercalate ['/'] (segments p.toList)) := by
    rw [intercalate_segments, String.ofList_toList]
  have hslash := slash_not_mem_segments p.toList
  rw [hsegments] at hp hslash
  rw [isAbsolute_ofReversed (List.forall_mem_append.mp hslash).1, hp]
  cases above with
  | nil =>
    obtain ⟨-, rfl⟩ := hnothing (.inl rfl)
    rw [List.nil_append, List.nil_append, isAbsolute_intercalate (hslash s (by simp))]
    simp [hs]
  | cons x xs =>
    rw [List.cons_append, isAbsolute_intercalate (hslash x (by simp))]
    cases x <;> simp

/-- **The names of a path are those of its parent, one more, and dots.** The name is no dot, unless
it is all there is. -/
theorem names_parent {p q : String} (h : parent? p = some q) :
    ∃ dots name dots', names p = names q ++ (dots ++ name :: dots') ∧ (∀ d ∈ dots, d = ".") ∧
      (∀ d ∈ dots', d = ".") ∧
      (name = "." → names q = [] ∧ dots = []) := by
  obtain ⟨above, between, s, after, hsegments, rfl, hs, hbetween, hafter, hnothing⟩ :=
    parent?_segments h
  have hslash := slash_not_mem_segments p.toList
  rw [hsegments] at hslash
  have hp : names p = texts (segments p.toList) := rfl
  have hcons : texts (s :: after) = String.ofList s :: texts after := by simp [texts, hs]
  refine ⟨texts between, String.ofList s, texts after, ?_, dots_of_void hbetween,
    dots_of_void hafter, ?_⟩
  · rw [hp, hsegments, texts_append, texts_append, hcons,
      names_ofReversed (List.forall_mem_append.mp hslash).1]
  · intro hdot
    have hchars : s = ['.'] := String.ofList_injective hdot
    obtain ⟨rfl, rfl⟩ := hnothing (.inr (by rw [hchars]; rfl))
    exact ⟨rfl, rfl⟩

/-! ## Names in directories -/

theorem isVoid_of_isName {name : String} (h : IsName name) : isVoid name.toList = false := by
  have hempty : name.toList ≠ [] := fun hnil => h.notEmpty (String.toList_eq_nil_iff.mp hnil)
  have hdot : name.toList ≠ ['.'] := fun hdot => h.notDot (String.toList_injective hdot)
  simp [isVoid, hempty, hdot]

theorem dropVoid_cons {s : List Char} (hs : isVoid s = false) (r : List (List Char)) :
    dropVoid (s :: r) = s :: r := by
  cases r with
  | nil => rfl
  | cons t r => rw [dropVoid, hs]; rfl

/-- The last segment of a name in a directory is the name. -/
theorem segments_join_name (directory : String) {name : String} (h : IsName name) :
    ∃ ss, segments (join directory name).toList = ss ++ [name.toList] := by
  by_cases hdirectory : directory = ""
  · exact ⟨[], by rw [hdirectory, join_empty, segments_plain h.noSlash]; rfl⟩
  · obtain ⟨cs, hjoin, -⟩ := toList_join hdirectory h.isAbsolute
    exact ⟨segments cs, by rw [hjoin, segments_slash, segments_plain h.noSlash]⟩

theorem endsInSlash_join_name (directory : String) {name : String} (h : IsName name) :
    endsInSlash (join directory name) = false := by
  have hname : name.toList.getLast? ≠ some '/' :=
    fun hlast => h.noSlash (List.mem_of_getLast? hlast)
  have hne : name.toList ≠ [] := fun hnil => h.notEmpty (String.toList_eq_nil_iff.mp hnil)
  unfold endsInSlash
  by_cases hdirectory : directory = ""
  · rw [hdirectory, join_empty]
    simpa using hname
  · obtain ⟨cs, hjoin, -⟩ := toList_join hdirectory h.isAbsolute
    obtain ⟨as, a, ha⟩ := (List.eq_nil_or_concat name.toList).resolve_left hne
    rw [ha, List.concat_eq_append, List.getLast?_concat] at hname
    rw [hjoin, ha, List.concat_eq_append, ← List.cons_append, ← List.append_assoc,
      List.getLast?_concat]
    simpa using hname

/-- **What is above a name in a directory is the directory**, if that ends in a name itself. -/
theorem parent?_join_name (directory : String) {name child : String} (hname : IsName name)
    (hchild : IsName child) :
    parent? (join (join directory name) child) = some (join directory name) := by
  obtain ⟨ss, hss⟩ := segments_join_name directory hname
  have hname' : name.toList ≠ [] := fun hnil => hname.notEmpty (String.toList_eq_nil_iff.mp hnil)
  have hchild' : child.toList ≠ [] := fun hnil => hchild.notEmpty (String.toList_eq_nil_iff.mp hnil)
  have hbase : join directory name ≠ "" := fun hempty => by
    rw [hempty] at hss
    have hlast : [] ++ [[]] = ss ++ [name.toList] := hss
    exact hname' (List.cons.inj (List.append_inj' hlast rfl).2).1.symm
  obtain ⟨cs, hjoin, hcs⟩ := toList_join hbase hchild.isAbsolute
  have hcs : (join directory name).toList = cs := hcs.resolve_right fun hslash => by
    rw [hslash, segments_slash] at hss
    exact hname' (List.cons.inj (List.append_inj' hss rfl).2).1.symm
  rw [hcs] at hss
  have hsegments : (segments (join (join directory name) child).toList).reverse =
      child.toList :: name.toList :: ss.reverse := by
    rw [hjoin, segments_slash, segments_plain hchild.noSlash, hss]
    simp
  have hparent : ofReversed (name.toList :: ss.reverse) = join directory name := by
    have htext : ofReversed (name.toList :: ss.reverse) =
        String.ofList (List.intercalate ['/'] (name.toList :: ss.reverse).reverse) := by
      unfold ofReversed
      split
      · next heq => exact absurd (List.cons.inj heq).1 hname'
      · rfl
    rw [htext, List.reverse_cons, List.reverse_reverse, ← hss, intercalate_segments, ← hcs,
      String.ofList_toList]
  rw [parent?, reversedNames, hsegments, dropVoid_cons (isVoid_of_isName hchild)]
  dsimp only
  rw [dropVoid_cons (isVoid_of_isName hname), hparent, if_neg (by simpa using hchild')]

end Slideshow.Path

namespace Slideshow.FileTree

/-! ## Places above -/

variable {here : Location} {path p : String}

theorem resolve_dots : ∀ {names : List String} {l : Location}, (∀ n ∈ names, n = ".") →
    resolve l names = l
  | [], _, _ => rfl
  | name :: names, l, h => by
    obtain ⟨hname, hnames⟩ := List.forall_mem_cons.mp h
    have hnext : next l name = l := by simp [next, hname]
    show resolve (next l name) names = l
    rw [hnext, resolve_dots hnames]

/-- What is above a path begins where the path begins and has its first names. -/
theorem Upward.spec (h : Upward path p) :
    start here p = start here path ∧ ∃ rest, names path = names p ++ rest := by
  induction h with
  | self => exact ⟨rfl, [], (List.append_nil _).symm⟩
  | parent _ hparent ih =>
    obtain ⟨hstart, rest, hrest⟩ := ih
    obtain ⟨dots, name, dots', hnames, -⟩ := Path.names_parent hparent
    refine ⟨?_, (dots ++ name :: dots') ++ rest, by rw [hrest, hnames, List.append_assoc]⟩
    rw [← hstart, start, start, Path.isAbsolute_parent hparent]

theorem stations_append (as bs : List String) : ∀ l : Location,
    stations l (as ++ bs) = stations l as ++ stations (resolve l as) bs := by
  induction as with
  | nil => exact fun _ => rfl
  | cons a as ih => exact fun l => congrArg (l :: ·) (ih (next l a))

theorem mem_stations {as bs : List String} (h : bs ≠ []) (l : Location) :
    resolve l as ∈ stations l (as ++ bs) := by
  obtain ⟨b, bs, rfl⟩ := List.exists_cons_of_ne_nil h
  rw [stations_append]
  exact List.mem_append_right _ List.mem_cons_self

/-- **What is above a path is on its way.** -/
theorem Upward.place_mem_way {d : String} (hd : Path.parent? path = some d) (h : Upward d p) :
    place here p ∈ way here path := by
  obtain ⟨hstart, rest, hrest⟩ : start here p = start here d ∧ ∃ rest, names d = names p ++ rest :=
    h.spec
  obtain ⟨dots, name, dots', hnames, -⟩ := Path.names_parent hd
  have hstart' : start here d = start here path := by rw [start, start, Path.isAbsolute_parent hd]
  rw [place, way, followed, hnames, hrest, hstart, hstart', List.append_assoc, List.append_assoc]
  exact mem_stations (by simp) _

/-- What is above a path is the path, or above its parent. -/
theorem Upward.eq_or_parent (h : Upward path p) :
    p = path ∨ ∃ d, Path.parent? path = some d ∧ Upward d p := by
  induction h with
  | self => exact .inl rfl
  | parent _ hparent ih =>
    rcases ih with rfl | ⟨d, hd, hp⟩
    · exact .inr ⟨_, hparent, .self⟩
    · exact .inr ⟨d, hd, .parent hp hparent⟩

/-- A path and all above it lead to its place or on its way. -/
theorem Upward.place_mem (h : Upward path p) : place here p ∈ place here path :: way here path := by
  rcases h.eq_or_parent with rfl | ⟨d, hd, hp⟩
  · exact List.mem_cons_self
  · exact List.mem_cons_of_mem _ (hp.place_mem_way hd)

/-- A path without a parent is the root, or empty. -/
theorem place_of_no_parent (h : Path.parent? path = none) (hpath : path ≠ "") :
    place here path = [] := by
  obtain ⟨dropped, hsegments, hvoid⟩ := Path.dropVoid_spec (Path.segments path.toList).reverse
  have hpath' : path = String.ofList (List.intercalate ['/'] (Path.segments path.toList)) := by
    rw [Path.intercalate_segments, String.ofList_toList]
  have hroot : Path.dropVoid (Path.segments path.toList).reverse = [[]] := by
    unfold Path.parent? Path.reversedNames at h
    split at h
    · next hnil =>
        exact absurd hnil (Path.dropVoid_ne_nil (by simpa using segments_ne_nil path.toList))
    · next s r hnames =>
      split at h
      · next hs =>
        obtain rfl := beq_iff_eq.mp hs
        rw [hnames, Path.dropVoid_head hnames rfl]
      · cases h
  rw [hroot] at hsegments
  have hsegments' := List.reverse_eq_iff.mp hsegments
  rw [List.reverse_append] at hsegments'
  have hdots : ∀ n ∈ names path, n = "." := by
    rw [show names path = Path.texts (Path.segments path.toList) from rfl, hsegments',
      Path.texts_append]
    exact List.forall_mem_append.mpr ⟨by simp [Path.texts],
      Path.dots_of_void fun s hs => hvoid s (List.mem_reverse.mp hs)⟩
  have habsolute : Path.isAbsolute path = true := by
    rw [hpath', hsegments']
    show Path.isAbsolute (String.ofList (List.intercalate ['/'] ([] :: dropped.reverse))) = true
    rw [Path.isAbsolute_intercalate List.not_mem_nil]
    cases dropped with
    | nil =>
      rw [hsegments'] at hpath'
      exact absurd hpath' hpath
    | cons s ss => simp
  rw [place, resolve_dots hdots]
  exact if_pos habsolute

/-- Above the current directory there is only itself. -/
theorem Upward.place_dot (h : Upward "." p) : place here p = place here "" := by
  have hp : p = "." ∨ p = "" := by
    induction h with
    | self => exact .inl rfl
    | parent _ hparent ih =>
      rcases ih with rfl | rfl
      · exact .inr (Option.some.inj hparent.symm)
      · cases hparent
  rcases hp with rfl | rfl <;> rfl

end Slideshow.FileTree
