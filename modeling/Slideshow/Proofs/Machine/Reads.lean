import Slideshow.Proofs.Machine.Above
import Slideshow.Proofs.Machine.Steps

/-!
# What goes on to be read

What is read of a path stays while things are written, made and removed elsewhere. A directory may
even be made on the way to what is missing: as long as the path goes only down from there, what was
missing still is.

* `Direct here path t`: behind directories that are there a path goes only down. `Off here path l`:
  a place is not on its way.
* `Reads here path x t`: a direct path reads as `x`, in a tree in which everything stands in a
  directory.

Headlines:
* **`Direct.find_put_directory`**: a new directory changes nothing that is found behind it.
* **`reads_kept`**: what is read stays.
* **`Direct.place_ne`**: nothing above a path that reads as no directory leads to the same place.
* **`Direct.off_beside`**: another file in the same directory is not on the way of such a path.
* `place_of_drawnIn`: a name that is drawn in a directory stands there.
-/

namespace Slideshow.FileTree

variable {t u : FileTree} {here l : Location} {path : String} {names : List String}

/-! ## Following names to what stands there -/

/-- What stands where names lead. -/
def follow (t : FileTree) (l : Location) (names : List String) : Except OsError (Location × Node) :=
  match t.walk l names with
  | .error e => .error e
  | .ok k =>
    match t.get? k with
    | some n => .ok (k, n)
    | none => .error .missing

theorem follow_cons (t : FileTree) (l : Location) (name : String) (rest : List String) :
    t.follow l (name :: rest) = match t.get? l with
      | none => .error .missing
      | some .directory =>
        if name.utf8ByteSize > maxNameLength then .error .nameTooLong
          else t.follow (next l name) rest
      | some _ => .error .notDirectory := by
  rw [follow, walk_cons]
  cases t.get? l with
  | none => rfl
  | some n =>
    cases n with
    | directory =>
      dsimp only
      by_cases hlong : name.utf8ByteSize > maxNameLength
      · rw [if_pos hlong, if_pos hlong]
      · rw [if_neg hlong, if_neg hlong]
        rfl
    | _ => rfl

theorem follow_nil (t : FileTree) (l : Location) : t.follow l [] = match t.get? l with
    | some n => .ok (l, n)
    | none => .error .missing := rfl

theorem follow_append {k : Location} :
    ∀ {up : List String} {l : Location}, t.walk l up = .ok k → ∀ down,
    t.follow l (up ++ down) = t.follow k down
  | [], _, h, _ => by cases h; rfl
  | name :: up, l, h, down => by
    obtain ⟨rfl, hshort, hstations⟩ := walk_eq_ok_iff.mp h
    obtain ⟨hname, hup⟩ := List.forall_mem_cons.mp hshort
    obtain ⟨hl, hlater⟩ := List.forall_mem_cons.mp hstations
    rw [List.cons_append, follow_cons, hl]
    dsimp only
    rw [if_neg (Nat.not_lt.mpr hname)]
    exact follow_append (walk_eq_ok_iff.mpr ⟨rfl, hup, hlater⟩) down

theorem follow_none (h : t.get? l = none) (names : List String) :
    t.follow l names = .error .missing := by
  cases names with
  | nil => rw [follow_nil, h]
  | cons name rest => rw [follow_cons, h]

/-- A path is followed name by name, if it can be the path of something. -/
theorem find_eq_follow (h : IsPath path) :
    t.find here path = t.follow (start here path) (followed path) := by
  unfold find locate
  rw [if_neg h.noNul, if_neg h.notEmpty, if_neg h.notLong]
  rfl

/-- What cannot be a path leads nowhere, in any tree. -/
theorem find_of_not_isPath (h : ¬IsPath path) : t.find here path = u.find here path := by
  have hlocate : t.locate here path = u.locate here path := by
    unfold locate
    by_cases hnul : path.toList.contains '\x00' = true
    · rw [if_pos hnul, if_pos hnul]
    by_cases hempty : path.isEmpty = true
    · rw [if_neg hnul, if_neg hnul, if_pos hempty, if_pos hempty]
    by_cases hlong : path.utf8ByteSize > maxPathLength
    · rw [if_neg hnul, if_neg hnul, if_neg hempty, if_neg hempty, if_pos hlong, if_pos hlong]
    exact absurd ⟨hnul, hempty, hlong⟩ h
  have herror : ∀ l, u.locate here path ≠ .ok l := fun l hl => h (locate_eq_ok_iff.mp hl).2.1
  rw [find, find, hlocate]
  cases hl : u.locate here path with
  | ok l => exact absurd hl (herror l)
  | error e => rfl

theorem find_congr_follow
    (h : t.follow (start here path) (followed path) = u.follow (start here path) (followed path)) :
    t.find here path = u.find here path := by
  by_cases hpath : IsPath path
  · rw [find_eq_follow hpath, find_eq_follow hpath, h]
  · exact find_of_not_isPath hpath

/-! ## Names that go only down -/

theorem next_down {name : String} (h : name ≠ "..") :
    next l name = l ∧ name = "." ∨ next l name = l ++ [name] := by
  unfold next
  by_cases hdot : name = "."
  · exact .inl ⟨by simp [hdot], hdot⟩
  · exact .inr (by simp [hdot, h])

/-- Without steps up names lead to a place below. -/
theorem prefix_resolve : ∀ {names : List String} {l : Location}, ".." ∉ names →
    l <+: resolve l names
  | [], _, _ => List.prefix_rfl
  | name :: names, l, h => by
    obtain ⟨hname, hnames⟩ := List.ne_and_not_mem_of_not_mem_cons h
    have hrest : next l name <+: resolve l (name :: names) := prefix_resolve hnames
    rcases next_down (l := l) (Ne.symm hname) with ⟨hnext, -⟩ | hnext
    · rwa [hnext] at hrest
    · rw [hnext] at hrest
      exact (List.prefix_append l [name]).trans hrest

/-- What names go through without steps up is above where they lead. -/
theorem prefix_of_mem_stations :
    ∀ {names : List String} {l k : Location}, ".." ∉ names → k ∈ stations l names →
    k <+: resolve l names
  | [], _, _, _, h => nomatch h
  | name :: names, l, k, hdots, h => by
    rcases List.mem_cons.mp h with rfl | h
    · exact prefix_resolve hdots
    · have hbelow : k ∈ stations (next l name) names → k <+: resolve (next l name) names :=
        prefix_of_mem_stations (List.ne_and_not_mem_of_not_mem_cons hdots).2
      exact hbelow h

/-- Only dots lead nowhere else. -/
theorem dots_of_resolve : ∀ {names : List String} {l : Location}, ".." ∉ names →
    resolve l names = l → ∀ n ∈ names, n = "."
  | [], _, _, _ => by simp
  | name :: names, l, h, heq => by
    obtain ⟨hname, hnames⟩ := List.ne_and_not_mem_of_not_mem_cons h
    have hrest : next l name <+: l := by
      have := prefix_resolve (l := next l name) hnames
      rwa [show resolve (next l name) names = l from heq] at this
    rcases next_down (l := l) (Ne.symm hname) with ⟨hnext, hdot⟩ | hnext
    · have heq' : resolve l names = l := by
        have : resolve (next l name) names = l := heq
        rwa [hnext] at this
      exact List.forall_mem_cons.mpr ⟨hdot, dots_of_resolve hnames heq'⟩
    · rw [hnext] at hrest
      have hlength := hrest.length_le
      rw [List.length_append, List.length_singleton] at hlength
      omega

section
variable (ht : Rooted t)
include ht

/-- A directory that names lead down to is found. -/
theorem Rooted.follow_directory :
    ∀ {names : List String} {l : Location}, ".." ∉ names → Short names →
    t.get? (FileTree.resolve l names) = some .directory →
    t.follow l names = .ok (FileTree.resolve l names, .directory)
  | [], l, _, _, h => by
    rw [follow_nil, show t.get? l = some .directory from h]
    rfl
  | name :: names, l, hdots, hshort, h => by
    have hl : t.get? l = some .directory := by
      by_contra hne
      have hprefix := List.isPrefixOf_iff_prefix.mpr (prefix_resolve (l := l) hdots)
      by_cases heq : FileTree.resolve l (name :: names) = l
      · exact hne (heq ▸ h)
      · rw [ht.below hne hprefix heq] at h
        cases h
    obtain ⟨hname, hnames⟩ := List.forall_mem_cons.mp hshort
    rw [follow_cons, hl]
    dsimp only
    rw [if_neg (Nat.not_lt.mpr hname)]
    exact Rooted.follow_directory (List.ne_and_not_mem_of_not_mem_cons hdots).2 hnames h

/-- **A new directory changes nothing that is found behind it**: what was missing still is. -/
theorem Rooted.follow_put_directory {p : Location} (hp : t.get? p = none) :
    ∀ {names : List String} {l : Location},
    ".." ∉ names → Short names → FileTree.resolve l names ≠ p →
      (t.put p .directory).follow l names = t.follow l names
  | [], l, _, _, hne => by
    have hl : l ≠ p := hne
    rw [follow_nil, follow_nil, get?_put_of_ne t hl]
  | name :: names, l, hdots, hshort, hne => by
    obtain ⟨hname, hnames⟩ := List.forall_mem_cons.mp hshort
    obtain ⟨hdot, hdots⟩ := List.ne_and_not_mem_of_not_mem_cons hdots
    have ih := Rooted.follow_put_directory hp (l := next l name) hdots hnames hne
    rw [follow_cons, follow_cons]
    by_cases hl : l = p
    · subst hl
      have hroot : l ≠ [] := ne_nil_of_get? (t := t) (by simp [hp])
      have hnext : t.get? (next l name) = none := by
        rcases next_down (l := l) (Ne.symm hdot) with ⟨hnext, -⟩ | hnext
        · rw [hnext, hp]
        · rw [hnext]
          refine ht.below (l := l) (by simp [hp]) ?_ (by simp)
          exact List.isPrefixOf_iff_prefix.mpr (List.prefix_append l [name])
      rw [get?_put_self t hroot, hp]
      dsimp only
      rw [if_neg (Nat.not_lt.mpr hname), ih, follow_none hnext]
    · rw [get?_put_of_ne t hl, ih]

end

/-! ## Direct paths -/

/-- Behind directories that are there a path goes only down, through names that can be those of
files. -/
def Direct (here : Location) (path : String) (t : FileTree) : Prop :=
  ∃ up down l, followed path = up ++ down ∧ t.walk (start here path) up = .ok l ∧
    t.get? l = some .directory ∧
    ".." ∉ down ∧ Short down

/-- A path leads neither to a place nor below it, and not through it either. -/
def Off (here : Location) (path : String) (p : Location) : Prop :=
  ∀ k ∈ place here path :: way here path, ¬p.isPrefixOf k = true

theorem Off.not_mem {p : Location} (h : Off here path p) : p ∉ place here path :: way here path :=
  fun hmem =>
  h p hmem (by simp)

theorem Off.ne {p k : Location} (h : Off here path p) (hk : k ∈ place here path :: way here path) :
    k ≠ p := fun heq =>
  h.not_mem (heq ▸ hk)

theorem Off.below {p : Location} (h : Off here path p) (names : List String) :
    Off here path (p ++ names) :=
  fun k hk hprefix => h k hk (List.isPrefixOf_iff_prefix.mpr
    ((List.prefix_append p names).trans (List.isPrefixOf_iff_prefix.mp hprefix)))

/-- A long text without a slash is a name. -/
theorem isName_of_length {name : String} (h : 3 ≤ name.toList.length) (hslash : '/' ∉ name.toList) :
    IsName name where
  notEmpty hname := by simp [hname] at h
  noSlash := hslash
  notDot hname := by simp [hname] at h
  notDots hname := by simp [hname] at h

namespace Direct

/-- A path stays direct as long as the directories on its way stay. -/
theorem mono (h : Direct here path t)
    (hkeep : ∀ k ∈ place here path :: way here path, t.get? k = some .directory →
      u.get? k = some .directory) :
    Direct here path u := by
  obtain ⟨up, down, l, hfollowed, hwalk, hl, hdots, hshort⟩ := h
  obtain ⟨rfl, hup, hstations⟩ := walk_eq_ok_iff.mp hwalk
  have hmem : ∀ s ∈ stations (start here path) up, s ∈ way here path := fun s hs => by
    rw [way, hfollowed, stations_append]
    exact List.mem_append_left _ hs
  have hend : resolve (start here path) up ∈ place here path :: way here path := by
    cases hdown : down with
    | nil =>
      rw [hdown, List.append_nil] at hfollowed
      rw [← hfollowed, resolve_followed]
      exact List.mem_cons_self
    | cons name rest =>
      rw [way, hfollowed, hdown]
      exact List.mem_cons_of_mem _ (mem_stations (List.cons_ne_nil _ _) _)
  refine ⟨up, down, _, hfollowed, walk_eq_ok_iff.mpr ⟨rfl, hup, fun s hs => ?_⟩, hkeep _ hend hl,
    hdots, hshort⟩
  exact hkeep s (List.mem_cons_of_mem _ (hmem s hs)) (hstations s hs)

/-- **A new directory changes nothing that is found at the end of a direct path**, unless it is that
place. -/
theorem find_put_directory (h : Direct here path t) (ht : Rooted t) {p : Location}
    (hp : t.get? p = none) (hne : path = "" ∨ p ≠ place here path) :
    (t.put p .directory).find here path = t.find here path := by
  rcases hne with rfl | hne
  · rfl
  · refine find_congr_follow ?_
    obtain ⟨up, down, l, hfollowed, hwalk, hl, hdots, hshort⟩ := h
    obtain ⟨rfl, hup, hstations⟩ := walk_eq_ok_iff.mp hwalk
    have hother : ∀ s, t.get? s = some .directory → s ≠ p := fun s hs heq => by
      rw [heq, hp] at hs
      cases hs
    have hwalk' : (t.put p .directory).walk (start here path) up =
        .ok (resolve (start here path) up) :=
      walk_eq_ok_iff.mpr ⟨rfl, hup, fun s hs => by
        rw [get?_put_of_ne t (hother s (hstations s hs)), hstations s hs]⟩
    have hend : resolve (resolve (start here path) up) down = place here path := by
      rw [← resolve_append, ← hfollowed, resolve_followed]
    rw [hfollowed, follow_append hwalk, follow_append hwalk']
    exact ht.follow_put_directory hp hdots hshort (hend ▸ hne.symm)

/-- A path that finds a file is direct. -/
theorem of_find {l : Location} {n : Node} (ht : Rooted t) (h : t.find here path = .ok (l, n))
    (hn : n ≠ .directory) :
    Direct here path t := by
  obtain ⟨hlocate, hget⟩ := find_eq_ok_iff.mp h
  obtain ⟨rfl, hpath, hshort, hway⟩ := locate_eq_ok_iff.mp hlocate
  have hplace : t.get? (place here path) ≠ some .directory :=
    fun hdir => hn (Option.some.inj (hget.symm.trans hdir))
  rcases List.eq_nil_or_concat (followed path) with hnil | ⟨up, last, hfollowed⟩
  · -- nothing is followed from the root only
    rw [← resolve_followed, hnil] at hplace
    obtain ⟨hnames, -⟩ := List.append_eq_nil_iff.mp hnil
    refine absurd ?_ hplace
    by_cases habs : Path.isAbsolute path = true
    · rw [show start here path = [] from if_pos habs]
      exact get?_root t
    · exact absurd hnames (names_ne_nil hpath.notEmpty (Bool.not_eq_true _ ▸ habs))
  · rw [List.concat_eq_append] at hfollowed
    have hl : t.get? (resolve (start here path) up) = some .directory := hway _ (by
      rw [way, hfollowed]
      exact mem_stations (List.cons_ne_nil _ _) _)
    rw [hfollowed] at hshort
    obtain ⟨hup, hlast⟩ := List.forall_mem_append.mp hshort
    have hstations : ∀ s ∈ stations (start here path) up, t.get? s = some .directory :=
      fun s hs => hway s (by
      rw [way, hfollowed, stations_append]
      exact List.mem_append_left _ hs)
    refine ⟨up, [last], _, hfollowed, walk_eq_ok_iff.mpr ⟨rfl, hup, hstations⟩, hl, ?_, hlast⟩
    intro hdots
    obtain rfl := List.mem_singleton.mp hdots
    rw [← resolve_followed, hfollowed, resolve_append] at hplace
    have hup : resolve (resolve (start here path) up) [".."] =
      (resolve (start here path) up).dropLast := rfl
    rw [hup] at hplace
    by_cases hroot : resolve (start here path) up = []
    · exact hplace (by rw [hroot]; exact get?_root t)
    · exact hplace (ht _ _ hroot hl)

/-- The end of a direct path that finds no directory is none. -/
theorem get?_place_ne (h : Direct here path t) (ht : Rooted t) (hpath : IsPath path)
    (hfind : ∀ l, t.find here path ≠ .ok (l, .directory)) :
    t.get? (place here path) ≠ some .directory := by
  intro hplace
  obtain ⟨up, down, l, hfollowed, hwalk, -, hdots, hshort⟩ := h
  have hend : resolve l down = place here path := by
    rw [(walk_eq_ok_iff.mp hwalk).1, ← resolve_append, ← hfollowed, resolve_followed]
  have hfollow := ht.follow_directory hdots hshort (by rwa [hend])
  exact hfind _ (by rw [find_eq_follow hpath, hfollowed, follow_append hwalk, hfollow])

/-- **Nothing above a direct path that finds no directory leads to the same place.** -/
theorem place_ne (h : Direct here path t) (ht : Rooted t) (hpath : IsPath path)
    (hfind : ∀ l, t.find here path ≠ .ok (l, .directory)) {d p : String}
    (hd : Path.parent? path = some d) (hp : Upward d p) : place here p ≠ place here path := by
  intro heq
  have hplace := h.get?_place_ne ht hpath hfind
  obtain ⟨up, down, l, hfollowed, hwalk, hl, hdots, hshort⟩ := h
  obtain ⟨rfl, -, hstations⟩ := walk_eq_ok_iff.mp hwalk
  obtain ⟨dots, name, dots', hnames, -, -, hname⟩ := Path.names_parent hd
  obtain ⟨hstart, rest, hrest⟩ : start here p = start here d ∧ ∃ rest, names d = names p ++ rest :=
    hp.spec
  have hstart' : start here p = start here path := by
    rw [hstart, start, start, Path.isAbsolute_parent hd]
  obtain ⟨tail, htail, hmem⟩ : ∃ tail, followed path = names p ++ tail ∧ name ∈ tail :=
    ⟨rest ++ (dots ++ name :: dots') ++ if Path.endsInSlash path then ["."] else [],
      by rw [followed, hnames, hrest]; simp only [List.append_assoc], by simp⟩
  have hplaceP : place here p = resolve (start here path) (names p) := by rw [place, hstart']
  have hdirectory : ∀ {ns rest : List String}, up = ns ++ rest →
      t.get? (resolve (start here path) ns) = some .directory := by
    intro ns rest hup
    cases rest with
    | nil => rwa [hup, List.append_nil] at hl
    | cons r rest =>
      exact hstations _ (by rw [hup]; exact mem_stations (List.cons_ne_nil _ _) _)
  rcases List.append_eq_append_iff.mp
    (htail.symm.trans hfollowed) with ⟨ns, hup, -⟩ | ⟨ns, hnamesP, hdown⟩
  · -- it is one of the directories that are there
    exact hplace (by rw [← heq, hplaceP]; exact hdirectory hup)
  · -- it would have to be reached by dots alone
    have hresolve : resolve (place here path) tail = place here path := by
      conv => lhs; rw [← heq, hplaceP]
      rw [← resolve_append, ← htail, resolve_followed]
    have hdotless : ".." ∉ tail := fun h => hdots (by rw [hdown]; exact List.mem_append_right _ h)
    obtain ⟨hnil, -⟩ := hname (dots_of_resolve hdotless hresolve name hmem)
    rw [hrest] at hnil
    obtain ⟨hnil, -⟩ := List.append_eq_nil_iff.mp hnil
    rw [hnil] at hnamesP hplaceP
    obtain ⟨rfl, -⟩ := List.append_eq_nil_iff.mp hnamesP.symm
    exact hplace (by rw [← heq, hplaceP]; exact hl)

/-- **A path that finds no directory ends in a name of its own**, in what is above it. -/
theorem place_eq_concat (h : Direct here path t) (ht : Rooted t) (hpath : IsPath path)
    (hfind : ∀ l, t.find here path ≠ .ok (l, .directory)) {d : String}
    (hd : Path.parent? path = some d) :
    ∃ name, place here path = place here d ++ [name] := by
  have hplace := h.get?_place_ne ht hpath hfind
  obtain ⟨up, down, l, hfollowed, hwalk, hl, hdots, -⟩ := h
  obtain ⟨rfl, -, hstations⟩ := walk_eq_ok_iff.mp hwalk
  obtain ⟨dots, name, dots', hnames, hbefore, hafter, hname⟩ := Path.names_parent hd
  have hstart : start here path = start here d := by rw [start, start, Path.isAbsolute_parent hd]
  have hend : place here path = next (place here d) name := by
    rw [place, hnames, resolve_append, resolve_append, resolve_dots hbefore, hstart]
    exact resolve_dots hafter
  by_cases hdot : name = "."
  · -- a path of dots alone leads to where it starts
    obtain ⟨hnil, -⟩ := hname hdot
    have hplace' : place here path = start here path := by
      rw [hend, hdot, hstart, place, hnil]
      rfl
    rw [hplace'] at hplace
    cases up with
    | nil => exact absurd hl hplace
    | cons n up => exact absurd (hstations _ List.mem_cons_self) hplace
  · by_cases hback : name = ".."
    · -- behind a step up that is there only dots are left, which lead to the same directory
      have hsplit : up ++ down = (names d ++ dots ++ [".."]) ++
          (dots' ++ if Path.endsInSlash path then ["."] else []) := by
        rw [← hfollowed, followed, hnames, hback]
        simp only [List.append_assoc, List.cons_append, List.nil_append]
      have hrest : ∀ n ∈ dots' ++ (if Path.endsInSlash path then ["."] else []), n = "." :=
        List.forall_mem_append.mpr ⟨hafter, fun n hn => by split at hn <;> simp_all⟩
      have hplace' : place here path = resolve (start here path) (names d ++ dots ++ [".."]) := by
        rw [hend, hback, resolve_append, resolve_append, resolve_dots hbefore, hstart]
        rfl
      obtain ⟨ns, rfl, hns⟩ : ∃ ns, up = (names d ++ dots ++ [".."]) ++ ns ∧ ∀ n ∈ ns, n = "." := by
        rcases List.append_eq_append_iff.mp hsplit with ⟨ns, hup, hdown⟩ | ⟨ns, hup, hdown⟩
        · rcases List.eq_nil_or_concat ns with rfl | ⟨ns, last, rfl⟩
          · exact ⟨[], by rw [List.append_nil, hup, List.append_nil], by simp⟩
          · rw [List.concat_eq_append, ← List.append_assoc] at hup
            obtain rfl : ".." = last := (List.cons.inj (List.append_inj' hup rfl).2).1
            exact absurd (hdown ▸ by simp) hdots
        · exact ⟨ns, hup, fun n hn => hrest n (hdown ▸ List.mem_append_left _ hn)⟩
      rw [resolve_append, ← hplace', resolve_dots hns] at hl
      exact absurd hl hplace
    · refine ⟨name, hend.trans ?_⟩
      simp [next, hdot, hback]

/-- **Another file in the same directory is not on the way of a path**, if that goes only down from
where there are directories. -/
theorem off_beside (h : Direct here path t) (ht : Rooted t) {p : Location}
    (hp : t.get? p ≠ some .directory) (hlength : p.length = (place here path).length)
    (hne : p ≠ place here path) : Off here path p := by
  obtain ⟨up, down, l, hfollowed, hwalk, -, hdots, -⟩ := h
  obtain ⟨rfl, -, hstations⟩ := walk_eq_ok_iff.mp hwalk
  have hend : resolve (resolve (start here path) up) down = place here path := by
    rw [← resolve_append, ← hfollowed, resolve_followed]
  have habove : ∀ k, k <+: place here path → ¬p.isPrefixOf k = true := fun k hk hprefix => by
    have hp := (List.isPrefixOf_iff_prefix.mp hprefix).trans hk
    exact hne (hp.eq_of_length hlength)
  refine List.forall_mem_cons.mpr ⟨habove _ List.prefix_rfl, fun k hk hprefix => ?_⟩
  rw [way, hfollowed, stations_append] at hk
  rcases List.mem_append.mp hk with hk | hk
  · -- what is there is a directory, and nothing is below a file
    have hdirectory := hstations k hk
    by_cases heq : k = p
    · exact hp (heq ▸ hdirectory)
    · rw [ht.below hp hprefix heq] at hdirectory
      cases hdirectory
  · exact habove k (hend ▸ prefix_of_mem_stations hdots hk) hprefix

end Direct

/-! ## What is read -/

/-- A direct path reads as something, in a tree in which everything stands in a directory. -/
structure Reads (here : Location) (path : String) (x : Except OsError Content) (t : FileTree) :
    Prop where
  rooted : Rooted t
  direct : Direct here path t
  read : t.read here path = x

/-- **What is read stays**, while directories are made elsewhere and other changes are off the
path. -/
theorem reads_kept (here : Location) (path : String) (x : Except OsError Content) :
    Kept here (Off here path) (fun p => path = "" ∨ p ≠ place here path) (Off here path)
    (Reads here path x) where
  write := by
    intro t u p c h hoff hu
    obtain ⟨-, -, -, rfl⟩ := write_eq_ok hu
    have hsame : ∀ k ∈ place here path :: way here path,
        (t.put (place here p) (.file c)).get? k = t.get? k :=
      fun k hk => get?_put_of_ne t (hoff.ne hk) _
    refine ⟨h.rooted.write hu, h.direct.mono fun k hk hdir => (hsame k hk).trans hdir, ?_⟩
    rw [FileTree.read,
      find_congr (fun s hs => hsame s (List.mem_cons_of_mem _ hs)) (hsame _ List.mem_cons_self)]
    exact h.read
  makeDirectory := by
    intro t u p h hne hu
    obtain ⟨-, hnone, rfl⟩ := makeDirectory_eq_ok hu
    refine ⟨h.rooted.makeDirectory hu, h.direct.mono fun k _ hdir => ?_, ?_⟩
    · rw [get?_put_of_ne t fun heq : k = place here p => by rw [heq, hnone] at hdir; cases hdir]
      exact hdir
    · rw [FileTree.read, h.direct.find_put_directory h.rooted hnone hne]
      exact h.read
  erase := by
    intro t l h hoff
    have hsame : ∀ k ∈ place here path :: way here path, (t.erase l).get? k = t.get? k :=
      fun k hk => get?_erase_of_not_below (hoff k hk)
    refine ⟨h.rooted.erase l, h.direct.mono fun k hk hdir => (hsame k hk).trans hdir, ?_⟩
    rw [FileTree.read,
      find_congr (fun s hs => hsame s (List.mem_cons_of_mem _ hs)) (hsame _ List.mem_cons_self)]
    exact h.read

/-! ## Drawn names -/

theorem length_drawn (n : Nat) : (Machine.drawn n).toList.length = 6 := by
  simp [Machine.drawn]

/-- No character of a drawn name is a slash. -/
theorem slash_not_mem_drawn (n : Nat) : '/' ∉ (Machine.drawn n).toList := by
  have hletters : ∀ i, Machine.letters.toList.getD i '0' ≠ '/' := fun i => by
    have hmem : Machine.letters.toList.getD i '0' ∈ '0' :: Machine.letters.toList := by
      rw [List.getD_eq_getElem?_getD]
      cases h : Machine.letters.toList[i]? with
      | none => exact List.mem_cons_self
      | some c => exact List.mem_cons_of_mem _ (List.mem_of_getElem? h)
    intro h
    rw [h] at hmem
    exact absurd hmem (by decide)
  rw [Machine.drawn, String.toList_ofList]
  intro h
  obtain ⟨i, -, hi⟩ := List.mem_map.mp h
  exact hletters _ hi

/-- An opening and what is drawn for it are a name. -/
theorem isName_drawn {opening : String} (h : '/' ∉ opening.toList) (n : Nat) :
    IsName (opening ++ Machine.drawn n) :=
  isName_of_length (by rw [String.toList_append, List.length_append, length_drawn]; omega) (by
    rw [String.toList_append, List.mem_append, not_or]
    exact ⟨h, slash_not_mem_drawn n⟩)

/-- A directory stands at its path. -/
theorem place_pathOf (h : here.all isName = true) (there : Location) :
    place there (pathOf here) = here := by
  have hnamed : ∀ n ∈ here, IsName n := fun n hn => isName_iff.mp (List.all_eq_true.mp h n hn)
  have hstart : start there (pathOf here) = [] := if_pos (by simp [Path.isAbsolute, pathOf])
  have hnames : names (pathOf here) = here := by
    have hpath : pathOf here =
        String.ofList ([] ++ '/' :: List.intercalate ['/'] (here.map String.toList)) := by
      rw [← String.toList_inj, pathOf, String.toList_append, String.toList_intercalate,
        String.toList_ofList (l := _ ++ _)]
      rfl
    rw [hpath, names_slash, String.ofList_nil, names_empty, List.nil_append, names,
      String.toList_ofList]
    cases here with
    | nil => rfl
    | cons n ns =>
      have hslashes : ∀ s ∈ (n :: ns).map String.toList, '/' ∉ s := fun s hs => by
        obtain ⟨name, hname, rfl⟩ := List.mem_map.mp hs
        exact (hnamed name hname).noSlash
      rw [Path.segments_intercalate (by simp) hslashes, List.filter_eq_self.mpr ?_, List.map_map]
      · exact (List.map_congr_left fun s _ => String.ofList_toList).trans (List.map_id _)
      · intro s hs
        obtain ⟨name, hname, rfl⟩ := List.mem_map.mp hs
        simpa using (hnamed name hname).notEmpty
  have hresolve : ∀ {ns : List String} {l : Location}, (∀ n ∈ ns, IsName n) →
      resolve l ns = l ++ ns := by
    intro ns
    induction ns with
    | nil => exact fun _ => (List.append_nil _).symm
    | cons n ns ih =>
      intro l hns
      obtain ⟨hn, hns⟩ := List.forall_mem_cons.mp hns
      show resolve (next l n) ns = _
      rw [ih hns]
      simp [next, hn.notDot, hn.notDots]
  rw [place, hstart, hnames, hresolve hnamed, List.nil_append]

/-- A directory is found by its path from the current one. -/
theorem place_join_pathOf (h : here.all isName = true) (directory : String) :
    place here (Path.join (pathOf here) directory) = place here directory := by
  cases habs : Path.isAbsolute directory with
  | true => rw [Path.join, habs]; rfl
  | false =>
    rw [place_join here habs, place_pathOf h, place, start, habs]
    rfl

/-- **A name that is drawn in a directory stands there.** -/
theorem place_of_drawnIn {c : Circumstances} {directory opening : String}
    (hopening : '/' ∉ opening.toList) (hhere : here.all isName = true)
    (h : Machine.DrawnIn here c directory opening path) :
    ∃ n, place here path = place here directory ++ [opening ++ Machine.drawn n] := by
  obtain ⟨clock, attempt, rfl⟩ := h
  exact ⟨_, by rw [place_join_name here (isName_drawn hopening _), place_join_pathOf hhere]⟩

end Slideshow.FileTree
