import Slideshow.Proofs.Machine.Place

/-!
# What operations on files change

Each operation that succeeds puts something at one place or erases one place, which is the place of
the path it was given. So what holds of a tree is kept by an operation as soon as it is kept by such
a change, and `Kept` collects that for the places where something may be written, made or removed.

* `write_eq_ok`, `makeDirectory_eq_ok`, `removeFile_eq_ok`, `removeDirectory_eq_ok`, `rename_eq_ok`:
  one inversion for each operation.
* `write_find`, `makeDirectory_find`, `Rooted.rename_find`, `Rooted.rename_source`: what is found
  afterwards.

Headlines:
* `Rooted.put`, `Rooted.erase`, `Rooted.rename`: everything goes on to stand in a directory.
* **`Rooted.rename_find`**: what was renamed is found under its new name.
-/

namespace Slideshow.FileTree

variable {t u : FileTree} {here : Location}

/-! ## Inversions -/

theorem get?_erase_eq (t : FileTree) (l k : Location) :
    (t.erase l).get? k = if k ≠ [] ∧ l.isPrefixOf k = true then none else t.get? k := by
  by_cases hk : k = []
  · subst hk
    rw [if_neg (by simp), get?_root, get?_root]
  · rw [get?_erase t hk]
    simp [hk]

/-- What is there after something was erased was there before. -/
theorem get?_of_erase {l k : Location} {n : Node} (h : (t.erase l).get? k = some n) :
    t.get? k = some n := by
  rw [get?_erase_eq] at h
  split at h
  · cases h
  · exact h

theorem get?_erase_of_not_below {l k : Location} (h : ¬l.isPrefixOf k = true) :
    (t.erase l).get? k = t.get? k := by
  rw [get?_erase_eq, if_neg fun hk => h hk.2]

theorem ne_nil_of_get? {l : Location} (h : t.get? l ≠ some .directory) : l ≠ [] := by
  rintro rfl
  exact h (get?_root t)

theorem writable_eq_ok {slash : OsError} {path : String} {l : Location}
    (h : t.writable here slash path = .ok l) :
    t.locate here path = .ok l ∧ t.get? l ≠ some .directory ∧ Path.endsInSlash path = false := by
  unfold writable at h
  split at h
  · cases h
  · next k hk =>
    split at h
    · cases h
    · next hnode =>
      split at h
      · cases h
      · next hslash =>
        cases h
        have hslash := Bool.not_eq_true _ ▸ hslash
        rw [unslashed_of_not_endsInSlash hslash] at hk
        exact ⟨hk, hnode, hslash⟩

theorem write_eq_ok {path : String} {c : Content} (h : t.write here path c = .ok u) :
    t.locate here path = .ok (place here path) ∧ t.get? (place here path) ≠ some .directory ∧
      Path.endsInSlash path = false ∧ u = t.put (place here path) (.file c) := by
  unfold write at h
  cases hw : t.writable here .isDirectory path with
  | error e =>
    rw [hw] at h
    cases h
  | ok l =>
    obtain ⟨hlocate, hnode, hslash⟩ := writable_eq_ok hw
    obtain rfl := (locate_eq_ok_iff.mp hlocate).1
    rw [hw] at h
    cases h
    exact ⟨hlocate, hnode, hslash, rfl⟩

theorem makeDirectory_eq_ok {path : String} (h : t.makeDirectory here path = .ok u) :
    t.locate here (unslashed path) = .ok (place here path) ∧ t.get? (place here path) = none ∧
      u = t.put (place here path) .directory := by
  unfold makeDirectory at h
  split at h
  · cases h
  · next l hl =>
    obtain rfl := (locate_eq_ok_iff.mp hl).1
    rw [place_unslashed] at hl h
    split at h
    · cases h
    · next hnone =>
      cases h
      exact ⟨hl, hnone, rfl⟩

theorem find_place {path : String} {l : Location} {n : Node} (h : t.find here path = .ok (l, n)) :
    l = place here path ∧ t.get? (place here path) = some n := by
  obtain ⟨hl, hn⟩ := find_eq_ok_iff.mp h
  obtain rfl := (locate_eq_ok_iff.mp hl).1
  exact ⟨rfl, hn⟩

theorem removeFile_eq_ok {path : String} (h : t.removeFile here path = .ok u) :
    t.get? (place here path) ≠ some .directory ∧ u = t.erase (place here path) := by
  unfold removeFile at h
  split at h
  · cases h
  · cases h
  · next l n hnode hfind =>
    obtain ⟨rfl, hget⟩ := find_place hfind
    cases h
    exact ⟨fun hdir => hnode (Option.some.inj (hget.symm.trans hdir)), rfl⟩

theorem removeDirectory_eq_ok {path : String} (h : t.removeDirectory here path = .ok u) :
    u = t.erase (place here path) := by
  unfold removeDirectory at h
  split at h
  · cases h
  · next l hfind =>
    obtain ⟨rfl, -⟩ := find_place hfind
    cases h
    rfl
  · cases h

theorem rename_eq_ok {source target : String} (h : t.rename here source target = .ok u) :
    ∃ n, t.find here source = .ok (place here source, n) ∧ n ≠ .directory ∧
      t.locate here target = .ok (place here target) ∧
      t.get? (place here target) ≠ some .directory ∧
      Path.endsInSlash target = false ∧
      u = (t.erase (place here source)).put (place here target) n := by
  unfold rename at h
  split at h
  · cases h
  · cases h
  · next l n hnode hfind =>
    obtain ⟨rfl, -⟩ := find_place hfind
    split at h
    · split at h <;> cases h
    · cases h
    · next k hk =>
      obtain ⟨hlocate, htarget, hslash⟩ := writable_eq_ok hk
      obtain rfl := (locate_eq_ok_iff.mp hlocate).1
      cases h
      exact ⟨n, hfind, hnode, hlocate, htarget, hslash, rfl⟩

/-! ## What is kept -/

/-- What holds of a tree goes on to hold when files are written, directories are made and things are
removed at some places. -/
structure Kept (here : Location) (written made removed : Location → Prop) (I : FileTree → Prop) :
    Prop where
  write : ∀ {t u path c}, I t → written (place here path) → t.write here path c = .ok u → I u
  makeDirectory : ∀ {t u path}, I t → made (place here path) → t.makeDirectory here path = .ok u →
    I u
  erase : ∀ {t l}, I t → removed l → I (t.erase l)

/-- A path and what is above it. -/
inductive Upward (path : String) : String → Prop
  | self : Upward path path
  | parent {p q : String} (above : Upward path p) (h : Path.parent? p = some q) : Upward path q

/-! ## Everything goes on to stand in a directory -/

section
variable (ht : Rooted t)
include ht

omit ht in
theorem dropLast_ne {l : Location} (h : l ≠ []) : l.dropLast ≠ l := fun heq => by
  have hlength := congrArg List.length heq
  rw [List.length_dropLast] at hlength
  have := List.length_pos_iff.mpr h
  omega

/-- Something is put where no directory is, or a directory where nothing is. -/
theorem Rooted.put {l : Location} {n : Node} (hl : l ≠ [])
    (hnode : t.get? l ≠ some .directory ∨ n = .directory)
    (hparent : t.get? l.dropLast = some .directory) : Rooted (t.put l n) := by
  intro k m hk hm
  by_cases hkl : k = l
  · subst hkl
    rw [get?_put_of_ne t (dropLast_ne hk)]
    exact hparent
  · rw [get?_put_of_ne t hkl] at hm
    have habove := ht k m hk hm
    by_cases hparent' : k.dropLast = l
    · rw [hparent', get?_put_self t hl]
      rcases hnode with hnode | rfl
      · exact absurd (hparent' ▸ habove) hnode
      · rfl
    · rw [get?_put_of_ne t hparent']
      exact habove

theorem Rooted.erase (l : Location) : Rooted (t.erase l) := by
  intro k n hk hn
  have habove := ht k n hk (get?_of_erase hn)
  rw [get?_erase_eq] at hn ⊢
  split
  · next hbelow =>
    have hprefix : l.isPrefixOf k = true := List.isPrefixOf_iff_prefix.mpr
      ((List.isPrefixOf_iff_prefix.mp hbelow.2).trans (List.dropLast_prefix k))
    rw [if_pos ⟨hk, hprefix⟩] at hn
    cases hn
  · exact habove

theorem Rooted.write {path : String} {c : Content} (h : t.write here path c = .ok u) :
    Rooted u := by
  obtain ⟨hlocate, hnode, -, rfl⟩ := write_eq_ok h
  exact ht.put (ne_nil_of_get? hnode) (.inl hnode) (ht.locate hlocate (ne_nil_of_get? hnode))

theorem Rooted.makeDirectory {path : String} (h : t.makeDirectory here path = .ok u) :
    Rooted u := by
  obtain ⟨hlocate, hnone, rfl⟩ := makeDirectory_eq_ok h
  have hne : place here path ≠ [] := ne_nil_of_get? (t := t) (by simp [hnone])
  exact ht.put hne (.inr rfl) (ht.locate hlocate hne)

/-- Nothing is renamed into itself, and no directory is lost. -/
theorem Rooted.rename_directory {source target : String} {k : Location}
    (h : t.rename here source target = .ok u) (hk : t.get? k = some .directory) :
    u.get? k = some .directory := by
  obtain ⟨n, hsource, hn, -, htarget, -, rfl⟩ := rename_eq_ok h
  have hfile : t.get? (place here source) ≠ some .directory := fun hdir =>
    hn (Option.some.inj ((find_place hsource).2.symm.trans hdir))
  have hbelow : ¬(place here source).isPrefixOf k = true := fun hbelow => by
    by_cases heq : k = place here source
    · exact hfile (heq ▸ hk)
    · rw [ht.below hfile hbelow heq] at hk
      cases hk
  rw [get?_put_of_ne _ (fun heq : k = place here target => htarget (heq ▸ hk)),
    get?_erase_of_not_below hbelow, hk]

theorem Rooted.rename {source target : String} (h : t.rename here source target = .ok u) :
    Rooted u := by
  obtain ⟨n, -, -, hlocate, hnode, -, rfl⟩ := rename_eq_ok h
  have hne := ne_nil_of_get? hnode
  refine (ht.erase _).put hne (.inl fun hdir => hnode (get?_of_erase hdir)) ?_
  have hparent := ht.rename_directory h (ht.locate hlocate hne)
  rwa [get?_put_of_ne _ (dropLast_ne hne)] at hparent

end

/-! ## What is found afterwards -/

/-- What was written is found. -/
theorem write_find {path : String} {c : Content} (h : t.write here path c = .ok u) :
    u.find here path = .ok (place here path, .file c) := by
  obtain ⟨hlocate, hnode, -, rfl⟩ := write_eq_ok h
  have hway : ∀ s ∈ way here path, t.get? s = (t.put (place here path) (.file c)).get? s :=
    fun s hs => by
    have hdirectory := (locate_eq_ok_iff.mp hlocate).2.2.2 s hs
    exact (get?_put_of_ne t (fun heq : s = place here path => hnode (heq ▸ hdirectory)) _).symm
  exact find_eq_ok_iff.mpr ⟨locate_congr hway ▸ hlocate, get?_put_self t (ne_nil_of_get? hnode) _⟩

/-- A directory that was made is found. -/
theorem makeDirectory_find {path : String} (hslash : Path.endsInSlash path = false)
    (h : t.makeDirectory here path = .ok u) :
    u.find here path = .ok (place here path, .directory) := by
  obtain ⟨hlocate, hnone, rfl⟩ := makeDirectory_eq_ok h
  rw [unslashed_of_not_endsInSlash hslash] at hlocate
  have hway : ∀ s ∈ way here path, t.get? s = (t.put (place here path) .directory).get? s :=
    fun s hs => by
    have hdirectory := (locate_eq_ok_iff.mp hlocate).2.2.2 s hs
    refine (get?_put_of_ne t (fun heq : s = place here path => ?_) _).symm
    rw [heq, hnone] at hdirectory
    cases hdirectory
  exact find_eq_ok_iff.mpr
    ⟨locate_congr hway ▸ hlocate, get?_put_self t (ne_nil_of_get? (t := t) (by simp [hnone])) _⟩

/-- Nothing is made where a directory is. -/
theorem makeDirectory_of_find {path : String} {l : Location}
    (hslash : Path.endsInSlash path = false) (h : t.find here path = .ok (l, .directory)) :
    t.makeDirectory here path = .error .present ∧ t.isDirectory here path = true := by
  obtain ⟨hlocate, hget⟩ := find_eq_ok_iff.mp h
  refine ⟨?_, by rw [isDirectory, h]⟩
  rw [makeDirectory, unslashed_of_not_endsInSlash hslash, hlocate]
  dsimp only
  rw [hget]

section
variable (ht : Rooted t) {source target : String} (h : t.rename here source target = .ok u)
include ht h

/-- **What was renamed is found under its new name.** -/
theorem Rooted.rename_find {k : Location} {n : Node} (hsource : t.find here source = .ok (k, n)) :
    u.find here target = .ok (place here target, n) := by
  have hdirectory := fun s => ht.rename_directory (k := s) h
  obtain ⟨m, hm, -, hlocate, hnode, -, rfl⟩ := rename_eq_ok h
  obtain ⟨-, rfl⟩ := Prod.mk.inj (Except.ok.inj (hsource.symm.trans hm))
  obtain ⟨hplace, hpath, hshort, hway⟩ := locate_eq_ok_iff.mp hlocate
  exact find_eq_ok_iff.mpr
    ⟨locate_eq_ok_iff.mpr ⟨hplace, hpath, hshort, fun s hs => hdirectory s (hway s hs)⟩,
    get?_put_self _ (ne_nil_of_get? hnode) _⟩

/-- What was renamed is gone from where it was, unless it is still there. -/
theorem Rooted.rename_source :
    u.find here source = t.find here source ∨ u.find here source = .error .missing := by
  have hdirectory := fun s => ht.rename_directory (k := s) h
  obtain ⟨n, hsource, hn, -, hnode, -, rfl⟩ := rename_eq_ok h
  obtain ⟨hlocate, hget⟩ := find_eq_ok_iff.mp hsource
  obtain ⟨hplace, hpath, hshort, hway⟩ := locate_eq_ok_iff.mp hlocate
  have hlocate' : ((t.erase (place here source)).put (place here target) n).locate here source =
      .ok (place here source) :=
    locate_eq_ok_iff.mpr ⟨hplace, hpath, hshort, fun s hs => hdirectory s (hway s hs)⟩
  by_cases heq : place here source = place here target
  · left
    rw [hsource]
    refine find_eq_ok_iff.mpr ⟨hlocate', ?_⟩
    rw [heq, get?_put_self _ (ne_nil_of_get? hnode)]
  · right
    have hne : place here source ≠ [] :=
      ne_nil_of_get? (t := t) fun hdir => hn (Option.some.inj (hget.symm.trans hdir))
    have hnone : ((t.erase (place here source)).put (place here target) n).get?
        (place here source) = none := by
      rw [get?_put_of_ne _ heq, get?_erase _ hne, if_pos (by simp)]
    rw [find, hlocate']
    dsimp only
    rw [hnone]

end

end Slideshow.FileTree
