import Slideshow.Proofs.Machine.Above
import Slideshow.Proofs.Machine.Steps

/-!
# Directories for a while

A directory is made where nothing is, things are put into it, and it is removed with all of them.
Then the tree has what it had before, but for what was put elsewhere. That is said of trees,
whatever was done to them in between, so that it can be said of a directory that was made while
another one was there.

* `Tidy asked t u`: the tree `u` has what `t` had, but for the places that were asked for.
  `Tidy.write`, `Tidy.makeDirectory`, `Tidy.removeFile`, `Tidy.rename`: one lemma for each
  operation.
* `Opened here path u v`: the directory was made that is there for a while.

Headlines:
* **`Opened.close`**: what was done in a directory is gone with it.
* **`Workspace.create_opens`**, **`Workspace.close_tidies`**: the same of workspaces, which are
  found when they are closed.
-/

namespace Slideshow

open FileTree Machine

namespace FileTree

variable {here : Location} {asked : Location → Prop} {path : String} {t u v w : FileTree}

/-! ## Trees that have the same but for some places -/

/-- The second tree has what the first one had, but for the places that were asked for; and no
directory is lost. -/
structure Tidy (asked : Location → Prop) (t u : FileTree) : Prop where
  rooted : Rooted u
  directories : ∀ k, t.get? k = some .directory → u.get? k = some .directory
  entries : ∀ k, ¬asked k → (u.get? k).isSome = (t.get? k).isSome

namespace Tidy

theorem refl (ht : Rooted t) : Tidy asked t t := ⟨ht, fun _ hk => hk, fun _ _ => rfl⟩

theorem trans (h : Tidy asked t u) (h' : Tidy asked u v) : Tidy asked t v where
  rooted := h'.rooted
  directories k hk := h'.directories k (h.directories k hk)
  entries k hk := (h'.entries k hk).trans (h.entries k hk)

variable (h : Tidy asked t u)
include h

/-- A directory that was found is found again. -/
theorem find (hfind : t.find here path = .ok (place here path, .directory)) :
    u.find here path = .ok (place here path, .directory) := by
  obtain ⟨hlocate, hget⟩ := find_eq_ok_iff.mp hfind
  obtain ⟨hplace, hpath, hshort, hway⟩ := locate_eq_ok_iff.mp hlocate
  have hlocate' : u.locate here path = .ok (place here path) :=
    locate_eq_ok_iff.mpr ⟨hplace, hpath, hshort, fun k hk => h.directories k (hway k hk)⟩
  exact find_eq_ok_iff.mpr ⟨hlocate', h.directories _ hget⟩

/-- Something is put where that was asked for, or where something was before. -/
theorem put {l : Location} {n : Node} (hroot : Rooted (u.put l n))
    (hnode : u.get? l ≠ some .directory) (hl : asked l ∨ (t.get? l).isSome = true) :
    Tidy asked t (u.put l n) := by
  refine ⟨hroot, fun k hk => ?_, fun k hk => ?_⟩
  · have hku := h.directories k hk
    by_cases heq : k = l
    · rw [heq] at hku
      exact absurd hku hnode
    · rw [get?_put_of_ne u heq, hku]
  · by_cases heq : k = l
    · subst heq
      rw [get?_put_self u (ne_nil_of_get? hnode), hl.resolve_left hk]
      rfl
    · rw [get?_put_of_ne u heq, h.entries k hk]

/-- What is no directory has nothing below it that could be lost. -/
theorem erase {l : Location} (hnode : u.get? l ≠ some .directory) (hl : asked l) :
    Tidy asked t (u.erase l) := by
  have hsame : ∀ k, k ≠ l → (u.erase l).get? k = u.get? k := by
    intro k hk
    by_cases hbelow : l.isPrefixOf k = true
    · have hnone := h.rooted.below hnode hbelow hk
      rw [get?_erase_eq, hnone, ite_self]
    · exact get?_erase_of_not_below hbelow
  refine ⟨h.rooted.erase l, fun k hk => ?_, fun k hk => ?_⟩
  · have hku := h.directories k hk
    rw [hsame k (fun heq => hnode (heq ▸ hku)), hku]
  · rw [hsame k (fun heq => hk (heq ▸ hl)), h.entries k hk]

theorem write {content : Content}
    (hplace : asked (place here path) ∨ (t.get? (place here path)).isSome = true)
    (hv : u.write here path content = .ok v) : Tidy asked t v := by
  have hroot := h.rooted.write hv
  obtain ⟨-, hnode, -, rfl⟩ := write_eq_ok hv
  exact h.put hroot hnode hplace

/-- A directory is made where that was asked for; where one was before none is made. -/
theorem makeDirectory
    (hplace : asked (place here path) ∨ t.get? (place here path) = some .directory)
    (hv : u.makeDirectory here path = .ok v) : Tidy asked t v := by
  have hroot := h.rooted.makeDirectory hv
  obtain ⟨-, hnone, rfl⟩ := makeDirectory_eq_ok hv
  refine h.put hroot (by simp [hnone]) (hplace.imp_right fun hdirectory => ?_)
  rw [h.directories _ hdirectory] at hnone
  cases hnone

theorem removeFile (hplace : asked (place here path)) (hv : u.removeFile here path = .ok v) :
    Tidy asked t v := by
  obtain ⟨hnode, rfl⟩ := removeFile_eq_ok hv
  exact h.erase hnode hplace

theorem rename {source target : String} (hsource : asked (place here source))
    (htarget : asked (place here target)) (hv : u.rename here source target = .ok v) :
    Tidy asked t v := by
  have hroot := h.rooted.rename hv
  obtain ⟨n, hfind, hn, -, hnode, -, rfl⟩ := rename_eq_ok hv
  have hfile : u.get? (place here source) ≠ some .directory := fun hdirectory =>
    hn (Option.some.inj ((find_place hfind).2.symm.trans hdirectory))
  exact (h.erase hfile hsource).put hroot (fun hdirectory => hnode (get?_of_erase hdirectory))
    (.inl htarget)

end Tidy

/-- A tree has what it had when things are written and made where that was asked for. What was there
before may be written again. -/
theorem tidy_kept (here : Location) (asked : Location → Prop) (t : FileTree) :
    Kept here (fun l => asked l ∨ (t.get? l).isSome = true)
    (fun l => asked l ∨ t.get? l = some .directory) (fun _ => False) (Tidy asked t) where
  write h hplace hv := h.write hplace hv
  makeDirectory h hplace hv := h.makeDirectory hplace hv
  erase _ hl := hl.elim

/-! ## A directory that was made -/

/-- What was asked for, and all that is at a place or below. -/
def inside (asked : Location → Prop) (l : Location) : Location → Prop :=
  fun k => asked k ∨ l.isPrefixOf k = true

/-- A directory was made at a path that led to nothing. -/
structure Opened (here : Location) (path : String) (u v : FileTree) : Prop where
  rooted : Rooted v
  vacant : u.get? (place here path) = none
  found : v.find here path = .ok (place here path, .directory)
  others : ∀ k, k ≠ place here path → v.get? k = u.get? k

/-- What names go through that a path begins with is on its way. -/
theorem mem_way_of_names {k : Location} (h : k ∈ stations (start here path) (names path)) :
    k ∈ way here path := by
  rw [way, followed, stations_append]
  exact List.mem_append_left _ h

/-- What a path goes through with one more name, it goes through or leads to. -/
theorem mem_stations_name {name : String} {k : Location}
    (h : k ∈ stations (start here path) (names path ++ [name])) :
    k ∈ stations (start here path) (names path) ∨ k = place here path := by
  rw [stations_append, List.mem_append] at h
  simpa [stations, place] using h

/-- A path with slashes at its end goes through nothing else, but asks for its place. -/
theorem mem_way_unslashed {k : Location} (h : k ∈ way here path) :
    k ∈ way here (unslashed path) ∨ k = place here path := by
  by_cases hslash : Path.endsInSlash path = true
  · rw [way, followed, if_pos hslash] at h
    refine (mem_stations_name h).imp_left fun hk => mem_way_of_names ?_
    rwa [start_unslashed, names_unslashed]
  · rw [unslashed_of_not_endsInSlash (Bool.not_eq_true _ ▸ hslash)]
    exact .inl h

/-- What a name in a directory goes through, the directory goes through or is. -/
theorem mem_way_join_name {name : String} (hname : IsName name) {k : Location}
    (h : k ∈ way here (Path.join path name)) :
    k ∈ way here path ∨ k = place here path := by
  have hfollowed : followed (Path.join path name) = names path ++ [name] := by
    rw [followed, Path.endsInSlash_join_name path hname, names_join hname.isAbsolute,
      names_plain hname.notEmpty hname.noSlash]
    simp
  rw [way, hfollowed, start_join here hname.isAbsolute] at h
  exact (mem_stations_name h).imp_left mem_way_of_names

/-- **A directory that was made at a path that led to nothing is found**, also if the path ends in
slashes. -/
theorem opened_of_makeDirectory (hu : Rooted u) (hmissing : u.find here path = .error .missing)
    (hv : u.makeDirectory here path = .ok v) : Opened here path u v := by
  have hroot := hu.makeDirectory hv
  obtain ⟨hlocate, hnone, rfl⟩ := makeDirectory_eq_ok hv
  obtain ⟨-, hpath, hshort, hway⟩ := locate_eq_ok_iff.mp hlocate
  have hne : place here path ≠ [] := ne_nil_of_get? (t := u) (by simp [hnone])
  have hself := get?_put_self u hne .directory
  have hshort' : Short (followed path) := by
    refine List.forall_mem_append.mpr ⟨fun name hname => hshort name ?_, ?_⟩
    · rw [followed, names_unslashed]
      exact List.mem_append_left _ hname
    · split
      · simp [maxNameLength]
        decide
      · simp
  have hway' : ∀ k ∈ way here path,
      (u.put (place here path) .directory).get? k = some .directory := by
    intro k hk
    by_cases heq : k = place here path
    · rw [heq, hself]
    · rw [get?_put_of_ne u heq]
      exact hway k ((mem_way_unslashed hk).resolve_right heq)
  have hempty : path ≠ "" := by
    rintro rfl
    exact hpath.notEmpty rfl
  have hlocate' := locate_eq_ok_iff.mpr ⟨rfl, isPath_of_missing hmissing hempty, hshort', hway'⟩
  exact ⟨hroot, hnone, find_eq_ok_iff.mpr ⟨hlocate', hself⟩, fun k hk => get?_put_of_ne u hk _⟩

namespace Opened

variable (hopen : Opened here path u v)
include hopen

/-- What is above a file in the directory is there. -/
theorem above_file {name d p : String} (hname : IsName name)
    (hd : Path.parent? (Path.join path name) = some d) (hp : Upward d p) :
    v.get? (place here p) = some .directory := by
  obtain ⟨hlocate, hget⟩ := find_eq_ok_iff.mp hopen.found
  rcases mem_way_join_name hname (hp.place_mem_way hd) with hway | heq
  · exact (locate_eq_ok_iff.mp hlocate).2.2.2 _ hway
  · rw [heq, hget]

/-- **What was done in a directory is gone with it**, and then the tree has what it had before the
directory was made. -/
theorem close (hu : Rooted u) (h : Tidy (inside asked (place here path)) v w) :
    Tidy asked u (w.erase (place here path)) := by
  have hnone : ∀ k, (place here path).isPrefixOf k = true → u.get? k = none := by
    intro k hk
    by_cases heq : k = place here path
    · rw [heq, hopen.vacant]
    · exact hu.below (by simp [hopen.vacant]) hk heq
  have hother : ∀ k, ¬(place here path).isPrefixOf k = true → v.get? k = u.get? k := by
    intro k hk
    refine hopen.others k ?_
    rintro rfl
    simp at hk
  refine ⟨h.rooted.erase _, fun k hk => ?_, fun k hk => ?_⟩
  · have hapart : ¬(place here path).isPrefixOf k = true := fun hbelow => by
      rw [hnone k hbelow] at hk
      cases hk
    rw [get?_erase_of_not_below hapart]
    exact h.directories k ((hother k hapart).trans hk)
  · by_cases hbelow : (place here path).isPrefixOf k = true
    · have hk' : k ≠ [] := ne_nil_of_get? (t := u) (by simp [hnone k hbelow])
      rw [get?_erase _ hk', if_pos hbelow, hnone k hbelow]
    · rw [get?_erase_of_not_below hbelow, h.entries k (by simp [inside, hk, hbelow]),
        hother k hbelow]

end Opened

end FileTree

/-! ## Workspaces -/

namespace Workspace

variable {here : Location} {c : Circumstances} {asked : Location → Prop} {t u v : FileTree}

/-- **A workspace is made where nothing is**; on the way to it only what was asked for. -/
theorem create_opens {root : String} (opening : String)
    (hroot : ∀ p, Upward root p → asked (place here p)) :
    Tries (Holds here c (Tidy asked t)) (create root opening)
      (fun w => Holds here c fun v => ∃ u, Tidy asked t u ∧ Opened here w.path u v) fun _ =>
        Holds here c (Tidy asked t) := by
  have hmake : Ensures (Holds here c (Tidy asked t)) (makeDirectories root) fun _ =>
    Holds here c (Tidy asked t) :=
    makeDirectories_holds (tidy_kept here asked t) fun p hp => .inl (hroot p hp)
  have htemporary : Ensures (Holds here c (Tidy asked t)) (makeTemporaryDirectory root opening)
      (Either (fun path m => DrawnIn here c root opening path ∧
          m.Holds here c fun v => ∃ u, Tidy asked t u ∧ Opened here path u v)
        fun _ => Holds here c (Tidy asked t)) :=
    makeTemporary_holds root opening fun _ hmissing hu hv =>
      ⟨_, hu, opened_of_makeDirectory hu.rooted hmissing hv⟩
  unfold create
  refine .bind (Action.orSystem_tries hmake _) fun _ => ?_
  exact .bind (Action.orSystem_either htemporary _) fun path => .pure _ fun _ hm => hm.2

/-- **A workspace is found when it is closed**, and the tree has what it had before. -/
theorem close_tidies {w : Workspace} (hu : Tidy asked t u) (hopen : Opened here w.path u v) :
    Ensures (Holds here c (Tidy (inside asked (place here w.path)) v)) w.close.run fun _ =>
      Holds here c (Tidy asked t) := by
  have hremove : Ensures (Holds here c (Tidy (inside asked (place here w.path)) v))
      (removeDirectory w.path) fun _ =>
      Holds here c (Tidy asked t) := by
    refine removeDirectory_ensures w.path fun {v'} h =>
      ⟨v'.erase (place here w.path), ?_, hu.trans (hopen.close hu.rooted h)⟩
    rw [FileTree.removeDirectory, h.find hopen.found]
  exact (Action.orSystem_tries hremove _).run

end Workspace

end Slideshow
