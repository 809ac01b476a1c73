import Slideshow.Proofs.Ledger.Replacement

/-!
# A file that is no ledger

An entry that is added to a file that is no ledger begins a new one; the file is moved aside first
(`quarantine`). Its bytes go on to be there whatever is refused on the way, with one exception:
nobody hears when the moving itself is refused, and the new ledger is written over the file then.

* `Ledger.Holding` is a file with its contents at a path.
* `place_append_ne`: a path with something added to its last name leads to another place.

Headlines:
* **`Ledger.corrupt_ledger_kept`**: the bytes are at the ledger's path or aside, unless the moving
  was refused.
* **`Ledger.corrupt_ledger_lost`**: with a directory where it should go, the file is lost although
  the addition succeeds.
-/

namespace Slideshow.FileTree

variable {t : FileTree} {here : Location} {path : String} {content : Content}

/-! ## Longer last names -/

/-- What is added to a path without a slash is added to its last segment. -/
theorem segments_append {ds : List Char} (h : '/' ∉ ds) (cs : List Char) :
    ∃ ss s, Path.segments cs = ss ++ [s] ∧
    Path.segments (cs ++ ds) = ss ++ [s ++ ds] := by
  induction cs with
  | nil => exact ⟨[], [], rfl, segments_plain h⟩
  | cons c cs ih =>
    obtain ⟨ss, s, hcs, happend⟩ := ih
    rw [List.cons_append, Path.segments, Path.segments, hcs, happend]
    split
    · exact ⟨[] :: ss, s, rfl, rfl⟩
    · cases ss with
      | nil => exact ⟨[], c :: s, rfl, rfl⟩
      | cons x xs => exact ⟨(c :: x) :: xs, s, rfl, rfl⟩

/-- Where a path leads whose last segment is a name. -/
theorem place_of_segments (here : Location) {ss : List (List Char)} {s : List Char}
    (h : Path.segments path.toList = ss ++ [s]) (hs : s ≠ []) :
    names path = Path.texts ss ++ [String.ofList s] ∧
      place here path = next (resolve (start here path) (Path.texts ss)) (String.ofList s) := by
  have hlast : Path.texts [s] = [String.ofList s] := by simp [Path.texts, hs]
  have hnames : names path = Path.texts ss ++ [String.ofList s] := by
    rw [show names path = Path.texts (Path.segments path.toList) from rfl, h, Path.texts_append,
      hlast]
  refine ⟨hnames, ?_⟩
  rw [place, hnames, resolve_append]
  rfl

/-- A file is found by a path that ends in a name of its own. -/
theorem Rooted.last_name (ht : Rooted t)
    (hfind : t.find here path = .ok (place here path, .file content)) :
    ∃ ss s, Path.segments path.toList = ss ++ [s] ∧ s ≠ [] ∧
      place here path = FileTree.resolve (start here path)
      (Path.texts ss) ++ [String.ofList s] := by
  obtain ⟨hlocate, hget⟩ := find_eq_ok_iff.mp hfind
  obtain ⟨-, hpath, -, hway⟩ := locate_eq_ok_iff.mp hlocate
  have hfile : t.get? (place here path) ≠ some .directory := by
    rw [hget]
    exact fun h => nomatch h
  -- the path does not end in a slash, which would ask for a directory
  have hne : path.toList ≠ [] := fun hnil => hpath.notEmpty (by simpa using hnil)
  obtain ⟨cs, c, hcs⟩ := (List.eq_nil_or_concat path.toList).resolve_left hne
  rw [List.concat_eq_append] at hcs
  have hc : '/' ∉ [c] := by
    rw [List.mem_singleton]
    rintro rfl
    have hslash : Path.endsInSlash path = true := by
      rw [Path.endsInSlash, hcs, List.getLast?_concat]; rfl
    refine hfile (hway _ ?_)
    rw [way, followed, if_pos hslash]
    exact mem_stations (List.cons_ne_nil _ _) _
  obtain ⟨ss, s, -, hsegments⟩ := segments_append hc cs
  rw [← hcs] at hsegments
  have hs : s ++ [c] ≠ [] := by simp
  obtain ⟨hnames, hplace⟩ := place_of_segments here hsegments hs
  -- nor in dots, which lead to directories
  have habove : t.get? (FileTree.resolve (start here path) (Path.texts ss)) = some .directory :=
    hway _ (by
    rw [way, followed, hnames, List.append_assoc]
    exact mem_stations (by simp) _)
  refine ⟨ss, s ++ [c], hsegments, hs, ?_⟩
  rw [hplace] at hfile
  unfold next at hplace hfile
  by_cases hdot : (String.ofList (s ++ [c]) == ".") = true
  · rw [if_pos hdot] at hfile
    exact absurd habove hfile
  · rw [if_neg hdot] at hfile hplace
    by_cases hdots : (String.ofList (s ++ [c]) == "..") = true
    · rw [if_pos hdots] at hfile
      by_cases hroot : FileTree.resolve (start here path) (Path.texts ss) = []
      · rw [hroot] at hfile
        exact absurd (get?_root t) hfile
      · exact absurd (ht _ _ hroot habove) hfile
    · rw [if_neg hdots] at hplace
      exact hplace

/-- **A longer last name leads to another place.** -/
theorem Rooted.place_append_ne (ht : Rooted t)
    (hfind : t.find here path = .ok (place here path, .file content)) {suffix : String}
    (hslash : '/' ∉ suffix.toList) (hlong : 2 < suffix.toList.length) :
    place here (path ++ suffix) ≠ place here path := by
  obtain ⟨ss, s, hsegments, hs, hplace⟩ := ht.last_name hfind
  obtain ⟨ss', s', hsegments', happend⟩ := segments_append hslash path.toList
  obtain ⟨rfl, hlast⟩ := List.append_inj' (hsegments'.symm.trans hsegments) rfl
  obtain rfl : s' = s := (List.cons.inj hlast).1
  rw [← String.toList_append] at happend
  obtain ⟨-, hplace'⟩ := place_of_segments here happend (by simp [hs])
  have hstart : start here (path ++ suffix) = start here path := by
    have hne : path.toList ≠ [] := fun hnil => by
      rw [hnil] at hsegments
      have hlast : [] ++ [[]] = ss' ++ [s'] := hsegments
      exact hs (List.cons.inj (List.append_inj' hlast rfl).2).1.symm
    obtain ⟨c, cs, hcs⟩ := List.exists_cons_of_ne_nil hne
    rw [start, start, Path.isAbsolute, Path.isAbsolute, String.toList_append, hcs]
    rfl
  have hlength : 2 < (s' ++ suffix.toList).length := by
    rw [List.length_append]
    omega
  have hname : ∀ dots : String, dots.toList.length ≤ 2 →
      ¬(String.ofList (s' ++ suffix.toList) == dots) = true := by
    intro dots hdots heq
    rw [← beq_iff_eq.mp heq, String.toList_ofList] at hdots
    omega
  unfold next at hplace'
  rw [if_neg (hname "." (by decide)), if_neg (hname ".." (by decide)), hstart] at hplace'
  rw [hplace, hplace']
  intro heq
  have hnames := (List.cons.inj (List.append_cancel_left heq)).1
  have hchars := congrArg List.length (String.ofList_injective hnames)
  rw [List.length_append] at hchars
  omega

end Slideshow.FileTree

namespace Slideshow.Ledger

open FileTree Machine

/-- There is a file with its contents at a path. -/
structure Holding (here : Location) (path : String) (content : Content) (t : FileTree) : Prop where
  rooted : Rooted t
  found : t.find here path = .ok (place here path, .file content)

variable {l : Ledger} {here : Location} {path : String} {content : Content} {t u : FileTree}

theorem Holding.read (h : Holding here path content t) : t.read here path = .ok content := by
  rw [FileTree.read, h.found]

/-- A file stays when directories are made. -/
theorem holding_endures (l : Ledger) (here : Location) (path : String) (content : Content) :
    Endures l here (Holding here path content) where
  rooted h := h.rooted
  alike h halike := ⟨h.rooted.alike halike, (halike.find here path).trans h.found⟩
  directories p _ t u h hu := by
    refine ⟨h.rooted.makeDirectory hu, ?_⟩
    obtain ⟨-, hnone, rfl⟩ := makeDirectory_eq_ok hu
    rw [find_mono (fun k n hk => ?_) (by rw [h.found]; exact fun h => nomatch h), h.found]
    rwa [get?_put_of_ne t fun heq => by rw [heq, hnone] at hk; cases hk]

/-- A file stays when a ledger elsewhere is written. -/
theorem holding_of_written {written : Content} (hne : place here path ≠ place here l.path)
    (h : l.Written here (Holding here path content) written u) : Holding here path content u := by
  obtain ⟨s, v, hs, hv, halike⟩ := h
  refine (holding_endures l here path content).alike ⟨hs.rooted.write hv, ?_⟩ halike
  obtain ⟨-, hnode, -, rfl⟩ := write_eq_ok hv
  have hother : ∀ k, s.get? k = some .directory → k ≠ place here l.path :=
    fun k hk heq => hnode (heq ▸ hk)
  obtain ⟨hlocate, -⟩ := find_eq_ok_iff.mp hs.found
  rw [← hs.found]
  exact find_congr
    (fun k hk => get?_put_of_ne s (hother k ((locate_eq_ok_iff.mp hlocate).2.2.2 k hk)) _)
    (get?_put_of_ne s hne _)

/-- A file stays when a temporary one is left. -/
theorem holding_of_littered
    (h : Holding here path content t ∨ Littered here (Holding here path content) t) :
    Holding here path content t := by
  rcases h with h | ⟨_, _, s, hs, hwith⟩
  · exact h
  · refine ⟨hwith.rooted, ?_⟩
    rw [find_mono (fun _ _ => hwith.get?_mono) (by rw [hs.found]; exact fun h => nomatch h),
      hs.found]

/-- A file that was moved aside is there. -/
theorem Holding.moved (h : Holding here l.path content t)
    (hu : t.rename here l.path l.asidePath = .ok u) :
    Holding here l.asidePath content u :=
  ⟨h.rooted.rename hu, h.rooted.rename_find hu h.found⟩

theorem Holding.aside_ne (h : Holding here l.path content t) :
    place here l.asidePath ≠ place here l.path :=
  h.rooted.place_append_ne h.found (by decide) (by decide)

/-- What can be read and is no ledger is a file. -/
theorem holding_of_corrupt (hroot : Rooted t) (hread : t.read here l.path = .ok content)
    (hcorrupt : classify content.toBytes = .corrupt) : Holding here l.path content t := by
  refine ⟨hroot, ?_⟩
  unfold FileTree.read at hread
  split at hread
  · cases hread
  · next k _ hfind =>
    cases hread
    obtain rfl := (find_place hfind).1
    exact hfind
  · cases hread
    exact nomatch hcorrupt
  · cases hread

section
variable {c : Circumstances}

/-- A file stays where it is when there is no new ledger, and a new ledger is written. -/
theorem store_holding (l : Ledger) (entries : List LedgerEntry) :
    Tries (Machine.Holds here c (Holding here path content)) (l.store entries)
      (fun _ => Machine.Holds here c
        (l.Written here (Holding here path content) (.ofText (render entries))))
      fun _ => Machine.Holds here c (Holding here path content) :=
  store_tries (fun h => h)
    ((replace_litters (holding_endures l here path content) _).mono (fun _ h => h)
    (fun _ _ h => h) fun _ _ hm => ⟨hm.here, hm.circumstances, holding_of_littered hm.files⟩)

/-- A file aside stays whatever becomes of a new ledger. -/
theorem store_keeps_aside (hne : place here l.asidePath ≠ place here l.path)
    (entries : List LedgerEntry) :
    Keeps (Machine.Holds here c (Holding here l.asidePath content)) (l.store entries) :=
  (l.store_holding entries).mono (fun _ h => h)
    (fun _ _ hm => ⟨hm.here, hm.circumstances, holding_of_written hne hm.files⟩) fun _ _ h => h

end

/-- **A file that is no ledger is not lost**: whatever becomes of an addition, its bytes are at the
path of the ledger or aside afterwards, unless the addition succeeds although the file could not be
moved. -/
theorem corrupt_ledger_kept (l : Ledger) (entry : LedgerEntry) {m m' : Machine} {content : Content}
    {r : Except Error Unit} (hroot : Rooted m.files)
    (hread : m.files.read m.here l.path = .ok content)
    (hcorrupt : classify content.toBytes = .corrupt) (hrun : (l.append entry).run m = (r, m'))
    (hmoved : r = .ok () → (Machine.rename l.path l.asidePath m.tick).1 = .ok ()) :
    m'.files.read m'.here l.path = .ok content ∨
        m'.files.read m'.here l.asidePath = .ok content := by
  have hholding : Holding m.here l.path content m.files := holding_of_corrupt hroot hread hcorrupt
  have hcontents : l.contents m.files m.here = .ok [] := by
    rw [contents, hread, loaded, hcorrupt]; rfl
  have hload := load_tells l m ⟨rfl, rfl, hholding, hcontents⟩
  cases hr : (l.load.run m).1 with
  | error e =>
    have hfail : (l.append entry).run m = (.error e, m.tick) :=
      run_bind_error (Prod.ext hr (l.load_tick m))
    obtain ⟨-, rfl⟩ := Prod.mk.inj (hrun.symm.trans hfail)
    exact .inl hread
  | ok found =>
    rw [hr] at hload
    obtain rfl : found = .corrupt := by
      have hfound := hload.files.2
      rw [l.load_tick m, files_tick, hread, loaded, hcorrupt] at hfound
      exact (Except.ok.inj hfound).symm
    have hstore : (l.store [entry]).run (Machine.rename l.path l.asidePath m.tick).2 = (r, m') := by
      rw [← hrun, append, run_bind_ok (Prod.ext hr (l.load_tick m))]
      rfl
    have hmove : Ensures (Machine.Holds m.here m.circumstances (Holding m.here l.path content))
        (Machine.rename l.path l.asidePath)
        (Either (fun _ => Machine.Holds m.here m.circumstances (Holding m.here l.asidePath content))
            fun _ =>
          Machine.Holds m.here m.circumstances (Holding m.here l.path content)) :=
      step_either fun ht hu => ht.moved hu
    have hmoving := hmove m.tick ⟨rfl, rfl, hholding⟩
    cases hmoved' : (Machine.rename l.path l.asidePath m.tick).1 with
    | ok _ =>
      -- the file is aside, where the new ledger does not go
      rw [hmoved'] at hmoving
      have hkept := (store_keeps_aside hholding.aside_ne [entry]).run _ hmoving
      rw [hstore] at hkept
      exact .inr (hkept.here ▸ hkept.files.read)
    | error e =>
      -- the file is where it was, and the new ledger was not written
      rw [hmoved'] at hmoving
      have hkept := l.store_holding [entry] _ hmoving
      rw [hstore] at hkept
      cases r with
      | ok _ => cases hmoved'.symm.trans (hmoved rfl)
      | error e => exact .inl (hkept.here ▸ hkept.files.read)

/-- Bytes that are no ledger. -/
def broken : Content := .ofText "\x7bbad"

/-- A machine on which the ledger in the root is none. -/
def damaged : Machine := { bare with files := ⟨[(["ledger.json"], .file broken)]⟩ }

theorem rooted_damaged : Rooted damaged.files :=
  rooted_of_nodes (List.forall_mem_singleton.mpr (get?_root _))

theorem classify_broken : classify broken.toBytes = .corrupt := by
  have hnone : (parse? (Text.decodeWith Json.hole broken.toBytes)).isNone = true := by
    decide +kernel
  rw [classify, if_neg (by decide +kernel), Option.isNone_iff_eq_none.mp hnone]

/-- A file that can be moved is aside after a success. -/
theorem corrupt_ledger_kept_moved : ((plain.append (entryOf 15)).run damaged).1 = .ok () ∧
    (((plain.append (entryOf 15)).run damaged).2.files.read
      ((plain.append (entryOf 15)).run damaged).2.here plain.path =
        .ok broken ∨
      ((plain.append (entryOf 15)).run damaged).2.files.read
        ((plain.append (entryOf 15)).run damaged).2.here plain.asidePath =
        .ok broken) :=
  ⟨by decide +kernel, corrupt_ledger_kept plain (entryOf 15) rooted_damaged rfl
    classify_broken rfl fun _ => rfl⟩

/-- A machine on which there is a directory where the file should go as well. -/
def blocked : Machine :=
  { bare with files := ⟨[(["ledger.json"], .file broken), (["ledger.json.corrupt"], .directory)]⟩ }

theorem rooted_blocked : Rooted blocked.files :=
  rooted_of_nodes
    (List.forall_mem_cons.mpr ⟨get?_root _, List.forall_mem_singleton.mpr (get?_root _)⟩)

/-- **A file that cannot be moved is lost**: the addition succeeds, and its bytes are neither at the
path of the ledger nor aside. -/
theorem corrupt_ledger_lost : blocked.files.read blocked.here plain.path = .ok broken ∧
    classify broken.toBytes = .corrupt ∧ ((plain.append (entryOf 15)).run blocked).1 = .ok () ∧
    ¬(((plain.append (entryOf 15)).run blocked).2.files.read
      ((plain.append (entryOf 15)).run blocked).2.here plain.path =
        .ok broken ∨
      ((plain.append (entryOf 15)).run blocked).2.files.read
        ((plain.append (entryOf 15)).run blocked).2.here plain.asidePath =
        .ok broken) := by
  have hread : blocked.files.read blocked.here plain.path = .ok broken := rfl
  have hok : ((plain.append (entryOf 15)).run blocked).1 = .ok () := by decide +kernel
  have hcontents : plain.contents blocked.files blocked.here = .ok [] := by
    rw [contents, hread, loaded, classify_broken]
    rfl
  have hstate :=
    (append_tries (rooted_survives plain blocked.here blocked.circumstances) (entryOf 15)).of_ok
    ⟨rfl, rfl, rooted_blocked, hcontents⟩ hok
  refine ⟨hread, classify_broken, hok, not_or.mpr ⟨fun hpath => ?_, by decide +kernel⟩⟩
  -- the path holds a ledger now
  rw [hstate.here, hstate.files.2.read] at hpath
  have hlengths : ∀ x ∈ (entryOf 15).lengths, (Json.reread? x).isSome = true := by decide +kernel
  have hclassify :=
    @classify_render _ ([] ++ [entryOf 15]) (List.forall_mem_singleton.mpr (entryOf_valid 15))
    hstate.files.1 (List.forall_mem_singleton.mpr hlengths)
  rw [← Content.toBytes_ofBytes (Text.encode _), ← Content.ofText, Except.ok.inj hpath,
    classify_broken] at hclassify
  cases hclassify

end Slideshow.Ledger
