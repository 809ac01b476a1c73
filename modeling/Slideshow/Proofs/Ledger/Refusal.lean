import Slideshow.Proofs.Ledger.Store

/-!
# Entries that are refused

An entry that could not be added has changed nothing: the ledger lists what it listed. That takes a
ledger whose name is not the one that is drawn for its temporary file, and whose path is not above
what has to be made for it.

* `Ledger.Tells` is what a ledger holds that can be reached. `Ledger.Reachable`: where a ledger is
  missing, its path goes only down from the directories that are there.
* `Ledger.Apart`: no name that is drawn for a temporary file is the ledger's own.

Headlines:
* **`Tells.off_drawn`**: a file with another name in the ledger's directory is off its path.
* **`tells_survives`**: what a ledger holds survives everything that is done before it is replaced.
-/

namespace Slideshow.Ledger

open FileTree Machine

/-- What a ledger holds whose path is direct. -/
def Tells (l : Ledger) (here : Location) (entries : List LedgerEntry) (t : FileTree) : Prop :=
  ∃ x, Reads here l.path x t ∧ (l.loaded x).map Loaded.readable = .ok entries

variable {l : Ledger} {here : Location} {entries : List LedgerEntry} {t : FileTree}

theorem Tells.contents (h : l.Tells here entries t) : l.contents t here = .ok entries := by
  obtain ⟨x, hreads, hx⟩ := h
  rw [Ledger.contents, hreads.read, hx]

theorem tells_of_contents (hrooted : Rooted t) (hdirect : Direct here l.path t)
    (h : l.contents t here = .ok entries) :
    l.Tells here entries t := ⟨_, ⟨hrooted, hdirect, rfl⟩, h⟩

/-- **What a ledger holds stays** while directories are made elsewhere and other changes are off its
path. -/
theorem tells_kept (l : Ledger) (here : Location) (entries : List LedgerEntry) :
    Kept here (Off here l.path) (fun p => l.path = "" ∨ p ≠ place here l.path) (Off here l.path)
      (l.Tells here entries) where
  write := fun ⟨x, hreads, hx⟩ hoff hu => ⟨x, (reads_kept here l.path x).write hreads hoff hu, hx⟩
  makeDirectory := fun ⟨x, hreads, hx⟩ hne hu =>
    ⟨x, (reads_kept here l.path x).makeDirectory hreads hne hu, hx⟩
  erase := fun ⟨x, hreads, hx⟩ hoff => ⟨x, (reads_kept here l.path x).erase hreads hoff, hx⟩

/-- A file that cannot be read is no ledger, unless it is missing. -/
theorem loaded_error {e : OsError} (he : e ≠ .missing) :
    l.loaded (.error e) = .error (l.unreadable e) := by
  cases e with
  | missing => exact absurd rfl he
  | _ => rfl

theorem Tells.read_ne (h : l.Tells here entries t) {e : OsError} (he : e ≠ .missing) :
    t.read here l.path ≠ .error e := by
  intro hread
  have hcontents := h.contents
  rw [Ledger.contents, hread, loaded_error he] at hcontents
  cases hcontents

theorem Tells.find_ne (h : l.Tells here entries t) (k : Location) :
    t.find here l.path ≠ .ok (k, .directory) :=
  fun hfind => h.read_ne (e := .isDirectory) (by rintro ⟨⟩) (by rw [FileTree.read, hfind])

theorem Tells.isPath (h : l.Tells here entries t) (hpath : l.path ≠ "") : IsPath l.path where
  noNul hnul := h.read_ne (e := .nulInPath) (by rintro ⟨⟩) (by
    rw [FileTree.read, FileTree.find, locate, if_pos hnul])
  notEmpty hempty := hpath (by simpa using hempty)
  notLong hlong := by
    by_cases hnul : l.path.toList.contains '\x00' = true
    · exact h.read_ne (e := .nulInPath) (by rintro ⟨⟩)
        (by rw [FileTree.read, FileTree.find, locate, if_pos hnul])
    · exact h.read_ne (e := .nameTooLong) (by rintro ⟨⟩) (by
        rw [FileTree.read, FileTree.find, locate, if_neg hnul, if_neg (by simpa using hpath),
          if_pos hlong])

/-- Where a ledger is missing, its path goes only down from the directories that are there. -/
def Reachable (l : Ledger) (here : Location) (t : FileTree) : Prop :=
  t.find here l.path = .error .missing → Direct here l.path t

/-- A ledger within reach that says something tells it. -/
theorem tells_of_reachable (hrooted : Rooted t) (hreach : l.Reachable here t)
    (h : l.contents t here = .ok entries) :
    l.Tells here entries t := by
  have hread : ∀ e, e ≠ .missing → t.read here l.path ≠ .error e := fun e he hread => by
    rw [Ledger.contents, hread, loaded_error he] at h
    cases h
  refine tells_of_contents hrooted ?_ h
  cases hfind : t.find here l.path with
  | error e =>
    have he : t.read here l.path = .error e := by rw [FileTree.read, hfind]
    by_cases hmissing : e = .missing
    · exact hreach (by rw [hfind, hmissing])
    · exact absurd he (hread e hmissing)
  | ok found =>
    obtain ⟨k, n⟩ := found
    refine Direct.of_find hrooted hfind fun hn => ?_
    exact hread .isDirectory (by rintro ⟨⟩) (by rw [FileTree.read, hfind, hn])

/-- Nothing above a ledger that can be reached, and is no directory, leads to it. -/
theorem above_ne (hrooted : Rooted t) (hdirect : Direct here l.path t) (hpath : IsPath l.path)
    (hfind : ∀ k, t.find here l.path ≠ .ok (k, .directory)) {p : String}
    (hp : Upward l.directory p) :
    place here p ≠ place here l.path := by
  have hbelow : ∀ {d q}, Path.parent? l.path = some d → Upward d q →
      place here q ≠ place here l.path :=
    hdirect.place_ne hrooted hpath hfind
  unfold directory at hp
  split at hp
  · next d hd =>
    split at hp
    · next hempty =>
      rw [hp.place_dot]
      exact hbelow hd (by rw [show d = "" by simpa using hempty]; exact .self)
    · exact hbelow hd hp
  · next hnone =>
    have hplace := hdirect.get?_place_ne hrooted hpath hfind
    rw [place_of_no_parent hnone fun hempty => hpath.notEmpty (by simp [hempty])] at hplace
    exact absurd (get?_root t) hplace

/-- Nothing above a ledger leads to it. -/
theorem Tells.above (h : l.Tells here entries t) {p : String} (hp : Upward l.directory p) :
    l.path = "" ∨ place here p ≠ place here l.path := by
  by_cases hpath : l.path = ""
  · exact .inl hpath
  · right
    obtain ⟨x, hreads, -⟩ := id h
    exact above_ne hreads.rooted hreads.direct (h.isPath hpath) h.find_ne hp

/-- **A file that is no ledger can be moved aside**: nothing was listed, and nothing is. -/
theorem Tells.moveAside {u : FileTree} (h : l.Tells here entries t)
    (hcorrupt : l.loaded (t.read here l.path) = .ok .corrupt)
    (hu : t.rename here l.path l.asidePath = .ok u) : l.Tells here entries u := by
  obtain ⟨x, ⟨hrooted, hdirect, -⟩, -⟩ := id h
  have hentries := h.contents
  rw [Ledger.contents, hcorrupt] at hentries
  obtain rfl : [] = entries := Except.ok.inj hentries
  refine tells_of_contents (hrooted.rename hu)
    (hdirect.mono fun k _ hk => hrooted.rename_directory hu hk) ?_
  rw [Ledger.contents]
  rcases hrooted.rename_source hu with hfind | hfind
  · rw [FileTree.read, hfind, ← FileTree.read, hcorrupt]
    rfl
  · rw [FileTree.read, hfind]
    rfl

/-- No name that is drawn for a temporary file of a ledger is its own. -/
def Apart (l : Ledger) (here : Location) (c : Circumstances) : Prop :=
  ∀ path, DrawnIn here c l.directory ".tmp" path → place here path ≠ place here l.path

/-- A path that does not find a directory is as long as one of a name drawn beside it. -/
theorem length_place_drawn {c : Circumstances} {path : String} (hhere : here.all isName = true)
    (hrooted : Rooted t) (hdirect : Direct here l.path t) (hpath : IsPath l.path)
    (hfind : ∀ k, t.find here l.path ≠ .ok (k, .directory))
    (hdrawn : DrawnIn here c l.directory ".tmp" path) :
    (place here path).length = (place here l.path).length := by
  obtain ⟨n, hplace⟩ := place_of_drawnIn (by decide) hhere hdrawn
  cases hparent : Path.parent? l.path with
  | none =>
    have hnone := hdirect.get?_place_ne hrooted hpath hfind
    rw [place_of_no_parent hparent fun hempty => hpath.notEmpty (by simp [hempty])] at hnone
    exact absurd (get?_root t) hnone
  | some d =>
    obtain ⟨name, hname⟩ := hdirect.place_eq_concat hrooted hpath hfind hparent
    have hdirectory : place here l.directory = place here d := by
      rw [directory, hparent]
      dsimp only
      split
      · next hempty => rw [show d = "" by simpa using hempty, Upward.place_dot .self]
      · rfl
    rw [hplace, hname, hdirectory, List.length_append, List.length_append]
    rfl

/-- **A file with another name in the ledger's directory is off its path.** -/
theorem Tells.off_drawn {c : Circumstances} {path : String} (h : l.Tells here entries t)
    (hhere : here.all isName = true) (hapart : l.Apart here c)
    (hdrawn : DrawnIn here c l.directory ".tmp" path)
    (hfile : t.get? (place here path) ≠ some .directory) : Off here l.path (place here path) := by
  obtain ⟨x, hreads, -⟩ := id h
  by_cases hpath : l.path = ""
  · -- such a ledger is where the current directory is
    obtain ⟨up, down, k, hfollowed, hwalk, hk, -, -⟩ := hreads.direct
    have hnil : followed l.path = [] := by rw [hpath]; rfl
    obtain ⟨rfl, rfl⟩ := List.append_eq_nil_iff.mp (hfollowed.symm.trans hnil)
    have hstart : t.get? (start here l.path) = some .directory := by
      rw [(walk_eq_ok_iff.mp hwalk).1] at hk
      exact hk
    intro k hmem hprefix
    obtain rfl : k = start here l.path := by
      rw [way, hnil, place, show names l.path = [] by rw [hpath]; rfl] at hmem
      simpa [FileTree.resolve, stations] using hmem
    by_cases heq : start here l.path = place here path
    · exact hfile (heq ▸ hstart)
    · rw [hreads.rooted.below hfile hprefix heq] at hstart
      cases hstart
  · exact hreads.direct.off_beside hreads.rooted hfile
      (length_place_drawn hhere hreads.rooted hreads.direct (h.isPath hpath) h.find_ne hdrawn)
        (hapart path hdrawn)

/-- **What a ledger holds survives** everything that is done until it is replaced, if temporary
files have other names. -/
theorem tells_survives (l : Ledger) {here : Location} {c : Circumstances}
    (entries : List LedgerEntry) (hhere : here.all isName = true) (hapart : l.Apart here c) :
    Survives l here c (l.Tells here entries) where
  rooted := fun ⟨_, hreads, _⟩ => hreads.rooted
  directories _ hp _ _ h hu := (tells_kept l here entries).makeDirectory h (h.above hp) hu
  temporary hpath h hu :=
    (tells_kept l here entries).write h (h.off_drawn hhere hapart hpath (write_eq_ok hu).2.1) hu
  discarded hpath h hu := by
    obtain ⟨hfile, rfl⟩ := removeFile_eq_ok hu
    exact (tells_kept l here entries).erase h (h.off_drawn hhere hapart hpath hfile)
  aside h hcorrupt hu := h.moveAside hcorrupt hu

/-- A ledger in the root is within reach. -/
theorem reachable_plain (here : Location) (t : FileTree) : plain.Reachable here t := fun _ => by
  have hshort : Short ["ledger.json"] := List.forall_mem_singleton.mpr (by decide)
  exact ⟨[], ["ledger.json"], [], rfl, rfl, get?_root t, by decide, hshort⟩

/-- A ledger whose path goes up again from a directory. -/
def upward : Ledger := ⟨"/nope/.."⟩

/-- Without the directory the ledger is missing, … -/
theorem upward_before : (upward.list.run bare).1 = .ok [] := by
  have hread : bare.files.read bare.here upward.path = .error .missing := rfl
  rw [upward.list_run (by rfl), contents, hread]
  rfl

/-- … an addition makes the directory and fails, … -/
theorem upward_append : ((upward.append (entryOf 15)).run bare.tick).1 =
    .error (.system ("write ledger " ++ upward.path) OsError.busy.message) := by decide +kernel

theorem upward_refusal : ((upward.append (entryOf 15)).run bare.tick).2.circumstances.refusal
    (((upward.append (entryOf 15)).run bare.tick).2.clock + 1) = none := by decide +kernel

/-- … and with the directory the ledger is one itself. -/
theorem upward_after : (upward.list.run ((upward.append (entryOf 15)).run bare.tick).2).1 =
    .error (upward.unreadable .isDirectory) := by
  have hread : ((upward.append (entryOf 15)).run bare.tick).2.files.read
    ((upward.append (entryOf 15)).run bare.tick).2.here upward.path =
      .error .isDirectory := by decide +kernel
  rw [upward.list_run upward_refusal, contents, hread]
  rfl

end Slideshow.Ledger
