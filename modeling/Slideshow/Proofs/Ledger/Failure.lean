import Slideshow.Proofs.Ledger.Aside
import Slideshow.Proofs.Ledger.Refusal

/-!
# Additions that fail

An addition that fails, at whatever step (`append`: reading, serializing, making directories and the
temporary file, writing, syncing, renaming), is not seen by readers: the ledger lists what it
listed, or is refused as it was, and there is no file that was not there before, if the temporary
file can be removed. Directories that were made for the ledger stay, and so does a file that was
moved aside. A ledger that is missing has to be within reach for that: once the directories are
there, a path that goes up again, or on to a name that no file can have, is refused, or leads to
something else than before.

* `Ledger.Grown` is a tree with more directories, `Ledger.Left` what a failure leaves.
* `Ledger.append_leaves`: a failure at any step.

Headlines:
* **`Ledger.failed_append_unseen`**: nobody sees an addition that failed.
* **`Ledger.failed_append_seen`**: where a path goes up again, or the temporary file stays, a
  failure is seen.
-/

namespace Slideshow.Ledger

open FileTree Machine

variable {l : Ledger} {here : Location} {c : Circumstances} {t u b : FileTree}

/-! ## More directories -/

/-- A tree with some more directories, in which a ledger is found as before. -/
structure Grown (l : Ledger) (here : Location) (b u : FileTree) : Prop where
  rooted : Rooted u
  nodes : ∀ k, u.get? k = b.get? k ∨ b.get? k = none ∧ u.get? k = some .directory
  found : u.find here l.path = b.find here l.path

theorem Grown.self (hroot : Rooted t) : Grown l here t t := ⟨hroot, fun _ => .inl rfl, rfl⟩

/-- What was there still is. -/
theorem Grown.get? (h : Grown l here b t) {k : Location} {n : Node} (hk : b.get? k = some n) :
    t.get? k = some n := by
  rcases h.nodes k with heq | ⟨hnone, -⟩
  · rw [heq, hk]
  · rw [hnone] at hk
    cases hk

/-- **A ledger within reach is found as before when directories are made for it.** -/
theorem grown_endures (hreach : l.Reachable here b) : Endures l here (Grown l here b) where
  rooted h := h.rooted
  alike h halike :=
    ⟨h.rooted.alike halike, fun k => halike k ▸ h.nodes k, (halike.find here l.path).trans h.found⟩
  directories p hp t u h hu := by
    have hrooted := h.rooted.makeDirectory hu
    obtain ⟨-, hnone, rfl⟩ := makeDirectory_eq_ok hu
    have hother : ∀ k n, t.get? k = some n → k ≠ place here p := fun k n hk heq => by
      rw [heq, hnone] at hk
      cases hk
    refine ⟨hrooted, fun k => ?_, ?_⟩
    · by_cases hk : k = place here p
      · refine .inr ⟨?_, by rw [hk, get?_put_self t (ne_nil_of_get? (t := t) (by simp [hnone]))]⟩
        cases hb : b.get? k with
        | none => rfl
        | some n => exact absurd hk (hother k n (h.get? hb))
      · rw [get?_put_of_ne t hk]
        exact h.nodes k
    · by_cases hmissing : b.find here l.path = .error .missing
      · have hdirect : Direct here l.path t := (hreach hmissing).mono fun k _ hk => h.get? hk
        have hfind : t.find here l.path = .error .missing := h.found.trans hmissing
        rw [← h.found]
        refine hdirect.find_put_directory h.rooted hnone
          ((em (l.path = "")).imp_right fun hpath => ?_)
        exact above_ne h.rooted hdirect (isPath_of_missing hfind hpath)
          (by rw [hfind]; exact fun _ h => nomatch h) hp
      · refine find_mono (fun k n hk => ?_) hmissing
        rw [get?_put_of_ne t (hother k n (h.get? hk)), h.get? hk]

/-! ## What a failure leaves -/

/-- What is left of a file that is no ledger, when it may have been moved aside. -/
def Base (l : Ledger) (here : Location) (t b : FileTree) : Prop :=
  b = t ∨ l.loaded (t.read here l.path) = .ok .corrupt ∧ t.rename here l.path l.asidePath = .ok b

/-- What a failed addition leaves: more directories, and a file that is no ledger may have been
moved aside. -/
def Left (l : Ledger) (here : Location) (t u : FileTree) : Prop :=
  ∃ b, l.Base here t b ∧ Grown l here b u

theorem content_of_corrupt {x : Except OsError Content} (h : l.loaded x = .ok .corrupt) :
    ∃ content, x = .ok content ∧ classify content.toBytes = .corrupt := by
  unfold loaded at h
  split at h
  · exact ⟨_, rfl, Except.ok.inj h⟩
  · cases h
  · cases h

/-- A ledger that was moved aside is within reach, and so is one that was before. -/
theorem Base.reachable (hroot : Rooted t) (hreach : l.Reachable here t) (h : l.Base here t b) :
    l.Reachable here b := by
  rcases h with rfl | ⟨hcorrupt, hb⟩
  · exact hreach
  · obtain ⟨content, hread, hcontent⟩ := content_of_corrupt hcorrupt
    have hfound := (holding_of_corrupt hroot hread hcontent).found
    exact fun _ => (Direct.of_find hroot hfound (fun h => nomatch h)).mono fun k _ hk =>
      hroot.rename_directory hb hk

theorem left_endures (hroot : Rooted t) (hreach : l.Reachable here t) :
    Endures l here (Left l here t) where
  rooted := fun ⟨_, _, h⟩ => h.rooted
  alike := fun ⟨b, hb, h⟩ halike =>
    ⟨b, hb, (grown_endures (hb.reachable hroot hreach)).alike h halike⟩
  directories p hp _ _ := fun ⟨b, hb, h⟩ hu =>
    ⟨b, hb, (grown_endures (hb.reachable hroot hreach)).directories p hp h hu⟩

/-- What is loaded as no ledger is none. -/
theorem load_leaves (l : Ledger) (t : FileTree) : Tries (Machine.Holds here c (· = t)) l.load
    (fun r => Machine.Holds here c fun u => u = t ∧
        (r = .corrupt → l.loaded (t.read here l.path) = .ok .corrupt)) fun _ =>
      Machine.Holds here c (· = t) := by
  intro m hm
  show Either _ _ (l.loaded (Machine.read l.path m).1) (Machine.read l.path m).2
  unfold Machine.read look
  dsimp only
  split
  · next e _ =>
    by_cases he : e = .missing
    · rw [he]
      exact ⟨hm.here, hm.circumstances, hm.files, fun h => nomatch h⟩
    · rw [loaded_error he]
      exact hm.tick
  · change Either _ _ (l.loaded (m.files.read m.here l.path)) m.tick
    cases hloaded : l.loaded (m.files.read m.here l.path) with
    | error e => exact hm.tick
    | ok r =>
      refine ⟨hm.here, hm.circumstances, hm.files, fun hr => ?_⟩
      rw [← hm.files, ← hm.here, hloaded, hr]

/-- **A failure at any step** leaves the files as they were, but for directories and a file that was
moved aside. -/
theorem append_leaves (hroot : Rooted t) (hreach : l.Reachable here t)
    (hremoval : ∀ clock, c.removal clock = none) (entry : LedgerEntry) :
    Tries (Machine.Holds here c (· = t)) (l.append entry) (fun _ _ => True) fun _ =>
      Machine.Holds here c (Left l here t) := by
  have hself : Left l here t t := ⟨t, .inl rfl, .self hroot⟩
  have hstore : ∀ entries,
      Tries (Machine.Holds here c (Left l here t)) (l.store entries) (fun _ _ => True) fun _ =>
      Machine.Holds here c (Left l here t) := fun entries =>
    store_tries (fun h => h)
      ((replace_writes (left_endures hroot hreach) hremoval _).mono (fun _ h => h)
      (fun _ _ _ => trivial) fun _ _ h => h)
  refine ((load_leaves l t).bad_mono fun _ _ hm =>
    ⟨hm.here, hm.circumstances, hm.files ▸ hself⟩).bind fun r => ?_
  cases r with
  | entries es =>
    exact (hstore _).mono (fun _ hm => ⟨hm.here, hm.circumstances, hm.files.1 ▸ hself⟩)
      (fun _ _ h => h) fun _ _ h => h
  | corrupt =>
    have haside : Ensures (Machine.Holds here c fun u => u = t ∧
        (Loaded.corrupt = .corrupt → l.loaded (t.read here l.path) = .ok .corrupt)) l.moveAside
            fun _ =>
        Machine.Holds here c (Left l here t) := by
      refine .bind (step_either (J := Left l here t) fun {s u} hs hu => ?_) fun r =>
        .pure _ fun m hm => ?_
      · obtain ⟨rfl, hcorrupt⟩ := hs
        exact ⟨u, .inr ⟨hcorrupt rfl, hu⟩, .self (hroot.rename hu)⟩
      · cases r with
        | ok _ => exact hm
        | error e => exact ⟨hm.here, hm.circumstances, hm.files.1 ▸ hself⟩
    exact (Tries.lift haside).bind fun _ => hstore [entry]

/-! ## What readers see -/

namespace Left

variable (h : Left l here t u)
include h

/-- The ledger lists what it listed. -/
theorem contents (hroot : Rooted t) : l.contents u here = l.contents t here := by
  obtain ⟨b, hb, hu⟩ := h
  rw [Ledger.contents, FileTree.read, hu.found, ← FileTree.read, ← Ledger.contents]
  rcases hb with rfl | ⟨hcorrupt, hb⟩
  · rfl
  · rcases hroot.rename_source hb with hfind | hfind
    · rw [Ledger.contents, FileTree.read, hfind, ← FileTree.read, ← Ledger.contents]
    · rw [Ledger.contents, Ledger.contents, hcorrupt, FileTree.read, hfind]
      rfl

/-- What was a ledger, or could not be read, still is what it was. -/
theorem read (hcorrupt : l.loaded (t.read here l.path) ≠ .ok .corrupt) :
    u.read here l.path = t.read here l.path := by
  obtain ⟨b, hb, hu⟩ := h
  obtain rfl : b = t := hb.resolve_right fun hb => hcorrupt hb.1
  rw [FileTree.read, hu.found, FileTree.read]

/-- Every file was there before, in its place or as the file that is no ledger. -/
theorem file {k : Location} {n : Node} (hk : u.get? k = some n) (hn : n ≠ .directory) :
    t.get? k = some n ∨
    l.loaded (t.read here l.path) = .ok .corrupt ∧ k = place here l.asidePath ∧
        t.get? (place here l.path) = some n := by
  obtain ⟨b, hb, hu⟩ := h
  have hbase : b.get? k = some n := by
    rcases hu.nodes k with heq | ⟨-, hdirectory⟩
    · rw [← heq, hk]
    · exact absurd (Option.some.inj (hk.symm.trans hdirectory)) hn
  rcases hb with rfl | ⟨hcorrupt, hb⟩
  · exact .inl hbase
  · obtain ⟨n', hfind, -, -, htarget, -, rfl⟩ := rename_eq_ok hb
    by_cases haside : k = place here l.asidePath
    · rw [haside, get?_put_self _ (ne_nil_of_get? htarget)] at hbase
      exact .inr ⟨hcorrupt, haside, Option.some.inj hbase ▸ (find_place hfind).2⟩
    · rw [get?_put_of_ne _ haside] at hbase
      exact .inl (get?_of_erase hbase)

end Left

/-- What a ledger lists, also when reading is refused. -/
theorem list_run_refused (l : Ledger) {m : Machine} {e : OsError}
    (h : m.circumstances.refusal (m.clock + 1) = some e) :
    (l.list.run m).1 = (l.loaded (.error e)).map Loaded.readable := by
  have hrefusal : m.tick.circumstances.refusal m.tick.clock = some e := h
  have hread : Machine.read l.path m = (.error e, m.tick) := by
    unfold Machine.read look
    dsimp only
    rw [hrefusal]
  have hload : l.load.run m = (l.loaded (.error e), m.tick) := by
    show (l.loaded (Machine.read l.path m).1, (Machine.read l.path m).2) = _
    rw [hread]
  rw [list]
  cases hloaded : l.loaded (.error e) with
  | error e => rw [run_bind_error (hloaded ▸ hload)]; rfl
  | ok r => rw [run_bind_ok (hloaded ▸ hload)]; rfl

/-- **Nobody sees an addition that failed**, at whatever step that was, if the temporary file can be
removed: the ledger lists what it listed, if reading is refused now as it was before; every file was
there before, but for one that was moved aside; and what can be read as a ledger has not changed. -/
theorem failed_append_unseen (l : Ledger) (entry : LedgerEntry) {m m' : Machine} {e : Error}
    (hroot : Rooted m.files) (hreach : l.Reachable m.here m.files)
    (hremoval : ∀ clock, m.circumstances.removal clock = none)
    (hfail : (l.append entry).run m = (.error e, m')) :
    (m'.circumstances.refusal (m'.clock + 1) = m.circumstances.refusal (m.clock + 1) →
      (l.list.run m').1 = (l.list.run m).1) ∧
    (∀ k n, n ≠ .directory → m'.files.get? k = some n → m.files.get? k = some n ∨
      l.loaded (m.files.read m.here l.path) = .ok .corrupt ∧ k = place m.here l.asidePath ∧
        m.files.get? (place m.here l.path) = some n) ∧
    (l.loaded (m.files.read m.here l.path) ≠ .ok .corrupt →
      m'.files.read m'.here l.path = m.files.read m.here l.path) := by
  have hstate := append_leaves hroot hreach hremoval entry m ⟨rfl, rfl, rfl⟩
  rw [show (l.append entry).run m = _ from hfail] at hstate
  have hleft : Machine.Holds m.here m.circumstances (Left l m.here m.files) m' := hstate
  refine ⟨fun hrefusal => ?_, fun k n hn hk => hleft.files.file hk hn, fun hcorrupt =>
    hleft.here ▸ hleft.files.read hcorrupt⟩
  cases h : m.circumstances.refusal (m.clock + 1) with
  | some e => rw [l.list_run_refused h, l.list_run_refused (hrefusal.trans h)]
  | none => rw [l.list_run h, l.list_run (hrefusal.trans h), hleft.here, hleft.files.contents hroot]

/-- Circumstances in which the disk is full as the temporary file is written. -/
def fullDisk : Circumstances :=
  { bare.circumstances with
    refusal := fun clock => if clock = 4 then some (.other "No space left on device (os error 28)")
      else none
    truthful := fun clock => by split <;> simp
    begun := fun clock => if clock = 4 then some 7 else none }

/-- A machine with a ledger in which there is an entry, and a full disk. -/
def full : Machine := { stocked with circumstances := fullDisk }

/-- An addition that leaves seven bytes in its file fails; they are removed, and the ledger is what
it was. -/
theorem failed_append_unseen_full : ∃ e m', (plain.append (entryOf 15)).run full = (.error e, m') ∧
    (plain.list.run m').1 = (plain.list.run full).1 ∧
    (∀ k n, n ≠ .directory → m'.files.get? k = some n → full.files.get? k = some n ∨
      plain.loaded (full.files.read full.here plain.path) = .ok .corrupt ∧
        k = place full.here plain.asidePath ∧
        full.files.get? (place full.here plain.path) = some n) ∧
    (plain.loaded (full.files.read full.here plain.path) ≠ .ok .corrupt →
      m'.files.read m'.here plain.path = full.files.read full.here plain.path) := by
  have hfail : ((plain.store ([entryOf 20] ++ [entryOf 15])).run full.tick).1 =
      .error (.system "write ledger /ledger.json" "No space left on device (os error 28)") := rfl
  have hread : ((plain.store ([entryOf 20] ++ [entryOf 15])).run full.tick).2.circumstances.refusal
      (((plain.store ([entryOf 20] ++ [entryOf 15])).run full.tick).2.clock + 1) = none := rfl
  have hallowed : full.circumstances.refusal (full.clock + 1) = none := rfl
  have hroot : Rooted full.files := rooted_holding _
  have hrun : (plain.append (entryOf 15)).run full = _ :=
    (plain.append_run hallowed (List.cons_ne_nil _ _) contents_stocked (entryOf 15)).trans
      (Prod.ext hfail rfl)
  obtain ⟨hlist, hfiles, hbytes⟩ :=
    failed_append_unseen plain (entryOf 15) hroot (reachable_plain _ _) (fun _ => rfl) hrun
  exact ⟨_, _, hrun, hlist (hread.trans hallowed.symm), hfiles, hbytes⟩

/-- A machine without files and with a full disk, on which nothing is written and nothing can be
removed. -/
def stuck : Machine :=
  { bare with circumstances :=
    { fullDisk with begun := fun _ => none, removal := fun _ => some .denied } }

/-- Before the addition there is no file with the first name that is drawn, … -/
theorem stuck_before : stuck.files.read stuck.here "/.tmp000000" = .error .missing := rfl

theorem stuck_append : ((plain.append (entryOf 15)).run stuck).1 =
    .error (.system "write ledger /ledger.json" "No space left on device (os error 28)") := by
  rfl

/-- … and then it stays. -/
theorem stuck_after : ((plain.append (entryOf 15)).run stuck).2.files.read
    ((plain.append (entryOf 15)).run stuck).2.here "/.tmp000000" = .ok .empty := by decide +kernel

/-- **Where the path goes up again a failure is seen**: the directory is made, and the ledger, which
was missing, cannot be read any more. **And so it is where the temporary file cannot be removed**:
it stays. -/
theorem failed_append_seen : (∃ e m', (upward.list.run bare).1 = .ok [] ∧
    (upward.append (entryOf 15)).run (upward.list.run bare).2 = (.error e, m') ∧
    (upward.list.run m').1 = .error (upward.unreadable .isDirectory)) ∧
    ∃ e m', stuck.files.read stuck.here "/.tmp000000" = .error .missing ∧
      (plain.append (entryOf 15)).run stuck = (.error e, m') ∧
      m'.files.read m'.here "/.tmp000000" = .ok .empty := by
  rw [upward.list_tick]
  exact ⟨⟨_, ((upward.append (entryOf 15)).run bare.tick).2, upward_before,
    Prod.ext upward_append rfl, upward_after⟩,
    _, _, stuck_before, Prod.ext stuck_append rfl, stuck_after⟩

end Slideshow.Ledger
