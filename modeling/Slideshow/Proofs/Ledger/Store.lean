import Slideshow.Proofs.Ledger.Entry
import Slideshow.Proofs.Ledger.Steps

/-!
# Entries that stay

An entry is added by writing the whole list anew, so that all that was added before goes through the
reader and the writer each time. As long as every length is read back, nothing is lost on the way: a
ledger holds what it held and the entries that were added, in the order in which they were.

* `Ledger.Says` is what a ledger holds, in a tree in which everything stands in a directory.
* `append_tries`, `append_adds`, `appends_say`: one entry (`append`), and any number of them.

Headlines:
* **`Ledger.appended_entries_stay`**: after any number of additions the ledger lists what it listed
  and what was added.
* **`Ledger.appended_entry_drifts`**: an entry with a length that is not read back is listed with
  another one.
-/

namespace Slideshow.Ledger

open FileTree Machine

/-- What a ledger holds, in a tree in which everything stands in a directory. -/
def Says (l : Ledger) (here : Location) (entries : List LedgerEntry) (t : FileTree) : Prop :=
  Rooted t ∧ l.contents t here = .ok entries

section
variable {l : Ledger} {here : Location} {entries : List LedgerEntry} {t : FileTree}
  (hvalid : ∀ e ∈ entries, e.Valid) (hlegible : ∀ e ∈ entries, e.Legible)
include hvalid hlegible

/-- What a file with entries says. -/
theorem contents_of_read (htext : ∀ e ∈ entries, e.HasText)
    (h : t.read here l.path = .ok (.ofText (render entries))) :
    l.contents t here = .ok (entries.map LedgerEntry.readBack) := by
  rw [contents, h, loaded, Content.ofText, Content.toBytes_ofBytes,
    classify_render hvalid htext hlegible]
  rfl

theorem Stored.readBack (h : l.Stored here entries t) :
    l.Says here (entries.map LedgerEntry.readBack) t :=
  ⟨h.2.rooted, contents_of_read hvalid hlegible h.1 h.2.read⟩

end

section
variable {l : Ledger} {here : Location} {c : Circumstances} {I : FileTree → Prop}
    (hI : Survives l here c I)
include hI

/-- **An entry is added behind those that are there**, or nothing has changed for them. -/
theorem append_tries {entries : List LedgerEntry} (entry : LedgerEntry) :
    Tries (Machine.Holds here c fun t => I t ∧ l.contents t here = .ok entries) (l.append entry)
      (fun _ => Machine.Holds here c (l.Stored here (entries ++ [entry]))) fun _ =>
        Machine.Holds here c I :=
  l.alone_appending entry ▸ (appending_tried hI entry).tries

/-- With all lengths read back, the ledger says what was there and the entry. -/
theorem append_adds {entries : List LedgerEntry} {entry : LedgerEntry}
    (hvalid : ∀ e ∈ entries ++ [entry], e.Valid) (hlegible : ∀ e ∈ entries ++ [entry], e.Legible) :
    Tries (Machine.Holds here c fun t => I t ∧ l.contents t here = .ok entries) (l.append entry)
      (fun _ => Machine.Holds here c (l.Says here ((entries ++ [entry]).map LedgerEntry.readBack)))
      fun _ => Machine.Holds here c I :=
  (append_tries hI entry).mono (fun _ h => h)
    (fun _ _ hm => ⟨hm.here, hm.circumstances, hm.files.readBack hvalid hlegible⟩) fun _ _ h => h

end

/-- Any number of entries are added in their order, if all lengths are read back. -/
theorem appends_say (l : Ledger) {here : Location} {c : Circumstances} {added : List LedgerEntry} :
    ∀ {entries : List LedgerEntry}, (∀ e ∈ entries ++ added, e.Valid) →
      (∀ e ∈ entries ++ added, e.Kept) →
    Tries (Machine.Holds here c (l.Says here entries)) (added.forM l.append)
      (fun _ => Machine.Holds here c (l.Says here (entries ++ added))) fun _ =>
        Machine.Holds here c Rooted := by
  induction added with
  | nil =>
    intro entries _ _
    rw [List.append_nil]
    exact .pure _ fun _ h => h
  | cons entry added ih =>
    intro entries hvalid hkept
    have hsplit : entries ++ entry :: added = (entries ++ [entry]) ++ added := by simp
    rw [hsplit] at hvalid hkept ⊢
    have hfirst : ∀ e ∈ entries ++ [entry], e.Kept :=
      fun e he => hkept e (List.mem_append_left _ he)
    have hstep :=
      append_adds (rooted_survives l here c)
          (fun e he => hvalid e (List.mem_append_left _ he)) fun e he =>
      (hfirst e he).legible
    rw [map_readBack hfirst] at hstep
    exact hstep.bind fun _ => ih hvalid hkept

/-! ## What is listed -/

theorem load_tick (l : Ledger) (m : Machine) : (l.load.run m).2 = m.tick := by
  show (Machine.read l.path m).2 = m.tick
  unfold Machine.read look
  dsimp only
  split <;> rfl

/-- Reading a list takes one step. -/
theorem list_tick (l : Ledger) (m : Machine) : (l.list.run m).2 = m.tick := by
  rw [list]
  cases h : (l.load.run m).1 with
  | error e =>
    rw [run_bind_error (Prod.ext h (l.load_tick m))]
    rfl
  | ok r =>
    rw [run_bind_ok (Prod.ext h (l.load_tick m))]
    rfl

section
variable (l : Ledger) {m : Machine} (h : m.circumstances.refusal (m.clock + 1) = none)
include h

theorem load_run : l.load.run m = (l.loaded (m.files.read m.here l.path), m.tick) := by
  have hrefusal : m.tick.circumstances.refusal m.tick.clock = none := h
  have hread : Machine.read l.path m = (m.files.read m.here l.path, m.tick) := by
    unfold Machine.read Machine.look
    dsimp only
    rw [hrefusal]
    rfl
  show (l.loaded (Machine.read l.path m).1, (Machine.read l.path m).2) = _
  rw [hread]

/-- Unless reading is refused, the list of a ledger is what its file says. -/
theorem list_run : l.list.run m = (l.contents m.files m.here, m.tick) := by
  have hload := l.load_run h
  rw [list, contents]
  cases hloaded : l.loaded (m.files.read m.here l.path) with
  | error e => exact run_bind_error (hloaded ▸ hload)
  | ok r => exact run_bind_ok (hloaded ▸ hload)

/-- What is loaded of a ledger with entries are these. -/
theorem load_entries {entries : List LedgerEntry} (hsome : entries ≠ [])
    (hcontents : l.contents m.files m.here = .ok entries) :
    l.load.run m = (.ok (.entries entries), m.tick) := by
  have hload := l.load_run h
  rw [contents] at hcontents
  cases hloaded : l.loaded (m.files.read m.here l.path) with
  | error e =>
    rw [hloaded] at hcontents
    cases hcontents
  | ok found =>
    rw [hloaded] at hcontents hload
    cases found with
    | entries es =>
      obtain rfl : es = entries := Except.ok.inj hcontents
      exact hload
    | corrupt => exact absurd (Except.ok.inj hcontents).symm hsome

/-- An entry goes to a ledger with entries by storing one more. -/
theorem append_run {entries : List LedgerEntry} (hsome : entries ≠ [])
    (hcontents : l.contents m.files m.here = .ok entries) (entry : LedgerEntry) :
    (l.append entry).run m = (l.store (entries ++ [entry])).run m.tick := by
  rw [append, run_bind_ok (l.load_entries h hsome hcontents)]

/-- The first entry of a job among some, or that there is none. -/
def first (id : JobId) (entries : List LedgerEntry) : Except Error LedgerEntry :=
  match entries.find? (·.id == id) with
  | some e => .ok e
  | none => .error (.notFound "ledger entry" id.text)

/-- Unless reading is refused, the first entry of a job is found in the list. -/
theorem find_run (id : JobId) :
    (l.find id).run m = ((l.contents m.files m.here).bind (first id), m.tick) := by
  have hlist := l.list_run h
  rw [find]
  cases hcontents : l.contents m.files m.here with
  | error e => exact run_bind_error (hcontents ▸ hlist)
  | ok entries =>
    rw [run_bind_ok (hcontents ▸ hlist)]
    show _ = (first id entries, m.tick)
    unfold first
    cases entries.find? (·.id == id) <;> rfl

end

/-! ## Additions -/

/-- What could be read keeps the bounds. -/
theorem valid_of_contents {l : Ledger} {t : FileTree} {here : Location} {entries : List LedgerEntry}
    (h : l.contents t here = .ok entries) : ∀ e ∈ entries, e.Valid := by
  unfold contents at h
  cases hloaded : l.loaded (t.read here l.path) with
  | error e =>
    rw [hloaded] at h
    cases h
  | ok r =>
    rw [hloaded] at h
    obtain rfl : r.readable = entries := Except.ok.inj h
    unfold loaded at hloaded
    split at hloaded
    · cases hloaded
      exact valid_of_readable
    · cases hloaded
      exact fun e he => absurd he List.not_mem_nil
    · cases hloaded

/-- **What is added stays.** A ledger that can be read lists, after any number of additions, what it
listed before and behind it what was added in that order; and it finds the first of these entries of
a job. The lengths of all these entries have to be read back. -/
theorem appended_entries_stay (l : Ledger) {m m' : Machine} {before added : List LedgerEntry}
    (hroot : Rooted m.files) (hbefore : l.contents m.files m.here = .ok before)
    (hvalid : ∀ e ∈ added, e.Valid) (hkept : ∀ e ∈ before ++ added, e.Kept)
    (hok : (added.forM l.append).run m = (.ok (), m'))
    (hread : m'.circumstances.refusal (m'.clock + 1) = none) :
    (l.list.run m').1 = .ok (before ++ added) ∧
      ∀ id, ((l.find id).run m').1 = first id (before ++ added) := by
  have hall : ∀ e ∈ before ++ added, e.Valid := fun e he =>
    (List.mem_append.mp he).elim (valid_of_contents hbefore e) (hvalid e)
  have hstate := appends_say l hall hkept m ⟨rfl, rfl, hroot, hbefore⟩
  rw [show (added.forM l.append).run m = _ from hok] at hstate
  have hcontents : l.contents m'.files m'.here = .ok (before ++ added) := by
    rw [hstate.here]
    exact hstate.files.2
  rw [l.list_run hread, hcontents]
  refine ⟨rfl, fun id => ?_⟩
  rw [l.find_run hread, hcontents]
  rfl

/-- A machine without files. -/
def bare : Machine where
  circumstances := { draw := fun _ _ => 0, jobId := fun _ => ⟨0⟩, time := fun _ => ⟨0, 0⟩ }

/-- A ledger in the root. -/
def plain : Ledger := ⟨"/ledger.json"⟩

/-- An entry of a video whose images are shown for equally long. -/
def entryOf (seconds : Float) : LedgerEntry where
  id := ⟨1⟩
  time := ⟨0, 0⟩
  images := [⟨"a.jpg", 10⟩, ⟨"b.jpg", 20⟩]
  audio := ⟨["voice.mp3"], 100, 30⟩
  effects := .plain 0.8
  outputFilename := "o.mp4"
  outputPath := .text "/o.mp4"
  processingMs := 5
  settings := ⟨1920, 1080, 30, "libx264", 23, "medium", [seconds, seconds], "probe"⟩

theorem entryOf_valid (seconds : Float) : (entryOf seconds).Valid where
  time := by
    show Timestamp.Valid ⟨0, 0⟩
    exact ⟨by decide, .inl (by decide)⟩
  images := by simp [entryOf, ImageSummary.Valid]
  audio := by simp [entryOf, AudioSummary.Valid]
  processingMs := by simp [entryOf]
  settings := ⟨by simp [entryOf], by simp [entryOf], by simp [entryOf], by simp [entryOf]⟩

theorem kept_of_lengths {seconds : Float} (h : ∀ x ∈ [30, 0.8, seconds, seconds], Json.Kept x) :
    (entryOf seconds).Kept := h

theorem contents_bare : plain.contents bare.files bare.here = .ok [] := by
  have hmissing : bare.files.read bare.here plain.path = .error .missing := rfl
  rw [contents, hmissing]
  rfl

theorem rooted_bare : Rooted bare.files := by
  intro l n hl h
  simp [get?, bare, hl] at h

/-- A machine with a ledger in the root. -/
def holding (content : Content) : Machine :=
  { bare with files := ⟨[(["ledger.json"], .file content)]⟩ }

theorem read_holding (content : Content) :
    (holding content).files.read (holding content).here plain.path = .ok content := rfl

theorem rooted_holding (content : Content) : Rooted (holding content).files :=
  rooted_of_nodes (List.forall_mem_singleton.mpr (get?_root _))

/-- A machine with a ledger in which there is an entry. -/
def stocked : Machine := holding (.ofText (render [entryOf 20]))

theorem kept_stocked : ∀ e ∈ [entryOf 20], e.Kept :=
  List.forall_mem_singleton.mpr (kept_of_lengths (by decide +kernel))

theorem contents_stocked : plain.contents stocked.files stocked.here = .ok [entryOf 20] := by
  have hcontents := @contents_of_read plain stocked.here [entryOf 20] stocked.files
    (List.forall_mem_singleton.mpr (entryOf_valid 20)) (fun e he => (kept_stocked e he).legible)
    (List.forall_mem_singleton.mpr rfl) (read_holding _)
  rwa [map_readBack kept_stocked] at hcontents

section
variable {l : Ledger} {m : Machine} {before : List LedgerEntry} (hsome : before ≠ [])
  (hallowed : ∀ clock, m.circumstances.refusal clock = none) (hroot : Rooted m.files)
  (hbefore : l.contents m.files m.here = .ok before)
include hsome hallowed hroot hbefore

/-- An addition to a ledger with entries succeeds when storing one more does, and then the ledger
says so. -/
theorem append_ok {entry : LedgerEntry} (hvalid : entry.Valid)
    (hkept : ∀ e ∈ before ++ [entry], e.Kept)
    (hok : ((l.store (before ++ [entry])).run m.tick).1 = .ok ()) :
    (l.append entry).run m = (.ok (), ((l.store (before ++ [entry])).run m.tick).2) ∧
      ((l.store (before ++ [entry])).run m.tick).2.Holds m.here m.circumstances
        (l.Says m.here (before ++ [entry])) := by
  have hrun := (l.append_run (hallowed _) hsome hbefore entry).trans (run_eq_ok hok)
  have hall : ∀ e ∈ before ++ [entry], e.Valid :=
    List.forall_mem_append.mpr ⟨valid_of_contents hbefore, List.forall_mem_singleton.mpr hvalid⟩
  have hstate := append_adds (rooted_survives l m.here m.circumstances) hall
    (fun e he => (hkept e he).legible) m
    ⟨rfl, rfl, hroot, hbefore⟩
  rw [show (l.append entry).run m = _ from hrun, map_readBack hkept] at hstate
  exact ⟨hrun, hstate⟩

/-- So do two additions. -/
theorem append_twice {a b : LedgerEntry} (hvalid : ∀ e ∈ [a, b], e.Valid)
    (hkept : ∀ e ∈ before ++ [a, b], e.Kept)
    (hfirst : ((l.store (before ++ [a])).run m.tick).1 = .ok ())
    (hsecond :
      ((l.store (before ++ [a] ++ [b])).run ((l.store (before ++ [a])).run m.tick).2.tick).1 =
        .ok ()) :
    ∃ m', ([a, b].forM l.append).run m = (.ok (), m') ∧ m'.circumstances = m.circumstances := by
  obtain ⟨ha, hb⟩ := List.forall_mem_cons.mp hvalid
  rw [show before ++ [a, b] = before ++ [a] ++ [b] by simp] at hkept
  obtain ⟨hrun, hstate⟩ := append_ok hsome hallowed hroot hbefore ha
    (fun e he => hkept e (List.mem_append_left _ he)) hfirst
  obtain ⟨hrun', hstate'⟩ := append_ok (l := l) (m := ((l.store (before ++ [a])).run m.tick).2)
    (List.append_ne_nil_of_left_ne_nil hsome _)
      (fun clock => by rw [hstate.circumstances]; exact hallowed clock)
    hstate.files.1 (by rw [hstate.here]; exact hstate.files.2)
      (List.forall_mem_singleton.mp hb) hkept hsecond
  exact ⟨_, (run_bind_ok hrun).trans (run_bind_ok hrun'),
    hstate'.circumstances.trans hstate.circumstances⟩

end

/-- What was there and two more entries are listed in their order. -/
theorem appended_entries_stay_stocked :
    ∃ m', ([entryOf 15, entryOf 5].forM plain.append).run stocked = (.ok (), m') ∧
    (plain.list.run m').1 = .ok ([entryOf 20] ++ [entryOf 15, entryOf 5]) ∧
    ∀ id, ((plain.find id).run m').1 = first id ([entryOf 20] ++ [entryOf 15, entryOf 5]) := by
  have hvalid : ∀ e ∈ [entryOf 15, entryOf 5], e.Valid := by simp [entryOf_valid]
  have hkept : ∀ e ∈ [entryOf 20] ++ [entryOf 15, entryOf 5], e.Kept := by
    simp only [List.cons_append, List.nil_append, List.forall_mem_cons]
    refine ⟨kept_of_lengths ?_, kept_of_lengths ?_, kept_of_lengths ?_, fun _ h =>
      absurd h List.not_mem_nil⟩ <;>
      decide +kernel
  have hallowed : ∀ clock, stocked.circumstances.refusal clock = none := fun _ => rfl
  obtain ⟨m', hok, hsame⟩ :=
    append_twice (List.cons_ne_nil _ _) hallowed (rooted_holding _) contents_stocked hvalid
    hkept rfl rfl
  refine ⟨m', hok, appended_entries_stay plain
    (rooted_holding _) contents_stocked hvalid hkept hok ?_⟩
  rw [hsame, hallowed]

/-- A length that is not read back. -/
def drifting : Float := 1.0533333333333335

/-- **An entry with such a length does not stay**: the addition succeeds, and another length is
listed. -/
theorem appended_entry_drifts :
    ∃ m', ([entryOf drifting].forM plain.append).run bare = (.ok (), m') ∧
    (plain.list.run m').1 ≠ .ok ([] ++ [entryOf drifting]) := by
  have hok : ((plain.append (entryOf drifting)).run bare).1 = .ok () := rfl
  have hrun : ([entryOf drifting].forM plain.append).run bare =
      (.ok (), ((plain.append (entryOf drifting)).run bare).2) := run_bind_ok (run_eq_ok hok)
  have hlengths : ∀ x ∈ (entryOf drifting).lengths, (Json.reread? x).isSome = true := by
    decide +kernel
  have hvalid : ∀ e ∈ [] ++ [entryOf drifting], e.Valid :=
    List.forall_mem_singleton.mpr (entryOf_valid drifting)
  have hlegible : ∀ e ∈ [] ++ [entryOf drifting], e.Legible :=
    List.forall_mem_singleton.mpr hlengths
  have hstate := (append_adds (rooted_survives plain bare.here _) hvalid hlegible).of_ok
    ⟨rfl, rfl, rooted_bare, contents_bare⟩ hok
  refine ⟨_, hrun, ?_⟩
  have hread : ∀ clock, ((plain.append (entryOf drifting)).run bare).2.circumstances.refusal clock =
      none := by
    rw [hstate.circumstances]
    exact fun _ => rfl
  rw [plain.list_run (hread _), hstate.here, hstate.files.2]
  intro h
  have hentry : (entryOf drifting).readBack = entryOf drifting :=
    (List.cons.inj (Except.ok.inj h)).1
  have hseconds : Json.rereadOrSame drifting = drifting :=
    (List.cons.inj (congrArg (·.settings.segmentDurations) hentry)).1
  exact absurd hseconds (by decide +kernel)

end Slideshow.Ledger
