import Slideshow.Proofs.Ledger.Store

/-!
# A ledger is replaced at once

The new contents of a ledger go to a temporary file, which takes its name in the end
(`write_atomically`). Seen from outside nothing of this is there: either the ledger was written at
once, or nothing has happened but that directories were made for it. Only where the temporary file
may not be removed after a failure it stays. It does not matter which names are drawn for temporary
files, for they are names of nothing.

* `FileTree.Alike` are trees in which the same stands everywhere.
* `FileTree.With` is a tree with one more file.
* `Ledger.Endures`: what directories for a ledger do not change. `Ledger.Written`: the ledger has
  new contents.
* `Ledger.Littered`: a temporary file is left, empty, or with a part of the contents or all of them.

Headlines:
* **`Ledger.replace_litters`**: a replacement is a single write, or nothing, or leaves its temporary
  file.
* **`Ledger.replace_writes`**: a replacement is a single write, or nothing, if files can be removed.
-/

namespace Slideshow.FileTree

variable {s t u : FileTree} {here : Location} {path target : String} {content : Content}

/-! ## Trees that look the same -/

/-- The same stands everywhere. -/
def Alike (t u : FileTree) : Prop := ∀ k, u.get? k = t.get? k

theorem Alike.find (h : Alike t u) (here : Location) (path : String) :
    u.find here path = t.find here path :=
  find_congr (fun k _ => h k) (h _)

theorem Rooted.alike (ht : Rooted t) (h : Alike t u) : Rooted u := fun k n hk hn => by
  rw [h] at hn ⊢
  exact ht k n hk hn

/-- What is found, or is not missing at least, stays while nothing that is there changes. -/
theorem find_mono (h : ∀ k n, t.get? k = some n → u.get? k = some n)
    (hfind : t.find here path ≠ .error .missing) :
    u.find here path = t.find here path := by
  have hfollow : ∀ {names : List String} {l : Location}, t.follow l names ≠ .error .missing →
      u.follow l names = t.follow l names := by
    intro names
    induction names with
    | nil =>
      intro l hne
      rw [follow_nil] at hne
      rw [follow_nil, follow_nil]
      cases hl : t.get? l with
      | none => rw [hl] at hne; exact absurd rfl hne
      | some n => rw [h l n hl]
    | cons name rest ih =>
      intro l hne
      rw [follow_cons] at hne
      rw [follow_cons, follow_cons]
      cases hl : t.get? l with
      | none => rw [hl] at hne; exact absurd rfl hne
      | some n =>
        rw [hl] at hne
        rw [h l n hl]
        cases n with
        | directory =>
          dsimp only at hne ⊢
          split
          · rfl
          · next hshort =>
            rw [if_neg hshort] at hne
            exact ih hne
        | _ => rfl
  by_cases hpath : IsPath path
  · rw [find_eq_follow hpath] at hfind
    rw [find_eq_follow hpath, find_eq_follow hpath, hfollow hfind]
  · exact find_of_not_isPath hpath

/-- A file can be written where no directory is. -/
theorem write_of_locate (hlocate : t.locate here path = .ok (place here path))
    (hnode : t.get? (place here path) ≠ some .directory) (hslash : Path.endsInSlash path = false)
    (content : Content) :
    t.write here path content = .ok (t.put (place here path) (.file content)) := by
  have hwritable : t.writable here .isDirectory path = .ok (place here path) := by
    unfold writable
    rw [unslashed_of_not_endsInSlash hslash, hlocate]
    dsimp only
    split
    · next hdirectory => exact absurd hdirectory hnode
    · rw [if_neg (by simp [hslash])]
  rw [write, hwritable]
  rfl

/-! ## One more file -/

/-- A tree with one more file, at a path that led to nothing. -/
structure With (here : Location) (path : String) (content : Content) (s t : FileTree) : Prop where
  rooted : Rooted t
  vacant : s.get? (place here path) = none
  found : t.find here path = .ok (place here path, .file content)
  others : ∀ k, k ≠ place here path → t.get? k = s.get? k

/-- A new file is one more. -/
theorem with_of_write (hs : Rooted s) (hmissing : s.find here path = .error .missing)
    (h : s.write here path content = .ok t) :
    With here path content s t := by
  have hfound := write_find h
  have hrooted := hs.write h
  obtain ⟨hlocate, -, -, rfl⟩ := write_eq_ok h
  refine ⟨hrooted, ?_, hfound, fun k hk => get?_put_of_ne s hk _⟩
  rw [FileTree.find, hlocate] at hmissing
  dsimp only at hmissing
  split at hmissing
  · cases hmissing
  · assumption

namespace With

variable (hwith : With here path content s t)
include hwith

/-- The file may be written again. -/
theorem write {content' : Content} (h : t.write here path content' = .ok u) :
    With here path content' s u := by
  have hfound := write_find h
  have hrooted := hwith.rooted.write h
  obtain ⟨-, -, -, rfl⟩ := write_eq_ok h
  exact ⟨hrooted, hwith.vacant, hfound, fun k hk =>
    (get?_put_of_ne t hk _).trans (hwith.others k hk)⟩

/-- What was there is there. -/
theorem get?_mono {k : Location} {n : Node} (hk : s.get? k = some n) : t.get? k = some n := by
  have hne : k ≠ place here path := fun heq => by
    rw [heq, hwith.vacant] at hk
    cases hk
  rw [hwith.others k hne, hk]

theorem get?_place : t.get? (place here path) = some (.file content) := (find_place hwith.found).2

/-- Without the file the tree is what it was. -/
theorem erase (hs : Rooted s) : Alike s (t.erase (place here path)) := by
  intro k
  rw [get?_erase_eq]
  split
  · next hbelow =>
    by_cases hk : k = place here path
    · rw [hk, hwith.vacant]
    · rw [hs.below (by simp [hwith.vacant]) hbelow.2 hk]
  · next hbelow =>
    refine hwith.others k fun hk => hbelow ⟨?_, by simp [hk]⟩
    rw [hk]
    exact ne_nil_of_get? (t := s) (by simp [hwith.vacant])

theorem removeFile : t.removeFile here path = .ok (t.erase (place here path)) := by
  rw [FileTree.removeFile, hwith.found]

/-- **When the file takes another name, it is as though that had been written at once.** -/
theorem rename (hs : Rooted s) (h : t.rename here path target = .ok u) :
    ∃ v, s.write here target content = .ok v ∧ Alike v u := by
  obtain ⟨n, hn, -, hlocate, hnode, hslash, rfl⟩ := rename_eq_ok h
  obtain ⟨-, rfl⟩ := Prod.mk.inj (Except.ok.inj (hwith.found.symm.trans hn))
  have hdirectory : ∀ k, t.get? k = some .directory → s.get? k = some .directory := fun k hk => by
    refine (hwith.others k fun heq => ?_).symm.trans hk
    rw [heq, hwith.get?_place] at hk
    cases hk
  obtain ⟨hplace, hpath, hshort, hway⟩ := locate_eq_ok_iff.mp hlocate
  have hlocate' : s.locate here target = .ok (place here target) :=
    locate_eq_ok_iff.mpr ⟨hplace, hpath, hshort, fun k hk => hdirectory k (hway k hk)⟩
  have hnode' : s.get? (place here target) ≠ some .directory := by
    by_cases heq : place here target = place here path
    · rw [heq, hwith.vacant]
      exact fun h => nomatch h
    · rwa [← hwith.others _ heq]
  refine ⟨_, write_of_locate hlocate' hnode' hslash content, fun k => ?_⟩
  by_cases hk : k = place here target
  · rw [hk, get?_put_self _ (ne_nil_of_get? hnode'), get?_put_self _ (ne_nil_of_get? hnode')]
  · rw [get?_put_of_ne _ hk, get?_put_of_ne _ hk, hwith.erase hs k]

end With

end Slideshow.FileTree

namespace Slideshow.Ledger

open FileTree Machine

/-- What holds of the files goes on to hold when directories are made for a ledger, and is seen from
outside. -/
structure Endures (l : Ledger) (here : Location) (I : FileTree → Prop) : Prop where
  rooted : ∀ {t}, I t → Rooted t
  alike : ∀ {t u}, I t → Alike t u → I u
  directories : ∀ p, Upward l.directory p → ∀ {t u}, I t → t.makeDirectory here p = .ok u → I u

/-- Something holds of the files but for a temporary one. -/
def Besides (here : Location) (I : FileTree → Prop) (temporary : String) (content : Content)
    (t : FileTree) : Prop :=
  ∃ s, I s ∧ With here temporary content s t

/-- Something holds of the files but for a temporary one that was left. -/
def Littered (here : Location) (I : FileTree → Prop) (t : FileTree) : Prop :=
  ∃ temporary content, Besides here I temporary content t

/-- The ledger was written where something held. -/
def Written (l : Ledger) (here : Location) (I : FileTree → Prop) (content : Content)
    (u : FileTree) : Prop :=
  ∃ s v, I s ∧ s.write here l.path content = .ok v ∧ Alike v u

variable {l : Ledger} {here : Location} {c : Circumstances} {I : FileTree → Prop}

/-- A new temporary file is one more. -/
theorem makeTemporaryFile_besides (hI : Endures l here I) :
    Tries (Machine.Holds here c I)
    (Action.orSystem (makeTemporaryFile l.directory) ("write ledger " ++ l.path))
    (fun path => Machine.Holds here c (Besides here I path .empty)) fun _ =>
      Machine.Holds here c I := by
  have hmade : Ensures (Machine.Holds here c I) (makeTemporaryFile l.directory)
      (Either (fun path m => DrawnIn here c l.directory ".tmp" path ∧
        m.Holds here c (Besides here I path .empty))
        fun _ => Machine.Holds here c I) :=
    makeTemporary_holds l.directory ".tmp" fun _ hmissing ht hu =>
      ⟨_, ht, with_of_write (hI.rooted ht) hmissing hu⟩
  exact (Action.orSystem_either hmade _).mono (fun _ h => h) (fun _ _ hm => hm.2) fun _ _ h => h

/-- **Filling the temporary file and giving it the name of the ledger** writes that at once; a
failure leaves the file, empty, or with a part of the contents or all of them. -/
theorem fill_writes (hI : Endures l here I) (temporary : String) (content : Content) :
    Tries (Machine.Holds here c (Besides here I temporary .empty)) (do
      Action.orSystem (write temporary content) ("write ledger " ++ l.path)
      Action.orSystem sync ("write ledger " ++ l.path)
      Action.orSystem (rename temporary l.path) ("write ledger " ++ l.path))
      (fun _ => Machine.Holds here c (l.Written here I content))
      fun _ => Machine.Holds here c fun t => ∃ written, Besides here I temporary written t := by
  have hleft : ∀ {written : Content} {m : Machine},
    m.Holds here c (Besides here I temporary written) →
      m.Holds here c fun t => ∃ written, Besides here I temporary written t :=
    fun hm => ⟨hm.here, hm.circumstances, _, hm.files⟩
  have hwrite : Tries (Machine.Holds here c (Besides here I temporary .empty))
      (Action.orSystem (write temporary content) ("write ledger " ++ l.path))
      (fun _ => Machine.Holds here c (Besides here I temporary content))
      fun _ => Machine.Holds here c fun t => ∃ written, Besides here I temporary written t :=
    Action.orSystem_either (writing_either
      (fun ⟨s, hs, hwith⟩ hcontent hu => by cases hcontent; exact ⟨s, hs, hwith.write hu⟩)
      (fun ht => ⟨_, ht⟩) fun ⟨s, hs, hwith⟩ hu => ⟨_, s, hs, hwith.write hu⟩) _
  have hsync : Tries (Machine.Holds here c (Besides here I temporary content))
      (Action.orSystem sync ("write ledger " ++ l.path))
      (fun _ => Machine.Holds here c (Besides here I temporary content)) fun _ =>
        Machine.Holds here c (Besides here I temporary content) :=
    step_tries _ fun ht hu => by cases hu; exact ht
  have hrename : Tries (Machine.Holds here c (Besides here I temporary content))
      (Action.orSystem (rename temporary l.path) ("write ledger " ++ l.path))
      (fun _ => Machine.Holds here c (l.Written here I content)) fun _ =>
        Machine.Holds here c (Besides here I temporary content) :=
    step_tries _ fun ⟨s, hs, hwith⟩ hu =>
      ⟨s, (hwith.rename (hI.rooted hs) hu).imp fun _ hv => ⟨hs, hv⟩⟩
  exact hwrite.bind fun _ => (hsync.bad_mono fun _ _ => hleft).bind fun _ =>
    hrename.bad_mono fun _ _ => hleft

/-- What becomes of the temporary file after a failure. -/
theorem replace_tries {after : FileTree → Prop} (hI : Endures l here I)
    (hafter : ∀ {t}, I t → after t) (hremove : ∀ temporary,
      Ensures (Machine.Holds here c fun t => ∃ written, Besides here I temporary written t)
      (Machine.removeFile temporary) fun _ => Machine.Holds here c after) (content : Content) :
    Tries (Machine.Holds here c I) (l.replace content)
    (fun _ => Machine.Holds here c (l.Written here I content))
      fun _ => Machine.Holds here c after := by
  have hbad : ∀ {m : Machine}, m.Holds here c I → m.Holds here c after :=
    fun hm => ⟨hm.here, hm.circumstances, hafter hm.files⟩
  have hmake : Ensures (Machine.Holds here c I) (Machine.makeDirectories l.directory) fun _ =>
    Machine.Holds here c I :=
    makeDirectories_ensures hI.directories
  refine ((Action.orSystem_tries hmake _).bad_mono fun _ _ => hbad).bind fun _ =>
    ((makeTemporaryFile_besides hI).bad_mono fun _ _ => hbad).bind fun temporary => ?_
  refine Ensures.bind (fill_writes hI temporary content) fun r => ?_
  cases r with
  | ok _ => exact .pure _ fun _ hm => hm
  | error e => exact .bind (hremove temporary) fun _ => .pure _ fun _ hm => hm

/-- **A ledger is replaced at once**, or nothing has changed but for directories that were made for
it, or the temporary file is left. -/
theorem replace_litters (hI : Endures l here I) (content : Content) :
    Tries (Machine.Holds here c I) (l.replace content)
    (fun _ => Machine.Holds here c (l.Written here I content))
      fun _ => Machine.Holds here c fun t => I t ∨ Littered here I t := by
  refine replace_tries hI .inl (fun temporary m hm => ?_) content
  unfold Machine.removeFile
  dsimp only
  have hlittered : m.tick.Holds here c fun t => I t ∨ Littered here I t :=
    ⟨hm.here, hm.circumstances, .inr ⟨temporary, hm.files⟩⟩
  split
  · exact hlittered
  · split
    · next files hfiles =>
      obtain ⟨_, s, hs, hwith⟩ := hm.files
      rw [hm.tick.here] at hfiles
      obtain rfl := Except.ok.inj (hwith.removeFile.symm.trans hfiles)
      exact hm.tick.replace (.inl (hI.alike hs (hwith.erase (hI.rooted hs))))
    · exact hlittered

/-- **A ledger is replaced at once**, or nothing has changed but for directories that were made for
it, if files can be removed. -/
theorem replace_writes (hI : Endures l here I) (hremoval : ∀ clock, c.removal clock = none)
    (content : Content) :
    Tries (Machine.Holds here c I) (l.replace content)
    (fun _ => Machine.Holds here c (l.Written here I content))
      fun _ => Machine.Holds here c I :=
  replace_tries hI (fun h => h)
      (fun temporary => removeFile_ensures temporary hremoval fun ⟨_, _, hs, hwith⟩ =>
    ⟨_, hwith.removeFile, hI.alike hs (hwith.erase (hI.rooted hs))⟩) content

section
variable {after : FileTree → Prop} {entries : List LedgerEntry}

/-- What is promised of replacing a ledger is so of storing its entries: where these cannot be
written nothing has changed. -/
theorem store_tries {good : Machine → Prop} (hafter : ∀ {t}, I t → after t)
    (h : Tries (Machine.Holds here c I) (l.replace (.ofText (render entries))) (fun _ => good)
      fun _ => Machine.Holds here c after) :
    Tries (Machine.Holds here c I) (l.store entries) (fun _ => good) fun _ =>
      Machine.Holds here c after := by
  intro m hm
  cases htext : serialized entries with
  | error e =>
    have hrun : (l.store entries).run m = (.error e, m) := by
      rw [store, htext]
      rfl
    show Either _ _ ((l.store entries).run m).1 ((l.store entries).run m).2
    rw [hrun]
    exact ⟨hm.here, hm.circumstances, hafter hm.files⟩
  | ok text =>
    obtain ⟨-, rfl⟩ := serialized_eq_ok_iff.mp htext
    have hrun : (l.store entries).run m = (l.replace (.ofText (render entries))).run m := by
      rw [store, htext]
      rfl
    show Either _ _ ((l.store entries).run m).1 ((l.store entries).run m).2
    rw [hrun]
    exact h m hm

end

end Slideshow.Ledger
