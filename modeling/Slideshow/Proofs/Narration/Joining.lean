import Slideshow.Proofs.Narration.Manifest
import Slideshow.Proofs.Narration.Requests

/-!
# Parts are joined in order

Every part of a narration is converted once, in the order in which the parts are given, into a file
of its own in a new workspace; then what a manifest lists is joined once. A single part is copied.
What is joined is measured (`concatenate`, `merge`).

* `plan` is what is asked of the transcoder for several parts.
* `Arranged`: the workspace has just been made before the first conversion, and the manifest lists
  what was converted before the join.
* `Measured`: a result tells what the estimator makes of the output.

Headlines:
* `convert_makes`, `join_makes`, `copySingle_makes`, `estimate_probes`: one lemma for each piece of
  the work.
* `produce_single`, `produce_several`: what is asked for one part and for more.
* **`merge_in_order`**: when the token does not fire and no step of the merge's own is refused.
-/

namespace Slideshow.Merger

open FileTree Machine

/-! ## Several parts -/

/-- A workspace has just been made, where nothing was. -/
def Opens (w : Workspace) (m : Machine) : Prop :=
  ∃ t : FileTree, t.find m.here w.path = .error .missing ∧
    t.makeDirectory m.here w.path = .ok m.files

/-- A manifest lists the files of the first `n` converted parts in order, by their names in the
workspace. -/
def Lists (w : Workspace) (n : Nat) (list : String) (m : Machine) : Prop :=
  ∃ text names, m.files.read m.here list = .ok (.ofText text) ∧ Manifest.listed? text = some names ∧
    names.map w.file = w.partFiles n

/-- A machine is ready for a request in a workspace: before the first conversion the workspace has
just been made, and before the join the manifest lists what was converted. -/
def Arranged (w : Workspace) (n : Nat) : Request → Machine → Prop
  | .normalize _ output _, m => output = w.file (partName 0) → Opens w m
  | .concat list _ _, m => Lists w n list m
  | .duration _, _ | .scan _, _ => True

/-- The conversion of a part with a number, into a file of its own. -/
def conversion (g : Merger) (w : Workspace) (part : String × Nat) : Request :=
  .normalize part.1 (w.file (partName part.2)) g.format

/-- What is asked of the transcoder for several parts: to convert each of them in order, and then to
join what the manifest lists. -/
def plan (g : Merger) (parts : List String) (output : String) (w : Workspace) : List Request :=
  parts.zipIdx.map (g.conversion w) ++ [.concat (w.file manifestName) output (outputCodec output)]

section
variable {g : Merger} {w : Workspace} {parts : List String} {output : String}

theorem isPass_of_mem_plan {r : Request} (h : r ∈ g.plan parts output w) : r.isPass = true := by
  rcases List.mem_append.mp h with h | h
  · obtain ⟨part, -, rfl⟩ := List.mem_map.mp h
    rfl
  · rw [List.mem_singleton.mp h]
    rfl

/-- **The parts are converted in order**, each into the file with its number. -/
theorem convert_makes {ready : Request → Machine → Prop} (parts : List String) :
    ∀ (i : Nat) {pre : Machine → Prop},
    (∀ part m, pre m → ready (g.conversion w (part, i)) m.await) →
      (∀ j part m, i < j → ready (g.conversion w (part, j)) m) →
    Makes ready pre ((parts.zipIdx i).map (g.conversion w))
    (Recorded.convert g w i parts) fun names _ =>
      names = (parts.zipIdx i).map fun part => partName part.2 := by
  induction parts with
  | nil => exact fun i pre _ _ => .pure _ fun _ _ => rfl
  | cons part rest ih =>
    intro i pre hfirst hrest
    have hrequests : ((part :: rest).zipIdx i).map (g.conversion w) =
        [] ++
            ([g.conversion w (part, i)] ++ ((rest.zipIdx (i + 1)).map (g.conversion w) ++ [])) := by
      rw [List.zipIdx_cons, List.map_cons, List.append_nil]
      rfl
    rw [hrequests]
    have hcheck : Makes ready pre []
        (Recorded.unlessCancelled "converting narration parts") fun _ =>
        ready (g.conversion w (part, i)) := .unlessCancelled _ fun m hm => hfirst part m hm
    refine hcheck.bind fun _ => .bind (.ask fun _ hm => hm) fun _ => ?_
    refine .bind
        (ih (i + 1) (fun part m _ => hrest _ part _ (Nat.lt_succ_self i)) fun j part m hj =>
      hrest j part m (Nat.lt_of_succ_lt hj)) fun names => .pure _ ?_
    rintro _ rfl
    rw [List.zipIdx_cons, List.map_cons]

/-- The manifest that was written lists what was converted. -/
theorem write_lists (w : Workspace) (n : Nat) :
    Ensures (fun _ => True)
    (Machine.write (w.file manifestName) (.ofText (manifest ((List.range n).map partName))))
    (Either (fun _ => Lists w n (w.file manifestName)) fun _ _ => True) := by
  intro m _
  have hwrite : Ensures (Holds m.here m.circumstances fun _ => True)
      (Machine.write (w.file manifestName) (.ofText (manifest ((List.range n).map partName))))
      (Either (fun _ => Holds m.here m.circumstances
        (·.read m.here (w.file manifestName) =
            .ok (.ofText (manifest ((List.range n).map partName))))) fun _ =>
          Holds m.here m.circumstances fun _ => True) := by
    refine writing_either (fun {t u content} _ hcontent hu => ?_) (fun _ => trivial) fun _ _ =>
      trivial
    obtain rfl := Except.ok.inj hcontent
    rw [FileTree.read, write_find hu]
  refine (hwrite.mono (fun _ h => h) fun r m' h => ?_) m ⟨rfl, rfl, trivial⟩
  cases r with
  | ok _ => exact ⟨_, _, h.here.symm ▸ h.files, Manifest.listed?_parts n, List.map_map⟩
  | error _ => trivial

/-- **What was converted is joined once**, after a manifest was written that lists it. -/
theorem join_makes (g : Merger) (parts : List String) (output : String) (w : Workspace) :
    Makes (Arranged w parts.length) (Opens w) (g.plan parts output w)
    (Recorded.join g parts output w) fun _ _ => True := by
  have hconvert : Makes (Arranged w parts.length) (Opens w) (parts.zipIdx.map (g.conversion w))
    (Recorded.convert g w 0 parts)
      fun names _ => names = (List.range parts.length).map partName := by
    have hnames : parts.zipIdx.map (fun part => partName part.2) =
        (List.range parts.length).map partName := by
      rw [List.range_eq_range', ← List.zipIdx_map_snd, List.map_map]
      rfl
    rw [← hnames]
    refine convert_makes parts 0 (fun part m hm _ => hm) fun j part m hj hfile => ?_
    -- no other part is converted into the first file
    have hname := w.file_inj (WorkFile.part j).isName (WorkFile.part 0).isName hfile
    exact absurd (partName_injective hname) (Nat.ne_of_gt hj)
  have hcheck : Makes (Arranged w parts.length) (Lists w parts.length (w.file manifestName)) []
      (Recorded.unlessCancelled "joining narration parts") fun _ =>
        Lists w parts.length (w.file manifestName) :=
    .unlessCancelled _ fun m hm => hm
  refine hconvert.bind fun names => .assume ?_
  rintro rfl
  exact .bind (.own _ (write_lists w parts.length)) fun _ => hcheck.bind fun _ => .ask fun _ hm =>
    hm

end

/-- **A workspace is made where nothing is.** -/
theorem create_makes (ready : Request → Machine → Prop) {pre : Machine → Prop}
    (root opening : String) :
    Makes ready pre [] (Recorded.create root opening) Opens := by
  have hroot : Makes ready pre []
      (Recorded.own (Machine.makeDirectories root) ("create work dir " ++ root)) fun _ _ => True :=
    .ownKeeps _ fun _ _ => trivial
  have htemporary : Ensures (fun _ => True) (Machine.makeTemporaryDirectory root opening)
      (Either (fun path m => Opens ⟨path⟩ m) fun _ _ => True) := fun m _ => by
    have hmade : Ensures (Holds m.here m.circumstances fun _ => True)
      (Machine.makeTemporaryDirectory root opening)
        (Either (fun path m' => DrawnIn m.here m.circumstances root opening path ∧
            m'.Holds m.here m.circumstances fun u =>
            ∃ t : FileTree, t.find m.here path = .error .missing ∧
                t.makeDirectory m.here path = .ok u) fun _ =>
          Holds m.here m.circumstances fun _ => True) :=
      makeTemporary_holds root opening fun _ hmissing _ hu => ⟨_, hmissing, hu⟩
    refine (hmade.mono (fun _ h => h) fun r m' h => ?_) m ⟨rfl, rfl, trivial⟩
    cases r with
    | ok path =>
      obtain ⟨-, hhere, -, hopens⟩ := h
      show ∃ t : FileTree, t.find m'.here path = .error .missing ∧
        t.makeDirectory m'.here path = .ok m'.files
      rw [hhere]
      exact hopens
    | error _ => trivial
  exact hroot.bind fun _ => .bind (.own _ htemporary) fun path => .pure _ fun _ hm => hm

/-! ## A single part -/

/-- What is found goes on to be found when directories are made. -/
theorem found_kept (here : Location) (path : String) (l : Location) (n : Node) :
    Kept here (fun _ => False) (fun _ => True) (fun _ => False)
    (·.find here path = .ok (l, n)) where
  write _ h _ := h.elim
  makeDirectory := by
    intro t u p hfind _ hu
    obtain ⟨-, hnone, rfl⟩ := makeDirectory_eq_ok hu
    have hne : ∀ {k}, t.get? k ≠ none → k ≠ place here p := fun hk heq => hk (heq ▸ hnone)
    obtain ⟨hlocate, hget⟩ := find_eq_ok_iff.mp hfind
    have hway : ∀ s ∈ way here path, t.get? s = (t.put (place here p) .directory).get? s :=
      fun s hs =>
      (get?_put_of_ne t (hne (by simp [(locate_eq_ok_iff.mp hlocate).2.2.2 s hs])) _).symm
    refine find_eq_ok_iff.mpr ⟨locate_congr hway ▸ hlocate, ?_⟩
    rw [get?_put_of_ne t (hne (by simp [hget]))]
    exact hget
  erase _ h := h.elim

section
variable {ready : Request → Machine → Prop} {m : Machine} {parts : List String}
    {part output : String} {c : Content}

/-- A part that can be joined is a file with a content. -/
theorem exists_read_of_partsFault? (h : partsFault? m.files m.here parts = none)
    (hpart : part ∈ parts) :
    ∃ l n c, m.files.find m.here part = .ok (l, n) ∧ m.files.read m.here part = .ok c := by
  unfold partsFault? at h
  split at h
  · cases h
  · have hsize := List.findSome?_eq_none_iff.mp h part hpart
    unfold fileSize FileTree.metadata at hsize
    unfold FileTree.read
    cases hfind : m.files.find m.here part with
    | error e => simp [hfind] at hsize
    | ok place =>
      obtain ⟨l, n⟩ := place
      cases n with
      | file c => exact ⟨l, _, c, rfl, rfl⟩
      | program behaviour => exact ⟨l, _, .empty, rfl, rfl⟩
      | directory => simp [hfind] at hsize

theorem checkParts_makes (h : partsFault? m.files m.here parts = none) :
    Makes ready (· = m) [] (Recorded.checkParts parts) fun _ m' => m' = m := by
  refine .unasked ?_
  rintro b rfl
  have hrun : checkParts parts b.machine = (.ok (), b.machine) := by rw [checkParts, h]
  show Either _ _ (checkParts parts b.machine).1
    { b with machine := (checkParts parts b.machine).2 }
  rw [hrun]
  exact ⟨rfl, rfl⟩

/-- Making the directory of a file keeps what is kept when directories are made. -/
theorem makeParent_makes {here : Location} {c : Circumstances} {I : FileTree → Prop}
    {written removed : Location → Prop} (hI : Kept here written (fun _ => True) removed I)
    (path context : String) :
    Makes ready (Holds here c I) [] (Recorded.makeParent path context) fun _ => Holds here c I := by
  unfold Recorded.makeParent
  split
  · next parent _ =>
    split
    · exact .pure _ fun _ hm => hm
    · exact .ownKeeps _ (makeDirectories_holds hI fun _ _ => trivial)
  · exact .pure _ fun _ hm => hm

/-- What is found at two paths that lead to one place is the same. -/
theorem find_of_isSameFile {l : Location} {n : Node} (hfind : m.files.find m.here part = .ok (l, n))
    (h : (Machine.isSameFile part output m).1 = true) :
    m.files.find m.here output = .ok (l, n) := by
  unfold Machine.isSameFile at h
  dsimp only at h
  rw [hfind] at h
  cases houtput : m.files.find m.here output with
  | error e => simp [houtput] at h
  | ok place =>
    obtain ⟨k, n'⟩ := place
    rw [houtput] at h
    obtain rfl : l = k := eq_of_beq h
    obtain ⟨hl, hget⟩ := find_place hfind
    obtain ⟨hk, hget'⟩ := find_place houtput
    rw [← hl] at hget
    rw [← hk] at hget'
    rw [Option.some.inj (hget.symm.trans hget')]

/-- **The output holds what the part holds**, also when they are one file. -/
theorem copySingle_makes {here : Location} {circumstances : Circumstances} {l : Location} {n : Node}
    (hread : ∀ {t : FileTree} {path : String}, t.find here path = .ok (l, n) →
      t.read here path = .ok c) :
    Makes ready (Holds here circumstances (·.find here part = .ok (l, n))) []
    (Recorded.copySingle part output) fun _ =>
      Holds here circumstances (·.read here output = .ok c) := by
  have hsame : Ensures (Holds here circumstances (·.find here part = .ok (l, n)))
      (Machine.isSameFile part output) fun same m =>
      Holds here circumstances (·.find here part = .ok (l, n)) m ∧
        (same = true → Holds here circumstances (·.read here output = .ok c) m) := by
    rintro m ⟨rfl, hcircumstances, hfind⟩
    exact ⟨⟨rfl, hcircumstances, hfind⟩, fun h =>
      ⟨rfl, hcircumstances, hread (find_of_isSameFile hfind h)⟩⟩
  have hcopy : Ensures (Holds here circumstances (·.find here part = .ok (l, n)))
    (Machine.copy part output)
      (Either (fun _ => Holds here circumstances (·.read here output = .ok c)) fun _ =>
        Holds here circumstances fun _ => True) := by
    refine writing_either (fun {t u content} hfind hcontent hu => ?_) (fun _ => trivial) fun _ _ =>
      trivial
    obtain rfl := Except.ok.inj (hcontent.symm.trans (hread hfind))
    rw [FileTree.read, write_find hu]
  refine Makes.bind (.silently hsame) fun same => ?_
  cases same with
  | true => exact .pure _ fun m hm => hm.2 rfl
  | false => exact (Makes.own _ hcopy).mono (fun _ hm => hm.1) fun _ _ hm => hm

end

/-! ## Joining -/

section
variable {g : Merger} {m : Machine} {parts : List String} {part output : String}

/-- A single part is copied, and nothing is asked. -/
theorem produce_single (g : Merger) (ready : Request → Machine → Prop) (output : String)
    (h : partsFault? m.files m.here [part] = none) :
    Makes ready (· = m) [] (Recorded.produce g [part] output) fun _ m' =>
      ∃ c, m.files.read m.here part = .ok c ∧ m'.files.read m'.here output = .ok c := by
  obtain ⟨l, n, c, hfind, hread⟩ := exists_read_of_partsFault? h (List.mem_singleton_self part)
  have hnode : ∀ {t : FileTree} {path : String}, t.find m.here path = .ok (l, n) →
      t.read m.here path = .ok c := fun ht => by
    rw [← hread, FileTree.read, FileTree.read, ht, hfind]
  have hcheck : Makes ready (· = m) [] (Recorded.checkParts [part]) fun _ =>
      Holds m.here m.circumstances (·.find m.here part = .ok (l, n)) :=
    (checkParts_makes h).mono (fun _ h => h) fun _ m' heq => heq.symm ▸ ⟨rfl, rfl, hfind⟩
  refine hcheck.bind fun _ => .bind (makeParent_makes (found_kept m.here part l n) _ _) fun _ => ?_
  exact (copySingle_makes hnode).mono (fun _ h => h) fun _ m' hm =>
    ⟨c, hread, hm.here.symm ▸ hm.files⟩

/-- Several parts are joined in a workspace of their own. -/
theorem produce_several (g : Merger) (output : String) (hmany : 2 ≤ parts.length)
    (h : partsFault? m.files m.here parts = none) :
    Tries (fun b => b.machine = m ∧ b.exchanges = []) (Recorded.produce g parts output)
      (fun _ b => ∃ w, Served (Arranged w parts.length) (g.plan parts output w) b.exchanges)
      fun e b =>
        ∃ w, Stopped (Arranged w parts.length) e (g.plan parts output w) b.exchanges b := by
  have hroom : Makes (fun _ _ => True) (· = m) []
      (Recorded.checkParts parts >>= fun _ => Recorded.makeParent output "create" >>= fun _ =>
        Recorded.create g.workRoot "concat-")
      Opens := by
    have hcheck : Makes (fun _ _ => True) (· = m) [] (Recorded.checkParts parts) fun _ =>
        Holds m.here m.circumstances fun _ => True :=
      (checkParts_makes h).mono (fun _ h => h) fun _ m' heq => heq.symm ▸ ⟨rfl, rfl, trivial⟩
    have hkept : Kept m.here (fun _ => False) (fun _ => True) (fun _ => False) fun _ => True :=
      ⟨fun _ _ _ => trivial, fun _ _ _ => trivial, fun _ _ => trivial⟩
    exact hcheck.bind fun _ => .bind (makeParent_makes hkept _ _) fun _ => create_makes _ _ _
  have htext : Recorded.produce g parts output =
      (Recorded.checkParts parts >>= fun _ => Recorded.makeParent output "create" >>= fun _ =>
        Recorded.create g.workRoot "concat-") >>= fun w =>
            Recorded.closingAfter w (Recorded.join g parts output w) := by
    obtain ⟨first, second, rest, rfl⟩ : ∃ first second rest, parts = first :: second :: rest := by
      match parts, hmany with
      | first :: second :: rest, _ => exact ⟨first, second, rest, rfl⟩
    rw [bind_assoc]
    simp only [bind_assoc]
    rfl
  rw [htext]
  refine Tries.bind ((hroom []).bad_mono ?_) fun w b hb => ?_
  · -- without a workspace nothing was asked
    rintro e b ⟨made, hstopped, rfl⟩
    exact ⟨⟨""⟩, hstopped.of_nil _⟩
  · obtain ⟨hopens, made, hserved, hexchanges⟩ := hb
    rw [hserved.eq_nil, List.append_nil] at hexchanges
    refine ((join_makes g parts output w).closingAfter w []).mono (fun _ h => h) ?_ ?_ b
      ⟨hopens, hexchanges⟩
    · rintro _ b ⟨-, made, hserved, rfl⟩
      exact ⟨w, hserved⟩
    · rintro e b ⟨made, hstopped, rfl⟩
      exact ⟨w, hstopped⟩

/-! ## Measuring -/

/-- Since some requests were made, only the probe was asked. -/
def Probed (before : List Exchange) (b : Logbook) : Prop :=
  ∃ asked, b.exchanges = before ++ asked ∧ ∀ a ∈ asked, a.request.isPass = false

/-- Nothing was asked yet. -/
theorem Probed.start (b : Logbook) : Probed b.exchanges b :=
  ⟨[], (List.append_nil _).symm, List.forall_mem_nil _⟩

/-- **Measuring asks the probe only**, and has no answer only when the token has fired. -/
theorem estimate_probes (g : Merger) (path : String) (before : List Exchange) :
    Ensures (Probed before) (Recorded.estimate g path) fun told b => Probed before b ∧
        if told.isNone then b.alarmed = true else True := by
  refine estimate_ensures (fun b hb => ⟨hb, ?_⟩) (fun r hr b hb => ?_) (fun b hb => ⟨hb, ?_⟩) path
  · split
    · next hfired => exact Bool.or_eq_true_iff.mpr (.inr hfired)
    · trivial
  · obtain ⟨⟨asked, hexchanges, hasked⟩, -⟩ := hb
    refine ⟨asked ++ [Recorded.entry g r b.machine], ?_,
      List.forall_mem_append.mpr ⟨hasked, List.forall_mem_singleton.mpr hr⟩⟩
    rw [← List.append_assoc, ← hexchanges]
    rfl
  · split
    · next hstopped => exact Bool.or_eq_true_iff.mpr (.inr hstopped)
    · trivial

/-! ## The whole merge -/

/-- The result tells what the estimator makes of the output on a machine, from which it goes on to
another one. -/
def Measured (g : Merger) (parts : List String) (output : String) (made : Machine)
    (result : Except Error Merged) (after : Machine) :
    Prop :=
  ∃ e, g.probe.estimate g.duration true output g.fallback made = (some e, after) ∧
    result = .ok ⟨output, e.seconds, parts.length, e.source⟩

/-- Parts were joined in order, with some result. -/
structure InOrder (g : Merger) (parts : List String) (output : String) (m : Machine)
    (result : Except Error Merged) (b : Logbook) :
    Prop where
  merged : (g.merge parts output).run m = (result, b.machine)
  /-- Nothing is asked of the transcoder for a single part; the output holds what the part held, and
  is measured. -/
  single : ∀ part, parts = [part] → b.passes = [] ∧
    ∃ c made, (g.produce parts output).run m = (.ok (), made) ∧
    m.files.read m.here part = .ok c ∧ made.files.read made.here output = .ok c ∧
      g.Measured parts output made result b.machine
  /-- Several parts are converted in a workspace, each into a file of its own, and then joined; the
  first failure is the result. -/
  several : 2 ≤ parts.length →
    ∃ w : Workspace, (w.file manifestName :: w.partFiles parts.length).Nodup ∧
    ((∃ e, Failed (Arranged w parts.length) e (g.plan parts output w) b.passes ∧
      result = .error e) ∨
      Served (Arranged w parts.length) (g.plan parts output w) b.passes ∧
        ∃ made, (g.produce parts output).run m = (.ok (), made) ∧
          g.Measured parts output made result b.machine)

theorem passes_of_plan {w : Workspace} {b : Logbook}
    (h : b.exchanges.map (·.request) <+: g.plan parts output w) :
    b.passes = b.exchanges :=
  List.filter_eq_self.mpr fun _ ha => isPass_of_mem_plan (h.subset (List.mem_map_of_mem ha))

theorem Probed.passes {before : List Exchange} {b : Logbook} (h : Probed before b) :
    b.passes = before.filter (·.request.isPass) := by
  obtain ⟨asked, hexchanges, hasked⟩ := h
  have hnone : asked.filter (·.request.isPass) = [] := List.filter_eq_nil_iff.mpr fun a ha => by
    rw [hasked a ha]
    exact Bool.false_ne_true
  rw [Logbook.passes, hexchanges, List.filter_append, hnone, List.append_nil]

/-- When the token was not found to have fired, parts could not be joined, or the result tells what
was measured after they were. -/
theorem Ends.cases {result : Except Error Merged} {b : Logbook} (h : Ends g parts output m result b)
    (hquiet : b.alarmed = false) :
    (∃ e, (Recorded.produce g parts output).run { machine := m } = (.error e, b) ∧
      result = .error e) ∨
      ∃ b₀, (Recorded.produce g parts output).run { machine := m } = (.ok (), b₀) ∧
        b.passes = b₀.exchanges.filter (·.request.isPass) ∧
          (g.produce parts output).run m = (.ok (), b₀.machine) ∧
        g.Measured parts output b₀.machine result b.machine := by
  have hprobes (b₀ : Logbook) := estimate_probes g output b₀.exchanges b₀ (.start b₀)
  cases h with
  | unmade hproduce => exact .inl ⟨_, hproduce, rfl⟩
  | @unmeasured b₀ b hproduce hestimate =>
    have hnone := hprobes b₀
    rw [hestimate] at hnone
    exact absurd (hquiet.symm.trans hnone.2) Bool.false_ne_true
  | @measured b₀ b e hproduce hestimate =>
    have hsome := hprobes b₀
    rw [hestimate] at hsome
    have hmade := Recorded.produce_mirrors g parts output { machine := m }
    rw [hproduce] at hmade
    have hmeasured := Recorded.estimate_mirrors g output b₀
    rw [hestimate] at hmeasured
    exact .inr ⟨b₀, hproduce, hsome.1.passes, hmade, e, hmeasured, rfl⟩

/-- **A merge joins its parts in order**, when they are files that are not empty, the token was not
found to have fired, and no step of the merge's own was refused. -/
theorem merge_in_order (g : Merger) (parts : List String) (output : String) (m : Machine)
    (hvalid : partsFault? m.files m.here parts = none)
    (hquiet : (g.record parts output m).2.alarmed = false)
    (hallowed : (g.record parts output m).2.refused = false) :
    InOrder g parts output m (g.record parts output m).1 (g.record parts output m).2 := by
  have hmerged := merge_eq_record g parts output m
  have hcases := (record_ends g parts output m).cases hquiet
  -- of the reasons to stop, only a failure of the transcoder is left
  have hfailed {ready : Request → Machine → Prop} {e : Error} {requests : List Request}
    {made : List Exchange}
      (h : Stopped ready e requests made (g.record parts output m).2) :
          Failed ready e requests made := by
    cases h with
    | refused h => exact absurd (hallowed.symm.trans h) Bool.false_ne_true
    | alarmed h => exact absurd (hquiet.symm.trans h) Bool.false_ne_true
    | failed h => exact h
  generalize g.record parts output m = recorded at hmerged hcases hfailed ⊢
  obtain ⟨result, b⟩ := recorded
  refine ⟨hmerged, fun part hpart => ?_, fun hmany => ?_⟩
  · subst hpart
    have hproduced :=
      produce_single g (fun _ _ => True) output hvalid [] { machine := m } ⟨rfl, rfl⟩
    rcases hcases with ⟨e, hproduce, rfl⟩ | ⟨b₀, hproduce, hpasses, hmade, hmeasured⟩
    · rw [hproduce] at hproduced
      obtain ⟨made, hstopped, -⟩ := hproduced
      exact absurd rfl (hfailed hstopped).requests_ne_nil
    · rw [hproduce] at hproduced
      obtain ⟨⟨c, hread, hcopied⟩, made, hserved, hexchanges⟩ := hproduced
      refine ⟨?_, c, b₀.machine, hmade, hread, hcopied, hmeasured⟩
      rw [hpasses, hexchanges, hserved.eq_nil]
      rfl
  · have hproduced := produce_several g output hmany hvalid { machine := m } ⟨rfl, rfl⟩
    rcases hcases with ⟨e, hproduce, rfl⟩ | ⟨b₀, hproduce, hpasses, hmade, hmeasured⟩
    · rw [hproduce] at hproduced
      obtain ⟨w, hstopped⟩ := hproduced
      have hbroken := hfailed hstopped
      refine ⟨w, w.nodup_partFiles parts.length, .inl ⟨e, ?_, rfl⟩⟩
      rw [passes_of_plan hbroken.order]
      exact hbroken
    · rw [hproduce] at hproduced
      obtain ⟨w, hserved⟩ := hproduced
      refine ⟨w, w.nodup_partFiles parts.length, .inr ⟨?_, b₀.machine, hmade, hmeasured⟩⟩
      have hplan : b₀.exchanges.map (·.request) <+: g.plan parts output w :=
        hserved.order ▸ List.prefix_rfl
      have hall : b.passes = b₀.exchanges := hpasses.trans (passes_of_plan hplan)
      rw [hall]
      exact hserved

end

/-- A machine with two recordings. -/
def recordings : Machine where
  files := ⟨[(["a.mp3"], .file (.ofText "a")), (["b.mp3"], .file (.ofText "b"))]⟩
  circumstances := { draw := fun _ _ => 0, jobId := .ofRandom, time := fun n => ⟨n, 0⟩ }

/-- A merger whose passes write what they are asked for. -/
def writing : Merger where
  transcoder :=
    { normalize := fun _ output _ =>
      Action.orSystem (Machine.write output (.ofText "wave")) "convert"
      concat := fun _ output _ => Action.orSystem (Machine.write output (.ofText "waves")) "join" }
  probe := { duration := fun _ => pure 10, scan := fun _ => pure 10 }
  duration := {}
  format := .ofConfig {}
  workRoot := "/work"
  fallback := 30

theorem merge_in_order_recordings :
    partsFault? recordings.files recordings.here ["/a.mp3", "/b.mp3"] = none ∧
      (writing.record ["/a.mp3", "/b.mp3"] "/out.mp3" recordings).2.alarmed = false ∧
      (writing.record ["/a.mp3", "/b.mp3"] "/out.mp3" recordings).2.refused = false ∧
      InOrder writing ["/a.mp3", "/b.mp3"] "/out.mp3" recordings
        (writing.record ["/a.mp3", "/b.mp3"] "/out.mp3" recordings).1
        (writing.record ["/a.mp3", "/b.mp3"] "/out.mp3" recordings).2 :=
  ⟨rfl, by decide +kernel, by decide +kernel,
    merge_in_order writing _ _ recordings rfl (by decide +kernel)
      (by decide +kernel)⟩

end Slideshow.Merger
