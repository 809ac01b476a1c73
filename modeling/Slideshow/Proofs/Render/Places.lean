import Slideshow.Encode.Basic
import Slideshow.Narration.Merge
import Slideshow.Proofs.Machine.Steps

/-!
# Where the work on a narration leaves something

Measuring and joining run programs on the parts and on files in workspaces. So what is kept by
changes at those places is kept by the work, whatever the programs do.

* `Room` says that workspaces may be made, filled and removed.
* `WritesOnly path trial`: something writes one file and does nothing else. `Merger.Confined` says
  so of each part of a merger, and `ofTools_confined` of the tools.

Headlines:
* **`Probe.estimate_holds`**: measuring a recording touches nothing but its file.
* **`Merger.merge_keeps`**: joining parts touches nothing but the output and workspaces.
-/

namespace Slideshow

open FileTree Machine

/-- The files that are made in workspaces. -/
inductive WorkFile : String → Prop
  | narration : WorkFile "narration.wav"
  | manifest : WorkFile manifestName
  | part (i : Nat) : WorkFile (partName i)

/-- Workspaces with an opening may be made under a root, filled and removed. -/
structure Room (here : Location) (c : Circumstances) (root opening : String)
    (written made removed : Location → Prop) : Prop where
  made : ∀ {path}, DrawnIn here c root opening path → made (place here path)
  removed : ∀ {path}, DrawnIn here c root opening path → removed (place here path)
  filled : ∀ {path name}, DrawnIn here c root opening path → WorkFile name →
    written (place here (Path.join path name))

/-- Something writes a file and does nothing else: all that is kept by writing at its place is
kept. -/
def WritesOnly {α : Type} (path : String) (trial : Trial α) : Prop :=
  ∀ {here : Location} {c : Circumstances} {I : FileTree → Prop} {written made removed : Location →
    Prop},
    Kept here written made removed I → written (place here path) → Keeps (Holds here c I) trial

/-- A probe that touches nothing but the file it is asked about. -/
structure Probe.Confined (p : Probe) : Prop where
  duration : ∀ path, WritesOnly path (p.duration path)
  scan : ∀ path, WritesOnly path (p.scan path)

/-- A transcoder that writes nothing but its outputs. -/
structure Transcoder.Confined (x : Transcoder) : Prop where
  normalize : ∀ input output format, WritesOnly output (x.normalize input output format)
  concat : ∀ manifest output codec, WritesOnly output (x.concat manifest output codec)

/-- A merger whose passes and whose probe are confined to their files. -/
structure Merger.Confined (g : Merger) : Prop where
  transcoder : g.transcoder.Confined
  probe : g.probe.Confined

variable {here : Location} {c : Circumstances} {I : FileTree → Prop}
    {written made removed : Location → Prop}

section
variable (hI : Kept here written made removed I)
include hI

/-! ## Commands -/

theorem Command.run_keeps {k : Command} (watched captured : Bool)
    (h : ∀ path, k.arguments.getLast? = some path → path ≠ "-" → written (place here path)) :
    Ensures (Holds here c I)
    (Machine.run k.program k.arguments watched captured (some k.timeout)) fun _ =>
      Holds here c I :=
  run_holds _ _ _ _ fun path hlast hdash _ _ _ ht hu => hI.write ht (h path hlast hdash) hu

theorem Command.capture_keeps {k : Command} (watched : Bool)
    (h : ∀ path, k.arguments.getLast? = some path → path ≠ "-" → written (place here path)) :
    Keeps (Holds here c I) (k.capture watched) :=
  Ensures.bind (Command.run_keeps hI watched true h) fun r => .pure _ fun m hm => by
    cases k.captured r <;> exact hm

theorem Command.execute_keeps {k : Command} (watched : Bool)
    (h : ∀ path, k.arguments.getLast? = some path → path ≠ "-" → written (place here path)) :
    Keeps (Holds here c I) (k.execute watched) :=
  .bind (Command.capture_keeps hI watched h) fun _ => .ofExcept (fun _ _ _ hm => hm) fun _ _ _ hm =>
    hm

theorem Command.follow_holds {k : Command} (watched : Bool)
    (h : ∀ path, k.arguments.getLast? = some path → path ≠ "-" → written (place here path)) :
    Ensures (Holds here c I) (k.follow watched) fun _ => Holds here c I :=
  .bind (Command.run_keeps hI watched false h) fun _ => .pure _ fun _ hm => hm

/-! ## Measuring -/

theorem Probe.duration_keeps (tools : Registry) (timeout : Nat) (watched : Bool) {path : String}
    (h : written (place here path)) :
    Keeps (Holds here c I) ((Probe.ofTools tools timeout watched).duration path) := by
  refine .bind (.ofExcept (fun _ _ _ hm => hm) fun _ _ _ hm => hm) fun tool => ?_
  refine .bind (Command.execute_keeps hI watched ?_) fun said => ?_
  · intro last hlast _
    cases hlast
    exact h
  · split
    · exact .pure _ fun _ hm => hm
    · exact .throw _ fun _ hm => hm

theorem Probe.scan_keeps (tools : Registry) (timeout : Nat) (watched : Bool) (path : String) :
    Keeps (Holds here c I) ((Probe.ofTools tools timeout watched).scan path) := by
  refine .bind (.ofExcept (fun _ _ _ hm => hm) fun _ _ _ hm => hm) fun tool => ?_
  refine .bind (Command.capture_keeps hI watched ?_) fun said => ?_
  · intro last hlast hdash
    cases hlast
    exact absurd rfl hdash
  · split
    · exact .pure _ fun _ hm => hm
    · exact .throw _ fun _ hm => hm

omit hI in
theorem Probe.ofTools_confined (tools : Registry) (timeout : Nat) (watched : Bool) :
    (Probe.ofTools tools timeout watched).Confined where
  duration _ := fun hI h => duration_keeps hI tools timeout watched h
  scan path := fun hI _ => scan_keeps hI tools timeout watched path

omit hI in
/-- A look at the token, if there is one, is not noticed by what the token does not matter for. -/
theorem Machine.Timeless.mustStop {P : Machine → Prop} (hP : Timeless P) (watched : Bool) :
    Ensures P (Probe.mustStop watched) fun _ => P := by
  cases watched with
  | true => exact fun m hm => hP.await m hm
  | false => exact .pure _ fun _ hm => hm

/-- **Measuring a recording touches nothing but its file.** -/
theorem Probe.estimate_holds {p : Probe} (hp : p.Confined) (d : DurationConfig) (watched : Bool)
    {path : String} (fallback : Float) (h : written (place here path)) :
    Ensures (Holds here c I) (p.estimate d watched path fallback) fun _ => Holds here c I := by
  have hstop : Ensures (Holds here c I) (Probe.mustStop watched) fun _ => Holds here c I :=
    holds_timeless.mustStop watched
  have hstopped : Ensures (Holds here c I) (Probe.wasStopped watched) fun _ => Holds here c I :=
    fun _ hm => hm
  have hsize : Ensures (Holds here c I) (Probe.sizeOf path) fun _ => Holds here c I :=
    .bind (metadata_holds path) fun info => by cases info <;> exact .pure _ fun _ hm => hm
  unfold Probe.estimate
  refine hstop.bind fun stop => ?_
  split
  · exact .pure _ fun _ hm => hm
  refine .bind (hp.duration path hI h).run fun told => ?_
  refine hstopped.bind fun stop => ?_
  split
  · exact .pure _ fun _ hm => hm
  split
  · exact .pure _ fun _ hm => hm
  refine .bind (hp.scan path hI h).run fun printed => ?_
  refine hstopped.bind fun stop => ?_
  split
  · exact .pure _ fun _ hm => hm
  split
  · exact .pure _ fun _ hm => hm
  refine hsize.bind fun size => hstop.bind fun stop => ?_
  split
  · exact .pure _ fun _ hm => hm
  · exact .pure _ fun _ hm => hm

/-! ## Joining -/

theorem Transcoder.runToEnd_keeps {k : Command}
    (h : ∀ path, k.arguments.getLast? = some path → path ≠ "-" → written (place here path)) :
    Keeps (Holds here c I) (runToEnd k) :=
  Ensures.bind (Command.follow_holds hI true h) fun r => .pure _ fun m hm => by
    cases h : r.2 <;> simpa [Either, Except.map, h] using hm

theorem Transcoder.normalize_keeps (tools : Registry) (timeout : Nat) (input : String)
    {output : String} (format : CanonicalAudio) (h : written (place here output)) :
    Keeps (Holds here c I) ((Transcoder.ofTools tools timeout).normalize input output format) := by
  refine .bind (.ofExcept (fun _ _ _ hm => hm) fun _ _ _ hm => hm) fun tool => ?_
  refine Transcoder.runToEnd_keeps hI ?_
  intro last hlast _
  cases hlast
  exact h

theorem Transcoder.concat_keeps (tools : Registry) (timeout : Nat) (manifest : String)
    {output : String} (codec : String) (h : written (place here output)) :
    Keeps (Holds here c I) ((Transcoder.ofTools tools timeout).concat manifest output codec) := by
  refine .bind (.ofExcept (fun _ _ _ hm => hm) fun _ _ _ hm => hm) fun tool => ?_
  refine Transcoder.runToEnd_keeps hI ?_
  intro last hlast _
  cases hlast
  exact h

omit hI in
theorem Transcoder.ofTools_confined (tools : Registry) (timeout : Nat) :
    (Transcoder.ofTools tools timeout).Confined where
  normalize input _ format := fun hI h => normalize_keeps hI tools timeout input format h
  concat manifest _ codec := fun hI h => concat_keeps hI tools timeout manifest codec h

namespace Merger

omit hI in
theorem unlessCancelled_keeps (stage : String) :
    Keeps (Holds here c I) (unlessCancelled stage) := by
  refine .bind (.lift isCancelled_holds) fun stop => ?_
  split
  · exact .throw _ fun _ hm => hm
  · exact .pure _ fun _ hm => hm

variable {g : Merger}

section
variable (hg : g.transcoder.Confined) {w : Workspace}
    (hfilled : ∀ {name}, WorkFile name → written (place here (w.file name)))
include hg hfilled

theorem convert_keeps (parts : List String) :
    ∀ i, Keeps (Holds here c I) (g.convert w i parts) := by
  induction parts with
  | nil => exact fun i => .pure _ fun _ hm => hm
  | cons path rest ih =>
    intro i
    refine .bind (unlessCancelled_keeps _) fun _ => ?_
    refine .bind ?_ fun _ => .bind (ih (i + 1)) fun _ => .pure _ fun _ hm => hm
    exact hg.normalize path _ g.format hI (hfilled (.part i))

theorem join_keeps (parts : List String) {output : String} (houtput : written (place here output)) :
    Keeps (Holds here c I) (g.join parts output w) := by
  refine .bind (convert_keeps hI hg hfilled parts 0) fun names => ?_
  refine .bind (Action.orSystem_tries (write_holds hI (hfilled .manifest) _) _) fun _ => ?_
  refine .bind (unlessCancelled_keeps _) fun _ => ?_
  exact hg.concat _ output _ hI houtput

end

theorem closingAfter_keeps {α : Type} {w : Workspace} {trial : Trial α}
    (h : Keeps (Holds here c I) trial) (hw : removed (place here w.path)) :
    Keeps (Holds here c I) (w.closingAfter trial) :=
  Ensures.bind h.run fun r => .bind (Workspace.close_holds fun ht => hI.erase ht hw).run fun _ =>
    .pure _ fun m hm => by cases r <;> exact hm

theorem copySingle_keeps (part : String) {output : String} (houtput : written (place here output)) :
    Keeps (Holds here c I) (copySingle part output) := by
  have hsame : Ensures (Holds here c I) (isSameFile part output) fun _ => Holds here c I :=
    fun _ hm => hm
  refine .bind (.lift hsame) fun same => ?_
  split
  · exact Action.orSystem_tries (copy_holds hI houtput) _
  · exact .pure _ fun _ hm => hm

theorem makeParent_keeps {path : String} (context : String)
    (h : ∀ d, Path.parent? path = some d → ∀ p, Upward d p → made (place here p)) :
    Keeps (Holds here c I) (makeParent path context) := by
  unfold makeParent
  split
  · next d hd =>
    split
    · exact .pure _ fun _ hm => hm
    · exact Action.orSystem_tries (makeDirectories_holds hI (h d hd)) _
  · exact .pure _ fun _ hm => hm

omit hI in
/-- Looking at the parts changes nothing. -/
theorem checkParts_keeps {pre : Machine → Prop} (parts : List String) :
    Keeps pre (checkParts parts) := by
  intro m hm
  show Either _ _ (checkParts parts m).1 (checkParts parts m).2
  unfold checkParts
  split <;> exact hm

section
variable {pre : Machine → Prop} {output : String} (hg : g.Confined)
  (hroom : Room here c g.workRoot "concat-" written made removed)
  (hparent : Tries pre (makeParent output "create") (fun _ => Holds here c I) fun _ =>
    Holds here c I)
  (hpre : ∀ m, pre m → m.Holds here c I) (houtput : written (place here output))
  (hroot : ∀ p, Upward g.workRoot p → made (place here p))

include hg hroom hparent hpre houtput hroot in
theorem produce_keeps (parts : List String) :
    Tries pre (g.produce parts output) (fun _ => Holds here c I) fun _ => Holds here c I := by
  unfold produce
  refine .bind ((checkParts_keeps parts).bad_mono fun _ => hpre) fun _ => .bind hparent fun _ => ?_
  split
  · exact copySingle_keeps hI _ houtput
  · refine .bind (Workspace.create_holds hI _ _ hroot fun _ hw => hroom.made hw) fun w =>
      .assume fun hw => ?_
    exact closingAfter_keeps hI (join_keeps hI hg.transcoder (hroom.filled hw) parts houtput)
      (hroom.removed hw)

include hg hroom hparent hpre houtput hroot in
/-- **Joining parts touches nothing but the output and workspaces.** -/
theorem merge_keeps (parts : List String) :
    Tries pre (g.merge parts output) (fun _ => Holds here c I) fun _ => Holds here c I := by
  unfold merge
  refine .bind (produce_keeps hI hg hroom hparent hpre houtput hroot parts) fun _ => ?_
  refine .bind (.lift (Probe.estimate_holds hI hg.probe g.duration true g.fallback houtput))
    fun told => ?_
  split
  · exact .throw _ fun _ hm => hm
  · exact .pure _ fun _ hm => hm

end

end Merger

end

end Slideshow
