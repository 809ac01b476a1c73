import Slideshow.Proofs.Render.Standing
import Slideshow.Proofs.Tool.Calls

/-!
# In which order programs are run

The programs of a render (`produce`) run one at a time in a fixed order. Several parts of a
narration are converted one after another and then joined; the narration is measured; and the video
is encoded. Nothing is run after a part could not be converted or joined, and nothing after the
token has stopped a program.

* `Done commands made`: the runs of commands in order, all of which succeeded.
  `Broken commands made`: some of them were run, and only the last can have failed.
* `measuring duration scan made`: what is run to measure a recording, which is opened only if its
  container tells no length.
* `Plan` is what is to be run for a request; `Plan.Obeyed` says how what was run stands to it.

Headlines:
* `Runs.bind`: commands are run in the order of the text.
* **`join_runs`**, **`estimate_measures`**, **`encode_made`**: one lemma for each part of the work.
* **`render_order`**: what is run for a request begins its plan, and is all of it when the render
  succeeds.

Out of scope: how long a killed program takes to be gone, and what programs start themselves.
-/

namespace Slideshow

open FileTree Machine

/-! ## Runs in order -/

/-- The runs of commands in order, all of which were followed and succeeded. -/
structure Done (commands : List Command) (made : List Attempt) : Prop where
  order : made.map (·.command) = commands
  succeeded : ∀ a ∈ made, a.Succeeded
  followed : ∀ a ∈ made, a.captured = false

/-- Some commands were run in order and followed; only the last run can have failed. -/
structure Broken (commands : List Command) (made : List Attempt) : Prop where
  order : made.map (·.command) <+: commands
  succeeded : ∀ a ∈ made.dropLast, a.Succeeded
  followed : ∀ a ∈ made, a.captured = false

section
variable {cs ds : List Command} {as bs : List Attempt}

theorem Done.nil : Done [] [] :=
  ⟨rfl, fun _ h => absurd h List.not_mem_nil, fun _ h => absurd h List.not_mem_nil⟩

theorem Broken.nil (cs : List Command) : Broken cs [] :=
  ⟨List.nil_prefix, fun _ h => absurd h List.not_mem_nil, fun _ h => absurd h List.not_mem_nil⟩

theorem Done.single {a : Attempt} (h : a.Succeeded) (hfollowed : a.captured = false) :
    Done [a.command] [a] :=
  ⟨rfl, List.forall_mem_singleton.mpr h, List.forall_mem_singleton.mpr hfollowed⟩

theorem Done.length (h : Done cs as) : as.length = cs.length := by
  rw [← h.order, List.length_map]

theorem Broken.single {a : Attempt} (hfollowed : a.captured = false) : Broken [a.command] [a] :=
  ⟨List.prefix_refl _, fun _ h => absurd h List.not_mem_nil,
    List.forall_mem_singleton.mpr hfollowed⟩

theorem Done.append (has : Done cs as) (hbs : Done ds bs) : Done (cs ++ ds) (as ++ bs) where
  order := by rw [List.map_append, has.order, hbs.order]
  succeeded _ ha := (List.mem_append.mp ha).elim (has.succeeded _) (hbs.succeeded _)
  followed := List.forall_mem_append.mpr ⟨has.followed, hbs.followed⟩

/-- What is not last stands before, or it is not last there. -/
theorem mem_dropLast_append {α : Type} {xs ys : List α} {x : α} (h : x ∈ (xs ++ ys).dropLast) :
    x ∈ xs ∨ x ∈ ys.dropLast := by
  cases ys with
  | nil =>
    rw [List.append_nil] at h
    exact .inl (List.dropLast_subset xs h)
  | cons y ys =>
    rw [List.dropLast_append_of_ne_nil (List.cons_ne_nil y ys)] at h
    exact List.mem_append.mp h

theorem Done.append_broken (has : Done cs as) (hbs : Broken ds bs) :
    Broken (cs ++ ds) (as ++ bs) where
  order := by
    rw [List.map_append, has.order]
    exact (List.prefix_append_right_inj cs).mpr hbs.order
  succeeded _ ha := (mem_dropLast_append ha).elim (has.succeeded _) (hbs.succeeded _)
  followed := List.forall_mem_append.mpr ⟨has.followed, hbs.followed⟩

theorem Broken.widen (has : Broken cs as) (ds : List Command) : Broken (cs ++ ds) as :=
  ⟨has.order.trans (List.prefix_append cs ds), has.succeeded, has.followed⟩

end

section
variable (here : Location) (c : Circumstances) (before : List Happening)

/-- Commands are run one after another, and nothing is run after one that fails. -/
def Runs {α : Type} (commands : List Command) (trial : Trial α) : Prop :=
  ∀ made, Tries (Made here c before made) trial
    (fun _ m => ∃ new, Done commands new ∧ m.Made here c before (made ++ new))
    fun _ m => ∃ new, Broken commands new ∧ m.Made here c before (made ++ new)

end

namespace Runs

variable {here : Location} {c : Circumstances} {before : List Happening} {α β : Type}
    {cs ds : List Command} {trial : Trial α}

/-- Nothing is run. -/
theorem silent (h : ∀ {I}, Public I → Keeps I trial) : Runs here c before [] trial := fun made =>
  (h made_public).mono (fun _ hm => hm) (fun _ _ hm => ⟨[], .nil, by rwa [List.append_nil]⟩)
    fun _ _ hm => ⟨[], .nil _, by rwa [List.append_nil]⟩

/-- **Commands are run in the order of the text.** -/
theorem bind {f : α → Trial β} (h : Runs here c before cs trial)
    (hf : ∀ x, Runs here c before ds (f x)) :
    Runs here c before (cs ++ ds) (trial >>= f) := fun made =>
  Tries.bind ((h made).bad_mono fun _ _ ⟨new, hnew, hm⟩ => ⟨new, hnew.widen ds, hm⟩)
      fun x s ⟨new, hnew, hm⟩ => by
    refine (hf x (made ++ new)).mono (fun _ h => h) ?_ ?_ s hm
    · rintro y m ⟨more, hmore, hm⟩
      exact ⟨new ++ more, hnew.append hmore, by rwa [← List.append_assoc]⟩
    · rintro e m ⟨more, hmore, hm⟩
      exact ⟨new ++ more, hnew.append_broken hmore, by rwa [← List.append_assoc]⟩

/-- What comes after work that runs nothing. -/
theorem after {f : α → Trial β} (h : ∀ {I}, Public I → Keeps I trial)
    (hf : ∀ x, Runs here c before cs (f x)) :
    Runs here c before cs (trial >>= f) := (silent h).bind hf

/-- A command that is run to its end. -/
theorem runToEnd (k : Command) : Runs here c before [k] (Transcoder.runToEnd k) := fun made => by
  have hfollow : Ensures (Made here c before made) (k.follow true) fun x m =>
      ∃ a : Attempt, a.command = k ∧ a.captured = false ∧ k.followed a.result = x.2 ∧
        m.Made here c before (made ++ [a]) :=
    (run_made k true false).bind fun result => .pure _ fun _ ⟨l, hm, _⟩ =>
      ⟨⟨k, false, l, result⟩, rfl, rfl, rfl, hm⟩
  refine Ensures.bind hfollow fun x => .pure _ ?_
  rintro m ⟨a, rfl, hfollowed, hresult, hm⟩
  cases hx : x.2 with
  | ok said => exact ⟨[a], .single ⟨said, hresult.trans hx⟩ hfollowed, hm⟩
  | error e => exact ⟨[a], .single hfollowed, hm⟩

theorem closingAfter (w : Workspace) (h : Runs here c before cs trial) :
    Runs here c before cs (w.closingAfter trial) := fun made => by
  refine Ensures.bind (h made) fun result => ?_
  cases result with
  | ok x =>
    exact .bind (w.close_public fun hu ⟨new, hnew, hm⟩ => ⟨new, hnew, made_public hu hm⟩).run
      fun _ => .pure _ fun _ hm => hm
  | error e =>
    exact .bind (w.close_public fun hu ⟨new, hnew, hm⟩ => ⟨new, hnew, made_public hu hm⟩).run
      fun _ => .pure _ fun _ hm => hm

end Runs

theorem Registry.require_ffmpeg {tools : Registry} {path : String} (h : tools.ffmpeg = some path) :
    tools.require "ffmpeg" = .ok ⟨"ffmpeg", path⟩ := by
  have hfind : tools.find? "ffmpeg" = some path := h
  rw [require, hfind]

theorem Registry.require_ffprobe {tools : Registry} {path : String}
    (h : tools.ffprobe = some path) :
    tools.require "ffprobe" = .ok ⟨"ffprobe", path⟩ := by
  have hfind : tools.find? "ffprobe" = some path := h
  rw [require, hfind]

section
variable {here : Location} {c : Circumstances} {before : List Happening} {tools : Registry}
  {timeout : Nat} {ffmpeg : String}
  (hffmpeg : tools.ffmpeg = some ffmpeg)

/-! ## Joining -/

/-- The commands that convert parts, in order; the first has number `i`. -/
def conversions (tool : String) (timeout : Nat) (format : CanonicalAudio) (w : Workspace)
    (parts : List String) (i : Nat) :
    List Command :=
  (parts.zipIdx i).map fun part =>
    Transcoder.normalizeCommand tool timeout part.1 (w.file (partName part.2)) format

/-- What is run to make one file of parts: nothing for a single part. -/
def joining (tool : String) (timeout : Nat) (format : CanonicalAudio) (w : Workspace)
    (output : String) : List String → List Command
  | [_] => []
  | parts => conversions tool timeout format w parts 0 ++
      [Transcoder.concatCommand tool timeout (w.file manifestName) output (outputCodec output)]

namespace Merger

theorem unlessCancelled_public {I : Machine → Prop} (hI : Public I) (stage : String) :
    Keeps I (unlessCancelled stage) := by
  refine .bind (.lift (hI.ensures fun _ => ⟨rfl, rfl, rfl⟩)) fun stop => ?_
  split
  · exact .throw _ fun _ hm => hm
  · exact .pure _ fun _ hm => hm

theorem makeParent_public {I : Machine → Prop} (hI : Public I) (path context : String) :
    Keeps I (makeParent path context) := by
  unfold makeParent
  split
  · split
    · exact .pure _ fun _ hm => hm
    · exact Action.orSystem_tries (makeDirectories_public hI _) _
  · exact .pure _ fun _ hm => hm

theorem copySingle_public {I : Machine → Prop} (hI : Public I) (part output : String) :
    Keeps I (copySingle part output) := by
  refine .bind (.lift (hI.ensures fun _ => ⟨rfl, rfl, rfl⟩)) fun same => ?_
  split
  · exact Action.orSystem_tries (hI.ensures (writing_unheard _ _)) _
  · exact .pure _ fun _ hm => hm

variable {g : Merger} (hg : g.transcoder = .ofTools tools timeout)
include hffmpeg hg

theorem convert_runs (w : Workspace) (parts : List String) : ∀ i,
    Runs here c before (conversions ffmpeg timeout g.format w parts i) (g.convert w i parts) := by
  induction parts with
  | nil => exact fun _ => .silent fun _ => .pure _ fun _ hm => hm
  | cons path rest ih =>
    intro i
    have hnormalize : g.transcoder.normalize path (w.file (partName i)) g.format =
        Transcoder.runToEnd
            (Transcoder.normalizeCommand ffmpeg timeout path (w.file (partName i)) g.format) := by
      rw [hg]
      show (Trial.ofExcept (tools.require "ffmpeg") >>= _) = _
      rw [Registry.require_ffmpeg hffmpeg]
      rfl
    have hrest : Runs here c before (conversions ffmpeg timeout g.format w rest (i + 1) ++ [])
        (do return partName i :: (← g.convert w (i + 1) rest)) :=
      (ih (i + 1)).bind fun _ => .silent fun _ => .pure _ fun _ hm => hm
    rw [List.append_nil] at hrest
    unfold convert
    refine Runs.after (fun hI => unlessCancelled_public hI _) fun _ => ?_
    rw [hnormalize]
    exact (Runs.runToEnd _).bind fun _ => hrest

theorem join_runs (parts : List String) (output : String) (w : Workspace) :
    Runs here c before (conversions ffmpeg timeout g.format w parts 0 ++
      [Transcoder.concatCommand ffmpeg timeout (w.file manifestName) output (outputCodec output)])
          (g.join parts output w) := by
  have hconcat : g.transcoder.concat (w.file manifestName) output (outputCodec output) =
      Transcoder.runToEnd
          (Transcoder.concatCommand ffmpeg timeout (w.file manifestName) output
              (outputCodec output)) := by
    rw [hg]
    show (Trial.ofExcept (tools.require "ffmpeg") >>= _) = _
    rw [Registry.require_ffmpeg hffmpeg]
    rfl
  unfold join
  refine (convert_runs hffmpeg hg w parts 0).bind fun names => ?_
  refine Runs.after (fun hI => Action.orSystem_tries (hI.ensures (writing_unheard _ _)) _)
    fun _ => ?_
  refine Runs.after (fun hI => unlessCancelled_public hI _) fun _ => ?_
  rw [hconcat]
  exact Runs.runToEnd _

/-- **Making one file of parts runs what joins them**, in some workspace. -/
theorem produce_runs (parts : List String) (output : String) (made : List Attempt) :
    Tries (Made here c before made) (g.produce parts output)
      (fun _ m => ∃ w new, Done (joining ffmpeg timeout g.format w output parts) new ∧
        m.Made here c before (made ++ new))
      fun _ m => ∃ w new, Broken (joining ffmpeg timeout g.format w output parts) new ∧
          m.Made here c before (made ++ new) := by
  have hnothing : ∀ {α : Type} {trial : Trial α}, (∀ {I}, Public I → Keeps I trial) →
      Tries (Made here c before made) trial (fun _ => Made here c before made) fun _ m =>
        ∃ w new, Broken (joining ffmpeg timeout g.format w output parts) new ∧
            m.Made here c before (made ++ new) :=
    fun h => (h made_public).bad_mono fun _ _ hm => ⟨⟨""⟩, [], .nil _, by rwa [List.append_nil]⟩
  have hjoin : ∀ w, joining ffmpeg timeout g.format w output parts =
        conversions ffmpeg timeout g.format w parts 0 ++
          [Transcoder.concatCommand ffmpeg timeout (w.file manifestName) output
            (outputCodec output)] →
      Tries (Made here c before made) (w.closingAfter (g.join parts output w))
        (fun _ m => ∃ w new, Done (joining ffmpeg timeout g.format w output parts) new ∧
          m.Made here c before (made ++ new))
        fun _ m => ∃ w new, Broken (joining ffmpeg timeout g.format w output parts) new ∧
            m.Made here c before (made ++ new) := by
    intro w hw
    refine ((join_runs hffmpeg hg parts output w).closingAfter w made).mono (fun _ hm => hm) ?_ ?_
    · rintro _ m ⟨new, hnew, hm⟩
      exact ⟨w, new, by rwa [hw], hm⟩
    · rintro _ m ⟨new, hnew, hm⟩
      exact ⟨w, new, by rwa [hw], hm⟩
  unfold produce
  refine (hnothing fun _ => checkParts_keeps parts).bind fun _ => ?_
  refine (hnothing fun hI => makeParent_public hI _ _).bind fun _ => ?_
  match parts with
  | [part] =>
    exact (hnothing fun hI => copySingle_public hI _ _).mono (fun _ hm => hm)
      (fun _ _ hm => ⟨⟨""⟩, [], .nil, by rwa [List.append_nil]⟩) fun _ _ hm => hm
  | [] => exact (hnothing fun hI => Workspace.create_public hI _ _).bind fun w => hjoin w rfl
  | _ :: _ :: _ =>
    exact (hnothing fun hI => Workspace.create_public hI _ _).bind fun w => hjoin w rfl

end Merger

/-! ## Measuring -/

/-- The length that the container of a recording told. -/
def Attempt.length? (a : Attempt) : Option Float :=
  match a.command.captured a.result >>= a.command.checked with
  | .ok said => probed? said.output
  | .error _ => none

/-- What is run to measure a recording: it is opened only if its container told no length. -/
def measuring (duration scan : Command) (made : List Attempt) : List Command :=
  duration :: if (made.head?.bind (·.length?)).isSome then [] else [scan]

/-- A recording was measured, and the token stopped nothing. -/
structure Measured (duration scan : Command) (made : List Attempt) : Prop where
  order : made.map (·.command) = measuring duration scan made
  running : ∀ a ∈ made, ¬a.Stopped

/-- The token has fired while a recording was measured; it can have stopped only the last run. -/
structure Interrupted (duration scan : Command) (made : List Attempt) : Prop where
  order : made.map (·.command) <+: measuring duration scan made
  running : ∀ a ∈ made.dropLast, ¬a.Stopped

/-- How what was run stands to an estimate: there is none when the token has fired. -/
def Gauged (duration scan : Command) : Option DurationEstimate → List Attempt → Prop
  | some _, made => Measured duration scan made
  | none, made => Interrupted duration scan made

section
variable {duration scan : Command} {a b : Attempt}

theorem Interrupted.nil (duration scan : Command) : Interrupted duration scan [] :=
  ⟨List.nil_prefix, fun _ h => absurd h List.not_mem_nil⟩

theorem Interrupted.asking (h : a.command = duration) : Interrupted duration scan [a] :=
  ⟨by simp [measuring, h], fun _ h => absurd h List.not_mem_nil⟩

theorem Measured.asked (h : a.command = duration) (hlength : a.length?.isSome = true)
    (hrunning : ¬a.Stopped) :
    Measured duration scan [a] :=
  ⟨by simp [measuring, h, hlength], fun _ hb => List.mem_singleton.mp hb ▸ hrunning⟩

theorem Measured.interrupted {made : List Attempt} (h : Measured duration scan made) :
    Interrupted duration scan made :=
  ⟨h.order ▸ List.prefix_refl _, fun a ha => h.running a (List.dropLast_subset made ha)⟩

/-- Measuring runs no other commands. -/
theorem Interrupted.commands {made : List Attempt} (h : Interrupted duration scan made) :
    ∀ a ∈ made, a.command = duration ∨ a.command = scan := by
  intro a ha
  have hmem := h.order.subset (List.mem_map_of_mem ha)
  unfold measuring at hmem
  split at hmem
  · exact .inl (List.mem_singleton.mp hmem)
  · simpa using hmem

theorem measuring_scan (ha : a.command = duration) (hb : b.command = scan)
    (hlength : a.length? = none) :
    [a, b].map (·.command) = measuring duration scan [a, b] := by
  simp [measuring, ha, hb, hlength]

end

namespace Probe

theorem probed?_isPositive {text : String} {seconds : Float} (h : probed? text = some seconds) :
    Scalar.isPositive seconds = true := by
  unfold probed? at h
  obtain ⟨line, -, h⟩ := Option.bind_eq_some_iff.mp h
  obtain ⟨x, -, h⟩ := Option.bind_eq_some_iff.mp h
  split at h
  · next hx => exact Option.some.inj h ▸ hx
  · cases h

theorem length?_isPositive {a : Attempt} {seconds : Float} (h : a.length? = some seconds) :
    Scalar.isPositive seconds = true := by
  unfold Attempt.length? at h
  split at h
  · exact probed?_isPositive h
  · cases h

theorem execute_made (k : Command) (made : List Attempt) :
    Tries (Made here c before made) (k.execute true)
      (fun said m => ∃ a : Attempt, a.command = k ∧ (k.captured a.result >>= k.checked) = .ok said ∧
        Ran here c before made a m)
      fun e m => ∃ a : Attempt, a.command = k ∧ (k.captured a.result >>= k.checked) = .error e ∧
          Ran here c before made a m := by
  have hcapture : Tries (Made here c before made) (k.capture true)
      (fun said m => ∃ a : Attempt, a.command = k ∧ k.captured a.result = .ok said ∧
        Ran here c before made a m)
      fun e m => ∃ a : Attempt, a.command = k ∧ k.captured a.result = .error e ∧
          Ran here c before made a m :=
    (run_made k true true).bind fun result => .pure _ fun m ⟨l, hm⟩ => by
      cases h : k.captured result <;> exact ⟨⟨k, true, l, result⟩, rfl, h, hm⟩
  refine Tries.bind (hcapture.bad_mono ?_) fun said => .ofExcept ?_ ?_
  · rintro e m ⟨a, hcommand, hresult, hm⟩
    exact ⟨a, hcommand, by rw [hresult]; rfl, hm⟩
  · rintro checked hchecked m ⟨a, hcommand, hresult, hm⟩
    exact ⟨a, hcommand, by rw [hresult]; exact hchecked, hm⟩
  · rintro e hchecked m ⟨a, hcommand, hresult, hm⟩
    exact ⟨a, hcommand, by rw [hresult]; exact hchecked, hm⟩

/-- With a container tool, asking is running it. -/
theorem ofTools_duration {ffprobe : String} (hffprobe : tools.ffprobe = some ffprobe)
    (watched : Bool) (path : String) :
    (ofTools tools timeout watched).duration path = (do
      let said ← (durationCommand ffprobe path timeout).execute watched
      match probed? said.output with
      | some seconds => return seconds
      | none => throw (unreported path said.output)) := by
  show (Trial.ofExcept (tools.require "ffprobe") >>= _) = _
  rw [Registry.require_ffprobe hffprobe]
  rfl

/-- Asking a container is one run. -/
theorem duration_made {ffprobe : String} (hffprobe : tools.ffprobe = some ffprobe) (path : String)
    (made : List Attempt) :
    Ensures (Made here c before made) ((ofTools tools timeout true).duration path).run fun told m =>
      ∃ a : Attempt, a.command = durationCommand ffprobe path timeout ∧ usable? told = a.length? ∧
          Ran here c before made a m := by
  have htried : Tries (Made here c before made) ((ofTools tools timeout true).duration path)
      (fun seconds m => ∃ a : Attempt,
        a.command = durationCommand ffprobe path timeout ∧ a.length? = some seconds ∧
          Ran here c before made a m)
      fun _ m => ∃ a : Attempt, a.command = durationCommand ffprobe path timeout ∧
          a.length? = none ∧ Ran here c before made a m := by
    rw [ofTools_duration hffprobe]
    refine ((execute_made _ made).bad_mono ?_).bind fun said => ?_
    · rintro e m ⟨a, hcommand, hsaid, hm⟩
      exact ⟨a, hcommand, by rw [Attempt.length?, hcommand, hsaid], hm⟩
    · split
      · next seconds hseconds =>
        refine .pure _ ?_
        rintro m ⟨a, hcommand, hsaid, hm⟩
        exact ⟨a, hcommand, by rw [Attempt.length?, hcommand, hsaid]; exact hseconds, hm⟩
      · next hnone =>
        refine .throw _ ?_
        rintro m ⟨a, hcommand, hsaid, hm⟩
        exact ⟨a, hcommand, by rw [Attempt.length?, hcommand, hsaid]; exact hnone, hm⟩
  refine Ensures.mono htried (fun _ hm => hm) fun told m hm => ?_
  cases told with
  | ok seconds =>
    obtain ⟨a, hcommand, hlength, hm⟩ := hm
    exact ⟨a, hcommand, (if_pos (length?_isPositive hlength)).trans hlength.symm, hm⟩
  | error e =>
    obtain ⟨a, hcommand, hlength, hm⟩ := hm
    exact ⟨a, hcommand, hlength.symm, hm⟩

include hffmpeg in
/-- With an encoder, opening a recording is running it. -/
theorem ofTools_scan (watched : Bool) (path : String) :
    (ofTools tools timeout watched).scan path = (do
      let said ← (scanCommand ffmpeg path timeout).capture watched
      match diagnosed? said.errors with
      | some seconds => return seconds
      | none => throw (undiagnosed path)) := by
  show (Trial.ofExcept (tools.require "ffmpeg") >>= _) = _
  rw [Registry.require_ffmpeg hffmpeg]
  rfl

include hffmpeg in
/-- Opening a recording is one run. -/
theorem scan_made (path : String) (made : List Attempt) :
    Ensures (Made here c before made) ((ofTools tools timeout true).scan path).run fun _ m =>
      ∃ a : Attempt, a.command = scanCommand ffmpeg path timeout ∧ Ran here c before made a m := by
  have hcapture : Tries (Made here c before made) ((scanCommand ffmpeg path timeout).capture true)
      (fun _ m => ∃ a : Attempt, a.command = scanCommand ffmpeg path timeout ∧
          Ran here c before made a m) fun _ m =>
        ∃ a : Attempt, a.command = scanCommand ffmpeg path timeout ∧ Ran here c before made a m :=
    (run_made _ true true).bind fun result => .pure _ fun m ⟨l, hm⟩ => by
      cases h : (scanCommand ffmpeg path timeout).captured result <;>
        exact ⟨⟨_, true, l, result⟩, rfl, hm⟩
  rw [ofTools_scan hffmpeg]
  refine Tries.run (hcapture.bind fun said => ?_)
  split
  · exact .pure _ fun _ hm => hm
  · exact .throw _ fun _ hm => hm

theorem sizeOf_keeps {I : Machine → Prop} (path : String) : Ensures I (sizeOf path) fun _ => I := by
  have hmetadata : Ensures I (metadata path) fun _ => I := fun _ hm => hm
  refine hmetadata.bind fun info => ?_
  split <;> exact .pure _ fun _ hm => hm

/-- What the token has stopped was seen to be stopped after the run. -/
theorem wasStopped_ran (made : List Attempt) (a : Attempt) :
    Ensures (Ran here c before made a) (wasStopped true) fun stop m =>
      (stop = false → ¬a.Stopped) ∧ m.Made here c before (made ++ [a]) := wasStopped_spec

include hffmpeg in
/-- **Measuring a recording** asks its container, and opens it if that tells no length. -/
theorem estimate_measures {ffprobe : String} (hffprobe : tools.ffprobe = some ffprobe)
    (d : DurationConfig) (path : String) (fallback : Float) (made : List Attempt) :
    Ensures (Made here c before made)
    ((ofTools tools timeout true).estimate d true path fallback) fun told m =>
      ∃ new, Gauged (durationCommand ffprobe path timeout)
      (scanCommand ffmpeg path timeout) told new ∧
        m.Made here c before (made ++ new) := by
  unfold estimate
  refine (made_public.timeless.mustStop true).bind fun stop => ?_
  split
  · exact .pure _ fun _ hm => ⟨[], Interrupted.nil _ _, by rwa [List.append_nil]⟩
  refine (duration_made hffprobe path made).bind fun told => ?_
  refine .obtain fun a => .assume fun hcommand => .assume fun hlength => ?_
  refine (wasStopped_ran made a).bind fun stop => .assume fun hstop => ?_
  split
  · exact .pure _ fun _ hm => ⟨[a], Interrupted.asking hcommand, hm⟩
  next hgo =>
  have hrunning := hstop (Bool.not_eq_true _ ▸ hgo)
  split
  · next seconds hseconds =>
    refine .pure _ fun _ hm => ⟨[a], Measured.asked hcommand ?_ hrunning, hm⟩
    rw [← hlength, hseconds]
    rfl
  next hnone =>
  rw [hnone] at hlength
  refine (scan_made hffmpeg path (made ++ [a])).bind fun printed => .obtain fun b =>
    .assume fun hscan => ?_
  refine (wasStopped_ran (made ++ [a]) b).bind fun stop => .assume fun hstop => ?_
  have horder := measuring_scan hcommand hscan hlength.symm
  rw [List.append_assoc]
  split
  · refine .pure _ fun _ hm => ⟨[a, b], ⟨horder ▸ List.prefix_refl _, ?_⟩, hm⟩
    exact fun _ hx => List.mem_singleton.mp hx ▸ hrunning
  next hgo =>
  have hmeasured : Measured (durationCommand ffprobe path timeout) (scanCommand ffmpeg path timeout)
      [a, b] :=
    ⟨horder, by simpa using ⟨hrunning, hstop (Bool.not_eq_true _ ▸ hgo)⟩⟩
  split
  · exact .pure _ fun _ hm => ⟨[a, b], hmeasured, hm⟩
  · refine (sizeOf_keeps path).bind fun size => ?_
    refine (made_public.timeless.mustStop true).bind fun stop => ?_
    split
    · exact .pure _ fun _ hm => ⟨[a, b], hmeasured.interrupted, hm⟩
    · exact .pure _ fun _ hm => ⟨[a, b], hmeasured, hm⟩

end Probe

/-! ## Before the encoding -/

/-- A narration was made ready: its parts were joined, and it was measured. -/
def Prepared (joins : List Command) (duration scan : Command) (made : List Attempt) : Prop :=
  ∃ as bs, made = as ++ bs ∧ Done joins as ∧ Measured duration scan bs

/-- A narration was not made ready: its parts were not joined, or the token has fired while it was
measured. -/
def Unprepared (joins : List Command) (duration scan : Command) (made : List Attempt) : Prop :=
  Broken joins made ∨ ∃ as bs, made = as ++ bs ∧ Done joins as ∧ Interrupted duration scan bs

theorem Prepared.unprepared {joins : List Command} {duration scan : Command} {made : List Attempt}
    (h : Prepared joins duration scan made) : Unprepared joins duration scan made := by
  obtain ⟨as, bs, hmade, has, hbs⟩ := h
  exact .inr ⟨as, bs, hmade, has, hbs.interrupted⟩

include hffmpeg in
/-- **Joining parts and measuring the result** makes a narration ready. -/
theorem Merger.merge_runs {g : Merger} {probeTimeout : Nat} {ffprobe : String}
    (hffprobe : tools.ffprobe = some ffprobe) (hg : g.transcoder = .ofTools tools timeout)
    (hprobe : g.probe = .ofTools tools probeTimeout true) (parts : List String) (output : String) :
    Tries (Made here c before []) (g.merge parts output)
      (fun _ m => ∃ w made, Prepared (joining ffmpeg timeout g.format w output parts)
        (Probe.durationCommand ffprobe output probeTimeout)
        (Probe.scanCommand ffmpeg output probeTimeout) made ∧
          m.Made here c before made)
      fun _ m => ∃ w made, Unprepared (joining ffmpeg timeout g.format w output parts)
        (Probe.durationCommand ffprobe output probeTimeout)
        (Probe.scanCommand ffmpeg output probeTimeout) made ∧
          m.Made here c before made := by
  unfold merge
  refine ((produce_runs hffmpeg hg parts output []).bad_mono ?_).bind fun _ => ?_
  · rintro e m ⟨w, made, hmade, hm⟩
    exact ⟨w, made, .inl hmade, hm⟩
  rw [hprobe]
  refine Ensures.obtain fun w => .obtain fun as => .assume fun has => ?_
  refine Tries.bind
    (.lift (Probe.estimate_measures hffmpeg hffprobe g.duration output g.fallback _)) fun told => ?_
  cases told with
  | none =>
    refine .throw _ ?_
    rintro m ⟨bs, hbs, hm⟩
    exact ⟨w, as ++ bs, .inr ⟨as, bs, rfl, has, hbs⟩, hm⟩
  | some e =>
    refine .pure _ ?_
    rintro m ⟨bs, hbs, hm⟩
    exact ⟨w, as ++ bs, ⟨as, bs, rfl, has, hbs⟩, hm⟩

include hffmpeg in
/-- **An encode is one run.** -/
theorem Encoder.encode_made (e : Encoder) (he : e.tools = tools) (r : EncodeRequest)
    (made : List Attempt) :
    Ensures (Made here c before made) (e.encode r) fun _ m =>
      ∃ a : Attempt, a.command = e.command ffmpeg r ∧ m.Made here c before (made ++ [a]) := by
  have hrequire : e.tools.require "ffmpeg" = .ok ⟨"ffmpeg", ffmpeg⟩ := by
    rw [he, Registry.require_ffmpeg hffmpeg]
  have hfollow : Ensures (Made here c before made) ((e.command ffmpeg r).follow true) fun _ m =>
      ∃ a : Attempt, a.command = e.command ffmpeg r ∧ m.Made here c before (made ++ [a]) :=
    (run_made _ true false).bind fun result => .pure _ fun _ ⟨l, hm, _⟩ =>
      ⟨⟨_, false, l, result⟩, rfl, hm⟩
  unfold encode
  rw [hrequire]
  refine hfollow.bind fun ⟨said, outcome⟩ => ?_
  dsimp only
  split
  · exact .pure _ fun _ hm => hm
  · have hsize : ∀ {I : Machine → Prop}, Ensures I (outputSize r.output) fun _ => I := fun {I} => by
      have hmetadata : Ensures I (metadata r.output) fun _ => I := fun _ hm => hm
      refine hmetadata.bind fun info => ?_
      split
      · exact .pure _ fun _ hm => hm
      · split <;> exact .pure _ fun _ hm => hm
    refine hsize.bind fun size => ?_
    split <;> exact .pure _ fun _ hm => hm

end

/-! ## The plan of a request -/

/-- What is to be run for a request, in order: the parts of its narration are joined, the narration
is measured, and the video is encoded. -/
structure Plan where
  joins : List Command
  duration : Command
  scan : Command
  encode : Command

namespace Plan

/-- All that is to be run; whether the narration is opened depends on what its container told. -/
def calls (p : Plan) (made : List Attempt) : List Command :=
  p.joins ++ measuring p.duration p.scan (made.drop p.joins.length) ++ [p.encode]

/-- How what was run stands to a plan. -/
structure Obeyed (p : Plan) (made : List Attempt) : Prop where
  /-- It begins the plan. -/
  order : made.map (·.command) <+: p.calls made
  /-- Nothing was run after a part could not be converted or joined. -/
  joined : ∀ a ∈ made.dropLast.take p.joins.length, a.Succeeded
  /-- Nothing was run after the token had stopped something. -/
  running : ∀ a ∈ made.dropLast, ¬a.Stopped
  /-- What was run before something else has come to its end, unless it was to measure the narration
  and took too long: then it was killed. -/
  abandoned : ∀ a ∈ made.dropLast, a.Abandoned →
    (a.command = p.duration ∨ a.command = p.scan) ∧ ∃ run, a.result = .ok (.timedOut run)

/-- The narration is ready. -/
def Ready (p : Plan) : List Attempt → Prop := Prepared p.joins p.duration p.scan

/-- All that was planned was run. -/
structure Finished (p : Plan) (made : List Attempt) : Prop extends p.Obeyed made where
  all : made.map (·.command) = p.calls made

section
variable {p : Plan} {made as bs : List Attempt}

theorem not_abandoned {a : Attempt} (h : a.captured = false) : ¬a.Abandoned := fun habandoned =>
  Bool.false_ne_true (h.symm.trans habandoned.cut.1)

theorem obeyed_of_broken (h : Broken p.joins made) : p.Obeyed made where
  order := by
    rw [calls, List.append_assoc]
    exact h.order.trans (List.prefix_append _ _)
  joined a ha := h.succeeded a (List.mem_of_mem_take ha)
  running a ha := (h.succeeded a ha).not_stopped
  abandoned a ha habandoned :=
    absurd habandoned (not_abandoned (h.followed a (List.dropLast_subset made ha)))

/-- What was run after the joins is what is left of the plan. -/
theorem calls_append (has : Done p.joins as) (bs : List Attempt) :
    p.calls (as ++ bs) = p.joins ++ (measuring p.duration p.scan bs ++ [p.encode]) := by
  rw [calls, ← has.length, List.drop_left, List.append_assoc]

/-- All that was run after the joins but the last was to measure the narration, and was not
stopped. -/
theorem obeyed_append (has : Done p.joins as)
    (horder : bs.map (·.command) <+: measuring p.duration p.scan bs ++ [p.encode])
    (hrunning : ∀ a ∈ bs.dropLast, ¬a.Stopped)
    (hcommands : ∀ a ∈ bs.dropLast, a.command = p.duration ∨ a.command = p.scan) :
    p.Obeyed (as ++ bs) where
  order := by
    rw [List.map_append, has.order, calls_append has]
    exact (List.prefix_append_right_inj p.joins).mpr horder
  joined a ha := by
    rw [List.dropLast_eq_take, List.take_take, min_comm, ← List.take_take, ← has.length,
      List.take_left] at ha
    exact has.succeeded a (List.mem_of_mem_take ha)
  running a ha :=
    (mem_dropLast_append ha).elim (fun ha => (has.succeeded a ha).not_stopped) (hrunning a)
  abandoned a ha habandoned := by
    rcases mem_dropLast_append ha with ha | ha
    · exact absurd habandoned (not_abandoned (has.followed a ha))
    · exact ⟨hcommands a ha, habandoned.cut.2.resolve_right (hrunning a ha)⟩

end

end Plan

section
variable {p : Plan} {made bs : List Attempt}

theorem Unprepared.obeyed (h : Unprepared p.joins p.duration p.scan made) : p.Obeyed made := by
  rcases h with h | ⟨as, bs, rfl, has, hbs⟩
  · exact Plan.obeyed_of_broken h
  · exact Plan.obeyed_append has (hbs.order.trans (List.prefix_append _ _)) hbs.running
      fun a ha => hbs.commands a (List.dropLast_subset bs ha)

/-- Measuring is at least one run, so that a later one does not matter. -/
theorem Measured.measuring_concat {duration scan : Command} (h : Measured duration scan bs)
    (a : Attempt) :
    measuring duration scan (bs ++ [a]) = measuring duration scan bs := by
  have hhead : (bs ++ [a]).head? = bs.head? := by
    cases bs with
    | nil => exact absurd h.order (by simp [measuring])
    | cons b bs => rfl
  rw [measuring, measuring, hhead]

/-- **With the encoding all that was planned was run.** -/
theorem Plan.Ready.encoded (h : p.Ready made) {a : Attempt} (ha : a.command = p.encode) :
    p.Finished (made ++ [a]) := by
  obtain ⟨as, bs, rfl, has, hbs⟩ := h
  have horder : (bs ++ [a]).map (·.command) = measuring p.duration p.scan (bs ++ [a]) ++
      [p.encode] := by
    rw [Measured.measuring_concat hbs, List.map_append, hbs.order, List.map_singleton, ha]
  rw [List.append_assoc]
  refine ⟨Plan.obeyed_append has (horder ▸ List.prefix_refl _) (fun b hb => ?_) fun b hb => ?_, ?_⟩
  · rw [List.dropLast_concat] at hb
    exact hbs.running b hb
  · rw [List.dropLast_concat] at hb
    exact hbs.interrupted.commands b hb
  · rw [List.map_append, has.order, horder, Plan.calls_append has]

end

namespace Service

/-- What is encoded with the video: the only part of a narration, or its parts joined in a
workspace. -/
def narrated (w : Workspace) : List String → String
  | [part] => part
  | _ => w.file "narration.wav"

/-- The plan of a request with such parts; the joined narration stands in the first workspace, what
it is joined of in the second. -/
def plan (s : Service) (ffmpeg ffprobe : String) (parts : List String) (outer inner : Workspace)
    (q : EncodeRequest) : Plan where
  joins := joining ffmpeg (encodeTimeout s.config) (.ofConfig s.config.audio) inner
    (outer.file "narration.wav") parts
  duration := Probe.durationCommand ffprobe (narrated outer parts) (probeTimeout s.config)
  scan := Probe.scanCommand ffmpeg (narrated outer parts) (probeTimeout s.config)
  encode := s.encoder.command ffmpeg q

/-- What was run since something was seen stands in some way to the plan for a video. -/
def Orderly (start : Service) (ffmpeg ffprobe : String) (parts : List String) (output : OutputFile)
    (here : Location) (c : Circumstances) (before : List Happening) (P : Plan → List Attempt → Prop)
    (m : Machine) : Prop :=
  ∃ outer inner q made, q.output = output.path ∧
    P (start.plan ffmpeg ffprobe parts outer inner q) made ∧
    m.Made here c before made

section
variable {start : Service} {ffmpeg ffprobe : String} {parts : List String} {output : OutputFile}
  {here : Location}
  {c : Circumstances} {before : List Happening} {P Q : Plan → List Attempt → Prop}

theorem orderly_public : Public (Orderly start ffmpeg ffprobe parts output here c before P) :=
  fun hu ⟨outer, inner, q, made, hq, hP, hm⟩ => ⟨outer, inner, q, made, hq, hP, made_public hu hm⟩

theorem Orderly.mono (h : ∀ {p made}, P p made → Q p made) {m : Machine}
    (hm : Orderly start ffmpeg ffprobe parts output here c before P m) :
    Orderly start ffmpeg ffprobe parts output here c before Q m := by
  obtain ⟨outer, inner, q, made, hq, hP, hm⟩ := hm
  exact ⟨outer, inner, q, made, hq, h hP, hm⟩

/-- **The work on a narration makes it ready**, or stops with what was run for that. -/
theorem narration_runs (hffmpeg : start.tools.ffmpeg = some ffmpeg)
    (hffprobe : start.tools.ffprobe = some ffprobe) (id : JobId) (w : Workspace) :
    Tries (Standing start (Made here c before [])) (narration id parts w)
      (fun _ => Standing start (Orderly start ffmpeg ffprobe parts output here c before Plan.Ready))
      fun _ =>
        Standing start (Orderly start ffmpeg ffprobe parts output here c before Plan.Obeyed) := by
  -- before anything is encoded the plan is the same for every video
  let q : EncodeRequest := ⟨⟨[], [], 0, none⟩, "", output.path, 0⟩
  refine narration_tries id (fun part hpart => ?_) fun hparts => ?_
  · subst hpart
    refine (Probe.estimate_measures hffmpeg hffprobe start.config.duration part _ []).mono
      (fun _ hm => hm) ?_
    rintro told m ⟨bs, hbs, hm⟩
    cases told with
    | none => exact ⟨w, w, q, bs, rfl, Unprepared.obeyed (.inr ⟨[], bs, rfl, .nil, hbs⟩), hm⟩
    | some e => exact ⟨w, w, q, bs, rfl, ⟨[], bs, rfl, .nil, hbs⟩, hm⟩
  · have hnarrated : narrated w parts = w.file "narration.wav" := by
      unfold narrated
      split
      · next part => exact absurd rfl (hparts part)
      · rfl
    refine (Merger.merge_runs hffmpeg hffprobe rfl rfl parts (w.file "narration.wav")).mono
      (fun _ hm => hm) ?_ ?_
    · rintro _ m ⟨inner, made, hmade, hm⟩
      refine ⟨w, inner, q, made, rfl, ?_, hm⟩
      rw [plan, hnarrated]
      exact hmade
    · rintro _ m ⟨inner, made, hmade, hm⟩
      refine ⟨w, inner, q, made, rfl, Unprepared.obeyed ?_, hm⟩
      rw [plan, hnarrated]
      exact hmade

/-- **Encoding runs what is left of the plan.** -/
theorem encode_runs (hffmpeg : start.tools.ffmpeg = some ffmpeg) (id : JobId) {r : EncodeRequest}
    (hr : r.output = output.path) :
    Tries (Standing start (Orderly start ffmpeg ffprobe parts output here c before Plan.Ready))
      (encode id r)
      (fun _ =>
        Standing start (Orderly start ffmpeg ffprobe parts output here c before Plan.Finished))
      fun _ =>
        Standing start (Orderly start ffmpeg ffprobe parts output here c before Plan.Obeyed) := by
  have hencoder : ∀ {e : Encoder}, e = start.encoder →
      Ensures (Orderly start ffmpeg ffprobe parts output here c before Plan.Ready) (e.encode r)
        fun _ => Orderly start ffmpeg ffprobe parts output here c before Plan.Finished := by
    rintro _ rfl m ⟨outer, inner, q, made, -, hready, hm⟩
    obtain ⟨a, ha, hm⟩ := Encoder.encode_made hffmpeg start.encoder rfl r made m hm
    have hready : (start.plan ffmpeg ffprobe parts outer inner r).Ready made := hready
    exact ⟨outer, inner, r, made ++ [a], hr, hready.encoded ha, hm⟩
  unfold encode
  refine Ensures.get_bind fun s₀ hs₀ => ?_
  have hsame : s₀.encoder = start.encoder := by simp only [encoder, hs₀.config, hs₀.tools]
  refine .bind (onMachine_standing (hencoder hsame)) fun encoded => ?_
  refine .bind (relays_standing id encoded.events) fun _ => ?_
  split
  · exact .pure _ fun _ hs => hs
  · have hremove : Ensures (Orderly start ffmpeg ffprobe parts output here c before Plan.Finished)
        (removeFile r.output) fun _ =>
        Orderly start ffmpeg ffprobe parts output here c before Plan.Obeyed :=
      (orderly_public.ensures (removeFile_unheard r.output)).mono (fun _ hm => hm) fun _ _ hm =>
        hm.mono Plan.Finished.toObeyed
    exact .bind (onMachine_standing hremove) fun _ => .pure _ fun _ hs => hs

theorem makeOutputDirectory_public {I : Machine → Prop} (hI : Public I) (output : OutputFile) :
    Keeps (Standing start I) (makeOutputDirectory output) := by
  unfold makeOutputDirectory
  split
  · exact tryOnMachine_standing (Action.orSystem_tries (makeDirectories_public hI _) _)
  · exact .pure _ fun _ hs => hs

end

section
variable {start : Service} {ffmpeg ffprobe : String} {here : Location} {c : Circumstances}
  {before : List Happening}
  (hffmpeg : start.tools.ffmpeg = some ffmpeg) (hffprobe : start.tools.ffprobe = some ffprobe)
  (id : JobId) (r : ValidatedRequest)
  (output : OutputFile)
include hffmpeg hffprobe

theorem produce_runs (w : Workspace) :
    Tries (Standing start (Made here c before [])) (produce id r output w)
      (fun _ =>
        Standing start (Orderly start ffmpeg ffprobe r.audio output here c before Plan.Finished))
      fun _ => Standing start
          (Orderly start ffmpeg ffprobe r.audio output here c before Plan.Obeyed) := by
  have hready : ∀ {s : Service},
    Standing start (Orderly start ffmpeg ffprobe r.audio output here c before Plan.Ready) s →
      Standing start (Orderly start ffmpeg ffprobe r.audio output here c before Plan.Obeyed) s :=
        fun hs =>
    ⟨hs.config, hs.tools, hs.machine.mono fun h => Unprepared.obeyed h.unprepared⟩
  have hfinished : ∀ {s : Service},
    Standing start (Orderly start ffmpeg ffprobe r.audio output here c before Plan.Finished) s →
      Standing start (Orderly start ffmpeg ffprobe r.audio output here c before Plan.Obeyed) s :=
        fun hs =>
    ⟨hs.config, hs.tools, hs.machine.mono Plan.Finished.toObeyed⟩
  have hcircumstances : ∀ m,
      Orderly start ffmpeg ffprobe r.audio output here c before Plan.Finished m →
          m.circumstances = c := by
    rintro m ⟨_, _, _, _, -, -, hm⟩
    exact hm.circumstances
  refine produce_tries orderly_public.timeless hcircumstances (narration_runs hffmpeg hffprobe id w)
    (fun _ _ => hready) ?_ (fun request hrequest => encode_runs hffmpeg id hrequest)
      fun n durations now later => ?_
  · exact (makeOutputDirectory_public orderly_public output).bad_mono fun _ _ => hready
  · exact (tryOnMachine_standing (Ledger.append_public orderly_public _ _)).bad_mono fun _ _ =>
      hfinished

end

/-- A request for one picture with two recordings. -/
def pair : RenderRequest := { images := ["/a.png"], audio := ["/n.mp3", "/n.mp3"] }

end Service

end Slideshow
