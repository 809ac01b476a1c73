import Slideshow.Proofs.Render.Progress

/-!
# How an encode ends

An encode (`run_encode`, `output_size`) ends once, and what was told of it, its states and its
result say the same. It should succeed exactly when the encoder's run does and has left a file that
is not empty. What stands at the output is not looked at any closer than its size, so that a
directory there will do as well.

* `Encoder.Ends` is how events, states and result go together, with one constructor for each way to
  end.
* `Encoder.OfRun` is what they have to do with the run of the encoder.
* `outputSize_sized`: what the look at the output can find.

Headlines:
* **`Encoder.encode_ends`**: every encode ends in one of the three ways, and as its run does.
* **`Encoder.directory_counts`**: an encode that leaves no file and succeeds.
-/

namespace Slideshow

/-- A path leads to a file that is not empty. -/
def Machine.HasFile (m : Machine) (path : String) : Prop :=
  ∃ size, m.files.metadata m.here path = .ok ⟨true, size⟩ ∧ size ≠ 0

/-- A path leads to a directory. -/
def Machine.HasDirectory (m : Machine) (path : String) : Prop :=
  m.files.metadata m.here path = .ok ⟨false, FileTree.directorySize⟩

/-- The token stops a command that is run on a machine. -/
def Machine.Stops (c : Command) (m : Machine) : Prop :=
  ∃ r, (Machine.run c.program c.arguments true false (some c.timeout) m).1 = .ok (.stopped r)

/-- What is there and not empty is a file or a directory. -/
theorem Machine.hasFile_or_hasDirectory (m : Machine) (path : String) :
    m.HasFile path ∨ m.HasDirectory path ↔ ∃ info, m.files.metadata m.here path = .ok info ∧
        info.size ≠ 0 := by
  constructor
  · rintro (⟨size, hfile, hsize⟩ | hdirectory)
    · exact ⟨_, hfile, hsize⟩
    · exact ⟨_, hdirectory, by decide⟩
  · rintro ⟨⟨isFile, size⟩, hmeta, hsize⟩
    cases isFile with
    | true => exact .inl ⟨size, hmeta, hsize⟩
    | false =>
      refine .inr ?_
      unfold HasDirectory
      unfold FileTree.metadata at hmeta ⊢
      split at hmeta
      · cases hmeta
      · cases hmeta
      · cases hmeta
      · rfl

namespace Command

variable {c : Command} {m : Machine}

/-- A run that the token stops is told as cancelled. -/
theorem follow_of_stops (h : m.Stops c) : (c.follow true m).1.2 = .error c.cancelled := by
  obtain ⟨r, hr⟩ := h
  show c.followed (Machine.run c.program c.arguments true false (some c.timeout) m).1 = _
  rw [hr]
  rfl

theorem checked_error {o : ToolOutput} {failure : Error} (h : c.checked o = .error failure) :
    ∃ reason, failure = .tool c.name reason := by
  unfold checked at h
  split at h
  · cases h
  · exact ⟨_, (Except.error.inj h).symm⟩

/-- A run that fails without being stopped is a failure of the tool. -/
theorem follow_failure {failure : Error} (h : (c.follow true m).1.2 = .error failure)
    (hstops : ¬ m.Stops c) :
    ∃ reason, failure = .tool c.name reason := by
  change c.followed (Machine.run c.program c.arguments true false (some c.timeout) m).1 = _ at h
  cases hrun : (Machine.run c.program c.arguments true false (some c.timeout) m).1 with
  | error e =>
    rw [hrun] at h
    exact ⟨_, (Except.error.inj h).symm⟩
  | ok outcome =>
    rw [hrun] at h
    cases outcome with
    | stopped r => exact absurd ⟨r, hrun⟩ hstops
    | timedOut r => exact ⟨_, (Except.error.inj h).symm⟩
    | finished r =>
      unfold followed at h
      dsimp only at h
      split at h
      · exact checked_error h
      · exact ⟨_, (Except.error.inj h).symm⟩

end Command

namespace Encoder

/-- How an encode ends: the events, the states and the result that go together. -/
inductive Ends (r : EncodeRequest) : Encoded → Prop
  /-- There was nothing to start. -/
  | unstarted (e : Error) : Ends r ⟨[.failed e.message], [.pending, .failed], .error e⟩
  /-- It failed on its way. -/
  | failed (line : String) (fractions : List Float) (e : Error) (rising : Rising fractions) :
      Ends r ⟨.started line :: fractions.map .progress ++ [.failed e.message],
        [.pending, .running, .failed], .error e⟩
  /-- It came to its end. -/
  | succeeded (line : String) (fractions : List Float) (bytes : Nat) (rising : Rising fractions)
      (last : fractions.getLast? = some 1) :
      Ends r ⟨.started line :: fractions.map .progress ++ [.succeeded r.output],
        [.pending, .running, .succeeded], .ok ⟨r.output, line, bytes⟩⟩

/-- What an encode has to do with the run of a command. -/
structure OfRun (c : Command) (r : EncodeRequest) (m : Machine) (encoded : Encoded) : Prop where
  /-- The command is told before it is run. -/
  started : encoded.events.head? = some (.started c.describe)
  running : encoded.states =
    [.pending, .running, if encoded.result.isOk then .succeeded else .failed]
  /-- It succeeds when the run does and something is there then that is not empty. -/
  succeeds : encoded.result.isOk = true ↔ (c.follow true m).1.2.isOk = true ∧
    ((c.follow true m).2.HasFile r.output ∨ (c.follow true m).2.HasDirectory r.output)
  /-- A run that the token stops is cancelled. -/
  cancelled : m.Stops c → encoded.result = .error c.cancelled
  /-- Every other failure is one to encode. -/
  failed : ∀ e, encoded.result = .error e → ¬ m.Stops c → ∃ reason, e = .encoding reason

/-- What was found at the output: a size, if something is there that is not empty. -/
structure Sized (output : String) (found : Except Error Nat) (m : Machine) : Prop where
  isOk_iff : found.isOk = true ↔ m.HasFile output ∨ m.HasDirectory output
  encoding : ∀ e, found = .error e → ∃ reason, e = .encoding reason

theorem outputSize_sized {pre : Machine → Prop} (output : String) :
    Ensures pre (outputSize output) fun found m => pre m ∧ Sized output found m := by
  have hmetadata : Ensures pre (Machine.metadata output) fun info m =>
      pre m ∧ m.files.metadata m.here output = info := fun _ hm => ⟨hm, rfl⟩
  unfold outputSize
  refine hmetadata.bind fun info => ?_
  split
  · refine .pure _ fun m ⟨hm, hmeta⟩ => ⟨hm, iff_of_false Bool.false_ne_true ?_, ?_⟩
    · rw [m.hasFile_or_hasDirectory, hmeta]
      exact fun ⟨_, hinfo, _⟩ => nomatch hinfo
    · exact fun _ he => ⟨_, (Except.error.inj he).symm⟩
  · next info =>
    split
    · next hzero =>
      refine .pure _ fun m ⟨hm, hmeta⟩ => ⟨hm, iff_of_false Bool.false_ne_true ?_, ?_⟩
      · rw [m.hasFile_or_hasDirectory, hmeta]
        rintro ⟨_, hinfo, hsize⟩
        rw [← Except.ok.inj hinfo] at hsize
        exact hsize (beq_iff_eq.mp hzero)
      · exact fun _ he => ⟨_, (Except.error.inj he).symm⟩
    · next hsize =>
      refine .pure _ fun m ⟨hm, hmeta⟩ => ⟨hm, iff_of_true rfl ?_, fun _ he => nomatch he⟩
      rw [m.hasFile_or_hasDirectory, hmeta]
      exact ⟨info, rfl, by simpa using hsize⟩

/-- **An encode with an encoder ends as its run does.** -/
theorem encode_ofRun {e : Encoder} {r : EncodeRequest} {tool : ToolConfig} (m : Machine)
    (h : e.tools.require "ffmpeg" = .ok tool) : Ensures (· = m) (e.encode r) fun encoded _ =>
      Ends r encoded ∧ OfRun (e.command tool.path r) r m encoded := by
  generalize hc : e.command tool.path r = c
  unfold encode
  rw [h]
  dsimp only
  rw [hc]
  refine (Ensures.here _ m).bind fun ⟨said, outcome⟩ => ?_
  have hrising := (progressOf_climbs said (.ofTotal r.seconds)).1.rising float_zero_le_zero
  obtain ⟨hend, hone⟩ := progressOf_finish r.seconds said
  dsimp only
  split
  · next failure =>
    refine .pure _ fun after hrun =>
      ⟨.failed _ _ _ hrising, rfl, rfl, ?_, fun hstops => ?_, fun e he hstops => ?_⟩
    · rw [hrun]
      exact iff_of_false Bool.false_ne_true fun hrun => Bool.false_ne_true hrun.1
    · have hcancelled := Command.follow_of_stops hstops
      rw [hrun] at hcancelled
      obtain rfl := Except.error.inj hcancelled
      rfl
    · obtain ⟨reason, rfl⟩ := Command.follow_failure (congrArg (·.1.2) hrun) hstops
      exact ⟨reason, (Except.error.inj he).symm⟩
  · refine (outputSize_sized r.output).bind fun found => ?_
    have hlive {after : Machine} {o : ToolOutput}
        (hrun : c.follow true m = ((said, .ok o), after)) : ¬ m.Stops c :=
      fun hstops => nomatch (Command.follow_of_stops hstops).symm.trans (congrArg (·.1.2) hrun)
    split
    · next failure =>
      refine .pure _ fun after ⟨hrun, hfound⟩ => ⟨.failed _ _ _ hrising, rfl, rfl, ?_,
        fun hstops => absurd hstops (hlive hrun), fun e he _ => hfound.encoding e ?_⟩
      · rw [hrun]
        exact iff_of_false Bool.false_ne_true fun hthere =>
          Bool.false_ne_true (hfound.isOk_iff.mpr hthere.2)
      · rw [← Except.error.inj he]
    · next bytes =>
      rw [List.cons_append, ← List.map_append]
      refine .pure _ fun after ⟨hrun, hfound⟩ =>
        ⟨.succeeded _ _ _ (hend.rising float_zero_le_zero) (getLast?_of_getLastD hone), rfl, rfl,
          ?_, fun hstops => absurd hstops (hlive hrun), fun _ he => nomatch he⟩
      rw [hrun]
      exact iff_of_true rfl ⟨rfl, hfound.isOk_iff.mp rfl⟩

/-- **Every encode ends once, and its events, states and result agree.** Without an encoder it has
not started. With one, it succeeds exactly when the run does and leaves a file that is not empty, or
a directory; a failure is a cancelled run or one to encode. -/
theorem encode_ends (e : Encoder) (r : EncodeRequest) (m : Machine) :
    Ends r (e.encode r m).1 ∧
    (∀ missing, e.tools.require "ffmpeg" = .error missing →
      (e.encode r m).1 = ⟨[.failed missing.message], [.pending, .failed], .error missing⟩) ∧
    ∀ tool, e.tools.require "ffmpeg" = .ok tool →
        OfRun (e.command tool.path r) r m (e.encode r m).1 := by
  cases h : e.tools.require "ffmpeg" with
  | error missing =>
    have hencode : (e.encode r m).1 =
        ⟨[.failed missing.message], [.pending, .failed], .error missing⟩ := by
      unfold encode
      rw [h]
      rfl
    rw [hencode]
    refine ⟨.unstarted missing, fun _ hmissing => ?_, fun _ htool => nomatch htool⟩
    rw [Except.error.inj hmissing]
  | ok tool =>
    obtain ⟨hends, hrun⟩ := encode_ofRun (r := r) m h m rfl
    refine ⟨hends, fun _ hmissing => (nomatch hmissing), fun _ htool => ?_⟩
    rwa [← Except.ok.inj htool]

/-- A machine with an encoder that writes something or nothing, and a directory. -/
def equipped (written : Option Content) : Machine where
  files :=
    ⟨[(["bin"], .directory), (["bin", "ffmpeg"], .program fun _ _ => { written := written }),
      (["out"], .directory)]⟩
  circumstances := { draw := fun _ _ => 0, jobId := .ofRandom, time := fun n => ⟨n, 0⟩ }

def plain : Encoder where
  tools := ⟨some "/bin/ffmpeg", none⟩
  settings := .ofConfig {}
  timeout := 1000

/-- An empty graph, to be encoded to some place. -/
def requestTo (output : String) : EncodeRequest := ⟨⟨[], [], 1, none⟩, "/n.mp3", output, 1⟩

/-- An encoder that writes a video succeeds. -/
theorem encode_ends_video : Ends (requestTo "/v")
    (plain.encode (requestTo "/v") (equipped (some (.ofText "video")))).1 ∧
    OfRun (plain.command "/bin/ffmpeg" (requestTo "/v")) (requestTo "/v")
    (equipped (some (.ofText "video")))
    (plain.encode (requestTo "/v") (equipped (some (.ofText "video")))).1 ∧
    (plain.encode (requestTo "/v") (equipped (some (.ofText "video")))).1.result.isOk = true := by
  obtain ⟨hends, -, hrun⟩ := encode_ends plain (requestTo "/v") (equipped (some (.ofText "video")))
  exact ⟨hends, hrun ⟨"ffmpeg", "/bin/ffmpeg"⟩ rfl, rfl⟩

/-- **An encoder that writes nothing succeeds** where a directory stands at the output. -/
theorem directory_counts : (plain.encode (requestTo "/out") (equipped none)).1.result.isOk = true ∧
    ¬ (plain.encode (requestTo "/out") (equipped none)).2.HasFile "/out" := by
  refine ⟨rfl, ?_⟩
  rintro ⟨size, hfile, -⟩
  have hdirectory : (plain.encode (requestTo "/out") (equipped none)).2.files.metadata
      (plain.encode (requestTo "/out") (equipped none)).2.here "/out" =
          .ok ⟨false, FileTree.directorySize⟩ := rfl
  cases hdirectory.symm.trans hfile

end Encoder

end Slideshow
