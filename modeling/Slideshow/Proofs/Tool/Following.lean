import Mathlib.Logic.Relation
import Slideshow.Tool.Process

/-!
# Following a child step by step

A call that follows a program (`execute_with_stderr_callback`) reads its diagnostics line by line
until they end, and then waits for the program to exit. `Command.follow` says what comes out; here
is what happens in between, as steps of the world and steps of the call, in any order.

* `World` is what the child, whoever has its diagnostics, the clock and the holder of the token can
  do: diagnostics may end long before the exit, or after it.
* `Call` is what the call can do about it, in each `Stage`.
* `Sound` is what every reachable state keeps.

Headlines:
* **`reaches_followed`**, **`returned_followed`**: the calls that return do so with what
  `Command.followed` gives for an outcome, and every outcome is that of a call.
* **`stoppable_while_reading`**: no call returns while its child lives. A call that reads can be
  stopped by the deadline and by the token. A call that has seen the end of the diagnostics cannot:
  it does nothing until the child exits.
-/

namespace Slideshow.Following

/-- Where a call stands. -/
inductive Stage where
  /-- It waits for a line, for the end of the diagnostics, for the deadline and for the token. -/
  | reading
  /-- It has seen the end of the diagnostics and waits for the exit. -/
  | waiting
  | returned (result : Except Error ToolOutput)

/-- A child and the call that follows it. -/
structure State where
  stage : Stage := .reading
  /-- The lines handed on so far. -/
  lines : List String := []
  /-- The lines that were written and not taken yet. -/
  pipe : List (List UInt8) := []
  /-- Whether nobody can write diagnostics any more. -/
  closed : Bool := false
  /-- How the child ended, if it did. -/
  ending : Option Ending := none
  /-- Whether the deadline has passed. -/
  expired : Bool := false
  /-- Whether the token has fired. -/
  fired : Bool := false

/-- The call kills the child, unless it has exited, and returns an error. -/
def State.killed (s : State) (e : Error) : State :=
  { s with stage := .returned (.error e), ending := s.ending <|> some (.killed 9) }

/-- A step that the call has no part in. -/
inductive World : State → State → Prop
  /-- A line is written, by the child or by somebody it gave its diagnostics to. -/
  | writes (s : State) (line : List UInt8) (hline : 10 ∉ line) (hopen : s.closed = false) :
      World s { s with pipe := s.pipe ++ [line] }
  | closes (s : State) : World s { s with closed := true }
  | exits (s : State) (e : Ending) (hlive : s.ending = none) : World s { s with ending := some e }
  | expires (s : State) : World s { s with expired := true }
  | fires (s : State) : World s { s with fired := true }

/-- A step of the call. -/
inductive Call (c : Command) : State → State → Prop
  | takes (s : State) (line : List UInt8) (rest : List (List UInt8)) (cs : List Char)
  (hreading : s.stage = .reading) (hpipe : s.pipe = line :: rest)
  (htext : Text.decode? line = some cs) :
      Call c s { s with pipe := rest, lines := s.lines ++ [String.ofList cs] }
  | givesUp (s : State) (line : List UInt8) (rest : List (List UInt8))
  (hreading : s.stage = .reading) (hpipe : s.pipe = line :: rest)
  (hnoText : Text.decode? line = none) : Call c s (s.killed c.unreadable)
  | drains (s : State) (hreading : s.stage = .reading) (hpipe : s.pipe = [])
  (hclosed : s.closed = true) :
      Call c s { s with stage := .waiting }
  | timesOut (s : State) (hreading : s.stage = .reading) (hexpired : s.expired = true) :
      Call c s (s.killed c.timedOut)
  | cancels (s : State) (hreading : s.stage = .reading) (hfired : s.fired = true) :
    Call c s (s.killed c.cancelled)
  | finishes (s : State) (e : Ending) (hwaiting : s.stage = .waiting)
  (hending : s.ending = some e) :
      Call c s { s with
        stage := .returned (c.checked ⟨e, "", "\n".intercalate (Command.tail s.lines)⟩) }

/-- A step of either. -/
def Step (c : Command) (s s' : State) : Prop := World s s' ∨ Call c s s'

def Steps (c : Command) : State → State → Prop := Relation.ReflTransGen (Step c)

/-- The states of a call whose child has just been started. -/
def Reach (c : Command) : State → Prop := Steps c {}

variable {c : Command} {s s' : State}

theorem Steps.world (h : World s s') : Steps c s s' := .single (.inl h)

theorem Steps.call (h : Call c s s') : Steps c s s' := .single (.inr h)

/-! ## Lines and bytes -/

/-- The bytes of lines. -/
def bytesOf (lines : List (List UInt8)) : List UInt8 := lines.flatMap (· ++ [13, 10])

theorem byteLines_append {line : List UInt8} (h : 10 ∉ line) (rest : List UInt8) :
    Command.byteLines (line ++ 13 :: 10 :: rest) = line :: Command.byteLines rest := by
  induction line with
  | nil => rfl
  | cons b line ih =>
    have hb : b ≠ 10 := (List.ne_of_not_mem_cons h).symm
    have hline : 10 ∉ line := List.not_mem_of_not_mem_cons h
    rw [List.cons_append, Command.byteLines.eq_4 _ _ hb ?_, ih hline]
    -- the line that goes on does not begin with the end of a line
    rintro r - hr
    cases line with
    | nil => simp at hr
    | cons b' line => exact hline (by rw [(List.cons.inj hr).1]; exact List.mem_cons_self)

theorem byteLines_bytesOf {lines : List (List UInt8)} (h : ∀ l ∈ lines, 10 ∉ l) :
    Command.byteLines (bytesOf lines) = lines := by
  induction lines with
  | nil => rfl
  | cons l ls ih =>
    rw [bytesOf, List.flatMap_cons, List.append_assoc, List.cons_append, List.cons_append,
      List.nil_append, byteLines_append (h l List.mem_cons_self)]
    exact congrArg (l :: ·) (ih fun l' hl' => h l' (List.mem_cons_of_mem _ hl'))

/-- No line has the end of a line in it. -/
theorem not_mem_of_mem_byteLines {bytes : List UInt8} : ∀ l ∈ Command.byteLines bytes, 10 ∉ l := by
  induction bytes using Command.byteLines.induct with
  | case1 => simp [Command.byteLines]
  | case2 r ih => simpa [Command.byteLines] using ih
  | case3 r ih => simpa [Command.byteLines] using ih
  | case4 b r hb hr hnil ih =>
    rw [Command.byteLines.eq_4 _ _ hb hr, hnil]
    simpa using Ne.symm hb
  | case5 b r hb hr l ls hcons ih =>
    rw [Command.byteLines.eq_4 _ _ hb hr, hcons]
    rw [hcons] at ih
    intro l' hl'
    rcases List.mem_cons.mp hl' with rfl | hl'
    · exact List.not_mem_cons_of_ne_of_not_mem (Ne.symm hb) (ih l List.mem_cons_self)
    · exact ih l' (List.mem_cons_of_mem _ hl')

/-! ## Every outcome is that of a call -/

/-- The child writes lines. -/
theorem steps_writes (lines : List (List UInt8)) (h : ∀ l ∈ lines, 10 ∉ l) (s : State)
    (hopen : s.closed = false) :
    Steps c s { s with pipe := s.pipe ++ lines } := by
  induction lines generalizing s with
  | nil => rw [List.append_nil]; exact .refl
  | cons l ls ih =>
    have hfirst := Steps.world (c := c) (.writes s l (h l List.mem_cons_self) hopen)
    have hrest :=
      ih (fun l' hl' => h l' (List.mem_cons_of_mem _ hl')) { s with pipe := s.pipe ++ [l] } hopen
    rw [List.append_assoc, List.singleton_append] at hrest
    exact hfirst.trans hrest

/-- The call takes the lines up to the first that is no text. -/
theorem steps_takes (lines : List (List UInt8)) (s : State) (hreading : s.stage = .reading)
    (hpipe : s.pipe = lines) :
    ∃ rest, Steps c s { s with pipe := rest, lines := s.lines ++ (Command.readable lines).1 } ∧
      ((Command.readable lines).2 = true → rest = []) ∧
      ((Command.readable lines).2 = false → ∃ l ls, rest = l :: ls ∧ Text.decode? l = none) := by
  induction lines generalizing s with
  | nil =>
    refine ⟨[], ?_, fun _ => rfl, fun h => absurd h (by simp [Command.readable])⟩
    rw [Command.readable, List.append_nil, ← hpipe]
    exact .refl
  | cons l ls ih =>
    cases hl : Text.decode? l with
    | none =>
      refine ⟨l :: ls, ?_, fun h => absurd h (by simp [Command.readable, hl]), fun _ =>
        ⟨l, ls, rfl, hl⟩⟩
      rw [Command.readable, hl, List.append_nil, ← hpipe]
      exact .refl
    | some cs =>
      have hfirst := Steps.call (.takes (c := c) s l ls cs hreading hpipe hl)
      obtain ⟨rest, hrest, hwhole, hbroken⟩ :=
        ih { s with pipe := ls, lines := s.lines ++ [String.ofList cs] } hreading rfl
      refine ⟨rest, ?_, ?_, ?_⟩
      · have hlines : (Command.readable (l :: ls)).1 =
            String.ofList cs :: (Command.readable ls).1 := by
          rw [Command.readable, hl]
        rw [hlines, List.append_cons]
        exact hfirst.trans hrest
      · rwa [Command.readable, hl]
      · rwa [Command.readable, hl]

/-- The call reads what a child writes before it is stopped. -/
theorem steps_reads (errors : List UInt8) :
    ∃ rest, Reach c { lines := (Command.saidIn errors).1, pipe := rest } ∧
      ((Command.saidIn errors).2 = true → rest = []) ∧
      ((Command.saidIn errors).2 = false → ∃ l ls, rest = l :: ls ∧ Text.decode? l = none) := by
  have hwrites := steps_writes (c := c) (Command.byteLines errors) not_mem_of_mem_byteLines {} rfl
  obtain ⟨rest, htakes, hends⟩ :=
    steps_takes (c := c) (Command.byteLines errors) { pipe := Command.byteLines errors } rfl rfl
  exact ⟨rest, hwrites.trans htakes, hends⟩

theorem followed_finished (c : Command) (run : Run) :
    c.followed (.ok (.finished run)) =
      if (Command.saidIn run.errors).2 then
        c.checked ⟨run.ending, "", "\n".intercalate (Command.tail (Command.saidIn run.errors).1)⟩
      else .error c.unreadable := rfl

/-- **Every outcome is that of a call**: it hands on the lines and returns the result that the
outcome gives. -/
theorem reaches_followed (c : Command) (o : Outcome) :
    ∃ s, Reach c s ∧ s.lines = Command.handedOn (.ok o) ∧
        s.stage = .returned (c.followed (.ok o)) := by
  cases o with
  | timedOut run =>
    obtain ⟨rest, hreads, -⟩ := steps_reads (c := c) run.errorsEarly
    have hexpires :=
      Steps.world (c := c) (.expires { lines := (Command.saidIn run.errorsEarly).1, pipe := rest })
    exact ⟨_, (hreads.trans hexpires).trans (Steps.call (.timesOut _ rfl rfl)), rfl, rfl⟩
  | stopped run =>
    obtain ⟨rest, hreads, -⟩ := steps_reads (c := c) run.errorsEarly
    have hfires :=
      Steps.world (c := c) (.fires { lines := (Command.saidIn run.errorsEarly).1, pipe := rest })
    exact ⟨_, (hreads.trans hfires).trans (Steps.call (.cancels _ rfl rfl)), rfl, rfl⟩
  | finished run =>
    obtain ⟨rest, hreads, hwhole, hbroken⟩ := steps_reads (c := c) run.errors
    cases hsaid : (Command.saidIn run.errors).2 with
    | false =>
      obtain ⟨l, ls, rfl, hl⟩ := hbroken hsaid
      refine ⟨_, hreads.trans (Steps.call (.givesUp _ l ls rfl rfl hl)), rfl, ?_⟩
      rw [followed_finished, hsaid]
      rfl
    | true =>
      obtain rfl := hwhole hsaid
      have hcloses := Steps.world (c := c) (.closes { lines := (Command.saidIn run.errors).1 })
      have hdrains :=
        Steps.call (c := c)
          (.drains { lines := (Command.saidIn run.errors).1, closed := true } rfl rfl rfl)
      have hexits := Steps.world (c := c)
        (.exits { stage := .waiting, lines := (Command.saidIn run.errors).1, closed := true }
          run.ending rfl)
      refine ⟨_, (((hreads.trans hcloses).trans hdrains).trans hexits).trans
        (Steps.call (.finishes _ run.ending rfl rfl)), rfl, ?_⟩
      rw [followed_finished, if_pos hsaid]

/-! ## Every call has an outcome -/

/-- An outcome accounts for a state: whoever has stopped the call was there. -/
def Accounts (s : State) : Outcome → Prop
  | .finished run =>
    (Command.saidIn run.errors).2 = true → s.closed = true ∧ s.ending = some run.ending
  | .timedOut _ => s.expired = true
  | .stopped _ => s.fired = true

/-- What every reachable state keeps. -/
structure Sound (c : Command) (s : State) : Prop where
  /-- The pipe has lines. -/
  pipe : ∀ l ∈ s.pipe, 10 ∉ l
  /-- What was handed on was written. -/
  taken : ∃ lines, (∀ l ∈ lines, 10 ∉ l) ∧ Command.readable lines = (s.lines, true)
  /-- A call only waits for the exit when the diagnostics have ended. -/
  drained : s.stage = .waiting → s.closed = true ∧ s.pipe = []
  /-- A call only returns when the child has ended, with the result of an outcome. -/
  returned : ∀ r, s.stage = .returned r →
    s.ending ≠ none ∧ ∃ o, Accounts s o ∧ s.lines = Command.handedOn (.ok o) ∧
      r = c.followed (.ok o)

theorem sound_start : Sound c {} where
  pipe := fun _ h => absurd h List.not_mem_nil
  taken := ⟨[], fun _ h => absurd h List.not_mem_nil, rfl⟩
  drained := fun h => nomatch h
  returned := fun _ h => nomatch h

/-- What has happened stays so. -/
theorem Accounts.mono {o : Outcome} (h : Accounts s o)
    (hclosed : s.closed = true → s'.closed = true) (hending : s'.ending = s.ending)
    (hexpired : s.expired = true → s'.expired = true) (hfired : s.fired = true → s'.fired = true) :
    Accounts s' o := by
  cases o with
  | finished run =>
    intro hwhole
    obtain ⟨hc, he⟩ := h hwhole
    exact ⟨hclosed hc, hending.trans he⟩
  | timedOut run => exact hexpired h
  | stopped run => exact hfired h

/-- What happens and is not taken back keeps a state sound. -/
theorem Sound.noticed (hs : Sound c s) {closed expired fired : Bool}
    (hclosed : s.closed = true → closed = true) (hexpired : s.expired = true → expired = true)
    (hfired : s.fired = true → fired = true) :
    Sound c { s with closed := closed, expired := expired, fired := fired } := by
  refine ⟨hs.pipe, hs.taken,
    fun hwaiting => ⟨hclosed (hs.drained hwaiting).1, (hs.drained hwaiting).2⟩, ?_⟩
  intro r hr
  obtain ⟨hended, o, ho, hresult⟩ := hs.returned r hr
  exact ⟨hended, o, ho.mono hclosed rfl hexpired hfired, hresult⟩

/-- **What the world does** keeps a state sound. -/
theorem Sound.world (hs : Sound c s) (h : World s s') : Sound c s' := by
  cases h with
  | writes line hline hopen =>
    refine ⟨List.forall_mem_append.mpr ⟨hs.pipe, List.forall_mem_singleton.mpr hline⟩, hs.taken, ?_,
      hs.returned⟩
    -- whoever waits has seen the end
    intro hwaiting
    exact nomatch hopen.symm.trans (hs.drained hwaiting).1
  | closes => exact hs.noticed (fun _ => rfl) id id
  | exits e hlive =>
    exact ⟨hs.pipe, hs.taken, hs.drained, fun r hr => absurd hlive (hs.returned r hr).1⟩
  | expires => exact hs.noticed id (fun _ => rfl) id
  | fires => exact hs.noticed id id fun _ => rfl

/-- One line more is read after those that are text. -/
theorem readable_concat {lines : List (List UInt8)} {said : List String}
    (h : Command.readable lines = (said, true)) (l : List UInt8) :
    Command.readable (lines ++ [l]) =
      match Text.decode? l with
      | some cs => (said ++ [String.ofList cs], true)
      | none => (said, false) := by
  induction lines generalizing said with
  | nil =>
    obtain rfl : said = [] := (congrArg Prod.fst h).symm
    rw [List.nil_append, Command.readable]
    cases Text.decode? l with
    | none => rfl
    | some cs => rfl
  | cons l' ls ih =>
    rw [Command.readable] at h
    rw [List.cons_append, Command.readable]
    cases hl' : Text.decode? l' with
    | none => rw [hl'] at h; exact nomatch congrArg Prod.snd h
    | some cs' =>
      rw [hl'] at h
      obtain ⟨rfl, hwhole⟩ := Prod.mk.inj h
      rw [ih (Prod.ext rfl hwhole)]
      cases Text.decode? l with
      | none => rfl
      | some cs => rfl

/-- There are bytes that say what was handed on. -/
theorem Sound.said (hs : Sound c s) : ∃ errors, Command.saidIn errors = (s.lines, true) := by
  obtain ⟨lines, hlines, hread⟩ := hs.taken
  exact ⟨bytesOf lines, by rw [Command.saidIn, byteLines_bytesOf hlines, hread]⟩

/-- There are bytes that say no more than that, when a line that is no text comes next. -/
theorem Sound.said_broken (hs : Sound c s) {line : List UInt8} (hline : 10 ∉ line)
    (hnoText : Text.decode? line = none) :
    ∃ errors, Command.saidIn errors = (s.lines, false) := by
  obtain ⟨lines, hlines, hread⟩ := hs.taken
  have hall : ∀ l ∈ lines ++ [line], 10 ∉ l :=
    List.forall_mem_append.mpr ⟨hlines, List.forall_mem_singleton.mpr hline⟩
  exact ⟨bytesOf (lines ++ [line]), by
    rw [Command.saidIn, byteLines_bytesOf hall, readable_concat hread, hnoText]⟩

/-- A call that kills its child leaves it ended. -/
theorem Sound.killed (hs : Sound c s) {e : Error} {o : Outcome}
    (haccounts : Accounts (s.killed e) o) (hlines : s.lines = Command.handedOn (.ok o))
    (hresult : c.followed (.ok o) = .error e) : Sound c (s.killed e) := by
  refine ⟨hs.pipe, hs.taken, fun h => Stage.noConfusion h, ?_⟩
  intro r hr
  obtain rfl := Stage.returned.inj hr
  refine ⟨?_, o, haccounts, hlines, hresult.symm⟩
  show (s.ending <|> some (.killed 9)) ≠ none
  cases s.ending with
  | none => exact Option.some_ne_none _
  | some e => exact Option.some_ne_none _

/-- **What the call does** keeps a state sound. -/
theorem Sound.call (hs : Sound c s) (h : Call c s s') : Sound c s' := by
  cases h with
  | takes line rest cs hreading hpipe htext =>
    obtain ⟨lines, hlines, hread⟩ := hs.taken
    obtain ⟨hline, hrest⟩ : 10 ∉ line ∧ ∀ l ∈ rest, 10 ∉ l :=
      List.forall_mem_cons.mp (hpipe ▸ hs.pipe)
    refine ⟨hrest,
      ⟨lines ++ [line], List.forall_mem_append.mpr ⟨hlines, List.forall_mem_singleton.mpr hline⟩,
        ?_⟩, ?_, ?_⟩
    · rw [readable_concat hread, htext]
    · intro hwaiting
      exact nomatch hreading.symm.trans hwaiting
    · intro r hr
      exact nomatch hreading.symm.trans hr
  | givesUp line rest hreading hpipe hnoText =>
    obtain ⟨errors, hsaid⟩ := hs.said_broken (hs.pipe line (hpipe ▸ List.mem_cons_self)) hnoText
    refine hs.killed (o := .finished { errors := errors }) ?_ ?_ ?_
    · intro hwhole
      exact nomatch (congrArg Prod.snd hsaid).symm.trans hwhole
    · rw [Command.handedOn, hsaid]
    · rw [followed_finished, hsaid]
      rfl
  | drains hreading hpipe hclosed =>
    exact ⟨hs.pipe, hs.taken, fun _ => ⟨hclosed, hpipe⟩, fun r hr => nomatch hr⟩
  | timesOut hreading hexpired =>
    obtain ⟨errors, hsaid⟩ := hs.said
    refine hs.killed (o := .timedOut { errorsEarly := errors }) hexpired ?_ rfl
    rw [Command.handedOn, hsaid]
  | cancels hreading hfired =>
    obtain ⟨errors, hsaid⟩ := hs.said
    refine hs.killed (o := .stopped { errorsEarly := errors }) hfired ?_ rfl
    rw [Command.handedOn, hsaid]
  | finishes e hwaiting hending =>
    obtain ⟨errors, hsaid⟩ := hs.said
    refine ⟨hs.pipe, hs.taken, fun h => Stage.noConfusion h, ?_⟩
    intro r hr
    obtain rfl := Stage.returned.inj hr
    have hended : s.ending ≠ none := by rw [hending]; exact Option.some_ne_none _
    refine ⟨hended, .finished { errors := errors, ending := e },
      fun _ => ⟨(hs.drained hwaiting).1, hending⟩, ?_, ?_⟩
    · rw [Command.handedOn, hsaid]
    · rw [followed_finished, hsaid]
      rfl

theorem Sound.steps (hs : Sound c s) (h : Steps c s s') : Sound c s' := by
  induction h with
  | refl => exact hs
  | tail _ hlast ih =>
    rcases hlast with hworld | hcall
    · exact ih.world hworld
    · exact ih.call hcall

theorem Reach.sound (h : Reach c s) : Sound c s := sound_start.steps h

/-- **Every call has an outcome**: what it has handed on and returned is what the outcome gives. -/
theorem returned_followed {r : Except Error ToolOutput} (h : Reach c s)
    (hr : s.stage = .returned r) :
    ∃ o, Accounts s o ∧ s.lines = Command.handedOn (.ok o) ∧ r = c.followed (.ok o) :=
  (h.sound.returned r hr).2

/-! ## Who can be stopped -/

/-- A call that waits for the exit of a live child can do nothing. -/
theorem not_call_of_waiting (hwaiting : s.stage = .waiting) (hlive : s.ending = none) :
    ¬ Call c s s' := by
  intro h
  cases h with
  | takes _ _ _ hreading => exact nomatch hwaiting.symm.trans hreading
  | givesUp _ _ hreading => exact nomatch hwaiting.symm.trans hreading
  | drains hreading => exact nomatch hwaiting.symm.trans hreading
  | timesOut hreading => exact nomatch hwaiting.symm.trans hreading
  | cancels hreading => exact nomatch hwaiting.symm.trans hreading
  | finishes e _ hending => exact nomatch hlive.symm.trans hending

/-- The world does not move the call, and a child that has ended stays so. -/
theorem World.stage (h : World s s') :
    s'.stage = s.stage ∧ (s'.ending = none → s.ending = none) := by
  cases h with
  | exits e hlive => exact ⟨rfl, fun _ => hlive⟩
  | writes | closes | expires | fires => exact ⟨rfl, id⟩

/-- No child comes to life again. -/
theorem Step.live (h : Step c s s') (hlive : s'.ending = none) : s.ending = none := by
  rcases h with hworld | hcall
  · exact hworld.stage.2 hlive
  · cases hending : s.ending with
    | none => rfl
    | some e =>
      cases hcall with
      | takes | drains | finishes => exact hending.symm.trans hlive
      | givesUp | timesOut | cancels =>
        rw [State.killed, hending] at hlive
        exact nomatch hlive

/-- While the child lives, a call that waits for its exit goes on waiting. -/
theorem Steps.waiting (h : Steps c s s') (hwaiting : s.stage = .waiting)
    (hlive : s'.ending = none) :
    s'.stage = .waiting := by
  induction h with
  | refl => exact hwaiting
  | tail _ hlast ih =>
    have hbefore := ih (hlast.live hlive)
    rcases hlast with hworld | hcall
    · exact hworld.stage.1.trans hbefore
    · exact absurd hcall (not_call_of_waiting hbefore (Step.live (.inr hcall) hlive))

/-- **A call can be stopped while it reads**, and only then. As long as the child lives, the call
has not returned. If it reads, it can kill the child and return the error of the deadline, once that
has passed, and that of the token, once that has fired. If not, the diagnostics have ended, and
whatever the world goes on to do, the call does nothing until the child exits. -/
theorem stoppable_while_reading {c : Command} {s : State} (h : Reach c s)
    (hlive : s.ending = none) :
    (s.stage = .reading ∧
      (s.expired = true → Call c s (s.killed c.timedOut)) ∧
        (s.fired = true → Call c s (s.killed c.cancelled))) ∨
    (s.stage = .waiting ∧ s.closed = true ∧ s.pipe = [] ∧
      ∀ s', Steps c s s' → s'.ending = none → s'.stage = .waiting ∧ ∀ s'', ¬ Call c s' s'') := by
  cases hstage : s.stage with
  | reading => exact .inl ⟨rfl, .timesOut s hstage, .cancels s hstage⟩
  | waiting =>
    obtain ⟨hclosed, hpipe⟩ := h.sound.drained hstage
    refine .inr ⟨rfl, hclosed, hpipe, ?_⟩
    intro s' hsteps hlive'
    have hwaiting := hsteps.waiting hstage hlive'
    exact ⟨hwaiting, fun s'' => not_call_of_waiting hwaiting hlive'⟩
  | returned r => exact absurd hlive (h.sound.returned r hstage).1

/-- A call of a child that says nothing, when the deadline has passed and the token has fired, can
be stopped. -/
theorem stoppable_while_reading_mute :
    Reach { program := "ffmpeg" } { expired := true, fired := true } ∧
      Call { program := "ffmpeg" } { expired := true, fired := true }
        (State.killed { expired := true, fired := true }
            (.tool "ffmpeg" "timed out after 300s")) := by
  have hreach : Reach { program := "ffmpeg" } { expired := true, fired := true } :=
    (Steps.world (.expires {})).trans (Steps.world (.fires { expired := true }))
  refine ⟨hreach, ?_⟩
  rcases stoppable_while_reading hreach rfl with ⟨-, hexpired, -⟩ | ⟨hwaiting, -⟩
  · exact hexpired rfl
  · exact nomatch hwaiting

/-- A command whose program closes its diagnostics at once and exits three seconds later; it may
take one second. -/
def silent : Command :=
  { program := "/bin/sh", arguments := ["-c", "exec 2>&-; /bin/sleep 3"], timeout := 1000 }

/-- **A child that closes its diagnostics cannot be stopped**: the deadline has passed, the token
has fired, and the call waits. -/
theorem silent_child_unstoppable :
    ∃ s, Reach silent s ∧ s.ending = none ∧ s.stage = .waiting ∧ s.expired = true ∧ s.fired = true ∧
      ∀ s', ¬ Call silent s s' := by
  refine ⟨{ stage := .waiting, closed := true, expired := true, fired := true }, ?_, rfl, rfl, rfl,
    rfl, ?_⟩
  · have hcloses : Reach silent { closed := true } := Steps.world (.closes {})
    have hdrains := Steps.call (c := silent) (.drains { closed := true } rfl rfl rfl)
    have hexpires := Steps.world (c := silent) (.expires { stage := .waiting, closed := true })
    have hfires :=
      Steps.world (c := silent) (.fires { stage := .waiting, closed := true, expired := true })
    exact ((hcloses.trans hdrains).trans hexpires).trans hfires
  · intro s'
    exact not_call_of_waiting rfl rfl

/-! ## What the machine makes of it -/

/-- **How long a child goes on** behind the end of its diagnostics does not matter to a call that
follows it. -/
theorem outcome_lingering (c : Command) (m : Machine) (run : Run) (watched : Bool)
    (timeout : Option Nat) (lingering : Nat) :
    c.followed (.ok (m.outcome { run with lingering := lingering } watched false timeout)) =
      c.followed (.ok (m.outcome run watched false timeout)) := by
  unfold Machine.outcome
  by_cases hwatched : (watched && m.cancelled) = true
  · rw [if_pos hwatched, if_pos hwatched]
    rfl
  · rw [if_neg hwatched, if_neg hwatched]
    cases timeout with
    | none => rfl
    | some limit =>
      by_cases hlimit : limit ≤ run.milliseconds
      · simp only [hlimit, Bool.false_eq_true, if_false, if_true, Nat.add_zero]
        rfl
      · simp only [hlimit, Bool.false_eq_true, if_false, Nat.add_zero]
        rfl

end Slideshow.Following
