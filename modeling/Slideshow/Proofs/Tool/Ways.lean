import Slideshow.Proofs.Text
import Slideshow.Proofs.Tool.Following
import Slideshow.Proofs.Trial

/-!
# Two ways of running a command

A captured run (`execute`) is read when it has ended, a followed one
(`execute_with_stderr_callback`) line by line. Where neither the time limit nor the token stops it,
the program does the same in both ways, and a command should succeed in one way when it does in the
other. A captured run succeeds when the program ends well. A followed run has to be text besides: a
captured one puts a mark for what is none, a followed one is given up.

* `Machine.begun` is what the program does that a command starts, `Machine.Undisturbed` that nothing
  stops it.
* `saidIn_whole_iff`: each line is text exactly when all of it is.

Headlines:
* **`Command.execute_isOk_iff`**: a captured run succeeds exactly when the program was started and
  ended well.
* **`Command.execute_follow_agree`**: a followed run succeeds exactly when the captured one does and
  the diagnostics are text.
-/

namespace Slideshow

namespace Machine

variable {c : Command} {watched : Bool} {m : Machine}

/-- What the program does that a command starts, or why it is not started. -/
def begun (c : Command) (m : Machine) : Except OsError Run :=
  match m.advance.startable c.program c.arguments with
  | .ok (l, behaviour) => .ok (behaviour (m.advance.callCount l) c.arguments)
  | .error e => .error e

/-- A command is run on a machine: its program was started and ended well. -/
def EndsWell (c : Command) (m : Machine) : Prop :=
  ∃ run, m.begun c = .ok run ∧ run.ending = .exited 0

/-- Nothing stops a command, in whichever way it is run. -/
def Undisturbed (c : Command) (watched : Bool) (m : Machine) : Prop :=
  ∀ captured outcome, (run c.program c.arguments watched captured (some c.timeout) m).1 =
    .ok outcome →
    ∃ r, outcome = .finished r

/-- However a command is run, its program is started if it can be, and how it goes depends on the
way. -/
theorem run_begun (c : Command) (watched captured : Bool) (m : Machine) :
    ∃ m' : Machine, (run c.program c.arguments watched captured (some c.timeout) m).1 =
      (m.begun c).map fun r => m'.outcome r watched captured (some c.timeout) := by
  unfold run begun
  dsimp only
  cases m.advance.startable c.program c.arguments with
  | error e => exact ⟨m, rfl⟩
  | ok found => exact ⟨_, rfl⟩

/-- A program that nothing stops does all that it does. -/
theorem outcome_cases (m : Machine) (r : Run) (watched captured : Bool) (timeout : Option Nat) :
    m.outcome r watched captured timeout = .finished r ∨
      m.outcome r watched captured timeout = .timedOut r ∨
      m.outcome r watched captured timeout = .stopped r := by
  unfold outcome
  dsimp only
  generalize r.milliseconds + (if captured then r.lingering else 0) = length
  by_cases hstopped : (watched && m.cancelled) = true
  · rw [if_pos hstopped]
    exact .inr (.inr rfl)
  · rw [if_neg hstopped]
    cases timeout with
    | none => exact .inl rfl
    | some limit =>
      dsimp only
      split
      · exact .inr (.inl rfl)
      · exact .inl rfl

theorem Undisturbed.run (h : m.Undisturbed c watched) (captured : Bool) :
    (run c.program c.arguments watched captured (some c.timeout) m).1 =
        (m.begun c).map .finished := by
  obtain ⟨m', hrun⟩ := run_begun c watched captured m
  rw [hrun]
  cases hbegun : m.begun c with
  | error e => rfl
  | ok r =>
    rw [hbegun] at hrun
    obtain ⟨r', hr'⟩ := h captured _ hrun
    have hfinished : m'.outcome r watched captured (some c.timeout) = .finished r := by
      rcases outcome_cases m' r watched captured (some c.timeout) with ho | ho | ho
      · exact ho
      · cases ho.symm.trans hr'
      · cases ho.symm.trans hr'
    exact congrArg Except.ok hfinished

/-- A command that is not watched and whose program is quick enough is not stopped. -/
theorem undisturbed_of_lt (h : ∀ r, m.begun c = .ok r → r.milliseconds + r.lingering < c.timeout) :
    m.Undisturbed c false := by
  intro captured outcome houtcome
  obtain ⟨m', hrun⟩ := run_begun c false captured m
  rw [hrun] at houtcome
  cases hbegun : m.begun c with
  | error e =>
    rw [hbegun] at houtcome
    cases houtcome
  | ok r =>
    rw [hbegun] at houtcome
    obtain rfl := Except.ok.inj houtcome
    have hquick := h r hbegun
    have hlength : ¬ c.timeout ≤ r.milliseconds + if captured then r.lingering else 0 := by
      split <;> omega
    refine ⟨r, ?_⟩
    simp only [Machine.outcome, Bool.false_and, Bool.false_eq_true, if_false, hlength]

end Machine

namespace Command

/-! ## Lines that are text -/

/-- Lines of which the first begins earlier. -/
def behindPiece (piece : List UInt8) : List (List UInt8) → List (List UInt8)
  | [] => if piece = [] then [] else [piece]
  | l :: ls => (piece ++ l) :: ls

/-- Whether all lines are text. -/
theorem readable_snd (lines : List (List UInt8)) :
    (readable lines).2 = lines.all fun l => (Text.decode? l).isSome := by
  induction lines with
  | nil => rfl
  | cons l ls ih =>
    rw [readable, List.all_cons, ← ih]
    cases Text.decode? l <;> rfl

theorem behindPiece_nil (lines : List (List UInt8)) : behindPiece [] lines = lines := by
  cases lines <;> rfl

theorem decode?_isSome_append {a : UInt8} (ha : a.toNat < 0x80) (l r : List UInt8) :
    (Text.decode? (l ++ a :: r)).isSome = ((Text.decode? l).isSome && (Text.decode? r).isSome) := by
  rw [Text.decode?_append ha]
  cases Text.decode? l <;> cases Text.decode? r <;> rfl

/-- Bytes behind a piece of a line are text exactly when all lines are. The lines are found byte by
byte and characters are not, so that the induction needs the piece. -/
theorem decode?_isSome_lines (bytes : List UInt8) : ∀ piece : List UInt8,
    (Text.decode? (piece ++ bytes)).isSome =
      (behindPiece piece (byteLines bytes)).all fun l => (Text.decode? l).isSome := by
  induction bytes using byteLines.induct with
  | case1 =>
    intro piece
    rw [List.append_nil, byteLines, behindPiece]
    split
    · next h => rw [h, Text.decode?]; rfl
    · simp
  | case2 r ih =>
    intro piece
    have hr : (Text.decode? r).isSome = _ := ih []
    rw [decode?_isSome_append (by decide), byteLines, behindPiece, List.append_nil, List.all_cons,
      hr, behindPiece_nil]
  | case3 r ih =>
    intro piece
    have hr : (Text.decode? r).isSome = _ := ih []
    have hend : (Text.decode? (10 :: r)).isSome = (Text.decode? r).isSome :=
      (decode?_isSome_append (a := 10) (by decide) [] r).trans (by rw [Text.decode?]; rfl)
    rw [decode?_isSome_append (by decide), hend, byteLines, behindPiece, List.append_nil,
      List.all_cons, hr, behindPiece_nil]
  | case4 b r hb hr hnil ih =>
    intro piece
    rw [List.append_cons, ih, byteLines.eq_4 _ _ hb hr, hnil]
    simp [behindPiece]
  | case5 b r hb hr l ls hcons ih =>
    intro piece
    rw [List.append_cons, ih, byteLines.eq_4 _ _ hb hr, hcons]
    simp [behindPiece]

/-- **What was said can be read to its end exactly when it is text.** -/
theorem saidIn_whole_iff (errors : List UInt8) :
    (saidIn errors).2 = (Text.decode? errors).isSome := by
  have hlines : (Text.decode? errors).isSome = _ := decode?_isSome_lines errors []
  rw [saidIn, readable_snd, hlines, behindPiece_nil]

/-! ## What succeeds -/

variable {c : Command} {watched : Bool} {m : Machine}

theorem checked_isOk (c : Command) (o : ToolOutput) : (c.checked o).isOk = o.ending.isSuccess := by
  unfold checked
  cases o.ending.isSuccess <;> rfl

theorem isSuccess_iff {e : Ending} : e.isSuccess = true ↔ e = .exited 0 := beq_iff_eq

theorem execute_run (c : Command) (watched : Bool) (m : Machine) :
    ((c.execute watched).run m).1 =
      c.captured (Machine.run c.program c.arguments watched true (some c.timeout) m).1 >>=
          c.checked := by
  have hcapture : ((c.capture watched).run m).1 =
      c.captured (Machine.run c.program c.arguments watched true (some c.timeout) m).1 := rfl
  rw [execute, ← hcapture]
  cases hr : ((c.capture watched).run m).1 with
  | error e => rw [run_bind_error (Prod.ext hr rfl)]; rfl
  | ok said => rw [run_bind_ok (Prod.ext hr rfl)]; rfl

/-- **A captured run succeeds exactly when the program was started and ended well.** -/
theorem execute_isOk_iff (h : m.Undisturbed c watched) :
    ((c.execute watched).run m).1.isOk = true ↔ m.EndsWell c := by
  rw [execute_run, h.run, Machine.EndsWell]
  cases m.begun c with
  | error e => exact iff_of_false Bool.false_ne_true fun ⟨_, hr, _⟩ => nomatch hr
  | ok r =>
    show (c.checked _).isOk = true ↔ _
    rw [checked_isOk, isSuccess_iff]
    constructor
    · exact fun hending => ⟨r, rfl, hending⟩
    · rintro ⟨r', hr', hending⟩
      rwa [Except.ok.inj hr']

/-- A followed run succeeds exactly when the program was started, ended well and said nothing but
text. -/
theorem follow_isOk_iff (h : m.Undisturbed c watched) :
    (c.follow watched m).1.2.isOk = true ↔
      m.EndsWell c ∧ ∀ run, m.begun c = .ok run → (Text.decode? run.errors).isSome = true := by
  show (c.followed (Machine.run c.program c.arguments watched false (some c.timeout) m).1).isOk =
    true ↔ _
  rw [h.run, Machine.EndsWell]
  cases m.begun c with
  | error e => exact iff_of_false Bool.false_ne_true fun ⟨⟨_, hr, _⟩, _⟩ => nomatch hr
  | ok r =>
    have hfollowed : (c.followed (.ok (.finished r))).isOk =
        ((saidIn r.errors).2 && r.ending.isSuccess) := by
      rw [Following.followed_finished]
      cases (saidIn r.errors).2 with
      | false => rfl
      | true => exact checked_isOk c _
    show (c.followed (.ok (.finished r))).isOk = true ↔ _
    rw [hfollowed, saidIn_whole_iff, Bool.and_eq_true, isSuccess_iff, and_comm]
    constructor
    · rintro ⟨hending, htext⟩
      exact ⟨⟨r, rfl, hending⟩, fun r' hr' => Except.ok.inj hr' ▸ htext⟩
    · rintro ⟨⟨r', hr', hending⟩, htext⟩
      rw [Except.ok.inj hr']
      exact ⟨hending, htext r' hr'⟩

/-- **The two ways agree on runs that say nothing but text**, and on no other good ones. Where
nothing stops a command, it succeeds when it is captured exactly when its program was started and
ended well; it succeeds when it is followed exactly when it does captured and its diagnostics are
text. -/
theorem execute_follow_agree (c : Command) (watched : Bool) {m : Machine}
    (h : m.Undisturbed c watched) :
    (((c.execute watched).run m).1.isOk = true ↔ m.EndsWell c) ∧
    ((c.follow watched m).1.2.isOk = true ↔ ((c.execute watched).run m).1.isOk = true ∧
      ∀ run, m.begun c = .ok run → (Text.decode? run.errors).isSome = true) := by
  refine ⟨execute_isOk_iff h, ?_⟩
  rw [execute_isOk_iff h, follow_isOk_iff h]

/-- A machine with a tool that says some bytes and ends well. -/
def saying (errors : List UInt8) : Machine where
  files := ⟨[(["tool"], .program fun _ _ => { errors := errors })]⟩
  circumstances := { draw := fun _ _ => 0, jobId := .ofRandom, time := fun n => ⟨n, 0⟩ }

def tool : Command := { program := "/tool" }

theorem saying_begun (errors : List UInt8) :
    (saying errors).begun tool = .ok { errors := errors } := by
  have hstart : (saying errors).advance.startable tool.program tool.arguments =
      .ok (["tool"], fun _ _ => { errors := errors }) := rfl
  rw [Machine.begun, hstart]

theorem saying_undisturbed (errors : List UInt8) : (saying errors).Undisturbed tool false :=
  Machine.undisturbed_of_lt fun r hr => by
    rw [saying_begun] at hr
    obtain rfl := Except.ok.inj hr
    show 0 < 300000
    decide

/-- A tool that says `ok` and a line feed succeeds in both ways. -/
theorem execute_follow_agree_text : (saying [111, 107, 10]).Undisturbed tool false ∧
    ((tool.follow false (saying [111, 107, 10])).1.2.isOk = true ↔
      ((tool.execute false).run (saying [111, 107, 10])).1.isOk = true) := by
  refine ⟨saying_undisturbed _, ?_⟩
  rw [(execute_follow_agree tool false (saying_undisturbed [111, 107, 10])).2, and_iff_left_iff_imp]
  intro _ r hr
  rw [saying_begun] at hr
  obtain rfl := Except.ok.inj hr
  decide +kernel

/-- **A tool that says bytes that are no text succeeds in one way only**: between `a` and `b` is a
byte that begins no character. -/
theorem unreadable_run_differs : (saying [0x61, 0xff, 0x62]).Undisturbed tool false ∧
    ((tool.execute false).run (saying [0x61, 0xff, 0x62])).1.isOk = true ∧
    (tool.follow false (saying [0x61, 0xff, 0x62])).1.2.isOk = false :=
  ⟨saying_undisturbed _, rfl, by decide +kernel⟩

end Command

end Slideshow
