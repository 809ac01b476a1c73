import Slideshow.CommandLine.Run
import Slideshow.Proofs.Message
import Slideshow.Proofs.Render.Course

/-!
# What a failed render says

Whoever calls the program reads what a failed render says last (`main`, `report`). That is the
report of an error on one line, whichever stage the error comes from: the options, the settings or
the render itself. Some failures are told otherwise. A file of effects that cannot be read is named
in plain text with the reason under it, and no reader of reports finds anything there; so are
threads that cannot be started, and a panic.

* `ErrorReport.text` and `ErrorReport.ofText?` write and read a report as a JSON text;
  `newline_not_mem_text`: it is one line.
* `RenderOrder.effectsText` is the text of the effects that a render is given; it is
  `RenderOrder.Unreadable` if its file cannot be read.
* `Cause` is why a render fails, with one constructor for each stage. `Failure.Reports`: a failure
  ends in its report.

Headlines:
* **`ErrorReport.ofText?_text`**: every report is read back.
* **`render_error_iff`**: a render fails for its causes and for nothing else.
* **`failed_render_reports`**: a failed render ends in the report of its error, unless its file of
  effects cannot be read, its threads cannot be started, or it panics.
-/

namespace Slideshow

open Document

/-! ## Reports as texts -/

namespace Json

theorem printable_hexDigit {n : Nat} (h : n < 16) : ¬(hexDigit n).toNat < 0x20 := by
  have hall : ∀ k : Fin 16, ¬(hexDigit k).toNat < 0x20 := by decide
  exact hall ⟨n, h⟩

/-- What a character is written as has no control characters. -/
theorem printable_escape {c d : Char} (h : d ∈ escape c) : ¬d.toNat < 0x20 := by
  rcases escape_cases c with ⟨e, -, hletter, he⟩ | ⟨hlow, he⟩ | ⟨-, -, hc, he⟩
  · have hprintable : ¬e.toNat < 0x20 := by
      intro hlow
      have hall : ∀ k : Fin 32, escaped? (Char.ofNat k) = none := by decide
      rw [← Char.ofNat_toNat e, hall ⟨e.toNat, hlow⟩] at hletter
      exact nomatch hletter
    rw [he] at h
    rcases List.mem_pair.mp h with rfl | rfl
    · decide
    · exact hprintable
  · rw [he] at h
    simp only [List.mem_cons, List.not_mem_nil, or_false] at h
    rcases h with rfl | rfl | rfl | rfl | rfl | rfl
    · decide
    · decide
    · decide
    · decide
    · exact printable_hexDigit (by omega)
    · exact printable_hexDigit (by omega)
  · rw [he] at h
    rwa [List.mem_singleton.mp h]

theorem printable_quote {cs : List Char} : ∀ d ∈ quote cs, ¬d.toNat < 0x20 := by
  intro d hd
  rw [quote, List.mem_append, List.mem_cons, List.mem_flatMap, List.mem_singleton] at hd
  rcases hd with (rfl | ⟨c, -, hd⟩) | rfl
  · decide
  · exact printable_escape hd
  · decide

end Json

namespace ErrorReport

variable (r : ErrorReport)

/-- A report as a JSON text. -/
def text : String := Json.compact r.document

/-- Reads a report: a kind and a message. -/
def ofDocument? (d : Document) : Option ErrorReport := do
  let r ← record? .lenient ["kind", "message"] d
  return ⟨← r.required 0 Event.kind?, ← r.required 1 string?⟩

/-- Reads a report from a JSON text. -/
def ofText? (text : String) : Option ErrorReport := (Json.parse? text).bind ofDocument?

theorem ofDocument?_document : ofDocument? r.document = some r := by
  have hzip : r.document =
    .table (["kind", "message"].zip [.string r.kind.name, .string r.message]) := rfl
  rw [ofDocument?, hzip, record?_zip (by decide) rfl]
  simp only [Option.bind_eq_bind, Option.bind_some]
  rw [required_eq rfl, required_eq rfl, Event.kind?, ErrorKind.ofName?_name]
  rfl

/-- **Every report is read back** from its text. -/
theorem ofText?_text : ofText? r.text = some r := by
  have hstays : ∀ f ∈ [("kind", Document.string r.kind.name), ("message", .string r.message)],
      Json.Stays f.2 :=
    List.forall_mem_cons.mpr
      ⟨Json.stays_string _, List.forall_mem_singleton.mpr (Json.stays_string _)⟩
  rw [ofText?, text, document, Json.parse?_compact hstays]
  exact r.ofDocument?_document

/-- A report is one line. -/
theorem newline_not_mem_text : '\n' ∉ r.text.toList := by
  have hquote : ∀ s : String, '\n' ∉ Json.quote s.toList :=
    fun s hs => Json.printable_quote _ hs (by decide)
  have htext : r.text.toList =
    '\x7b' :: (Json.quote "kind".toList ++ ':' :: Json.quote r.kind.name.toList ++ ',' ::
      (Json.quote "message".toList ++ ':' :: Json.quote r.message.toList)) ++ ['\x7d'] := by
    rw [text, Json.compact, String.toList_ofList]
    rfl
  simp [htext, -String.reduceToList, hquote]

end ErrorReport

namespace CommandLine

/-- What is said about a file of effects that cannot be read begins like no JSON value. -/
theorem Failure.ofText?_effectsFile (path : String) (reason : OsError) :
    ErrorReport.ofText? (Failure.effectsFile path reason).message = none := by
  obtain ⟨rest, hrest⟩ : ∃ rest, (Failure.effectsFile path reason).message = "F" ++ rest :=
    ⟨"ailed to read effects file: " ++ Text.escaped path ++ "\n\nCaused by:\n    " ++
      reason.message, rfl⟩
  have hchars : ("F" ++ rest).toList = 'F' :: rest.toList := String.toList_append
  have hnumber : Json.readNumber? ('F' :: rest.toList) = none := rfl
  rw [ErrorReport.ofText?, Json.parse?, hrest, hchars, Json.parseChars?, Json.value?,
    Json.skipSpace_cons (by decide)]
  simp [hnumber]

/-- So does what a panic says. -/
theorem Failure.ofText?_panicked (reason : String) :
    ErrorReport.ofText? (Failure.panicked reason).message = none := by
  obtain ⟨rest, hrest⟩ : ∃ rest, (Failure.panicked reason).message = "th" ++ rest :=
    ⟨"read 'main' panicked:\n" ++ reason, rfl⟩
  have hchars : ("th" ++ rest).toList = 't' :: 'h' :: rest.toList := String.toList_append
  have hword : Json.after? ['r', 'u', 'e'] ('h' :: rest.toList) = none := rfl
  rw [ErrorReport.ofText?, Json.parse?, hrest, hchars, Json.parseChars?, Json.value?,
    Json.skipSpace_cons (by decide)]
  simp [hword]

/-- A failure ends in the report of an error: on one line, from where it is read back. -/
def Failure.Reports (f : Failure) : Prop :=
  ∃ e, f = .reported e ∧ f.answer = { code := 1, errors := "Error: " ++ e.report.text ++ "\n" } ∧
    '\n' ∉ e.report.text.toList ∧ ErrorReport.ofText? e.report.text = some e.report

theorem Failure.reports_reported (e : Error) : (Failure.reported e).Reports :=
  ⟨e, rfl, rfl, e.report.newline_not_mem_text, e.report.ofText?_text⟩

/-! ## Why a render fails -/

/-- The text of the effects that a render is given, if it is given any: as it stands, or read from a
file. -/
def RenderOrder.effectsText (o : RenderOrder) : Attempt (Option String) := do
  match o.effects with
  | none => return none
  | some (.inline json) => return some json
  | some (.file path) =>
    match ← (Machine.readText path : Action (Except OsError String)) with
    | .error reason => throw (.effectsFile path reason)
    | .ok json => return some json

/-- The effects of a render stand in a file that cannot be read. -/
def RenderOrder.Unreadable (o : RenderOrder) (m : Machine) : Prop :=
  ∃ path reason, o.effects = some (.file path) ∧ (Machine.readText path m).1 = .error reason

/-- Why a render fails, stage after stage; a stage begins where the one before it has succeeded. -/
inductive Cause (config : Option String) (o : RenderOrder) (m : Machine) : Failure → Prop
  /-- The file of effects cannot be read. -/
  | unreadable {path : String} {reason : OsError} (hfile : o.effects = some (.file path))
      (hread : (Machine.readText path m).1 = .error reason) :
      Cause config o m (.effectsFile path reason)
  /-- The text of the effects is refused. -/
  | effects {json : String} {m' : Machine} {e : Error}
  (hread : o.effectsText.run m = (.ok (some json), m'))
  (hrefused : EffectOptions.ofJson json = .error e) : Cause config o m (.reported e)
  /-- The settings cannot be read, or are refused. -/
  | settings {options : Option EffectOptions} {m₁ : Machine} {e : Error}
      (heffects : (effectOptions o).run m = (.ok options, m₁))
      (hrefused : ((Config.loadOrDefault config).run m₁).1 = .error e) :
      Cause config o m (.reported e)
  /-- The threads for the work cannot be started. -/
  | runtime {options : Option EffectOptions} {c : Config} {m₁ m₂ : Machine} {reason : OsError}
      (heffects : (effectOptions o).run m = (.ok options, m₁))
      (hsettings : (Config.loadOrDefault config).run m₁ = (.ok c, m₂))
      (hrefused : (Attempt.startRuntime.run m₂).1 = .error (.runtime reason)) :
      Cause config o m (.runtime reason)
  /-- There would be too many slots for renders. -/
  | slots {options : Option EffectOptions} {c : Config} {m₁ m₂ m₃ : Machine} {reason : String}
      (heffects : (effectOptions o).run m = (.ok options, m₁))
      (hsettings : (Config.loadOrDefault config).run m₁ = (.ok c, m₂))
      (hstarted : Attempt.startRuntime.run m₂ = (.ok (), m₃))
      (hmany : Service.maxSlots < max 1 c.jobs.maxConcurrent)
      (hreason : .panicked reason = Service.tooManySlots) : Cause config o m (.panicked reason)
  /-- A flare is asked for that is too wide. -/
  | flare {options : Option EffectOptions} {c : Config} {m₁ m₂ m₃ : Machine} {reason : String}
  {r : ValidatedRequest} (heffects : (effectOptions o).run m = (.ok options, m₁))
      (hsettings : (Config.loadOrDefault config).run m₁ = (.ok c, m₂))
      (hstarted : Attempt.startRuntime.run m₂ = (.ok (), m₃))
      (hfew : ¬Service.maxSlots < max 1 c.jobs.maxConcurrent)
      (haccepts : (Service.idle c m₃).accepts? ⟨o.images, o.audio, options⟩ = .ok r)
      (hwide : (Service.idle c m₃).Overwide r) (hreason : .panicked reason = Halt.multiplied)
      (hfailed : (Service.render ⟨o.images, o.audio, options⟩ (Service.idle c m₃)).1 =
        .error (.panicked reason)) :
      Cause config o m (.panicked reason)
  /-- The render itself fails. -/
  | render {options : Option EffectOptions} {c : Config} {m₁ m₂ m₃ : Machine} {e : Error}
      (heffects : (effectOptions o).run m = (.ok options, m₁))
      (hsettings : (Config.loadOrDefault config).run m₁ = (.ok c, m₂))
      (hstarted : Attempt.startRuntime.run m₂ = (.ok (), m₃))
      (hfew : ¬Service.maxSlots < max 1 c.jobs.maxConcurrent)
      (hfailed : (Service.render ⟨o.images, o.audio, options⟩ (Service.idle c m₃)).1 =
        .error (.failed e)) :
      Cause config o m (.reported e)

variable {config : Option String} {o : RenderOrder} {m m' : Machine} {f : Failure}

theorem ofTrial_error_iff {α : Type} {trial : Trial α} :
    ((Attempt.ofTrial trial).run m).1 = .error f ↔ ∃ e, (trial.run m).1 = .error e ∧
        f = .reported e := by
  show ((trial.run m).1.mapError Failure.reported) = _ ↔ _
  cases (trial.run m).1 with
  | ok a => simp [Except.mapError]
  | error e => simp [Except.mapError, eq_comm]

theorem ofExcept_error_iff {α : Type} {r : Except Error α} :
    ((Attempt.ofExcept r).run m).1 = .error f ↔ ∃ e, r = .error e ∧ f = .reported e :=
  ofTrial_error_iff

theorem ofTrial_ok_iff {α : Type} {trial : Trial α} {a : α} :
    (Attempt.ofTrial trial).run m = (.ok a, m') ↔ trial.run m = (.ok a, m') := by
  show ((trial.run m).1.mapError Failure.reported, (trial.run m).2) = _ ↔ _
  rcases trial.run m with ⟨e | b, s⟩
  · exact ⟨nofun, nofun⟩
  · constructor <;>
      · rintro ⟨⟩
        rfl

theorem ofHalting_error_iff {α : Type} {trial : ExceptT Halt (StateM Machine) α} :
    ((Attempt.ofHalting trial).run m).1 = .error f ↔ ∃ h, (trial.run m).1 = .error h ∧
        f = .ofHalt h := by
  show ((trial.run m).1.mapError Failure.ofHalt) = _ ↔ _
  cases (trial.run m).1 with
  | ok a => simp [Except.mapError]
  | error e => simp [Except.mapError, eq_comm]

/-- Starting the threads is refused for a reason of the system. -/
theorem startRuntime_error (h : (Attempt.startRuntime.run m).1 = .error f) :
    ∃ reason, f = .runtime reason := by
  change ((Machine.step (fun t _ => .ok t) m).1.mapError Failure.runtime) = _ at h
  obtain ⟨reason, -, hf⟩ := of_mapError_error h
  exact ⟨reason, hf⟩

/-- Why a service does not come to a result: it cannot be made, or it fails. -/
theorem renderOnce_error_iff {c : Config} {request : RenderRequest} {h : Halt} :
    ((renderOnce c request).run m).1 = .error h ↔
      (Service.maxSlots < max 1 c.jobs.maxConcurrent ∧ h = Service.tooManySlots) ∨
        ¬Service.maxSlots < max 1 c.jobs.maxConcurrent ∧
            (Service.render request (Service.idle c m)).1 = .error h := by
  show (renderOnce c request m).1 = _ ↔ _
  unfold renderOnce Service.ofConfig
  by_cases hmany : Service.maxSlots < max 1 c.jobs.maxConcurrent
  · simp [hmany, eq_comm]
  · rw [if_neg hmany]
    exact ⟨fun hfailed => .inr ⟨hmany, hfailed⟩, fun hor =>
      (hor.resolve_left fun hl => hmany hl.1).2⟩

theorem effectsText_error_iff : (o.effectsText.run m).1 = .error f ↔
    ∃ path reason, o.effects = some (.file path) ∧ (Machine.readText path m).1 = .error reason ∧
        f = .effectsFile path reason := by
  unfold RenderOrder.effectsText
  cases o.effects with
  | none => exact ⟨nofun, nofun⟩
  | some source =>
    cases source with
    | inline json => exact ⟨nofun, nofun⟩
    | file path =>
      show ((match (Machine.readText path m).1 with
        | .error reason => throw (.effectsFile path reason)
        | .ok json =>
          return some json : Attempt (Option String)).run (Machine.readText path m).2).1 = _ ↔ _
      cases hread : (Machine.readText path m).1 with
      | error reason =>
        constructor
        · rintro ⟨⟩
          exact ⟨path, reason, rfl, hread, rfl⟩
        · rintro ⟨_, _, ⟨⟩, hreason, rfl⟩
          cases hread.symm.trans hreason
          rfl
      | ok json =>
        constructor
        · exact nofun
        · rintro ⟨_, _, ⟨⟩, hreason, -⟩
          cases hread.symm.trans hreason

/-- The effects of a render are what their text spells. -/
theorem effectOptions_eq (o : RenderOrder) : effectOptions o = (do
    let text ← o.effectsText
    let options ← text.mapM fun json => Attempt.ofExcept (EffectOptions.ofJson json)
    return match o.preset with
      | none => options
      | some name => some { options.getD {} with preset := some name }) := by
  unfold effectOptions RenderOrder.effectsText
  cases o.effects with
  | none => rfl
  | some source =>
    cases source with
    | inline json =>
      simp only [pure_bind]
      rfl
    | file path =>
      simp only [bind_assoc]
      congr 1
      funext r
      cases r <;> rfl

/-- A text is refused only if there is one. -/
theorem ofJson_error_iff {text : Option String} :
    ((text.mapM fun json => Attempt.ofExcept (EffectOptions.ofJson json)).run m).1 = .error f ↔
    ∃ json e, text = some json ∧ EffectOptions.ofJson json = .error e ∧ f = .reported e := by
  rcases text with _ | json
  · exact ⟨nofun, nofun⟩
  have hmap : (some json).mapM (fun json => Attempt.ofExcept (EffectOptions.ofJson json)) =
      (Attempt.ofExcept (EffectOptions.ofJson json) >>= fun options => pure (some options)) := rfl
  rw [hmap, run_bind_error_iff, ofExcept_error_iff]
  constructor
  · rintro (⟨e, he, hf⟩ | ⟨_, _, -, h⟩)
    · exact ⟨json, e, rfl, he, hf⟩
    · cases h
  · rintro ⟨_, e, ⟨⟩, he, hf⟩
    exact .inl ⟨e, he, hf⟩

theorem effectOptions_error_iff : ((effectOptions o).run m).1 = .error f ↔
    (o.effectsText.run m).1 = .error f ∨
      ∃ json m' e, o.effectsText.run m = (.ok (some json), m') ∧
          EffectOptions.ofJson json = .error e ∧ f = .reported e := by
  rw [effectOptions_eq, run_bind_error_iff]
  refine or_congr_right ⟨?_, ?_⟩
  · rintro ⟨text, m', htext, h⟩
    rcases run_bind_error_iff.mp h with h | ⟨options, _, -, h⟩
    · obtain ⟨json, e, rfl, he, hf⟩ := ofJson_error_iff.mp h
      exact ⟨json, m', e, htext, he, hf⟩
    · cases h
  · rintro ⟨json, m', e, htext, he, hf⟩
    exact ⟨some json, m', htext,
      run_bind_error_iff.mpr (.inl (ofJson_error_iff.mpr ⟨json, e, rfl, he, hf⟩))⟩

/-- A render whose service does not come to a result fails. -/
theorem render_error_of_renderOnce {options : Option EffectOptions} {c : Config}
    {m₁ m₂ m₃ : Machine} {h : Halt} (heffects : (effectOptions o).run m = (.ok options, m₁))
    (hsettings : (Config.loadOrDefault config).run m₁ = (.ok c, m₂))
    (hstarted : Attempt.startRuntime.run m₂ = (.ok (), m₃))
    (hstop : ((renderOnce c ⟨o.images, o.audio, options⟩).run m₃).1 = .error h) :
    ((render config o).run m).1 = .error (.ofHalt h) := by
  unfold render settings
  refine run_bind_error_iff.mpr (.inr ⟨_, _, heffects, ?_⟩)
  refine run_bind_error_iff.mpr (.inr ⟨_, _, ofTrial_ok_iff.mpr hsettings, ?_⟩)
  refine run_bind_error_iff.mpr (.inr ⟨_, _, hstarted, ?_⟩)
  exact run_bind_error_iff.mpr (.inl (ofHalting_error_iff.mpr ⟨_, hstop, rfl⟩))

/-- What fails has a cause. -/
theorem cause_of_error (h : ((render config o).run m).1 = .error f) : Cause config o m f := by
  unfold render settings at h
  rw [run_bind_error_iff, effectOptions_error_iff, effectsText_error_iff] at h
  obtain (⟨path, reason, hfile, hread, rfl⟩ | ⟨json, m', e, hread, hrefused, rfl⟩) | ⟨options, m',
    heffects, h⟩ := h
  · exact .unreadable hfile hread
  · exact .effects hread hrefused
  rcases run_bind_error_iff.mp h with h | ⟨c, m₂, hsettings, h⟩
  · obtain ⟨e, hrefused, rfl⟩ := ofTrial_error_iff.mp h
    exact .settings heffects hrefused
  have hsettings := ofTrial_ok_iff.mp hsettings
  rcases run_bind_error_iff.mp h with h | ⟨⟨⟩, m₃, hstarted, h⟩
  · obtain ⟨reason, rfl⟩ := startRuntime_error h
    exact .runtime heffects hsettings h
  rcases run_bind_error_iff.mp h with h | ⟨outcome, _, -, h⟩
  · obtain ⟨stop, hstop, rfl⟩ := ofHalting_error_iff.mp h
    rcases renderOnce_error_iff.mp hstop with ⟨hmany, rfl⟩ | ⟨hfew, hfailed⟩
    · exact .slots heffects hsettings hstarted hmany rfl
    cases stop with
    | failed e => exact .render heffects hsettings hstarted hfew hfailed
    | panicked reason =>
      obtain ⟨hreason, r, haccepts, hwide⟩ := Service.render_panics _ _ hfailed
      exact .flare heffects hsettings hstarted hfew haccepts hwide hreason hfailed
  · cases h

/-- What has a cause to fail does. -/
theorem error_of_cause (h : Cause config o m f) : ((render config o).run m).1 = .error f := by
  have hearly : ((effectOptions o).run m).1 = .error f → ((render config o).run m).1 = .error f :=
    fun h => run_bind_error_iff.mpr (.inl h)
  cases h with
  | unreadable hfile hread =>
    exact hearly
      (effectOptions_error_iff.mpr (.inl (effectsText_error_iff.mpr ⟨_, _, hfile, hread, rfl⟩)))
  | effects hread hrefused =>
    exact hearly (effectOptions_error_iff.mpr (.inr ⟨_, _, _, hread, hrefused, rfl⟩))
  | settings heffects hrefused =>
    unfold render settings
    exact run_bind_error_iff.mpr (.inr ⟨_, _, heffects,
      run_bind_error_iff.mpr (.inl (ofTrial_error_iff.mpr ⟨_, hrefused, rfl⟩))⟩)
  | runtime heffects hsettings hrefused =>
    unfold render settings
    exact run_bind_error_iff.mpr (.inr ⟨_, _, heffects, run_bind_error_iff.mpr (.inr
      ⟨_, _, ofTrial_ok_iff.mpr hsettings, run_bind_error_iff.mpr (.inl hrefused)⟩)⟩)
  | slots heffects hsettings hstarted hmany hreason =>
    exact render_error_of_renderOnce heffects hsettings hstarted
      (renderOnce_error_iff.mpr (.inl ⟨hmany, hreason⟩))
  | flare heffects hsettings hstarted hfew _ _ _ hfailed =>
    have hstop := renderOnce_error_iff.mpr (.inr ⟨hfew, hfailed⟩)
    exact render_error_of_renderOnce heffects hsettings hstarted hstop
  | render heffects hsettings hstarted hfew hfailed =>
    have hstop := renderOnce_error_iff.mpr (.inr ⟨hfew, hfailed⟩)
    exact render_error_of_renderOnce heffects hsettings hstarted hstop

/-- **A render fails for its causes** and for nothing else. -/
theorem render_error_iff : ((render config o).run m).1 = .error f ↔ Cause config o m f :=
  ⟨cause_of_error, error_of_cause⟩

/-- With effects that cannot be read there is no other cause. -/
theorem Cause.unreadable_iff (h : Cause config o m f) :
    o.Unreadable m ↔ ∃ path reason, f = .effectsFile path reason := by
  constructor
  · rintro ⟨path, reason, hfile, hread⟩
    have htwice :=
      (render_error_iff.mpr h).symm.trans (render_error_iff.mpr (.unreadable hfile hread))
    exact ⟨path, reason, Except.error.inj htwice⟩
  · rintro ⟨path, reason, rfl⟩
    cases h with
    | unreadable hfile hread => exact ⟨_, _, hfile, hread⟩

/-! ## What is said last -/

theorem respond_fst (i : Invocation) (m : Machine) :
    (respond i m).1 = match ((perform i).run m).1 with
    | .ok text => { output := announcement i ++ text }
    | .error f => { f.answer with output := announcement i } := by
  show ((match ((perform i).run m).1 with
    | .ok text => pure { output := announcement i ++ text }
    | .error f => pure { f.answer with output := announcement i } : Action Answer) _).1 = _
  cases ((perform i).run m).1 <;> rfl

/-- **A failed render ends in a report** of the error that it failed with: on one line, from where
it is read back. There are three exceptions. With a file of effects that cannot be read every render
fails, and what it ends in is no report. Threads that cannot be started end in the reason of the
system, and a panic in its own words: there are too many slots, or a flare is too wide. -/
theorem failed_render_reports {arguments : List String}
    (h : parse arguments = .ok ⟨config, .render o⟩) (m : Machine) :
    (∃ output, (run arguments m).1 = { output := output } ∧ ¬o.Unreadable m) ∨
      ∃ f, Cause config o m f ∧ (run arguments m).1 = f.answer ∧
        (¬o.Unreadable m → f.Reports ∨ (∃ reason, f = .runtime reason) ∨
          ∃ reason, f = .panicked reason) ∧
        (o.Unreadable m → ErrorReport.ofText? f.message = none) ∧
        ∀ reason, f = .panicked reason → f.answer.code = 101 ∧
            ErrorReport.ofText? f.message = none := by
  have hrun : run arguments = respond ⟨config, .render o⟩ := by
    unfold run
    rw [h]
  have hperform : perform ⟨config, .render o⟩ = render config o := rfl
  have hanswer := respond_fst ⟨config, .render o⟩ m
  rw [hperform, ← hrun] at hanswer
  cases hrender : ((render config o).run m).1 with
  | ok text =>
    rw [hrender] at hanswer
    refine .inl ⟨_, hanswer, ?_⟩
    rintro ⟨path, reason, hfile, hread⟩
    cases hrender.symm.trans (render_error_iff.mpr (.unreadable hfile hread))
  | error f =>
    rw [hrender] at hanswer
    have hcause := render_error_iff.mp hrender
    have hsilent : { f.answer with output := announcement ⟨config, .render o⟩ } = f.answer := by
      cases f <;> rfl
    refine .inr ⟨f, hcause, hanswer.trans hsilent, fun hreadable => ?_, fun hunreadable => ?_, ?_⟩
    · cases f with
      | reported e => exact .inl (Failure.reports_reported e)
      | runtime reason => exact .inr (.inl ⟨reason, rfl⟩)
      | panicked reason => exact .inr (.inr ⟨reason, rfl⟩)
      | effectsFile path reason => exact absurd (hcause.unreadable_iff.mpr ⟨_, _, rfl⟩) hreadable
      | missingFile path => cases hcause
    · obtain ⟨path, reason, rfl⟩ := hcause.unreadable_iff.mp hunreadable
      exact Failure.ofText?_effectsFile path reason
    · rintro reason rfl
      exact ⟨rfl, Failure.ofText?_panicked reason⟩

/-- A machine without files, on which nothing is refused. -/
def vacant : Machine :=
  { circumstances := { draw := fun _ _ => 0, jobId := .ofRandom, time := fun n => ⟨n, 0⟩ } }

/-- Options that are no JSON are refused, and the refusal is reported. -/
theorem failed_render_reports_options :
    let arguments := ["render", "-i", "a.jpg", "-a", "v.mp3", "--effects", "fade"]
    parse arguments =
      .ok ⟨none,
        .render { images := ["a.jpg"], audio := ["v.mp3"], effects := some (.inline "fade") }⟩ ∧
      (run arguments vacant).1.errors = "Error: \x7b\"kind\":\"validation\",\"message\":" ++
        "\"Validation error: invalid effect options: not an object of options\"\x7d\n" ∧
      ∃ e : Error, (run arguments vacant).1 =
        { code := 1, errors := "Error: " ++ e.report.text ++ "\n" } ∧
        ErrorReport.ofText? e.report.text = some e.report := by
  intro arguments
  have hparse : parse arguments =
      .ok ⟨none,
        .render { images := ["a.jpg"], audio := ["v.mp3"], effects := some (.inline "fade") }⟩ := by
          decide
  have herrors : (run arguments vacant).1.errors =
    "Error: \x7b\"kind\":\"validation\",\"message\":" ++
      "\"Validation error: invalid effect options: not an object of options\"\x7d\n" := by
        decide +kernel
  refine ⟨hparse, herrors, ?_⟩
  rcases failed_render_reports hparse
    vacant with ⟨output, houtput, -⟩ | ⟨f, hcause, hanswer, hreport, -, -⟩
  · rw [houtput] at herrors
    exact absurd (show "" = _ from herrors) (by decide)
  · have hcode : (run arguments vacant).1.code = 1 := rfl
    rw [hanswer] at hcode ⊢
    rcases hreport
      (by rintro ⟨_, _, ⟨⟩, -⟩) with ⟨e, -, htext, -, hread⟩ | ⟨reason, rfl⟩ | ⟨reason, rfl⟩
    · exact ⟨e, htext, hread⟩
    · obtain ⟨⟩ | ⟨⟩ | ⟨⟩ | ⟨heffects, -, -⟩ := hcause
      cases heffects
    · cases hcode

/-- **A file of effects that is not there goes unreported.** The render fails, and what follows the
word that marks an error is no report. -/
theorem missing_effects_unreported :
    let arguments := ["render", "-i", "a.jpg", "-a", "v.mp3", "--effects-file", "fx.json"]
    parse arguments =
      .ok ⟨none,
        .render { images := ["a.jpg"], audio := ["v.mp3"], effects := some (.file "fx.json") }⟩ ∧
      (run arguments vacant).1 =
        { code := 1, errors := "Error: Failed to read effects file: \"fx.json\"\n\n" ++
          "Caused by:\n    No such file or directory (os error 2)\n" } ∧
      ∀ text, (run arguments vacant).1.errors = "Error: " ++ text ++ "\n" →
          ErrorReport.ofText? text = none := by
  intro arguments
  refine ⟨by decide, by decide, fun text h => ?_⟩
  have hrun : (run arguments vacant).1.errors = "Error: " ++
    (Failure.effectsFile "fx.json" .missing).message ++ "\n" := by decide
  obtain rfl : text = (Failure.effectsFile "fx.json" .missing).message := by
    have hchars := congrArg String.toList (h.symm.trans hrun)
    simp only [String.toList_append, List.append_cancel_left_eq,
      List.append_cancel_right_eq] at hchars
    exact String.toList_inj.mp hchars
  exact Failure.ofText?_effectsFile "fx.json" .missing

end CommandLine

end Slideshow
