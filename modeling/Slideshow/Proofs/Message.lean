import Slideshow.Effect.Options
import Slideshow.Event
import Slideshow.Proofs.Document
import Slideshow.Proofs.JobId
import Slideshow.Proofs.Json.Rounded

/-!
# Messages that are read back

Options of effects (`EffectOptions`) and job events (`EventPayload`) are tables of values without
parts, on one line. Writing them and reading them are governed by separate rules: options leave out
what is not set and refuse fields that they do not know, and an event names its kind in a field
among its own. They agree, for any texts in the fields and for finite numbers, if the reader of
numbers rounds correctly. The others have no digits.

* `Json.Stays`: a value without parts is read as it is; `Json.parse?_compact`: so is a table of such
  values.
* `Event.Valid`: the numbers of an event are those that an event has; `Event.type` is the kind that
  an event names.

Headlines:
* **`EffectOptions.ofJson_text`**: options are read back, whichever of them are set.
* **`Event.ofJson?_text`**: so is an event of each kind.
* **`messages_read_back`**: both, with the kind and the job of an event in its text.
-/

namespace Slideshow

open Document Scalar

/-! ## Tables on one line -/

namespace Json

theorem length_le_compactFields (fields : List (String × Document)) :
    fields.length ≤ (compactFields fields).length := by
  induction fields with
  | nil => exact Nat.zero_le _
  | cons f fields ih =>
    cases fields with
    | nil => simp [compactFields, quote]
    | cons g fields =>
      simp only [compactFields, List.length_append, List.length_cons] at ih ⊢
      omega

section
variable [FloatReader]

/-- A value without parts that is read as it is. -/
structure Stays (d : Document) : Prop where
  plain : Plain d
  legible : Legible d
  same : readBack d = d

theorem stays_string (s : String) : Stays (.string s) := ⟨trivial, trivial, rfl⟩

theorem stays_ofNat {n : Nat} (h : n < 2 ^ 64) : Stays (ofNat n) :=
  ⟨trivial, ⟨by omega, by omega⟩, rfl⟩

theorem stays_float {x : Float} (h : Kept x) : Stays (.float x) where
  plain := trivial
  legible := Option.isSome_iff_exists.mpr ⟨x, h⟩
  same := by rw [readBack, rereadOrSame_of_kept h]

theorem Stays.value? {d : Document} (h : Stays d) {rest : List Char} (hrest : Ends rest)
    (fuel : Nat) :
    value? (fuel + 1) (compactChars d ++ rest) = some (d, rest) := by
  have htext : compactChars d = scalarText d := by
    cases d with
    | list items => exact absurd h.plain id
    | openList items => exact absurd h.plain id
    | table fields => exact absurd h.plain id
    | _ => rfl
  have hread := (value?_plain h.plain h.legible hrest fuel).1
  rwa [h.same, ← htext] at hread

/-- Fields are read up to the closing brace. -/
theorem fields?_compact {fields : List (String × Document)} (hne : fields ≠ [])
    (h : ∀ f ∈ fields, Stays f.2) (rest : List Char) :
    ∀ {fuel : Nat}, fields.length < fuel → fields? fuel (compactFields fields ++ '\x7d' :: rest) =
      some (fields.map fun f => (some f.1.toList, f.2), rest) := by
  have hnone : ∀ c ∈ ([] : List Char), isSpace c = true := fun _ hc => absurd hc List.not_mem_nil
  induction fields with
  | nil => intro fuel hfuel; exact absurd rfl hne
  | cons f fields ih =>
    obtain ⟨hf, hfields⟩ := List.forall_mem_cons.mp h
    intro fuel hfuel
    obtain ⟨fuel, rfl⟩ : ∃ n, fuel = n + 2 := ⟨fuel - 2, by rw [List.length_cons] at hfuel; omega⟩
    cases fields with
    | nil =>
      have hvalue := @Stays.value? _ _ hf ('\x7d' :: rest) (ends_cons _ (by decide)) fuel
      have hread : fields? (fuel + 2)
        ([] ++ (quote f.1.toList ++ ':' :: ([] ++ (compactChars f.2 ++ '\x7d' :: rest)))) =
          some ([(some f.1.toList, f.2)], rest) :=
            fields?_last hnone hnone hvalue (skipSpace_cons (by decide) rest)
      rw [compactFields, List.append_assoc]
      exact hread
    | cons g fields =>
      have hvalue :=
        @Stays.value? _ _ hf (',' :: (compactFields (g :: fields) ++ '\x7d' :: rest))
          (ends_cons _ (by decide)) fuel
      have hnext := ih (List.cons_ne_nil _ _) hfields (Nat.lt_of_succ_lt_succ hfuel)
      have hread : fields? (fuel + 2) ([] ++ (quote f.1.toList ++ ':' :: ([] ++ (compactChars f.2 ++
          ',' :: (compactFields (g :: fields) ++ '\x7d' :: rest))))) =
            some ((some f.1.toList, f.2) :: (g :: fields).map fun f => (some f.1.toList, f.2),
                rest) :=
        fields?_cons hnone hnone hvalue hnext
      rw [compactFields, List.append_assoc, List.append_assoc]
      exact hread

/-- **A table of values without parts is read back** from one line. -/
theorem parse?_compact {fields : List (String × Document)} (h : ∀ f ∈ fields, Stays f.2) :
    parse? (compact (.table fields)) = some (.table fields) := by
  rw [parse?, compact, String.toList_ofList, parseChars?]
  cases fields with
  | nil => rfl
  | cons f fields =>
    have hchars : compactChars (.table (f :: fields)) =
      '\x7b' :: (compactFields (f :: fields) ++ ['\x7d']) := by rw [compactChars]; rfl
    rw [hchars]
    have hlength := length_le_compactFields (f :: fields)
    have hfields := fields?_compact (List.cons_ne_nil f fields) h []
      (show (f :: fields).length <
          2 * ('\x7b' :: (compactFields (f :: fields) ++ ['\x7d'])).length by
        simp only [List.length_append, List.length_cons] at hlength ⊢
        omega)
    have hbegins : ∀ r, skipSpace (compactFields (f :: fields) ++ ['\x7d']) ≠ '\x7d' :: r := by
      intro r
      obtain ⟨body, hbody⟩ : ∃ body, compactFields (f :: fields) = '"' :: body := by
        cases fields <;> exact ⟨_, rfl⟩
      rw [hbody, List.cons_append, skipSpace_cons (by decide)]
      exact fun h => absurd (List.cons.inj h).1 (by decide)
    have hvalue := value?_table hbegins hfields
    rw [hvalue]
    rfl

end

end Json

/-! ## Options -/

namespace EffectOptions

/-- Options as a JSON text. -/
def text (o : EffectOptions) : String := Json.compact o.document

theorem document_eq (o : EffectOptions) :
    o.document = .table (fieldsOf names [o.transition.map .string, o.motion.map .string,
    o.color.map .string, o.overlay.map .string, o.transitionDuration.map .float,
        o.preset.map .string]) := by
  obtain ⟨transition, motion, color, overlay, duration, preset⟩ := o
  cases transition <;> cases motion <;> cases color <;> cases overlay <;> cases duration <;>
    cases preset <;> rfl

theorem ofDocument?_document (o : EffectOptions) : ofDocument? o.document = some o := by
  have hstring : ∀ s : String, Document.string s ≠ .null := fun _ h => nomatch h
  have hfloat : ∀ x : Float, Document.float x ≠ .null := fun _ h => nomatch h
  unfold ofDocument?
  simp only [Option.bind_eq_bind]
  rw [document_eq, record?_fieldsOf (by decide) rfl, Option.bind_some,
    optionalOrNone_map (o := o.transition) rfl (fun _ => rfl) hstring,
      optionalOrNone_map (o := o.motion) rfl (fun _ => rfl) hstring,
    optionalOrNone_map (o := o.color) rfl (fun _ => rfl) hstring,
      optionalOrNone_map (o := o.overlay) rfl (fun _ => rfl) hstring,
    optionalOrNone_map (o := o.transitionDuration) rfl (fun _ => rfl) hfloat,
    optionalOrNone_map (o := o.preset) rfl (fun _ => rfl) hstring]
  rfl

/-- **Options are read back**, whichever of them are set. -/
theorem ofJson_text [r : Json.FloatReader] (hcorrect : r.Correct) {o : EffectOptions}
    (h : ∀ x, o.transitionDuration = some x → isFinite x = true) : ofJson o.text = .ok o := by
  have hstays : ∀ f ∈ fieldsOf names [o.transition.map .string, o.motion.map .string,
      o.color.map .string, o.overlay.map .string, o.transitionDuration.map .float,
      o.preset.map .string], Json.Stays f.2 := by
    intro f hf
    have hstring : ∀ {s : Option String}, some f.2 = s.map .string → Json.Stays f.2 := by
      intro s hs
      obtain ⟨a, -, ha⟩ := Option.map_eq_some_iff.mp hs.symm
      exact ha ▸ Json.stays_string a
    have hvalue := mem_values_of_mem_fieldsOf hf
    simp only [List.mem_cons, List.not_mem_nil, or_false] at hvalue
    rcases hvalue with hs | hs | hs | hs | hx | hs
    · exact hstring hs
    · exact hstring hs
    · exact hstring hs
    · exact hstring hs
    · obtain ⟨x, hset, hx⟩ := Option.map_eq_some_iff.mp hx.symm
      exact hx ▸ Json.stays_float (Json.kept_of_correct hcorrect (h x hset))
    · exact hstring hs
  have hparse := Json.parse?_compact hstays
  rw [ofJson, text, document_eq, hparse, Option.bind_some, ← document_eq, ofDocument?_document]

end EffectOptions

/-! ## Events -/

namespace Event

/-- An event as a JSON text. -/
def text (e : Event) : String := Json.compact e.document

/-- Reads an event from a JSON text. -/
def ofJson? [Json.FloatReader] (text : String) : Option Event := (Json.parse? text).bind ofDocument?

/-- The numbers of an event are a count of 64 bits and a finite share. -/
def Valid : Event → Prop
  | .queued _ images => images < 2 ^ 64
  | .progress _ fraction => isFinite fraction = true
  | .started .. | .completed .. | .failed .. => True

/-- The kind that an event names. -/
def type : Event → String
  | .queued .. => "job_queued"
  | .started .. => "job_started"
  | .progress .. => "job_progress"
  | .completed .. => "job_completed"
  | .failed .. => "job_failed"

/-- What an event tells besides its kind. -/
def fields : Event → List (String × Document)
  | .queued id images => ["job_id", "images"].zip [writeId id, ofNat images]
  | .started id command => ["job_id", "command"].zip [writeId id, .string command]
  | .progress id fraction => ["job_id", "fraction"].zip [writeId id, .float fraction]
  | .completed id filename => ["job_id", "output_filename"].zip [writeId id, .string filename]
  | .failed id kind error =>
    ["job_id", "kind", "error"].zip [writeId id, .string kind.name, .string error]

theorem document_eq (e : Event) : e.document = .table (("type", .string e.type) :: e.fields) := by
  cases e <;> rfl

theorem not_type_of_mem_fields (e : Event) : ∀ f ∈ e.fields, f.1 ≠ "type" := by
  cases e <;> simp [fields]

theorem readId?_writeId (id : JobId) : readId? (writeId id) = some id := id.parse?_text

/-- The fields of an event are read back as those of its kind. -/
theorem ofFields?_fields {e : Event} (h : e.Valid) :
    ofFields? e.type (.table e.fields) = some e := by
  cases e with
  | queued id images =>
    rw [fields, type, ofFields?, record?_zip (by decide) rfl]
    simp only [Option.bind_eq_bind, Option.bind_some]
    rw [required_eq rfl, required_eq rfl, readId?_writeId, nat64?, Nat.pow_eq, nat?_ofNat h]
    rfl
  | started id command =>
    rw [fields, type, ofFields?, record?_zip (by decide) rfl]
    simp only [Option.bind_eq_bind, Option.bind_some]
    rw [required_eq rfl, required_eq rfl, readId?_writeId]
    rfl
  | progress id fraction =>
    rw [fields, type, ofFields?, record?_zip (by decide) rfl]
    simp only [Option.bind_eq_bind, Option.bind_some]
    rw [required_eq rfl, required_eq rfl, readId?_writeId]
    rfl
  | completed id filename =>
    rw [fields, type, ofFields?, record?_zip (by decide) rfl]
    simp only [Option.bind_eq_bind, Option.bind_some]
    rw [required_eq rfl, required_eq rfl, readId?_writeId]
    rfl
  | failed id kind error =>
    rw [fields, type, ofFields?, record?_zip (by decide) rfl]
    simp only [Option.bind_eq_bind, Option.bind_some]
    rw [required_eq rfl, required_eq rfl, required_eq rfl, readId?_writeId, kind?,
      ErrorKind.ofName?_name]
    rfl

theorem ofDocument?_document {e : Event} (h : e.Valid) : ofDocument? e.document = some e := by
  have hother : (("type", Document.string e.type) :: e.fields).filter (·.1 != "type") =
      e.fields := by
    rw [List.filter_cons_of_neg (by simp), List.filter_eq_self.mpr fun f hf => by
      simpa using e.not_type_of_mem_fields f hf]
  rw [document_eq, ofDocument?, single?_cons_self _ e.not_type_of_mem_fields, hother]
  exact ofFields?_fields h

theorem stays_fields [r : Json.FloatReader] (hcorrect : r.Correct) {e : Event} (h : e.Valid) :
    ∀ f ∈ ("type", .string e.type) :: e.fields, Json.Stays f.2 := by
  have hkept : ∀ id fraction, e = .progress id fraction → Json.Stays (.float fraction) := by
    rintro id fraction rfl
    exact Json.stays_float (Json.kept_of_correct hcorrect h)
  have hcount : ∀ id images, e = .queued id images → Json.Stays (ofNat images) := by
    rintro id images rfl
    exact Json.stays_ofNat h
  refine List.forall_mem_cons.mpr ⟨Json.stays_string _, ?_⟩
  cases e <;> simp [fields, writeId, Json.stays_string, hkept, hcount]

theorem parse?_text [r : Json.FloatReader] (hcorrect : r.Correct) {e : Event} (h : e.Valid) :
    Json.parse? e.text = some (.table (("type", .string e.type) :: e.fields)) := by
  rw [text, document_eq, Json.parse?_compact (stays_fields hcorrect h)]

/-- **An event of each kind is read back.** -/
theorem ofJson?_text [r : Json.FloatReader] (hcorrect : r.Correct) {e : Event} (h : e.Valid) :
    ofJson? e.text = some e := by
  rw [ofJson?, parse?_text hcorrect h, Option.bind_some, ← document_eq, ofDocument?_document h]

end Event

/-! ## Both -/

/-- **Options and events survive the wire** if numbers are read with correct rounding. Options are
read back from their text, for any texts in their fields and whichever of them are set, if the
length is not set or finite; events are read back if their share is finite, and their text is a
table that names their kind and their job. -/
theorem messages_read_back [r : Json.FloatReader] (hcorrect : r.Correct) :
    (∀ o : EffectOptions, (∀ x, o.transitionDuration = some x → isFinite x = true) →
      EffectOptions.ofJson o.text = .ok o) ∧
      ∀ e : Event, e.Valid → Event.ofJson? e.text = some e ∧
        ∃ fields, Json.parse? e.text = some (.table fields) ∧
        single? "type" fields = some (some (.string e.type)) ∧
            single? "job_id" fields = some (some (.string e.job.text)) := by
  refine ⟨fun o h => EffectOptions.ofJson_text hcorrect h, fun e h =>
    ⟨Event.ofJson?_text hcorrect h, _,
    Event.parse?_text hcorrect h, single?_cons_self _ e.not_type_of_mem_fields, ?_⟩⟩
  cases e <;> rfl

/-- Options with all fields set, to texts with characters that are escaped and to the least positive
length. -/
def EffectOptions.awkward : EffectOptions where
  transition := some "\"fade\" \\ 🎞"
  motion := some "\n\u0000"
  color := some ""
  overlay := some "/\t"
  transitionDuration := some 5e-324
  preset := some "null"

/-- Options with all fields set and those with none are read back, and so are the largest count, a
share that is not a short binary fraction and a failure with quotes in its text. -/
theorem messages_read_back_awkward :
    (∀ o ∈ [EffectOptions.awkward, {}], @EffectOptions.ofJson Json.rounding o.text = .ok o) ∧
      ∀ e ∈ [Event.queued ⟨7⟩ (2 ^ 64 - 1), .progress ⟨7⟩ 0.1,
        .failed ⟨7⟩ .notFound "no \"a\\b.jpg\"\n"],
        e.Valid ∧ @Event.ofJson? Json.rounding e.text = some e := by
  obtain ⟨hoptions, hevents⟩ := @messages_read_back Json.rounding Json.rounding_correct
  refine ⟨fun o ho => hoptions o fun x hx => ?_, fun e he => ?_⟩
  · rcases List.mem_pair.mp ho with rfl | rfl
    · obtain rfl := Option.some.inj hx
      decide +kernel
    · exact nomatch hx
  · have hvalid : e.Valid := by
      simp only [List.mem_cons, List.not_mem_nil, or_false] at he
      rcases he with rfl | rfl | rfl
      · show 2 ^ 64 - 1 < 2 ^ 64
        decide
      · show isFinite 0.1 = true
        rfl
      · trivial
    exact ⟨hvalid, (hevents e hvalid).1⟩

end Slideshow
