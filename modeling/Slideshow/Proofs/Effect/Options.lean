import Slideshow.Effect.Options
import Slideshow.Proofs.Order
import Slideshow.Proofs.Trial

/-!
# What becomes of effect options

Every field of options is checked before any of them is used (`validate`), and most of them are read
a second time when they are used (`resolve_with_default`). What can be used is what was found good:
options without a bad field always give a selection, and others never do.

* `EffectOptions.Bad` says which fields are bad, by the catalog and the registry alone; `complaint`
  is what is told of one.
* `EffectOptions.Follows` is the law by which a selection follows from options: what is asked for,
  else what the preset has, else nothing.
* `Choice.parse_cases`, `Preset.get_cases`: what reading a name gives, for every text.

Headlines:
* **`EffectOptions.faults_eq`**: each bad field is told once, in order.
* **`EffectOptions.resolve_iff`**: options give a selection exactly when no field is bad and it
  follows by the law.
* `EffectOptions.isDuration_of_resolve`: a selection has a length that may be asked for.
* **`EffectOptions.resolve_by_law`**: both, with what is told when there is no selection.
-/

namespace Slideshow

/-! ## Names -/

/-- What is looked for by its name is found, or has a name that there is not. -/
theorem find?_cases {α : Type} (name : α → String) (xs : List α) (s : String) :
    (∃ a ∈ xs, xs.find? (name · == s) = some a ∧ name a = s) ∨ s ∉ xs.map name ∧
        xs.find? (name · == s) = none := by
  cases h : xs.find? (name · == s) with
  | some a =>
    have hname : name a = s := by simpa using List.find?_some h
    exact .inl ⟨a, List.mem_of_find?_eq_some h, rfl, hname⟩
  | none =>
    refine .inr ⟨fun hmem => ?_, rfl⟩
    obtain ⟨a, ha, hname⟩ := List.mem_map.mp hmem
    exact List.find?_eq_none.mp h a ha (by simp [hname])

/-- A name is the key of an effect, or it is said to be unknown. -/
theorem Choice.parse_cases {α : Type} [Choice α] (s : String) :
    (∃ a, Choice.parse α s = .ok a ∧ Choice.key a = s ∧ s ∈ Choice.keys α) ∨
      s ∉ Choice.keys α ∧ Choice.parse α s = .error (.validation (Choice.unknown α s)) := by
  unfold Choice.parse Choice.ofKey?
  rcases find?_cases (Choice.key : α → String) Choice.all
    s with ⟨a, ha, hfind, hkey⟩ | ⟨hmem, hfind⟩
  · rw [hfind]
    exact .inl ⟨a, rfl, hkey, List.mem_map.mpr ⟨a, ha, hkey⟩⟩
  · rw [hfind]
    exact .inr ⟨hmem, rfl⟩

/-- The names in the registry. -/
def Preset.names : List String := Preset.all.map (·.name)

/-- A name is that of a preset, or none is found. -/
theorem Preset.get_cases (s : String) :
    (∃ p ∈ Preset.all, Preset.get s = .ok p ∧ p.name = s ∧ s ∈ Preset.names) ∨
    s ∉ Preset.names ∧ Preset.get s = .error (.notFound "preset" s) := by
  unfold Preset.get Preset.find?
  rcases find?_cases Preset.name Preset.all s with ⟨p, hp, hfind, hname⟩ | ⟨hmem, hfind⟩
  · rw [hfind]
    exact .inl ⟨p, hp, rfl, hname, List.mem_map.mpr ⟨p, hp, hname⟩⟩
  · rw [hfind]
    exact .inr ⟨hmem, rfl⟩

theorem Preset.eq_of_name {p q : Preset} (hp : p ∈ Preset.all) (hq : q ∈ Preset.all)
    (h : p.name = q.name) : p = q :=
  List.inj_on_of_nodup_map (f := Preset.name) (by decide) hp hq h

namespace EffectOptions

/-! ## Fields -/

/-- A field of options. -/
inductive Field where
  | transition
  | motion
  | color
  | overlay
  | transitionDuration
  | preset
deriving DecidableEq, Repr

/-- The fields in order. -/
def Field.all : List Field := [.transition, .motion, .color, .overlay, .transitionDuration, .preset]

theorem Field.mem_all (f : Field) : f ∈ Field.all := by cases f <;> decide

/-- A name is given that is none of those that there are. -/
def Unknown (names : List String) : Option String → Prop
  | none => False
  | some s => s ∉ names

instance (names : List String) : (name : Option String) → Decidable (Unknown names name)
  | none => inferInstanceAs (Decidable False)
  | some s => inferInstanceAs (Decidable (s ∉ names))

/-- A length is given that is not finite, not above zero or too large. -/
def Unfit : Option Float → Prop
  | none => False
  | some x => ¬(x.isFinite = true ∧ 0 < x ∧ x ≤ maxTransitionSeconds)

instance : (duration : Option Float) → Decidable (Unfit duration)
  | none => inferInstanceAs (Decidable False)
  | some x => inferInstanceAs (Decidable (¬(x.isFinite = true ∧ 0 < x ∧ x ≤ maxTransitionSeconds)))

/-- A field is there and bad. -/
def Bad (o : EffectOptions) : Field → Prop
  | .transition => Unknown (Choice.keys Transition) o.transition
  | .motion => Unknown (Choice.keys Motion) o.motion
  | .color => Unknown (Choice.keys ColorGrade) o.color
  | .overlay => Unknown (Choice.keys Overlay) o.overlay
  | .transitionDuration => Unfit o.transitionDuration
  | .preset => Unknown Preset.names o.preset

instance (o : EffectOptions) : (f : Field) → Decidable (o.Bad f)
  | .transition => inferInstanceAs (Decidable (Unknown _ _))
  | .motion => inferInstanceAs (Decidable (Unknown _ _))
  | .color => inferInstanceAs (Decidable (Unknown _ _))
  | .overlay => inferInstanceAs (Decidable (Unknown _ _))
  | .transitionDuration => inferInstanceAs (Decidable (Unfit _))
  | .preset => inferInstanceAs (Decidable (Unknown _ _))

/-- What is told of a field that is there and bad. -/
def complaint (o : EffectOptions) : Field → String
  | .transition => Choice.unknown Transition (o.transition.getD "")
  | .motion => Choice.unknown Motion (o.motion.getD "")
  | .color => Choice.unknown ColorGrade (o.color.getD "")
  | .overlay => Choice.unknown Overlay (o.overlay.getD "")
  | .transitionDuration =>
    "transitionDuration must be in (0, " ++ Decimal.displayed maxTransitionSeconds ++
      "] seconds, got " ++ Decimal.displayed (o.transitionDuration.getD 0)
  | .preset => "unknown preset '" ++ o.preset.getD "" ++ "'"

/-- The check of a field. -/
def check (o : EffectOptions) : Field → List String
  | .transition => effectFault Transition o.transition
  | .motion => effectFault Motion o.motion
  | .color => effectFault ColorGrade o.color
  | .overlay => effectFault Overlay o.overlay
  | .transitionDuration => durationFault o.transitionDuration
  | .preset => presetFault o.preset

theorem faults_checks (o : EffectOptions) : o.faults = Field.all.flatMap o.check := by
  simp [faults, Field.all, check]

/-! ## Checks -/

theorem effectFault_eq (α : Type) [Choice α] (name : Option String) :
    effectFault α name = if Unknown (Choice.keys α) name then [Choice.unknown α (name.getD "")]
        else [] := by
  cases name with
  | none => rfl
  | some s =>
    rcases Choice.parse_cases (α := α) s with ⟨a, hparse, -, hmem⟩ | ⟨hmem, hparse⟩
    · have hknown : ¬Unknown (Choice.keys α) (some s) := not_not_intro hmem
      rw [if_neg hknown]
      simp only [effectFault, hparse]
    · have hunknown : Unknown (Choice.keys α) (some s) := hmem
      rw [if_pos hunknown]
      simp only [effectFault, hparse, Option.getD_some]

theorem presetFault_eq (name : Option String) :
    presetFault name = if Unknown Preset.names name then ["unknown preset '" ++ name.getD "" ++ "'"]
        else [] := by
  cases name with
  | none => rfl
  | some s =>
    rcases Preset.get_cases s with ⟨p, -, hget, -, hmem⟩ | ⟨hmem, hget⟩
    · have hknown : ¬Unknown Preset.names (some s) := not_not_intro hmem
      rw [if_neg hknown]
      simp only [presetFault, hget]
    · have hunknown : Unknown Preset.names (some s) := hmem
      rw [if_pos hunknown]
      simp only [presetFault, hget, Option.getD_some]

/-- The check of a length, which is for what it must not be, is for what it must be. -/
theorem isDuration_iff (x : Float) :
    isDuration x = true ↔ x.isFinite = true ∧ 0 < x ∧ x ≤ maxTransitionSeconds := by
  have hmax : maxTransitionSeconds ≤ maxTransitionSeconds := by decide
  have hchecks : isDuration x = true ↔ x.isFinite = true ∧ ¬x ≤ 0 ∧ ¬maxTransitionSeconds < x := by
    simp [isDuration, and_assoc]
  rw [hchecks]
  constructor
  · rintro ⟨hfinite, hzero, hlarge⟩
    have hx := float_le_self hfinite
    exact ⟨hfinite, float_lt_of_not_le float_zero_le_zero hx hzero,
      float_le_of_not_lt hx hmax hlarge⟩
  · rintro ⟨hfinite, hzero, hlarge⟩
    exact ⟨hfinite, float_not_le hzero, float_not_lt hlarge⟩

theorem durationFault_eq (duration : Option Float) :
    durationFault duration = if Unfit duration then ["transitionDuration must be in (0, " ++
      Decimal.displayed maxTransitionSeconds ++ "] seconds, got " ++
          Decimal.displayed (duration.getD 0)] else [] := by
  cases duration with
  | none => rfl
  | some x =>
    by_cases h : isDuration x = true
    · have hfit : ¬Unfit (some x) := not_not_intro ((isDuration_iff x).mp h)
      rw [if_neg hfit]
      exact if_pos h
    · have hunfit : Unfit (some x) := fun hx => h ((isDuration_iff x).mpr hx)
      rw [if_pos hunfit]
      exact if_neg h

/-- A field is told once if it is bad. -/
theorem check_eq (o : EffectOptions) (f : Field) :
    o.check f = if o.Bad f then [o.complaint f] else [] := by
  cases f with
  | transition => exact effectFault_eq _ _
  | motion => exact effectFault_eq _ _
  | color => exact effectFault_eq _ _
  | overlay => exact effectFault_eq _ _
  | transitionDuration => exact durationFault_eq _
  | preset => exact presetFault_eq _

/-- **Each bad field is told once**, in the order of the fields. -/
theorem faults_eq (o : EffectOptions) :
    o.faults = (Field.all.filter (o.Bad ·)).map o.complaint := by
  rw [faults_checks]
  induction Field.all with
  | nil => rfl
  | cons f fs ih =>
    rw [List.flatMap_cons, check_eq, ih]
    by_cases h : o.Bad f
    · simp [h]
    · simp [h]

theorem isValid_iff (o : EffectOptions) : o.isValid = true ↔ ∀ f, ¬o.Bad f := by
  rw [isValid, faults_eq, List.isEmpty_iff, List.map_eq_nil_iff, List.filter_eq_nil_iff]
  simp [Field.mem_all]

/-! ## Selections -/

/-- The effect that is asked for, by its key; if none is, that of the preset. -/
def Chosen {α : Type} [Choice α] (name : Option String) (preset chosen : Option α) : Prop :=
  match name with
  | some s => chosen.map Choice.key = some s
  | none => chosen = preset

/-- A selection follows from options that name a preset or none. -/
structure Follows (o : EffectOptions) (default : Float) (p : Option Preset) (s : EffectSpec Float) :
    Prop where
  named : p.map (·.name) = o.preset
  listed : ∀ q, p = some q → q ∈ Preset.all
  transition : Chosen o.transition (p.map (·.transition)) s.transition
  motion : Chosen o.motion (p.map (·.motion)) s.motion
  color : Chosen o.color (p.bind (·.color)) s.color
  overlay : Chosen o.overlay (p.bind (·.overlay)) s.overlay
  /-- A preset says nothing about the length. -/
  transitionDuration : s.transitionDuration = o.transitionDuration.getD default

section
variable {α : Type} [Choice α] {name : Option String} {preset : Option α}

/-- The second reading of a name that was found good does not fail. -/
theorem override_of_known (preset : Option α) (h : ¬Unknown (Choice.keys α) name) :
    ∃ chosen, override name preset = .ok chosen ∧ Chosen name preset chosen := by
  cases name with
  | none => exact ⟨preset, rfl, rfl⟩
  | some s =>
    rcases Choice.parse_cases (α := α) s with ⟨a, hparse, hkey, -⟩ | ⟨hmem, -⟩
    · refine ⟨some a, ?_, congrArg some hkey⟩
      rw [override, hparse]
      rfl
    · exact absurd hmem h

theorem Chosen.unique (hkey : Function.Injective (Choice.key : α → String))
    {chosen chosen' : Option α} (h : Chosen name preset chosen) (h' : Chosen name preset chosen') :
    chosen = chosen' := by
  cases name with
  | none => exact Eq.trans h (Eq.symm h')
  | some s => exact Option.map_injective hkey (Eq.trans h (Eq.symm h'))

end

theorem key_injective {α : Type} [Choice α] (h : ∀ a : α, Choice.ofKey? (Choice.key a) = some a) :
    Function.Injective (Choice.key : α → String) :=
  fun a b hab => Option.some.inj ((h a).symm.trans (hab ▸ h b))

/-- **The law leaves no choice.** -/
theorem Follows.unique {o : EffectOptions} {default : Float} {p p' : Option Preset}
    {s s' : EffectSpec Float} (h : o.Follows default p s) (h' : o.Follows default p' s') :
    s = s' := by
  have hpreset : p = p' := by
    have hname : p.map (·.name) = p'.map (·.name) := h.named.trans h'.named.symm
    cases p with
    | none => cases p' with
      | none => rfl
      | some q => cases hname
    | some q => cases p' with
      | none => cases hname
      | some q' =>
        exact congrArg some
          (Preset.eq_of_name (h.listed q rfl) (h'.listed q' rfl) (Option.some.inj hname))
  subst hpreset
  obtain ⟨transition, motion, color, overlay, duration⟩ := s
  obtain ⟨transition', motion', color', overlay', duration'⟩ := s'
  obtain rfl := h.transition.unique (key_injective Transition.ofKey?_key) h'.transition
  obtain rfl := h.motion.unique (key_injective Motion.ofKey?_key) h'.motion
  obtain rfl := h.color.unique (key_injective ColorGrade.ofKey?_key) h'.color
  obtain rfl := h.overlay.unique (key_injective Overlay.ofKey?_key) h'.overlay
  obtain rfl : duration = duration' := h.transitionDuration.trans h'.transitionDuration.symm
  rfl

/-- What options start from, if their preset is one. -/
theorem base_of_known {o : EffectOptions} (h : ¬o.Bad .preset) :
    ∃ (p : Option Preset) (s : EffectSpec Float),
    o.base = .ok s ∧ p.map (·.name) = o.preset ∧ (∀ q, p = some q → q ∈ Preset.all) ∧
    s.transition = p.map (·.transition) ∧ s.motion = p.map (·.motion) ∧ s.color = p.bind (·.color) ∧
    s.overlay = p.bind (·.overlay) := by
  unfold base
  cases hname : o.preset with
  | none => exact ⟨none, _, rfl, rfl, fun _ hq => (nomatch hq), rfl, rfl, rfl, rfl⟩
  | some name =>
    rcases Preset.get_cases name with ⟨p, hp, hget, hpname, -⟩ | ⟨hmem, -⟩
    · dsimp only
      rw [hget]
      exact ⟨some p, _, rfl, congrArg some hpname, fun q hq => Option.some.inj hq ▸ hp, rfl, rfl,
        rfl, rfl⟩
    · have hbad : o.Bad .preset := by
        show Unknown Preset.names o.preset
        rw [hname]
        exact hmem
      exact absurd hbad h

/-- **Options without a bad field give a selection**: nothing fails that was found good. -/
theorem resolve_of_good {o : EffectOptions} (default : Float) (h : ∀ f, ¬o.Bad f) :
    ∃ p s, o.resolve default = .ok s ∧ o.Follows default p s := by
  obtain ⟨p, base, hbase, hnamed, hlisted, htransition, hmotion, hcolor, hoverlay⟩ :=
    base_of_known (h .preset)
  obtain ⟨transition, hoverTransition, hchosenTransition⟩ :=
    override_of_known base.transition (h .transition)
  obtain ⟨motion, hoverMotion, hchosenMotion⟩ := override_of_known base.motion (h .motion)
  obtain ⟨color, hoverColor, hchosenColor⟩ := override_of_known base.color (h .color)
  obtain ⟨overlay, hoverOverlay, hchosenOverlay⟩ := override_of_known base.overlay (h .overlay)
  refine ⟨p, ⟨transition, motion, color, overlay, o.transitionDuration.getD default⟩, ?_, hnamed,
    hlisted, htransition ▸ hchosenTransition, hmotion ▸ hchosenMotion, hcolor ▸ hchosenColor,
    hoverlay ▸ hchosenOverlay, rfl⟩
  rw [resolve, if_pos (o.isValid_iff.mpr h), hbase]
  dsimp only [bind, Except.bind]
  rw [hoverTransition, hoverMotion, hoverColor, hoverOverlay]
  rfl

theorem resolve_of_not_valid {o : EffectOptions} (default : Float) (h : o.isValid = false) :
    o.resolve default = .error (.validation ("; ".intercalate o.faults)) := by
  rw [resolve, if_neg (by simp [h])]

/-- **Options give a selection exactly when no field is bad and it follows by the law.** -/
theorem resolve_iff (o : EffectOptions) (default : Float) (s : EffectSpec Float) :
    o.resolve default = .ok s ↔ (∀ f, ¬o.Bad f) ∧ ∃ p, o.Follows default p s := by
  constructor
  · intro hs
    have hvalid : o.isValid = true := by
      by_contra hvalid
      rw [resolve_of_not_valid default (Bool.eq_false_iff.mpr hvalid)] at hs
      cases hs
    have hgood := o.isValid_iff.mp hvalid
    obtain ⟨p, s', hs', hfollows⟩ := resolve_of_good default hgood
    exact ⟨hgood, p, Except.ok.inj (hs'.symm.trans hs) ▸ hfollows⟩
  · rintro ⟨hgood, p, hfollows⟩
    obtain ⟨p', s', hs', hfollows'⟩ := resolve_of_good default hgood
    rw [hs', hfollows.unique hfollows']

/-- The length of a selection is the default, or one that may be asked for. -/
theorem length_of_resolve {o : EffectOptions} {default : Float} {s : EffectSpec Float}
    (h : o.resolve default = .ok s) :
    s.transitionDuration = default ∨ isDuration s.transitionDuration = true := by
  obtain ⟨hgood, p, hfollows⟩ := (o.resolve_iff default s).mp h
  have hfit : ¬Unfit o.transitionDuration := hgood .transitionDuration
  rw [hfollows.transitionDuration]
  cases hduration : o.transitionDuration with
  | none => exact .inl rfl
  | some x =>
    rw [hduration] at hfit
    exact .inr ((isDuration_iff x).mpr (not_not.mp hfit))

/-- **A selection has a length that may be asked for**, if the default is one. -/
theorem isDuration_of_resolve {o : EffectOptions} {default : Float} {s : EffectSpec Float}
    (h : o.resolve default = .ok s) (hdefault : isDuration default = true) :
    isDuration s.transitionDuration = true := by
  rcases length_of_resolve h with heq | hasked
  · rwa [heq]
  · exact hasked

/-- **Options are resolved by one law.** Each bad field is told once, in order, and options are
valid when there is none. Valid options give the one selection that follows from them, with the
length that is asked for or else the default; others give all that was told. -/
theorem resolve_by_law (o : EffectOptions) (default : Float) :
    o.faults = (Field.all.filter (o.Bad ·)).map o.complaint ∧
    (o.isValid = true ↔ ∀ f, ¬o.Bad f) ∧
    ((o.resolve default).isOk = true ↔ o.isValid = true) ∧
    (o.isValid = false → o.resolve default = .error (.validation ("; ".intercalate o.faults))) ∧
    ∀ s, o.resolve default = .ok s ↔ o.isValid = true ∧ ∃ p, o.Follows default p s := by
  refine ⟨o.faults_eq, o.isValid_iff, ⟨fun hok => ?_, fun hvalid => ?_⟩,
    resolve_of_not_valid default, fun s => ?_⟩
  · by_contra hvalid
    rw [resolve_of_not_valid default (Bool.eq_false_iff.mpr hvalid)] at hok
    cases hok
  · obtain ⟨p, s, hs, -⟩ := resolve_of_good default (o.isValid_iff.mp hvalid)
    rw [hs]
    rfl
  · rw [resolve_iff, isValid_iff]

/-- A preset gives the motion, the transition is asked for. -/
example : ({ preset := some "minimal", transition := some "fade" } : EffectOptions).resolve 2 =
    .ok ⟨some .fade, some .static, none, none, 2⟩ := rfl

end EffectOptions

end Slideshow
