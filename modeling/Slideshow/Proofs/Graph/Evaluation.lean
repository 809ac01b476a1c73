import Slideshow.Proofs.Exact
import Slideshow.Proofs.Numeral
import Slideshow.Proofs.Graph.Arguments
import Slideshow.Proofs.Graph.Reader
import Mathlib.Analysis.SpecialFunctions.Trigonometric.Basic

/-!
# What a motion filter computes

The text of a filter is taken apart into its arguments, these are read as expressions, and the
expressions are evaluated over the reals for one frame. The zoom comes first, as the corner of the
window depends on it. What the text does not say is the whole image, upright.

Headlines:
* `cameraOf?` is the camera that a filter computes for a frame.
* `Expression.value`: the value of an expression over the reals.
* `zoompan_toList`, `turn_toList`: the texts of filters as names and options.
* **`cameraOf?_filter`**: the filter of a motion computes what the motion's expressions say.
-/

namespace Slideshow

open Scalar

/-- The real numbers with the infinities; these have no sine. -/
noncomputable instance : Trigonometric (Exact ℝ) where
  pi := .number Real.pi
  sin x := match x with
    | .number x => .number (Real.sin x)
    | _ => .nan
  cos x := match x with
    | .number x => .number (Real.cos x)
    | _ => .nan

namespace Graph

/-! ## The camera of a filter -/

/-- The value of an expression. -/
noncomputable def Expression.value (env : Variable → Exact ℝ) : Expression → Exact ℝ
  | .literal w => .number (Decimal.literalValue w)
  | .var v => env v
  | .negate e => -e.value env
  | .add a b => a.value env + b.value env
  | .subtract a b => a.value env - b.value env
  | .multiply a b => a.value env * b.value env
  | .divide a b => a.value env / b.value env
  | .apply .sin e => Trigonometric.sin (e.value env)
  | .apply .cos e => Trigonometric.cos (e.value env)
  | .minimum a b => Scalar.minimum (a.value env) (b.value env)
  | .parenthesized e => e.value env

/-- What is known of a frame. -/
noncomputable def environment (width height frame : Nat) (zoom : Exact ℝ) : Variable → Exact ℝ
  | .outputFrame | .frame => .number frame
  | .inputWidth => .number width
  | .inputHeight => .number height
  | .zoom => zoom
  | .pi => .number Real.pi

/-- The value of an option that is there, or what its absence means. -/
noncomputable def argumentValue? (chain : List Char) (name key : String) (absent : Exact ℝ)
    (env : Variable → Exact ℝ) : Option (Exact ℝ) :=
  match argument? chain name.toList key.toList with
  | some cs => (parse cs).map fun e => e.value env
  | none => some absent

/-- The camera that a filter computes for a frame, if all it says can be read. -/
noncomputable def cameraOf? (filter : String) (width height frame : Nat) :
    Option (MotionFrame (Exact ℝ)) := do
  let chain := filter.toList
  let zoom ← argumentValue? chain "zoompan" "z" one (environment width height frame .nan)
  let env := environment width height frame zoom
  let x ← argumentValue? chain "zoompan" "x" zero env
  let y ← argumentValue? chain "zoompan" "y" zero env
  let angle ← argumentValue? chain "rotate" "a" zero env
  return ⟨zoom, x, y, angle⟩

/-! ## The camera of a motion -/

namespace MotionForm

/-- All expressions of a motion can be read back. -/
def Readable : MotionForm → Prop
  | .still => True
  | .window zoom x y => zoom.Readable ∧ x.Readable ∧ y.Readable
  | .turn angle => angle.Readable

/-- What the expressions of a motion say about a frame. -/
noncomputable def camera (f : MotionForm) (width height frame : Nat) : MotionFrame (Exact ℝ) :=
  match f with
  | .still => .identity
  | .window zoom x y =>
    let z := zoom.value (environment width height frame .nan)
    let env := environment width height frame z
    ⟨z, x.value env, y.value env, zero⟩
  | .turn angle =>
    { MotionFrame.identity with angle := angle.value (environment width height frame one) }

end MotionForm

/-! ## Texts of expressions -/

/-- Two texts without quotes, and a character between them. -/
theorem quote_not_mem_joined {as bs : List Char} {c : Char} (ha : quote ∉ as) (hb : quote ∉ bs)
    (hc : quote ≠ c) : quote ∉ as ++ c :: bs := fun h => by
  rcases List.mem_append.mp h with h | h
  · exact ha h
  · exact (List.mem_cons.mp h).elim hc hb

theorem quote_not_mem_chars : ∀ {e : Expression}, e.Readable → quote ∉ e.chars
  | .literal w, h => fun hq => absurd (h.2 _ hq) (by decide)
  | .var v, _ => fun hq => absurd (isWordChar_of_mem_variable v _ hq) (by decide)
  | .negate e, h => List.not_mem_cons_of_ne_of_not_mem (by decide) (quote_not_mem_chars h.1)
  | .add _ _, h =>
    quote_not_mem_joined (quote_not_mem_chars h.1) (quote_not_mem_chars h.2.1) (by decide)
  | .subtract _ _, h =>
    quote_not_mem_joined (quote_not_mem_chars h.1) (quote_not_mem_chars h.2.1) (by decide)
  | .multiply _ _, h =>
    quote_not_mem_joined (quote_not_mem_chars h.1) (quote_not_mem_chars h.2.2.1) (by decide)
  | .divide _ _, h =>
    quote_not_mem_joined (quote_not_mem_chars h.1) (quote_not_mem_chars h.2.2.1) (by decide)
  | .apply f e, h =>
    have hf : quote ∉ f.text := fun hq => absurd (isWordChar_of_mem_function f _ hq) (by decide)
    have hopened := quote_not_mem_joined hf (quote_not_mem_chars (e := e) h) (by decide)
    quote_not_mem_joined hopened (by decide) (by decide)
  | .minimum a b, h =>
    have hfirst : quote ∉ ['m', 'i', 'n'] ++ '(' :: a.chars :=
      quote_not_mem_joined (by decide) (quote_not_mem_chars h.1) (by decide)
    have hsecond := quote_not_mem_joined hfirst (quote_not_mem_chars (e := b) h.2) (by decide)
    quote_not_mem_joined hsecond (by decide) (by decide)
  | .parenthesized e, h =>
    have hopened : quote ∉ '(' :: e.chars :=
      List.not_mem_cons_of_ne_of_not_mem (by decide) (quote_not_mem_chars (e := e) h)
    quote_not_mem_joined hopened (by decide) (by decide)

theorem ne_quote_of_isWordChar {c : Char} (h : isWordChar c = true) : c ≠ quote := by
  rintro rfl
  exact absurd h (by decide)

theorem isWordChar_of_isDigit {c : Char} (h : Decimal.isDigit c = true) : isWordChar c = true := by
  have hdigit : c.isDigit = true := h
  rw [isWordChar, Char.isAlphanum, hdigit, Bool.or_true, Bool.true_or]

theorem isWhole_toString {separator : Char} (hs : isWordChar separator = false) (n : Nat) :
    isWhole separator false (toString n).toList = true :=
  isWhole_plain fun c hc => by
    rw [Nat.toString_eq_repr, Nat.toList_repr] at hc
    have hword := isWordChar_of_isDigit (Decimal.isDigit_of_mem_natDigits hc)
    refine ⟨ne_quote_of_isWordChar hword, ?_⟩
    rintro rfl
    exact absurd hword (by rw [hs]; exact Bool.false_ne_true)

/-! ## Texts of filters -/

/-- An option whose value is an expression in quotes. -/
def expressionOption (key : String) (e : Expression) : List Char :=
  key.toList ++ '=' :: quotedText e.chars

theorem text_toList (e : Expression) : e.text.toList = e.chars := String.toList_ofList

/-- How the zooming filter writes its options. -/
def windowOptions (zoom x y : Expression) (width height fps : Nat) : List Char :=
  expressionOption "z" zoom ++ ':' :: (expressionOption "x" x ++ ':' :: (expressionOption "y" y ++
    ':' :: ("d=1:s=".toList ++ (toString width).toList ++ "x".toList ++ (toString height).toList ++
      ":fps=".toList ++ (toString fps).toList)))

theorem zoompan_toList (zoom x y : Expression) (width height fps : Nat) :
    (MotionForm.zoompan zoom x y width height fps).toList =
      "zoompan".toList ++ '=' :: windowOptions zoom x y width height fps := by
  have h1 : "zoompan=z='".toList = "zoompan".toList ++ '=' :: ("z".toList ++ ['=', quote]) := by
    decide
  have h2 : "':x='".toList = quote :: ':' :: ("x".toList ++ ['=', quote]) := by decide
  have h3 : "':y='".toList = quote :: ':' :: ("y".toList ++ ['=', quote]) := by decide
  have h4 : "':d=1:s=".toList = quote :: ':' :: "d=1:s=".toList := by decide
  unfold MotionForm.zoompan
  simp only [String.toList_append]
  rw [h1, h2, h3, h4, text_toList, text_toList, text_toList]
  simp only [windowOptions, expressionOption, quotedText, List.append_assoc, List.cons_append,
    List.nil_append]

/-- How the rotating filter writes its options. -/
def turnOptions (angle : Expression) (width height : Nat) : List Char :=
  expressionOption "a" angle ++ ':' :: ("ow=".toList ++ (toString width).toList ++ ":oh=".toList ++
    (toString height).toList ++ ":c=black".toList)

theorem turn_toList (angle : Expression) (width height fps : Nat) :
    ((MotionForm.turn angle).filter width height fps).toList =
      "zoompan".toList ++ '=' ::
        windowOptions (.ofNat 1) (.ofNat 0) (.ofNat 0) width height fps ++
      ',' :: ("rotate".toList ++ '=' :: turnOptions angle width height) := by
  have h1 : ",rotate=a='".toList =
      ',' :: ("rotate".toList ++ '=' :: ("a".toList ++ ['=', quote])) := by decide
  have h2 : "':ow=".toList = quote :: ':' :: "ow=".toList := by decide
  unfold MotionForm.filter
  simp only [String.toList_append]
  rw [zoompan_toList, h1, h2, text_toList]
  simp only [turnOptions, expressionOption, quotedText, List.append_assoc, List.cons_append,
    List.nil_append]

section

variable {separator : Char} {e : Expression} (key : String)

theorem isWhole_expressionOption (hkey : isWhole separator false (key.toList ++ ['=']) = true)
    (he : e.Readable) : isWhole separator false (expressionOption key e) = true := by
  have h := isWhole_append hkey (isWhole_quotedText (quote_not_mem_chars he))
  rwa [List.append_assoc, List.singleton_append] at h

theorem option?_expression (hkey : isWhole ':' false (key.toList ++ ['=']) = true)
    (heq : '=' ∉ key.toList) (he : e.Readable) (rest : List Char) :
    option? (expressionOption key e ++ ':' :: rest) key.toList = some e.chars := by
  have h := option?_here (isWhole_expressionOption key hkey he) heq rest
  rwa [filter_quotedText (quote_not_mem_chars he)] at h

end

section

variable {zoom x y angle : Expression} (hz : zoom.Readable) (hx : x.Readable) (hy : y.Readable)
  (ha : angle.Readable) (width height fps : Nat)

include hz hx hy in
theorem isWhole_zoompan :
    isWhole ',' false
      ("zoompan".toList ++ '=' :: windowOptions zoom x y width height fps) = true := by
  have hdigits : ∀ n : Nat, isWhole ',' false (toString n).toList = true :=
    isWhole_toString (by decide)
  have hsize := isWhole_append (isWhole_append (isWhole_append (isWhole_append (isWhole_append
    (by decide : isWhole ',' false "d=1:s=".toList = true) (hdigits width))
    (by decide : isWhole ',' false "x".toList = true)) (hdigits height))
    (by decide : isWhole ',' false ":fps=".toList = true)) (hdigits fps)
  exact isWhole_joined (by decide) (by decide) (by decide)
    (isWhole_joined (by decide) (by decide) (isWhole_expressionOption _ (by decide) hz)
      (isWhole_joined (by decide) (by decide) (isWhole_expressionOption _ (by decide) hx)
        (isWhole_joined (by decide) (by decide) (isWhole_expressionOption _ (by decide) hy) hsize)))

include ha in
theorem isWhole_turn :
    isWhole ',' false ("rotate".toList ++ '=' :: turnOptions angle width height) = true := by
  have hdigits : ∀ n : Nat, isWhole ',' false (toString n).toList = true :=
    isWhole_toString (by decide)
  have hsize := isWhole_append (isWhole_append (isWhole_append (isWhole_append
    (by decide : isWhole ',' false "ow=".toList = true) (hdigits width))
    (by decide : isWhole ',' false ":oh=".toList = true)) (hdigits height))
    (by decide : isWhole ',' false ":c=black".toList = true)
  exact isWhole_joined (by decide) (by decide) (by decide)
    (isWhole_joined (by decide) (by decide) (isWhole_expressionOption _ (by decide) ha) hsize)

include hz in
theorem option?_zoom :
    option? (windowOptions zoom x y width height fps) "z".toList = some zoom.chars :=
  option?_expression _ (by decide) (by decide) hz _

include hz hx in
theorem option?_x :
    option? (windowOptions zoom x y width height fps) "x".toList = some x.chars := by
  have hz' := option?_behind (isWhole_expressionOption "z" (by decide) hz) (by decide)
    (by decide : "z".toList ≠ "x".toList)
  exact (hz' _).trans (option?_expression _ (by decide) (by decide) hx _)

include hz hx hy in
theorem option?_y :
    option? (windowOptions zoom x y width height fps) "y".toList = some y.chars := by
  have hz' := option?_behind (isWhole_expressionOption "z" (by decide) hz) (by decide)
    (by decide : "z".toList ≠ "y".toList)
  have hx' := option?_behind (isWhole_expressionOption "x" (by decide) hx) (by decide)
    (by decide : "x".toList ≠ "y".toList)
  exact ((hz' _).trans (hx' _)).trans (option?_expression _ (by decide) (by decide) hy _)

end

/-! ## The options of filters -/

theorem argumentValue?_none {chain : List Char} {name key : String} {absent : Exact ℝ}
    {env : Variable → Exact ℝ} (h : argument? chain name.toList key.toList = none) :
    argumentValue? chain name key absent env = some absent := by
  rw [argumentValue?, h]

theorem argumentValue?_expression {chain : List Char} {name key : String} {absent : Exact ℝ}
    {env : Variable → Exact ℝ} {e : Expression} (he : e.Readable)
    (h : argument? chain name.toList key.toList = some e.chars) :
    argumentValue? chain name key absent env = some (e.value env) := by
  rw [argumentValue?, h]
  exact congrArg (Option.map _) (parse_chars he)

/-! ## Numbers in expressions -/

/-- Digits with a point can be read back. -/
theorem readable_digits {whole fraction : List Char} (hne : whole ≠ [])
    (hw : ∀ c ∈ whole, Decimal.isDigit c = true) (hf : ∀ c ∈ fraction, Decimal.isDigit c = true) :
    (Expression.literal (whole ++ Decimal.pointed fraction)).Readable := by
  obtain ⟨d, ds, rfl⟩ := List.exists_cons_of_ne_nil hne
  refine ⟨?_, fun c hc => ?_⟩
  · rw [isNumber, Decimal.readLiteral?_digits hne hw hf, List.cons_append, List.head?_cons,
      Option.any_some, hw d List.mem_cons_self]
    rfl
  · rcases List.mem_append.mp hc with h | h
    · exact isWordChar_of_isDigit (hw c h)
    · unfold Decimal.pointed at h
      split at h
      · exact absurd h List.not_mem_nil
      · rcases List.mem_cons.mp h with rfl | h
        · decide
        · exact isWordChar_of_isDigit (hf c h)

theorem readable_ofNat (n : Nat) : (Expression.ofNat n).Readable := by
  have h := @readable_digits _ [] (Decimal.natDigits_ne_nil n)
    (fun _ => Decimal.isDigit_of_mem_natDigits) fun _ h => absurd h List.not_mem_nil
  rwa [Decimal.pointed, if_pos rfl, List.append_nil] at h

theorem value_ofNat (env : Variable → Exact ℝ) (n : Nat) :
    (Expression.ofNat n).value env = .number n := by
  show Exact.number ((Decimal.literalValue (Decimal.natDigits n) : ℚ) : ℝ) = _
  rw [Decimal.literalValue_natDigits, Rat.cast_natCast]

/-! ## Filters and their cameras -/

section

variable (width height fps frame : Nat)

theorem cameraOf?_still :
    cameraOf? (MotionForm.still.filter width height fps) width height frame =
      some (MotionForm.still.camera width height frame) := by
  have hfps : ("fps=" ++ toString fps).toList = "fps".toList ++ '=' :: (toString fps).toList := by
    rw [String.toList_append, show "fps=".toList = "fps".toList ++ ['='] by decide,
      List.append_assoc, List.singleton_append]
  have hwhole : isWhole ',' false ("fps".toList ++ '=' :: (toString fps).toList) = true :=
    isWhole_joined (by decide) (by decide) (by decide) (isWhole_toString (by decide) fps)
  have hnone : ∀ name key : String, "fps".toList ≠ name.toList →
      argument? ("fps=" ++ toString fps).toList name.toList key.toList = none :=
    fun name key hne => by
      rw [hfps]
      exact argument?_none hwhole (by decide) hne key.toList
  have hzoompan := fun key => hnone "zoompan" key (by decide)
  simp only [cameraOf?, MotionForm.filter, argumentValue?_none (hzoompan _),
    argumentValue?_none (hnone "rotate" "a" (by decide))]
  rfl

theorem zoompan_ne_rotate : "zoompan".toList ≠ "rotate".toList := by decide

theorem cameraOf?_window {zoom x y : Expression} (hz : zoom.Readable) (hx : x.Readable)
    (hy : y.Readable) :
    cameraOf? ((MotionForm.window zoom x y).filter width height fps) width height frame =
      some ((MotionForm.window zoom x y).camera width height frame) := by
  have hwhole := isWhole_zoompan hz hx hy width height fps
  have hlast := argument?_last hwhole (by decide)
  have hz' := (hlast "z".toList).trans (option?_zoom hz width height fps)
  have hx' := (hlast "x".toList).trans (option?_x hz hx width height fps)
  have hy' := (hlast "y".toList).trans (option?_y hz hx hy width height fps)
  have hangle := argument?_none hwhole (by decide) zoompan_ne_rotate "a".toList
  simp only [cameraOf?, MotionForm.filter, zoompan_toList, argumentValue?_expression hz hz',
    argumentValue?_expression hx hx', argumentValue?_expression hy hy',
    argumentValue?_none hangle]
  rfl

/-- A turned image is the whole one: the zooming filter in front of the turn does nothing. -/
theorem cameraOf?_turn {angle : Expression} (ha : angle.Readable) :
    cameraOf? ((MotionForm.turn angle).filter width height fps) width height frame =
      some ((MotionForm.turn angle).camera width height frame) := by
  have h1 := readable_ofNat 1
  have h0 := readable_ofNat 0
  have hwhole := isWhole_zoompan h1 h0 h0 width height fps
  have hhere := fun key => argument?_here hwhole (by decide) key
    ("rotate".toList ++ '=' :: turnOptions angle width height)
  have hz' := (hhere "z".toList).trans (option?_zoom h1 width height fps)
  have hx' := (hhere "x".toList).trans (option?_x h1 h0 width height fps)
  have hy' := (hhere "y".toList).trans (option?_y h1 h0 h0 width height fps)
  have hbehind := argument?_behind hwhole (by decide) zoompan_ne_rotate "a".toList
    ("rotate".toList ++ '=' :: turnOptions angle width height)
  have hlast := argument?_last (isWhole_turn ha width height) (by decide) "a".toList
  have ha' := (hbehind.trans hlast).trans (option?_expression _ (by decide) (by decide) ha _)
  simp only [cameraOf?, turn_toList, argumentValue?_expression h1 hz',
    argumentValue?_expression h0 hx', argumentValue?_expression h0 hy',
    argumentValue?_expression ha ha', value_ofNat, Nat.cast_one, Nat.cast_zero]
  simp only [Option.bind_eq_bind, Option.bind_some, MotionForm.camera, MotionFrame.identity,
    Exact.one_eq, Exact.zero_eq]
  rfl

/-- **The filter of a motion computes what the motion's expressions say.** -/
theorem cameraOf?_filter {f : MotionForm} (h : f.Readable) :
    cameraOf? (f.filter width height fps) width height frame =
      some (f.camera width height frame) := by
  cases f with
  | still => exact cameraOf?_still width height fps frame
  | window zoom x y => exact cameraOf?_window width height fps frame h.1 h.2.1 h.2.2
  | turn angle => exact cameraOf?_turn width height fps frame h

end

end Graph

end Slideshow
