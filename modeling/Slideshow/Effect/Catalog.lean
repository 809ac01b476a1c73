import Slideshow.Error

/-!
# The catalog of effects

Four closed categories: transitions, motions, color grades and overlays. Each effect has a key, by
which callers and the ledger name it, and a description.

* `Choice` is a category: its effects in catalog order, with keys and descriptions.
* `ofKey?_key`, one for each category: a key names its effect.
* `parse` says what is wrong with a name that is no key (`from_str`).
-/

namespace Slideshow

/-- A blend between two adjacent segments. -/
inductive Transition where
  | fade | crossfade | wipeLeft | wipeRight | wipeUp | wipeDown
  | slideLeft | slideRight | slideUp | slideDown | circlecrop | dissolve
deriving DecidableEq, Repr

/-- A camera motion over a still image. -/
inductive Motion where
  | static | kenburns | zoomIn | zoomOut | panLeft | panRight | panUp | panDown
  | rotateClockwise | rotateCounter | shake
deriving DecidableEq, Repr

/-- A color grade of the whole video. -/
inductive ColorGrade where
  | vintage | sepia | blackWhite | highContrast | lowContrast | warm | cool | vibrant
  | desaturated | filmGrain | vignette
deriving DecidableEq, Repr

/-- A synthesized layer over the whole video. -/
inductive Overlay where
  | particles | lightLeaks | dust | scratches | bokeh | lensFlare | rain | snow
deriving DecidableEq, Repr

/-- The four categories. -/
inductive EffectCategory where
  | transition
  | motion
  | color
  | overlay
deriving DecidableEq, Repr

def EffectCategory.name : EffectCategory → String
  | .transition => "transition"
  | .motion => "motion"
  | .color => "color"
  | .overlay => "overlay"

/-- Reads the name of a category, singular or plural. -/
def EffectCategory.parse (s : String) : Except Error EffectCategory :=
  match [EffectCategory.transition, .motion, .color, .overlay].find?
      (fun c => s == c.name || s == c.name ++ "s") with
  | some c => .ok c
  | none => .error (.notFound "effect category" s)

/-- A category of effects. -/
class Choice (α : Type) where
  category : EffectCategory
  /-- Every effect, in catalog order. -/
  all : List α
  key : α → String
  description : α → String

namespace Choice

variable {α : Type} [Choice α]

/-- The effect with a key. -/
def ofKey? (s : String) : Option α := (all : List α).find? (fun a => key a == s)

/-- All keys of a category, in catalog order. -/
def keys (α : Type) [Choice α] : List String := (all : List α).map key

/-- What is wrong with a name that is no key of the category. -/
def unknown (α : Type) [Choice α] (s : String) : String :=
  "unknown " ++ (category α).name ++ " '" ++ s ++ "' (valid: " ++ ", ".intercalate (keys α) ++ ")"

/-- Reads an effect by its key. -/
def parse (α : Type) [Choice α] (s : String) : Except Error α :=
  match ofKey? s with
  | some a => .ok a
  | none => .error (.validation (unknown α s))

/-- Reads an effect from a document: its key, or a table with the key as its one field and no
value. -/
def ofDocument? : Document → Option α
  | .string s => ofKey? s
  | .table [(s, .null)] => ofKey? s
  | _ => none

def document (a : α) : Document := .string (key a)

end Choice

instance : Choice Transition where
  category := .transition
  all := [.fade, .crossfade, .wipeLeft, .wipeRight, .wipeUp, .wipeDown, .slideLeft, .slideRight,
    .slideUp, .slideDown, .circlecrop, .dissolve]
  key
    | .fade => "fade"
    | .crossfade => "crossfade"
    | .wipeLeft => "wipe_left"
    | .wipeRight => "wipe_right"
    | .wipeUp => "wipe_up"
    | .wipeDown => "wipe_down"
    | .slideLeft => "slide_left"
    | .slideRight => "slide_right"
    | .slideUp => "slide_up"
    | .slideDown => "slide_down"
    | .circlecrop => "circlecrop"
    | .dissolve => "dissolve"
  description
    | .fade => "Fade out to black, then in to the next image"
    | .crossfade => "Direct blend from one image into the next"
    | .wipeLeft => "Next image wipes in from the right edge"
    | .wipeRight => "Next image wipes in from the left edge"
    | .wipeUp => "Next image wipes in from the bottom edge"
    | .wipeDown => "Next image wipes in from the top edge"
    | .slideLeft => "Both images slide left"
    | .slideRight => "Both images slide right"
    | .slideUp => "Both images slide up"
    | .slideDown => "Both images slide down"
    | .circlecrop => "Circular iris closes and reopens on the next image"
    | .dissolve => "Pixel dissolve into the next image"

instance : Choice Motion where
  category := .motion
  all := [.static, .kenburns, .zoomIn, .zoomOut, .panLeft, .panRight, .panUp, .panDown,
    .rotateClockwise, .rotateCounter, .shake]
  key
    | .static => "static"
    | .kenburns => "kenburns"
    | .zoomIn => "zoom_in"
    | .zoomOut => "zoom_out"
    | .panLeft => "pan_left"
    | .panRight => "pan_right"
    | .panUp => "pan_up"
    | .panDown => "pan_down"
    | .rotateClockwise => "rotate_clockwise"
    | .rotateCounter => "rotate_counter"
    | .shake => "shake"
  description
    | .static => "No movement"
    | .kenburns => "Slow continuous zoom toward the center"
    | .zoomIn => "Linear zoom in over the segment"
    | .zoomOut => "Linear zoom out over the segment"
    | .panLeft => "Camera pans from right to left"
    | .panRight => "Camera pans from left to right"
    | .panUp => "Camera pans from bottom to top"
    | .panDown => "Camera pans from top to bottom"
    | .rotateClockwise => "One full clockwise turn over the segment"
    | .rotateCounter => "One full counter-clockwise turn over the segment"
    | .shake => "Hand-held jitter without drift"

instance : Choice ColorGrade where
  category := .color
  all := [.vintage, .sepia, .blackWhite, .highContrast, .lowContrast, .warm, .cool, .vibrant,
    .desaturated, .filmGrain, .vignette]
  key
    | .vintage => "vintage"
    | .sepia => "sepia"
    | .blackWhite => "black_white"
    | .highContrast => "high_contrast"
    | .lowContrast => "low_contrast"
    | .warm => "warm"
    | .cool => "cool"
    | .vibrant => "vibrant"
    | .desaturated => "desaturated"
    | .filmGrain => "film_grain"
    | .vignette => "vignette"
  description
    | .vintage => "Faded film tone curve"
    | .sepia => "Brown monochrome channel mix"
    | .blackWhite => "Fully desaturated"
    | .highContrast => "Boosted contrast"
    | .lowContrast => "Flattened contrast"
    | .warm => "Shifted toward red/yellow"
    | .cool => "Shifted toward blue"
    | .vibrant => "Boosted saturation"
    | .desaturated => "Muted saturation"
    | .filmGrain => "Temporal luma noise"
    | .vignette => "Darkened frame edges"

instance : Choice Overlay where
  category := .overlay
  all := [.particles, .lightLeaks, .dust, .scratches, .bokeh, .lensFlare, .rain, .snow]
  key
    | .particles => "particles"
    | .lightLeaks => "light_leaks"
    | .dust => "dust"
    | .scratches => "scratches"
    | .bokeh => "bokeh"
    | .lensFlare => "lens_flare"
    | .rain => "rain"
    | .snow => "snow"
  description
    | .particles => "Sparse floating bright specks"
    | .lightLeaks => "Drifting warm color gradients"
    | .dust => "Fine flickering dust"
    | .scratches => "Vertical film scratches"
    | .bokeh => "Soft out-of-focus light blobs"
    | .lensFlare => "Radial flare from the upper right"
    | .rain => "Falling rain streaks"
    | .snow => "Soft falling snow"

theorem Transition.ofKey?_key (t : Transition) : Choice.ofKey? (Choice.key t) = some t := by
  cases t <;> rfl

theorem Motion.ofKey?_key (m : Motion) : Choice.ofKey? (Choice.key m) = some m := by
  cases m <;> rfl

theorem ColorGrade.ofKey?_key (c : ColorGrade) : Choice.ofKey? (Choice.key c) = some c := by
  cases c <;> rfl

theorem Overlay.ofKey?_key (o : Overlay) : Choice.ofKey? (Choice.key o) = some o := by
  cases o <;> rfl

/-! ## The catalog as callers see it -/

/-- One effect as callers see it. -/
structure EffectInfo where
  category : EffectCategory
  name : String
  description : String
deriving DecidableEq, Repr

def EffectInfo.document (i : EffectInfo) : Document :=
  .table [("category", .string i.category.name), ("name", .string i.name),
    ("description", .string i.description)]

def Choice.info {α : Type} [Choice α] (a : α) : EffectInfo := ⟨category α, key a, description a⟩

/-- All effects of a category. -/
def Choice.infos (α : Type) [Choice α] : List EffectInfo := (all : List α).map info

namespace EffectCategory

/-- All effects of a category. -/
def infos : EffectCategory → List EffectInfo
  | .transition => Choice.infos Transition
  | .motion => Choice.infos Motion
  | .color => Choice.infos ColorGrade
  | .overlay => Choice.infos Overlay

end EffectCategory

/-- The whole catalog. -/
def catalogDocument : Document :=
  let listing (c : EffectCategory) : Document := .list (c.infos.map EffectInfo.document)
  .table [("transitions", listing .transition), ("motions", listing .motion),
    ("colors", listing .color), ("overlays", listing .overlay)]

/-- The description of one effect. -/
def describeEffect (category name : String) : Except Error EffectInfo := do
  let c ← EffectCategory.parse category
  match c.infos.find? (·.name == name) with
  | some i => .ok i
  | none => .error (.notFound (c.name ++ " effect") name)

end Slideshow
