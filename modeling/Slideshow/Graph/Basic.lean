import Slideshow.Graph.Layer

/-!
# Filter graphs

A graph is a list of operations on labelled streams. An operation reads the streams named by its
inputs and makes the one named by its output; images are read from the pads `0:v`, `1:v`, ….

* `Operation.render` and `FilterGraph.filterComplex` write operations and graphs (`render`,
  `to_filter_complex`).
* `FilterGraph.outputLabel` is the stream that the video is taken from (`output_label`).
-/

namespace Slideshow.Graph

/-- What an operation does. -/
inductive Kind (α : Type) where
  /-- Fills the frame and crops what is over. -/
  | scaleCrop (width height : Nat)
  | motion (motion : Motion) (frames : Nat)
  /-- Blends two streams. -/
  | blend (transition : Transition) (duration offset : α)
  /-- Puts streams one after another. -/
  | concat (segments : Nat)
  | colorGrade (grade : ColorGrade)
  /-- Generates a layer. -/
  | overlaySource (overlay : Overlay)
  /-- Puts a layer over a stream. -/
  | overlayComposite (overlay : Overlay) (mode : BlendMode) (opacity : Float)
deriving Repr

namespace Kind

variable {α : Type}

def name : Kind α → String
  | .scaleCrop _ _ => "scale_crop"
  | .motion _ _ => "motion"
  | .blend _ _ _ => "transition_blend"
  | .concat _ => "concat"
  | .colorGrade _ => "color_grade"
  | .overlaySource _ => "overlay_source"
  | .overlayComposite _ _ _ => "overlay_composite"

/-- What is written besides the name. -/
def fields : Kind Float → List (String × Document)
  | .scaleCrop width height => [("width", .ofNat width), ("height", .ofNat height)]
  | .motion m frames => [("motion", Choice.document m), ("frames", .ofNat frames)]
  | .blend t duration offset =>
    [("transition", Choice.document t), ("duration", .float duration), ("offset", .float offset)]
  | .concat segments => [("segments", .ofNat segments)]
  | .colorGrade g => [("grade", Choice.document g)]
  | .overlaySource o => [("overlay", Choice.document o)]
  | .overlayComposite o mode opacity =>
    [("overlay", Choice.document o), ("mode", .string mode.name), ("opacity", .float opacity)]

def document (k : Kind Float) : Document := .table (("kind", .string k.name) :: k.fields)

end Kind

/-- An operation with its filter. -/
structure Operation (α : Type) where
  kind : Kind α
  inputs : List String
  output : String
  filter : String
deriving Repr

namespace Operation

variable {α : Type}

/-- A label in brackets. -/
def bracketed (label : String) : String := "[" ++ label ++ "]"

/-- The inputs, the filter and the output. -/
def render (op : Operation α) : String :=
  String.join (op.inputs.map bracketed) ++ op.filter ++ bracketed op.output

def document (op : Operation Float) : Document :=
  .table [("kind", op.kind.document), ("inputs", .list (op.inputs.map .string)),
    ("output", .string op.output), ("filter", .string op.filter)]

end Operation

/-- An image that is shown for some time. -/
structure ImageInput (α : Type) where
  path : String
  seconds : α
deriving DecidableEq, Repr

/-- A graph with its images. -/
structure FilterGraph (α : Type) where
  inputs : List (ImageInput α)
  operations : List (Operation α)
  /-- The length of the video. -/
  timelineSeconds : α
  /-- The length of each transition, if there are any. -/
  transitionSeconds : Option α
deriving Repr

/-- The stream that every compiled graph ends in. -/
def finalLabel : String := "vout"

namespace FilterGraph

variable {α : Type}

/-- The stream that the video is taken from. -/
def outputLabel (g : FilterGraph α) : String :=
  match g.operations.getLast? with
  | some op => op.output
  | none => finalLabel

/-- The number of the narration among the inputs; it comes after the images. -/
def audioIndex (g : FilterGraph α) : Nat := g.inputs.length

/-- How many operations have a kind of some name. -/
def count (g : FilterGraph α) (name : String) : Nat :=
  g.operations.countP fun op => op.kind.name == name

/-- The text of the graph. -/
def filterComplex (g : FilterGraph α) : String :=
  ";".intercalate (g.operations.map Operation.render)

def document (g : FilterGraph Float) : Document :=
  .table [
    ("inputs", .list (g.inputs.map fun i =>
      .table [("path", .string i.path), ("seconds", .float i.seconds)])),
    ("operations", .list (g.operations.map Operation.document)),
    ("timeline_seconds", .float g.timelineSeconds),
    ("transition_seconds", Document.orNull .float g.transitionSeconds)]

end FilterGraph

end Slideshow.Graph
