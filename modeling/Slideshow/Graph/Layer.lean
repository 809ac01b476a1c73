import Slideshow.Effect.Catalog
import Slideshow.Error
import Slideshow.Graph.Timeline

/-!
# Grades and overlay layers

Effects on the whole video: a color grade is one filter; an overlay is a generated source, which is
blended onto the video.

* `gradeFilter` is the filter of a grade (`grade_filter`).
* `OverlayLayer.of` is the source of an overlay and how it is blended (`overlay_layer`), for the
  widths that `overlayFits`; `OverlayLayer.ofWords` ends in a panic for the others, as words of 32
  bits do.
* `compositeFilter` blends a layer onto the video (`composite_filter`).

Out of scope: a build that drops the checks of overflow. It goes on with what is left of the
product.
-/

namespace Slideshow.Graph

/-- The filter of a color grade. -/
def gradeFilter : ColorGrade → String
  | .vintage => "curves=preset=vintage"
  | .sepia => "colorchannelmixer=.393:.769:.189:0:.349:.686:.168:0:.272:.534:.131"
  | .blackWhite => "hue=s=0"
  | .highContrast => "eq=contrast=1.5"
  | .lowContrast => "eq=contrast=0.7"
  | .warm => "colorbalance=rs=0.15:gs=0.05:bs=-0.15"
  | .cool => "colorbalance=rs=-0.15:bs=0.15"
  | .vibrant => "eq=saturation=1.5"
  | .desaturated => "eq=saturation=0.5"
  | .filmGrain => "noise=alls=20:allf=t+u"
  | .vignette => "vignette=PI/4"

/-- How a layer is blended. -/
inductive BlendMode where
  | screen
deriving DecidableEq, Repr

def BlendMode.name : BlendMode → String
  | .screen => "screen"

/-- A generated layer. -/
structure OverlayLayer where
  /-- The filter that generates it, without inputs. -/
  source : String
  mode : BlendMode
  opacity : Float

/-- A layer of bright specks, generated small and scaled up. -/
structure Specks where
  /-- By how much the layer is smaller than the video. -/
  divisor : Nat
  /-- How likely a pixel lights up in a frame, as a decimal. -/
  density : String
  brightness : Nat
  scaling : String
  /-- What is done to the scaled layer. -/
  shaping : Option String

/-- Where a layer lies: the size and rate of the video and its length, as it is written in
filters. -/
structure Canvas where
  width : Nat
  height : Nat
  fps : Nat
  seconds : String

namespace Canvas

def size (c : Canvas) : String := toString c.width ++ "x" ++ toString c.height

/-- A black source of a given size, for as long as the video. -/
def black (c : Canvas) (size : String) : String :=
  "color=c=black:s=" ++ size ++ ":r=" ++ toString c.fps ++ ":d=" ++ c.seconds ++ ",format=gray"

/-- A source of drifting colors, up to its options. -/
def gradients (c : Canvas) : String :=
  "gradients=s=" ++ c.size ++ ":r=" ++ toString c.fps ++ ":d=" ++ c.seconds

/-- Lights each pixel by chance. -/
def sparks (density : String) (brightness : Nat) : String :=
  "geq=lum='if(lt(random(1)," ++ density ++ ")," ++ toString brightness ++ ",0)'"

def scaled (c : Canvas) (scaling : String) : String :=
  "scale=" ++ toString c.width ++ ":" ++ toString c.height ++ ":flags=" ++ scaling

def specks (c : Canvas) (s : Specks) : String :=
  let small := toString (max (c.width / s.divisor) 1) ++ "x" ++
    toString (max (c.height / s.divisor) 1)
  c.black small ++ "," ++ sparks s.density s.brightness ++ "," ++ c.scaled s.scaling ++
    (match s.shaping with
      | some shaping => "," ++ shaping
      | none => "")

/-- The source of an overlay. -/
def overlay (c : Canvas) : Overlay → String
  | .particles => c.specks ⟨4, "0.0008", 255, "bilinear", some "gblur=sigma=1.5"⟩
  | .lightLeaks => c.gradients ++ ":c0=0xff7a1a:c1=0xffd27a:nb_colors=2:speed=0.015"
  | .dust => c.specks ⟨2, "0.0004", 220, "neighbor", none⟩
  | .scratches =>
    c.black (toString c.width ++ "x1") ++ "," ++ sparks "0.003" 200 ++ "," ++ c.scaled "neighbor"
  | .bokeh => c.specks ⟨8, "0.002", 255, "bilinear", some "gblur=sigma=12"⟩
  | .lensFlare =>
    c.gradients ++ ":type=radial:c0=0xfff4d6:c1=0x000000:nb_colors=2:x0=" ++
      toString (c.width * 4 / 5) ++ ":y0=" ++ toString (c.height / 5) ++ ":x1=" ++
      toString c.width ++ ":y1=" ++ toString (c.height / 2) ++ ":speed=0"
  | .rain => c.specks ⟨2, "0.002", 200, "neighbor", some "avgblur=sizeX=1:sizeY=24"⟩
  | .snow => c.specks ⟨4, "0.0015", 255, "bilinear", some "gblur=sigma=2"⟩

end Canvas

/-- How strongly an overlay shows. -/
def overlayOpacity : Overlay → Float
  | .particles => 0.6
  | .lightLeaks => 0.35
  | .dust => 0.3
  | .scratches => 0.4
  | .bokeh => 0.5
  | .lensFlare => 0.45
  | .rain => 0.35
  | .snow => 0.6

/-- The layer of an overlay over a video of some size, rate and length. -/
def OverlayLayer.of {α : Type} [Scalar α] (o : Overlay) (width height fps : Nat) (seconds : α)
    (pixelFormat : String) : OverlayLayer :=
  { source := (Canvas.mk width height fps (numeralText seconds)).overlay o ++
      ",setsar=1,format=" ++ pixelFormat
    mode := .screen
    opacity := overlayOpacity o }

/-- Whether a layer can be computed in words of 32 bits: a flare multiplies the width before it
divides. -/
def overlayFits (o : Overlay) (width : Nat) : Bool :=
  match o with
  | .lensFlare => width * 4 < Nat.pow 2 32
  | _ => true

/-- The layer of an overlay, computed in words of 32 bits. -/
def OverlayLayer.ofWords {α : Type} [Scalar α] (o : Overlay) (width height fps : Nat) (seconds : α)
    (pixelFormat : String) : Except Halt OverlayLayer :=
  if overlayFits o width then .ok (.of o width height fps seconds pixelFormat)
    else .error .multiplied

/-- The filter that blends a layer onto the video. -/
def compositeFilter (mode : String) (opacity : Float) : String :=
  "blend=all_mode=" ++ mode ++ ":all_opacity=" ++ numeralText opacity ++ ":shortest=1"

end Slideshow.Graph
