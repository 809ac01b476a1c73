import Slideshow.Decimal.Fixed
import Slideshow.Graph.Basic
import Slideshow.Config

/-!
# The encoder's arguments

What the encoder is told: every image with the time for which it is shown, the narration as the last
input, the filter graph, the two streams to be taken, codecs, and the output as the last argument.

* `EncodeRequest.arguments` is the whole list (`build_encode_args`).
-/

namespace Slideshow

/-- The settings of the encoder. -/
structure EncodeSettings where
  fps : Nat
  videoCodec : String
  crf : Int
  preset : String
  videoBitrate : Option String
  pixelFormat : String
  audioCodec : String
  audioBitrate : String
deriving DecidableEq, Repr

namespace EncodeSettings

def ofConfig (v : VideoConfig) : EncodeSettings :=
  ⟨v.fps, v.videoCodec, v.crf, v.preset, v.videoBitrate, v.pixelFormat, v.audioCodec,
    v.audioBitrate⟩

def document (s : EncodeSettings) : Document :=
  .table [("fps", .ofNat s.fps), ("video_codec", .string s.videoCodec), ("crf", .integer s.crf),
    ("preset", .string s.preset), ("video_bitrate", Document.orNull .string s.videoBitrate),
    ("pixel_format", .string s.pixelFormat), ("audio_codec", .string s.audioCodec),
    ("audio_bitrate", .string s.audioBitrate)]

end EncodeSettings

/-- What is to be encoded. -/
structure EncodeRequest where
  graph : Graph.FilterGraph Float
  audio : String
  output : String
  /-- The expected length, of which progress is a fraction. -/
  seconds : Float

namespace EncodeRequest

open Slideshow.Graph

/-- The arguments for one image: it is repeated for as long as it is shown. -/
def imageArguments (fps : Nat) (i : ImageInput Float) : List String :=
  ["-loop", "1", "-framerate", toString fps, "-t", Decimal.fixed 3 i.seconds, "-i", i.path]

/-- The graph and the streams to be taken: the last of the graph and the sound of the narration. -/
def streamArguments (g : FilterGraph Float) : List String :=
  ["-filter_complex", g.filterComplex, "-map", Operation.bracketed g.outputLabel, "-map",
    toString g.audioIndex ++ ":a"]

/-- Codecs, rates and formats. -/
def codecArguments (s : EncodeSettings) : List String :=
  ["-c:v", s.videoCodec, "-preset", s.preset, "-crf", toString s.crf] ++
    (match s.videoBitrate with
      | some rate => ["-b:v", rate]
      | none => []) ++
    ["-pix_fmt", s.pixelFormat, "-r", toString s.fps, "-c:a", s.audioCodec, "-b:a", s.audioBitrate]

/-- The end with the shorter stream, a file that can be played early, and progress on the
diagnostics. -/
def reportArguments : List String :=
  ["-shortest", "-movflags", "+faststart", "-progress", "pipe:2", "-nostats"]

/-- All arguments. -/
def arguments (r : EncodeRequest) (s : EncodeSettings) : List String :=
  ["-hide_banner", "-nostdin", "-y"] ++ r.graph.inputs.flatMap (imageArguments s.fps) ++
    ["-i", r.audio] ++ streamArguments r.graph ++ codecArguments s ++ reportArguments ++ [r.output]

end EncodeRequest

end Slideshow
