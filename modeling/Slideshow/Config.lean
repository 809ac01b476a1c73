import Slideshow.Error
import Slideshow.Scalar

/-!
# Settings

Everything that can be set, with a default for each setting, so that an empty file is a whole
configuration.

* `Config.check` refuses settings that no video can be made with, the first fault in a fixed order
  (`check`).
* `Config.warnings` lists what is allowed but unlikely to be meant (`validate`).
-/

namespace Slideshow

/-- The longest transition that may be asked for, in seconds. -/
def maxTransitionSeconds : Float := 5.0

/-- The video to be made. -/
structure VideoConfig where
  width : Nat := 1920
  height : Nat := 1080
  fps : Nat := 30
  videoCodec : String := "libx264"
  crf : Int := 23
  preset : String := "medium"
  /-- A target bit rate; without one the quality `crf` counts. -/
  videoBitrate : Option String := none
  audioCodec : String := "aac"
  audioBitrate : String := "192k"
  pixelFormat : String := "yuv420p"

/-- How far motions and transitions go. -/
structure EffectsConfig where
  /-- The length of a transition when a request sets none. -/
  defaultTransitionDuration : Float := 0.8
  /-- What a slow zoom adds in each frame. -/
  kenburnsRate : Float := 0.0015
  maxZoom : Float := 1.5
  /-- The fixed zoom of a pan, which leaves the window room to travel. -/
  panZoom : Float := 1.2
  /-- How far a shake goes, in pixels. -/
  shakeAmplitude : Float := 12.0
  /-- The frames of one oscillation of a shake. -/
  shakePeriodFrames : Nat := 9
  /-- The longest transition, as a fraction of one segment. -/
  maxTransitionFraction : Float := 0.5

/-- How the length of a narration is estimated. -/
structure DurationConfig where
  /-- The bits per second assumed when the file size is all there is. -/
  referenceBitrate : Nat := 128000
  minSeconds : Float := 5.0
  maxSeconds : Float := 60.0
  /-- The length when nothing else gives one. -/
  fallbackSeconds : Float := 30.0

/-- The format that parts of a narration are converted to before they are joined. -/
structure AudioConfig where
  sampleRate : Nat := 44100
  channels : Nat := 2
  bitDepth : Nat := 16

/-- Where videos, the ledger and scratch files go. -/
structure StorageConfig where
  outputDir : String := "./data/output"
  ledgerPath : String := "./data/ledger.json"
  workDir : String := "./data/work"

/-- Where the external programs are; without a path they are searched for. -/
structure ToolsConfig where
  ffmpegPath : Option String := none
  ffprobePath : Option String := none

/-- How many jobs run at once, and for how long. -/
structure JobsConfig where
  maxConcurrent : Nat := 2
  encodeTimeoutSecs : Nat := 3600
  probeTimeoutSecs : Nat := 30

/-- Which files are accepted. -/
structure InputConfig where
  imageExtensions : List String := ["jpg", "jpeg", "png", "webp", "bmp"]
  audioExtensions : List String := ["mp3", "wav", "m4a", "aac", "ogg", "flac"]
  maxImages : Nat := 50

/-- All settings. -/
structure Config where
  video : VideoConfig := {}
  effects : EffectsConfig := {}
  duration : DurationConfig := {}
  audio : AudioConfig := {}
  storage : StorageConfig := {}
  tools : ToolsConfig := {}
  jobs : JobsConfig := {}
  input : InputConfig := {}

namespace Config

open Decimal (displayed)
open Scalar (isPositive)

/-- A setting that no video can be made with. -/
inductive Fault where
  | zeroSize
  | oddSize
  | zeroRate
  | durationWindow (low high : Float)
  | fallback
  | transitionDuration (seconds : Float)
  | zeroBitrate
  | zoom
  | noJobs

def Fault.message : Fault → String
  | .zeroSize => "video.width and video.height must be non-zero"
  | .oddSize => "video.width and video.height must be even for yuv420p output"
  | .zeroRate => "video.fps must be non-zero"
  | .durationWindow low high =>
    "duration window [" ++ displayed low ++ ", " ++ displayed high ++
      "] is empty, non-positive, or not finite"
  | .fallback => "duration.fallback_seconds must be a positive number"
  | .transitionDuration seconds =>
    "effects.default_transition_duration " ++ displayed seconds ++ " must be in (0, " ++
      displayed maxTransitionSeconds ++ "]"
  | .zeroBitrate => "duration.reference_bitrate must be non-zero"
  | .zoom => "effects zoom factors must be >= 1.0"
  | .noJobs => "jobs.max_concurrent must be at least 1"

/-- The first fault of a configuration. -/
def fault? (c : Config) : Option Fault :=
  if c.video.width == 0 || c.video.height == 0 then some .zeroSize
  else if c.video.width % 2 != 0 || c.video.height % 2 != 0 then some .oddSize
  else if c.video.fps == 0 then some .zeroRate
  else if !isPositive c.duration.minSeconds || !isPositive c.duration.maxSeconds ||
      c.duration.minSeconds > c.duration.maxSeconds then
    some (.durationWindow c.duration.minSeconds c.duration.maxSeconds)
  else if !isPositive c.duration.fallbackSeconds then some .fallback
  else if !isPositive c.effects.defaultTransitionDuration ||
      c.effects.defaultTransitionDuration > maxTransitionSeconds then
    some (.transitionDuration c.effects.defaultTransitionDuration)
  else if c.duration.referenceBitrate == 0 then some .zeroBitrate
  else if c.effects.maxZoom < 1 || c.effects.panZoom < 1 then some .zoom
  else if c.jobs.maxConcurrent == 0 then some .noJobs
  else none

/-- Refuses settings that no video can be made with. -/
def check (c : Config) : Except Error Unit :=
  match c.fault? with
  | some f => .error (.validation f.message)
  | none => .ok ()

/-- What is allowed but unlikely to be meant. -/
def warnings (c : Config) : List String :=
  (if c.video.fps > 60 then
    ["video.fps " ++ toString c.video.fps ++ " is unusually high for still-image video"] else []) ++
  (if c.video.crf < 0 || c.video.crf > 51 then
    ["video.crf " ++ toString c.video.crf ++ " is outside the x264 range 0-51"] else []) ++
  (if c.effects.defaultTransitionDuration > 3 then
    ["effects.default_transition_duration " ++ displayed c.effects.defaultTransitionDuration ++
      "s will dominate short segments"] else []) ++
  (if c.input.imageExtensions.isEmpty then
    ["input.image_extensions is empty; every image will be rejected"] else []) ++
  (if c.input.audioExtensions.isEmpty then
    ["input.audio_extensions is empty; every audio file will be rejected"] else []) ++
  (if c.jobs.encodeTimeoutSecs == 0 then
    ["jobs.encode_timeout_secs is 0; encodes will time out immediately"] else [])

end Config

end Slideshow
