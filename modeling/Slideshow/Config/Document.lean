import Slideshow.Config
import Slideshow.Toml.Parser

/-!
# Settings as documents

Each section is a record: a missing setting has its default, an unknown one is skipped.

* `Config.ofDocument?` and `Config.document` read and write all settings.
* `Config.ofToml` reads a file of settings (`from_toml`).
-/

namespace Slideshow

open Document

namespace VideoConfig

def names : List String :=
  ["width", "height", "fps", "video_codec", "crf", "preset", "video_bitrate", "audio_codec",
    "audio_bitrate", "pixel_format"]

def ofDocument? (d : Document) : Option VideoConfig := do
  let r ← record? .lenient names d
  let base : VideoConfig := {}
  return {
    width := ← r.orDefault 0 nat32? base.width
    height := ← r.orDefault 1 nat32? base.height
    fps := ← r.orDefault 2 nat32? base.fps
    videoCodec := ← r.orDefault 3 string? base.videoCodec
    crf := ← r.orDefault 4 int32? base.crf
    preset := ← r.orDefault 5 string? base.preset
    videoBitrate := ← r.optionalOrNone 6 string?
    audioCodec := ← r.orDefault 7 string? base.audioCodec
    audioBitrate := ← r.orDefault 8 string? base.audioBitrate
    pixelFormat := ← r.orDefault 9 string? base.pixelFormat }

def document (v : VideoConfig) : Document :=
  .table (names.zip [ofNat v.width, ofNat v.height, ofNat v.fps, .string v.videoCodec,
    .integer v.crf, .string v.preset, orNull .string v.videoBitrate, .string v.audioCodec,
    .string v.audioBitrate,
    .string v.pixelFormat])

end VideoConfig

namespace EffectsConfig

def names : List String :=
  ["default_transition_duration", "kenburns_rate", "max_zoom", "pan_zoom", "shake_amplitude",
    "shake_period_frames", "max_transition_fraction"]

def ofDocument? (d : Document) : Option EffectsConfig := do
  let r ← record? .lenient names d
  let base : EffectsConfig := {}
  return {
    defaultTransitionDuration := ← r.orDefault 0 float? base.defaultTransitionDuration
    kenburnsRate := ← r.orDefault 1 float? base.kenburnsRate
    maxZoom := ← r.orDefault 2 float? base.maxZoom
    panZoom := ← r.orDefault 3 float? base.panZoom
    shakeAmplitude := ← r.orDefault 4 float? base.shakeAmplitude
    shakePeriodFrames := ← r.orDefault 5 nat32? base.shakePeriodFrames
    maxTransitionFraction := ← r.orDefault 6 float? base.maxTransitionFraction }

def document (e : EffectsConfig) : Document :=
  .table (names.zip [.float e.defaultTransitionDuration, .float e.kenburnsRate, .float e.maxZoom,
    .float e.panZoom, .float e.shakeAmplitude, ofNat e.shakePeriodFrames,
    .float e.maxTransitionFraction])

end EffectsConfig

namespace DurationConfig

def names : List String := ["reference_bitrate", "min_seconds", "max_seconds", "fallback_seconds"]

def ofDocument? (d : Document) : Option DurationConfig := do
  let r ← record? .lenient names d
  let base : DurationConfig := {}
  return {
    referenceBitrate := ← r.orDefault 0 nat64? base.referenceBitrate
    minSeconds := ← r.orDefault 1 float? base.minSeconds
    maxSeconds := ← r.orDefault 2 float? base.maxSeconds
    fallbackSeconds := ← r.orDefault 3 float? base.fallbackSeconds }

def document (c : DurationConfig) : Document :=
  .table (names.zip [ofNat c.referenceBitrate, .float c.minSeconds, .float c.maxSeconds,
    .float c.fallbackSeconds])

end DurationConfig

namespace AudioConfig

def names : List String := ["sample_rate", "channels", "bit_depth"]

def ofDocument? (d : Document) : Option AudioConfig := do
  let r ← record? .lenient names d
  let base : AudioConfig := {}
  return {
    sampleRate := ← r.orDefault 0 nat32? base.sampleRate
    channels := ← r.orDefault 1 nat32? base.channels
    bitDepth := ← r.orDefault 2 nat32? base.bitDepth }

def document (a : AudioConfig) : Document :=
  .table (names.zip [ofNat a.sampleRate, ofNat a.channels, ofNat a.bitDepth])

end AudioConfig

namespace StorageConfig

def names : List String := ["output_dir", "ledger_path", "work_dir"]

def ofDocument? (d : Document) : Option StorageConfig := do
  let r ← record? .lenient names d
  let base : StorageConfig := {}
  return {
    outputDir := ← r.orDefault 0 string? base.outputDir
    ledgerPath := ← r.orDefault 1 string? base.ledgerPath
    workDir := ← r.orDefault 2 string? base.workDir }

def document (s : StorageConfig) : Document :=
  .table (names.zip [.string s.outputDir, .string s.ledgerPath, .string s.workDir])

end StorageConfig

namespace ToolsConfig

def names : List String := ["ffmpeg_path", "ffprobe_path"]

def ofDocument? (d : Document) : Option ToolsConfig := do
  let r ← record? .lenient names d
  return { ffmpegPath := ← r.optionalOrNone 0 string?, ffprobePath := ← r.optionalOrNone 1 string? }

def document (t : ToolsConfig) : Document :=
  .table (names.zip [orNull .string t.ffmpegPath, orNull .string t.ffprobePath])

end ToolsConfig

namespace JobsConfig

def names : List String := ["max_concurrent", "encode_timeout_secs", "probe_timeout_secs"]

def ofDocument? (d : Document) : Option JobsConfig := do
  let r ← record? .lenient names d
  let base : JobsConfig := {}
  return {
    maxConcurrent := ← r.orDefault 0 nat64? base.maxConcurrent
    encodeTimeoutSecs := ← r.orDefault 1 nat64? base.encodeTimeoutSecs
    probeTimeoutSecs := ← r.orDefault 2 nat64? base.probeTimeoutSecs }

def document (j : JobsConfig) : Document :=
  .table (names.zip [ofNat j.maxConcurrent, ofNat j.encodeTimeoutSecs, ofNat j.probeTimeoutSecs])

end JobsConfig

namespace InputConfig

def names : List String := ["image_extensions", "audio_extensions", "max_images"]

def ofDocument? (d : Document) : Option InputConfig := do
  let r ← record? .lenient names d
  let base : InputConfig := {}
  return {
    imageExtensions := ← r.orDefault 0 (listOf? string?) base.imageExtensions
    audioExtensions := ← r.orDefault 1 (listOf? string?) base.audioExtensions
    maxImages := ← r.orDefault 2 nat64? base.maxImages }

def document (i : InputConfig) : Document :=
  .table (names.zip [.list (i.imageExtensions.map .string), .list (i.audioExtensions.map .string),
    ofNat i.maxImages])

end InputConfig

namespace Config

def names : List String :=
  ["video", "effects", "duration", "audio", "storage", "tools", "jobs", "input"]

def ofDocument? (d : Document) : Option Config := do
  let r ← record? .lenient names d
  return {
    video := ← r.orDefault 0 VideoConfig.ofDocument? {}
    effects := ← r.orDefault 1 EffectsConfig.ofDocument? {}
    duration := ← r.orDefault 2 DurationConfig.ofDocument? {}
    audio := ← r.orDefault 3 AudioConfig.ofDocument? {}
    storage := ← r.orDefault 4 StorageConfig.ofDocument? {}
    tools := ← r.orDefault 5 ToolsConfig.ofDocument? {}
    jobs := ← r.orDefault 6 JobsConfig.ofDocument? {}
    input := ← r.orDefault 7 InputConfig.ofDocument? {} }

def document (c : Config) : Document :=
  .table (names.zip [c.video.document, c.effects.document, c.duration.document, c.audio.document,
    c.storage.document, c.tools.document, c.jobs.document, c.input.document])

/-- Reads a file of settings. -/
def ofToml (text : String) : Except Error Config :=
  match (Toml.parse? text).bind ofDocument? with
  | some c => .ok c
  | none => .error (.validation "config parse error: not a file of settings")

end Config

end Slideshow
