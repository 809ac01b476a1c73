import Slideshow.Config
import Slideshow.Path

/-!
# Audio formats

The format that parts of a narration are converted to, and the one that the joined narration has.

* `CanonicalAudio.codec` follows from the bit depth (`codec`), `outputCodec` from the extension of a
  file (`output_codec`).
-/

namespace Slideshow

/-- The format that every part is converted to before the parts are joined. -/
structure CanonicalAudio where
  sampleRate : Nat
  channels : Nat
  bitDepth : Nat
deriving DecidableEq, Repr

namespace CanonicalAudio

def ofConfig (c : AudioConfig) : CanonicalAudio := ⟨c.sampleRate, c.channels, c.bitDepth⟩

/-- Uncompressed samples of the bit depth; 16 bits for a depth that is unknown. -/
def codec (a : CanonicalAudio) : String :=
  if a.bitDepth == 24 then "pcm_s24le" else if a.bitDepth == 32 then "pcm_s32le" else "pcm_s16le"

def document (a : CanonicalAudio) : Document :=
  .table [("sample_rate", .ofNat a.sampleRate), ("channels", .ofNat a.channels),
    ("bit_depth", .ofNat a.bitDepth)]

end CanonicalAudio

/-- The codecs by extension. -/
def codecTable : List (String × String) :=
  [("mp3", "libmp3lame"), ("m4a", "aac"), ("aac", "aac"), ("wav", "pcm_s16le"),
    ("ogg", "libvorbis"), ("flac", "flac"), ("opus", "libopus")]

/-- The codec of a file that is made; an extension that is unknown has the first of the table. -/
def outputCodec (path : String) : String := (codecTable.lookup (Path.kind path)).getD "libmp3lame"

end Slideshow
