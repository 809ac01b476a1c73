import Slideshow.Effect.Options
import Slideshow.Narration.Merge

/-!
# Render requests

The images, the parts of the narration and the effects that a caller asks for.

* `RenderRequest.validate` checks a request against settings and files and says what is wrong first
  (`validate`, `check_extension`, `file_size`).

Out of scope: files that change between one look and the next.
-/

namespace Slideshow

open Document

/-- What a caller asks for. -/
structure RenderRequest where
  images : List String
  /-- The parts of the narration in order. -/
  audio : List String
  effects : Option EffectOptions := none

/-- A request that can be rendered, with the sizes of its files and its effects. -/
structure ValidatedRequest where
  images : List String
  imageSizes : List Nat
  audio : List String
  audioBytes : Nat
  effects : EffectSpec Float

namespace RenderRequest

/-- Reads the path of a file that is given as a record. -/
def asset? (d : Document) : Option String := do
  let r ← record? .lenient ["path"] d
  r.required 0 string?

def ofDocument? (d : Document) : Option RenderRequest := do
  let r ← record? .lenient ["images", "audio", "effects"] d
  return {
    images := ← r.required 0 (listOf? asset?)
    audio := ← r.required 1 (listOf? asset?)
    effects := ← r.optionalOrNone 2 EffectOptions.ofDocument? }

/-- What is wrong with the number of files. -/
inductive CountFault where
  | noImages
  | tooMany (images most : Nat)
  | noAudio
deriving DecidableEq, Repr

def CountFault.message : CountFault → String
  | .noImages => "at least one image is required"
  | .tooMany images most =>
    "too many images: " ++ toString images ++ " (max " ++ toString most ++ ")"
  | .noAudio => "a narration audio file is required"

def countFault? (r : RenderRequest) (most : Nat) : Option CountFault :=
  if r.images.isEmpty then some .noImages
  else if r.images.length > most then some (.tooMany r.images.length most)
  else if r.audio.isEmpty then some .noAudio
  else none

/-- The effects that a request has; without options it has none. -/
def resolveEffects (r : RenderRequest) (default : Float) : Except Error (EffectSpec Float) :=
  match r.effects with
  | some options => options.resolve default
  | none => .ok (.plain default)

/-- Small letters for capital ones. -/
def lowered (s : String) : List Char := s.toList.map Char.toLower

/-- Whether a file has one of the extensions; the case of letters does not count. -/
def isAllowed (allowed : List String) (path : String) : Bool :=
  allowed.any fun a => lowered a == lowered (Path.kind path)

def unsupported (kind path : String) (allowed : List String) : String :=
  "unsupported " ++ kind ++ " type '" ++ Path.kind path ++ "' for " ++ path ++ " (allowed: " ++
    ", ".intercalate allowed ++ ")"

/-- The size of a file of some kind, which must have an allowed extension, be there and not be
empty. -/
def checkFile (t : FileTree) (here : Location) (kind : String) (allowed : List String)
    (path : String) :
    Except Error Nat :=
  if isAllowed allowed path then
    (fileSize t here path).mapError fun f => .validation (f.message kind path)
  else .error (.validation (unsupported kind path allowed))

/-- The sizes of files together, counted in 64 bits. A sum that is larger wraps; that arithmetic
which is checked panics there is out of scope. -/
def totalBytes (sizes : List Nat) : Nat := sizes.foldl (· + ·) 0 % Nat.pow 2 64

/-- Checks a request against settings and files. -/
def validate (r : RenderRequest) (t : FileTree) (here : Location) (input : InputConfig)
    (effects : EffectsConfig) : Except Error ValidatedRequest := do
  match r.countFault? input.maxImages with
  | some f => throw (.validation f.message)
  | none => pure ()
  let spec ← r.resolveEffects effects.defaultTransitionDuration
  let imageSizes ← r.images.mapM (checkFile t here "image" input.imageExtensions)
  let audioSizes ← r.audio.mapM (checkFile t here "audio" input.audioExtensions)
  return ⟨r.images, imageSizes, r.audio, totalBytes audioSizes, spec⟩

end RenderRequest

end Slideshow
