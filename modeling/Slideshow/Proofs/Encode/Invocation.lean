import Slideshow.Encode.Arguments
import Slideshow.Proofs.Graph.Pads
import Slideshow.Proofs.Rounding

/-!
# What the encoder is told

The encoder reads its arguments (`build_encode_args`) from left to right. An option takes the
argument behind it as its value, whatever that is, unless it is one that stands alone; the options
in front of an input are that input's, and those behind the last input are the output's, which is
the last argument. Inputs have the numbers of their order, and streams are named by these numbers.

* `Invocation.read?` reads arguments; nothing in it knows how they are written.
* `Invocation.source?` is the input that a stream is from.
* `Invocation.Ties` says that a graph, its images and the narration belong together.

Headlines:
* `readFrom?_images`: the arguments for images are read as these images.
* **`read?_arguments`**: what is read from the arguments of an encode.
* **`arguments_tie`**: they tie the graph to its images and the narration, whatever the paths are.
-/

namespace Slideshow

open Slideshow.Graph

/-- An input with the options in front of it. -/
structure Source where
  options : List (String × String)
  path : String
deriving DecidableEq, Repr

/-- What the encoder is told: its inputs, the options of the output, and the output. -/
structure Invocation where
  sources : List Source
  options : List (String × String)
  output : String
deriving DecidableEq, Repr

namespace Invocation

/-! ## Reading arguments -/

/-- The options that stand alone. -/
def switches : List String := ["-hide_banner", "-nostdin", "-y", "-shortest", "-nostats"]

/-- Reads arguments behind some inputs and the options of what comes next. -/
def readFrom? (sources : List Source) (options : List (String × String)) :
    List String → Option Invocation
  | [] => none
  | [output] => some ⟨sources, options, output⟩
  | word :: value :: rest =>
    if word ∈ switches then readFrom? sources options (value :: rest)
    else if word = "-i" then readFrom? (sources ++ [⟨options, value⟩]) [] rest
    else if word.toList.head? = some '-' then readFrom? sources (options ++ [(word, value)]) rest
    else none

/-- Reads all arguments. -/
def read? (arguments : List String) : Option Invocation := readFrom? [] [] arguments

/-- The values of an option of the output. -/
def values (call : Invocation) (option : String) : List String :=
  (call.options.filter (·.1 == option)).map (·.2)

/-- The input that a stream is from, by the number in front of it. -/
def source? (call : Invocation) (stream : List Char) : Option Source :=
  call.sources[Decimal.natOfDigits (stream.takeWhile Decimal.isDigit)]?

variable {sources : List Source} {options : List (String × String)}

theorem readFrom?_switch {word : String} (h : word ∈ switches) {rest : List String}
    (hrest : rest ≠ []) :
    readFrom? sources options (word :: rest) = readFrom? sources options rest := by
  obtain ⟨value, rest, rfl⟩ := List.exists_cons_of_ne_nil hrest
  exact if_pos h

theorem readFrom?_input (path : String) (rest : List String) :
    readFrom? sources options ("-i" :: path :: rest) = readFrom? (sources ++ [⟨options, path⟩])
    [] rest := rfl

/-- The options that take a value. -/
def IsOption (word : String) : Prop := word ∉ switches ∧ word ≠ "-i" ∧ word.toList.head? = some '-'

instance (word : String) : Decidable (IsOption word) :=
  inferInstanceAs (Decidable (word ∉ switches ∧ word ≠ "-i" ∧ word.toList.head? = some '-'))

/-- Options as they are given, each with its value. -/
def given (options : List (String × String)) : List String := options.flatMap fun o => [o.1, o.2]

/-- **Options are read with their values**, whatever these are. -/
theorem readFrom?_options : ∀ {more : List (String × String)}, (∀ o ∈ more, IsOption o.1) →
    ∀ (options : List (String × String)) (rest : List String),
      readFrom? sources options (given more ++ rest) = readFrom? sources (options ++ more) rest
  | [], _, options, rest => by simp [given]
  | (word, value) :: more, h, options, rest => by
    obtain ⟨⟨hswitch, hinput, hdash⟩, hmore⟩ := List.forall_mem_cons.mp h
    have hrest := readFrom?_options hmore (options ++ [(word, value)]) rest
    rw [List.append_assoc, List.singleton_append] at hrest
    rw [← hrest]
    simp [given, readFrom?, hswitch, hinput, hdash]

/-! ## Images -/

/-- An image that is repeated for some time. -/
def imageSource (fps : Nat) (path : String) (seconds : Float) : Source :=
  ⟨[("-loop", "1"), ("-framerate", toString fps), ("-t", Decimal.fixed 3 seconds)], path⟩

/-- **The arguments for images are read as these images.** -/
theorem readFrom?_images (fps : Nat) :
    ∀ (inputs : List (ImageInput Float)) (sources : List Source) (rest : List String),
    readFrom? sources [] (inputs.flatMap (EncodeRequest.imageArguments fps) ++ rest) =
      readFrom? (sources ++ inputs.map fun i => imageSource fps i.path i.seconds) [] rest
  | [], sources, rest => by simp
  | i :: inputs, sources, rest => by
    have hoptions : ∀ o ∈ (imageSource fps i.path i.seconds).options, IsOption o.1 := by
      simp [imageSource, IsOption, switches]
    have hrest := readFrom?_images fps inputs (sources ++ [imageSource fps i.path i.seconds]) rest
    rw [List.append_assoc, List.singleton_append] at hrest
    rw [List.map_cons, ← hrest, List.flatMap_cons, List.append_assoc]
    exact readFrom?_options hoptions [] ("-i" :: i.path :: _)

/-! ## Encodes -/

/-- The options for the output: the graph, the streams that are taken, codecs and formats. -/
def outputOptions (g : FilterGraph Float) (s : EncodeSettings) : List (String × String) :=
  [("-filter_complex", g.filterComplex), ("-map", Operation.bracketed g.outputLabel),
    ("-map", toString g.audioIndex ++ ":a"), ("-c:v", s.videoCodec), ("-preset", s.preset),
    ("-crf", toString s.crf)] ++
    (s.videoBitrate.toList.map fun rate => ("-b:v", rate)) ++
    [("-pix_fmt", s.pixelFormat), ("-r", toString s.fps), ("-c:a", s.audioCodec),
      ("-b:a", s.audioBitrate)]

/-- A file that can be played early, and progress on the diagnostics. -/
def reportOptions : List (String × String) := [("-movflags", "+faststart"), ("-progress", "pipe:2")]

theorem arguments_eq (r : EncodeRequest) (s : EncodeSettings) : r.arguments s =
    "-hide_banner" :: "-nostdin" :: "-y" ::
      (r.graph.inputs.flatMap (EncodeRequest.imageArguments s.fps) ++
      "-i" :: r.audio ::
          (given (outputOptions r.graph s) ++
              "-shortest" :: (given reportOptions ++ ["-nostats", r.output]))) := by
  unfold EncodeRequest.arguments EncodeRequest.streamArguments EncodeRequest.codecArguments
    EncodeRequest.reportArguments
  cases hrate : s.videoBitrate <;> simp [given, outputOptions, reportOptions, hrate]

/-- **What is read from the arguments of an encode.** -/
theorem read?_arguments (r : EncodeRequest) (s : EncodeSettings) : read? (r.arguments s) = some
    { sources := r.graph.inputs.map (fun i => imageSource s.fps i.path i.seconds) ++ [⟨[], r.audio⟩]
      options := outputOptions r.graph s ++ reportOptions
      output := r.output } := by
  have houtput : ∀ o ∈ outputOptions r.graph s, IsOption o.1 := by
    cases hrate : s.videoBitrate <;> simp [outputOptions, hrate, IsOption, switches]
  have hreport : ∀ o ∈ reportOptions, IsOption o.1 := by decide
  rw [read?, arguments_eq, readFrom?_switch (by decide) (by simp),
    readFrom?_switch (by decide) (by simp), readFrom?_switch (by decide) (by simp),
    readFrom?_images, readFrom?_input, readFrom?_options houtput,
    readFrom?_switch (by decide) (by simp), readFrom?_options hreport,
      readFrom?_switch (by decide) (by simp)]
  rfl

/-- The graph and the streams that are taken, among the options for the output. -/
theorem values_arguments (r : EncodeRequest) (s : EncodeSettings) {call : Invocation}
    (h : read? (r.arguments s) = some call) :
    call.values "-filter_complex" = [r.graph.filterComplex] ∧
      call.values "-map" =
          [Operation.bracketed r.graph.outputLabel, toString r.graph.audioIndex ++ ":a"] := by
  rw [read?_arguments] at h
  obtain rfl := Option.some.inj h
  cases hrate : s.videoBitrate <;> simp [values, outputOptions, reportOptions, hrate]

/-! ## Graphs and their inputs -/

/-- A graph, the images at their lengths and a narration belong together in a call of the
encoder. -/
structure Ties (call : Invocation) (g : FilterGraph Float) (fps : Nat) (images : List String)
    (seconds : List Float) (audio output : String) : Prop where
  /-- The images come first, in order and each with options of its own, and then the narration
  without any. -/
  sources : call.sources = List.zipWith (imageSource fps) images seconds ++ [⟨[], audio⟩]
  length : seconds.length = images.length
  rounded : ∀ d ∈ seconds, Scalar.isFinite d = true →
    Decimal.IsRounded 3 d (Decimal.fixed 3 d).toList
  graph : call.values "-filter_complex" = [g.filterComplex]
  /-- The video is the stream that the graph leaves, and the sound is a stream of the input behind
  the images. -/
  taken : ∃ video, unread g = [video] ∧
    call.values "-map" = [Operation.bracketed video, toString images.length ++ ":a"]
  narration : call.source? (toString images.length ++ ":a").toList = some ⟨[], audio⟩
  pads : ∀ i (hi : i < images.length) (hj : i < seconds.length),
    call.source? (imagePad i).toList = some (imageSource fps images[i] seconds[i])
  output : call.output = output

/-- A number in front of a colon is the number of an input. -/
theorem source?_numbered (call : Invocation) (i : Nat) (stream : List Char) :
    call.source? (Decimal.natDigits i ++ ':' :: stream) = call.sources[i]? := by
  have hdigits : ∀ c ∈ Decimal.natDigits i, Decimal.isDigit c = true :=
    fun _ => Decimal.isDigit_of_mem_natDigits
  have hstop : ¬Decimal.isDigit ':' = true := by decide
  rw [source?, List.takeWhile_append_of_pos hdigits, List.takeWhile_cons_of_neg hstop,
    List.append_nil, Decimal.natOfDigits_natDigits]

/-- **The arguments of an encode tie a compiled graph to its images and the narration**, whatever
the paths are. If the pixel format is complete by itself and names no input, what the text of the
graph names are the images, each once. -/
theorem arguments_tie {images : List String} {durations : List Float} {s : RenderSettings Float}
    {spec : EffectSpec Float} {g : FilterGraph Float} (h : compile images durations s spec = .ok g)
    (settings : EncodeSettings) (audio output : String) (total : Float) :
    ∃ call, read? (EncodeRequest.arguments ⟨g, audio, output, total⟩ settings) = some call ∧
      call.Ties g settings.fps images (timelineOf s spec durations).rendered audio output ∧
      (IsInert s.pixelFormat.toList →
        (Graph.pads .plain g.filterComplex.toList).Perm
            ((List.range images.length).map fun i => (imagePad i).toList)) := by
  obtain ⟨⟨-, hlen, -⟩, -, rfl⟩ := compile_eq_ok_iff.mp h
  have hread := read?_arguments ⟨compiled images durations s spec, audio, output, total⟩ settings
  obtain ⟨hgraph, hmaps⟩ := values_arguments _ _ hread
  have hrendered : (timelineOf s spec durations).rendered.length = images.length := by
    rw [(timelineOf_sizes s spec durations).1, hlen]
  have himages : (compiled images durations s spec).inputs.map
    (fun i => imageSource settings.fps i.path i.seconds) =
      List.zipWith (imageSource settings.fps) images (timelineOf s spec durations).rendered :=
        List.map_zipWith
  have hcount :
      (List.zipWith (imageSource settings.fps) images
          (timelineOf s spec durations).rendered).length = images.length := by
    rw [List.length_zipWith, hrendered, Nat.min_self]
  rw [himages] at hread
  rw [outputLabel_compiled hlen, FilterGraph.audioIndex, length_inputs_compiled hlen] at hmaps
  refine ⟨_, hread, ⟨rfl, hrendered, fun d _ hd => Decimal.isRounded_fixed (by decide) hd, hgraph,
    ⟨finalLabel, unread_compiled hlen s spec, hmaps⟩, ?_, fun i hi hj => ?_, rfl⟩,
    fun hformat => pads_filterComplex hlen hformat spec⟩
  · rw [String.toList_append, toList_toString]
    refine (source?_numbered _ _ ['a']).trans ?_
    rw [List.getElem?_append_right hcount.le, hcount, Nat.sub_self]
    rfl
  · rw [toList_imagePad]
    refine (source?_numbered _ _ ['v']).trans ?_
    rw [List.getElem?_append_left (by omega), List.getElem?_zipWith, List.getElem?_eq_getElem hi,
      List.getElem?_eq_getElem hj]

/-- Paths that look like options and streams. -/
theorem arguments_tie_evasive : ∃ g call,
    compile ["-i", "b.jpg"] [10, 10]
    (.ofConfig {}) ⟨some .fade, some .kenburns, some .vintage, some .lightLeaks, 1⟩ = .ok g ∧
      read? (EncodeRequest.arguments ⟨g, "[0:v]", "-y", 20⟩ (.ofConfig {})) = some call ∧
      call.Ties g 30 ["-i", "b.jpg"]
        (timelineOf (.ofConfig {}) ⟨some .fade, some .kenburns, some .vintage, some .lightLeaks, 1⟩
          [10, 10]).rendered "[0:v]" "-y" ∧
      (Graph.pads .plain g.filterComplex.toList).Perm ["0:v".toList, "1:v".toList] := by
  have haccepted : Accepted ["-i", "b.jpg"] [(10 : Float), 10] := ⟨by decide, rfl, by decide⟩
  have hg := compile_eq_ok_iff.mpr
    ⟨haccepted, by decide, Eq.refl (compiled ["-i", "b.jpg"] [10, 10] (.ofConfig {})
    ⟨some .fade, some .kenburns, some .vintage, some .lightLeaks, 1⟩)⟩
  obtain ⟨call, hread, hties, hpads⟩ := arguments_tie hg (.ofConfig {}) "[0:v]" "-y" 20
  exact ⟨_, call, hg, hread, hties, hpads (by decide)⟩

/-- A configuration whose pixel format has a filter with an input behind it. -/
def stray : Config := { video := { pixelFormat := "gray,[5:v]null" } }

/-- A pixel format is written as it is, with its brackets: with an image and a narration the graph
reads an input that is not there. -/
theorem arguments_stray : stray.check = .ok () ∧ ∃ g call,
    compile ["a.jpg"] [10] (.ofConfig stray) ⟨none, none, none, none, 1⟩ = .ok g ∧
      read? (EncodeRequest.arguments ⟨g, "v.mp3", "o.mp4", 10⟩ (.ofConfig stray.video)) =
        some call ∧
      Graph.pads .plain g.filterComplex.toList = ["0:v".toList, "5:v".toList] ∧
          call.source? "5:v".toList = none := by
  have haccepted : Accepted ["a.jpg"] [(10 : Float)] := ⟨by decide, rfl, by decide⟩
  have hg :=
    compile_eq_ok_iff.mpr ⟨haccepted, by
      decide, Eq.refl (compiled ["a.jpg"] [10] (.ofConfig stray) ⟨none, none, none, none, 1⟩)⟩
  exact ⟨rfl, _, _, hg, read?_arguments _ _, by decide +kernel, rfl⟩

end Invocation

end Slideshow
