import OctoConv.Convert.Probe
import OctoConv.Convert.Sniff

/-!
# The av converter

A video is transcoded, or its audio track or one of its frames is extracted, each by one run of
ffmpeg. The converter probes the source once, rejects what is too long, too large or does not fit on
the disk, and decides from the options and the probed codecs which arguments ffmpeg is given.

Source: `internal/convert/av.go`, `internal/convert/avdiskguard.go`.

## Main results

* `avConvertTo_always` — a run starts ffmpeg at most once: on a source that was probed and admitted,
  with the arguments that belong to it.
* `Probed.unique` — the probes at the beginning of a trace say one thing about the source.
* `avConvertTo_runs` — a source that was probed and admitted reaches ffmpeg.
-/

namespace OctoConv

open Conc

/-! ## Errors -/

/-- Source: `av.go` ErrAVReencodeResolutionExceeded -/
def errAVReencodeResolutionExceeded : GoError :=
  ⟨"av: re-encode source resolution exceeds bound", [.avReencodeResolutionExceeded]⟩

/-- Source: `av.go` ErrAVOutputMissingOrEmpty -/
def errAVOutputMissingOrEmpty : GoError := ⟨"av: output missing or empty", [.avOutputMissingOrEmpty]⟩

/-- Source: `av.go` ErrAVTimecodeOutOfRange -/
def errAVTimecodeOutOfRange : GoError :=
  ⟨"av: timecode exceeds source duration", [.avTimecodeOutOfRange]⟩

/-- Source: `av.go` ErrAVTranscodeFailed -/
def errAVTranscodeFailed : GoError := ⟨"av: transcode failed", [.avTranscodeFailed]⟩

/-- Source: `av.go` ErrAVAudioExtractFailed -/
def errAVAudioExtractFailed : GoError := ⟨"av: audio-extract failed", [.avAudioExtractFailed]⟩

/-- Source: `av.go` ErrAVThumbnailFailed -/
def errAVThumbnailFailed : GoError := ⟨"av: thumbnail failed", [.avThumbnailFailed]⟩

/-- No caller tests for this error, so nothing is in its chain.

Source: `avdiskguard.go` ErrAVInsufficientDiskSpace -/
def errAVInsufficientDiskSpace : GoError := .new "av: insufficient free disk space"

/-! ## Arguments -/

/-- Source: `avopts.go` x264DefaultCRF -/
def x264DefaultCRF : Int := 23

/-- Source: `avopts.go` x265DefaultCRF -/
def x265DefaultCRF : Int := 28

/-- Source: `av.go` avScaleFilter -/
def avScaleFilter (height : Int) : String := if height = 0 then "" else "scale=-2:" ++ toString height

/-- Source: `av.go` avInputArgs -/
def avInputArgs (inPath : String) : List String :=
  ["-y", "-nostdin", "-protocol_whitelist", "file,crypto", "-i", "file:" ++ inPath]

/-- The scale filter of a re-encode, if one was asked for. -/
def avFilterArgs (height : Int) : List String :=
  if avScaleFilter height ≠ "" then ["-vf", avScaleFilter height] else []

/-- Source: `av.go` transcodeToMP4Args -/
def transcodeToMP4Args (inPath outPath codec : String) (height videoIndex threads : Int) :
    List String :=
  avInputArgs inPath ++ ["-map", "0:" ++ toString videoIndex, "-map", "0:a:0?"] ++
    avFilterArgs height ++
    ["-c:v", if codec = "hevc" then "libx265" else "libx264", "-preset", "veryfast",
      "-crf", toString (if codec = "hevc" then x265DefaultCRF else x264DefaultCRF),
      "-c:a", "aac", "-b:a", "128k", "-movflags", "+faststart", "-threads", toString threads,
      "file:" ++ outPath]

/-- Source: `av.go` transcodeToWebMArgs -/
def transcodeToWebMArgs (inPath outPath : String) (height videoIndex threads : Int) : List String :=
  avInputArgs inPath ++ ["-map", "0:" ++ toString videoIndex, "-map", "0:a:0?"] ++
    avFilterArgs height ++
    ["-c:v", "libvpx-vp9", "-b:v", "1M", "-c:a", "libopus", "-threads", toString threads,
      "file:" ++ outPath]

/-- Source: `av.go` streamCopyArgs -/
def streamCopyArgs (inPath outPath target : String) (videoIndex : Int) : List String :=
  avInputArgs inPath ++ ["-map", "0:" ++ toString videoIndex, "-map", "0:a:0", "-c", "copy"] ++
    (if target = "mp4" then ["-movflags", "+faststart"] else []) ++ ["file:" ++ outPath]

/-- None if the target is not one of the builder's.

Source: `av.go` extractAudioArgs -/
def extractAudioArgs (inPath outPath target : String) (streamCopy : Bool) : Option (List String) :=
  let codec :=
    if streamCopy then some ["-c:a", "copy"]
    else if target = "mp3" then some ["-c:a", "libmp3lame", "-q:a", "2"]
    else if target = "wav" then some ["-c:a", "pcm_s16le"]
    else if target = "m4a" then some ["-c:a", "aac", "-b:a", "128k"]
    else none
  codec.map fun codec => avInputArgs inPath ++ ["-vn"] ++ codec ++ ["file:" ++ outPath]

/-- None if the target is not one of the builder's.

Source: `av.go` thumbnailArgs -/
def thumbnailArgs (text : FloatText) (inPath outPath target : String) (timecode : Rat)
    (videoIndex : Int) : Option (List String) :=
  let codec :=
    if target = "jpg" then some ["-c:v", "mjpeg", "-q:v", "2"]
    else if target = "png" then some ["-c:v", "png"]
    else if target = "webp" then some ["-c:v", "libwebp"]
    else none
  codec.map fun codec =>
    ["-y", "-nostdin", "-protocol_whitelist", "file,crypto", "-ss", text.shortest timecode,
      "-i", "file:" ++ inPath, "-map", "0:" ++ toString videoIndex, "-frames:v", "1"] ++ codec ++
      ["file:" ++ outPath]

/-! ## Guards -/

/-- Source: `av.go` avMaxSourceDuration -/
def avMaxSourceDuration : Int := 240 * minute

/-- Source: `av.go` avMaxSourceResolutionHeight -/
def avMaxSourceResolutionHeight : Int := 4320

/-- Source: `av.go` avMaxReencodeSourceHeight -/
def avMaxReencodeSourceHeight : Int := 1080

/-- Source: `av.go` avMaxReencodeSourceWidth -/
def avMaxReencodeSourceWidth : Int := 1920

/-- The error for a source that is too large to be encoded again.

Source: `av.go` enforceReencodeSourceBound -/
def reencodeExceeded (width height : Int) : GoError :=
  errAVReencodeResolutionExceeded.detail ("declared resolution " ++ toString width ++ "x" ++
    toString height ++ " exceeds " ++ toString avMaxReencodeSourceWidth ++ "x" ++
    toString avMaxReencodeSourceHeight ++ " bound")

/-- Source: `av.go` enforceReencodeSourceBound -/
def enforceReencodeSourceBound (width height : Int) : Except GoError Unit :=
  if avMaxReencodeSourceHeight < height ∨ avMaxReencodeSourceWidth < width then
    .error (reencodeExceeded width height)
  else .ok ()

/-- What the converter takes from its process and from its host. -/
structure AVHost where
  text : FloatText
  codec : FloatCodec
  /-- Source: `av.go` avThreadCount -/
  threads : Int
  /-- Source: `av.go` effectiveAVDiskSafetyFactor -/
  diskSafetyFactor : Rat

/-- The bytes that must be free for an input of this size: a `float64` product, cut to a `uint64`.

Source: `avdiskguard.go` EnforceMinFreeDisk -/
def neededBytes (host : AVHost) (size : Int) : Nat :=
  (truncate (roundFloat (roundFloat size * host.diskSafetyFactor))).toNat

/-- The error for a disk with too little space. -/
def insufficientDisk (host : AVHost) (free : Nat) (size : Int) : GoError :=
  errAVInsufficientDiskSpace.detail ("free=" ++ toString free ++ " needed=" ++
    toString (neededBytes host size) ++ " input=" ++ toString size ++ " factor=" ++
    host.text.fixed 2 host.diskSafetyFactor)

/-- The free bytes are a product of two `uint64`.

Source: `avdiskguard.go` EnforceMinFreeDisk -/
def enforceMinFreeDisk (host : AVHost) (dir : String) (size : Int) : Tool (Except GoError Unit) :=
  (tool (.statfs dir)) >>= fun
    | .error why => .ret (.error (.new ("av: statfs " ++ goQuote dir ++ ": " ++ why)))
    | .ok (bavail, bsize) =>
      let free := bavail * bsize % 2 ^ 64
      if free < neededBytes host size then .ret (.error (insufficientDisk host free size))
      else .ret (.ok ())

/-! ## The source -/

/-- Source: `av.go` avSourceProbe -/
structure AVSourceProbe where
  duration : Int
  videoStreams : List AVVideoStream
  primary : AVVideoStream
  /-- Empty if there is no audio stream. -/
  audioCodec : String
deriving DecidableEq, Repr

/-- Source: `av.go` avProbeSource -/
def avProbeSource (text : FloatText) (inPath : String) : Tool (Except GoError AVSourceProbe) :=
  (probeDuration text inPath).andThen fun duration =>
  (probeVideoStreams inPath).andThen fun streams =>
  match avPrimaryVideoStream streams with
  | none => .ret (.error errAVNoVideoStream)
  | some primary =>
    (probeAudioCodec inPath).andThen fun audioCodec =>
    .ret (.ok ⟨duration, streams, primary, audioCodec⟩)

/-- Source: `av.go` avStreamCopyLegal -/
def avStreamCopyLegal (targetContainer srcVideoCodec srcAudioCodec : String) : Bool :=
  if targetContainer = "mp4" then srcVideoCodec = "h264" && srcAudioCodec = "aac"
  else if targetContainer = "webm" then srcVideoCodec = "vp9" && srcAudioCodec = "opus"
  else false

/-- Source: `av.go` avStreamCopyEligible -/
def avStreamCopyEligible (target : String) (o : AVOpts) (src : AVSourceProbe) : Bool :=
  avStreamCopyLegal target src.primary.codecName src.audioCodec && o.resolutionHeight = 0 &&
    (o.codec = "" || o.codec = src.primary.codecName)

/-! ## The output -/

/-- The format of a file by its magic number; none if a read fails. -/
def detectedFormat (f : OpenedFile) : Option String :=
  (sniff (.file f.source 0 0)).bind fun s => s.result.map Prod.fst

/-- The error for a thumbnail that is another format. -/
def wrongFormat (target detected : String) : GoError :=
  .new ("av: thumbnail not a valid " ++ target ++ " (detected " ++ goQuote detected ++ ")")

/-- The output is there and not empty, and a thumbnail has the format that was asked for.

Source: `av.go` validateAVOutput -/
def validateAVOutput (path target : String) : Tool (Except GoError Unit) :=
  (tool (.stat path)) >>= fun
    | .error why => .ret (.error (errAVOutputMissingOrEmpty.detail why))
    | .ok size =>
      if size = 0 then .ret (.error errAVOutputMissingOrEmpty)
      else if target ∈ avThumbnailExtractTargets then
        (tool (.openFile path)) >>= fun
          | .error why => .ret (.error (errAVOutputMissingOrEmpty.detail why))
          | .ok f =>
            match detectedFormat f with
            | none =>
              .ret (.error (.new ("av: thumbnail not a valid " ++ target ++ ": " ++ f.readError)))
            | some detected =>
              if detected ≠ target then .ret (.error (wrongFormat target detected)) else .ret (.ok ())
      else .ret (.ok ())

/-! ## Conversion -/

/-- Run ffmpeg with the arguments of a stage, unless these are an error, and look at what it wrote. -/
def runStage (failed : GoError) (args : Except GoError (List String)) (outPath target : String) :
    Tool (Except GoError Unit) :=
  match args with
  | .error err => .ret (.error err)
  | .ok args =>
    (Prog.mapError failed.join (runCommand "ffmpeg" args)).andThen fun _ =>
    validateAVOutput outPath target

/-- The arguments of a transcode: a copy of the streams, or a re-encode of a source within the bound. -/
def avTranscodeArgs (host : AVHost) (inPath outPath target : String) (o : AVOpts)
    (src : AVSourceProbe) :
    Except GoError (List String) :=
  if avStreamCopyEligible target o src then .ok (streamCopyArgs inPath outPath target src.primary.index)
  else
    match enforceReencodeSourceBound src.primary.width src.primary.height with
    | .error err => .error (err.wrap "av")
    | .ok () =>
      if target = "mp4" then
        .ok (transcodeToMP4Args inPath outPath o.codec o.resolutionHeight
          src.primary.index host.threads)
      else if target = "webm" then
        .ok (transcodeToWebMArgs inPath outPath o.resolutionHeight src.primary.index host.threads)
      else .error (.new ("av: unsupported transcode target " ++ goQuote target))

/-- Source: `av.go` convertTranscode -/
def convertTranscode (host : AVHost) (inPath outPath target : String) (o : AVOpts)
    (src : AVSourceProbe) :
    Tool (Except GoError Unit) :=
  runStage errAVTranscodeFailed (avTranscodeArgs host inPath outPath target o src) outPath target

/-- The arguments of an audio extraction. -/
def avExtractArgs (inPath outPath target : String) (src : AVSourceProbe) :
    Except GoError (List String) :=
  match extractAudioArgs inPath outPath target (target = "m4a" && src.audioCodec = "aac") with
  | none => .error (.new ("av: unsupported audio-extract target " ++ goQuote target))
  | some args => .ok args

/-- Source: `av.go` convertAudioExtract -/
def convertAudioExtract (inPath outPath target : String) (src : AVSourceProbe) :
    Tool (Except GoError Unit) :=
  runStage errAVAudioExtractFailed (avExtractArgs inPath outPath target src) outPath target

/-- Source: `av.go` avDefaultThumbnailTimecode -/
def avDefaultThumbnailTimecode : Rat := 1

/-- The error for a seek point that lies behind the source. -/
def timecodeOutOfRange (text : FloatText) (timecode seconds : Rat) : GoError :=
  errAVTimecodeOutOfRange.detail
    ("timecode " ++ text.fixed 3 timecode ++ "s exceeds source duration " ++
    text.fixed 3 seconds ++ "s")

/-- The seek point of a thumbnail: the one that was asked for, if it lies in the source, else a default
that does. -/
def avTimecode (text : FloatText) (o : AVOpts) (src : AVSourceProbe) : Except GoError Rat :=
  let seconds := durationSeconds src.duration
  match o.timecode with
  | some timecode =>
    if seconds ≤ timecode then .error (timecodeOutOfRange text timecode seconds) else .ok timecode
  | none => .ok (min avDefaultThumbnailTimecode (seconds / 2))

/-- The arguments of a thumbnail. -/
def avThumbnailArgs (text : FloatText) (inPath outPath target : String) (o : AVOpts)
    (src : AVSourceProbe) : Except GoError (List String) :=
  match avTimecode text o src with
  | .error err => .error err
  | .ok timecode =>
    match thumbnailArgs text inPath outPath target timecode src.primary.index with
    | none => .error (.new ("av: unsupported thumbnail target " ++ goQuote target))
    | some args => .ok args

/-- Source: `av.go` convertThumbnail -/
def convertThumbnail (host : AVHost) (inPath outPath target : String) (o : AVOpts)
    (src : AVSourceProbe) :
    Tool (Except GoError Unit) :=
  runStage errAVThumbnailFailed (avThumbnailArgs host.text inPath outPath target o src) outPath target

/-- The guard stage: the duration, the height of every stream, and the space on the disk.

Source: `av.go` Convert -/
def avGuard (host : AVHost) (maxDuration maxHeight : Int) (inPath : String) (src : AVSourceProbe) :
    Tool (Except GoError Unit) :=
  (Prog.ret (enforceMaxDurationOf src.duration maxDuration)).andThen fun _ =>
  (Prog.ret (enforceMaxResolutionOf src.videoStreams maxHeight)).andThen fun _ =>
  (Prog.mapError GoError.new (tool (.stat inPath))).andThen fun size =>
  enforceMinFreeDisk host (UnixPath.dir inPath) size

/-- One of the three pipelines.

Source: `av.go` Convert -/
def avPipeline (host : AVHost) (inPath outPath target : String) (o : AVOpts) (src : AVSourceProbe) :
    Tool (Except GoError Unit) :=
  if target ∈ avTranscodeTargets then convertTranscode host inPath outPath target o src
  else if target ∈ avAudioExtractTargets then convertAudioExtract inPath outPath target src
  else convertThumbnail host inPath outPath target o src

/-- The ceiling that is enforced: a field of the converter, or the default where it is zero.

Source: `av.go` Convert -/
def ceilingOr (field dflt : Int) : Int := if field = 0 then dflt else field

/-- The target formats of the converter. -/
def avTargetFormats : List String :=
  avTranscodeTargets ++ avAudioExtractTargets ++ avThumbnailExtractTargets

/-- The conversion of a source with parsed options to a format of the converter.

Source: `av.go` Convert -/
def avConvertTo (host : AVHost) (maxSourceDuration maxSourceResolutionHeight : Int)
    (inPath outPath target : String) (o : AVOpts) : Tool (Except GoError Unit) :=
  (Prog.mapError (GoError.wrap "av") (avProbeSource host.text inPath)).andThen fun src =>
  (Prog.mapError (GoError.wrap "av")
    (avGuard host (ceilingOr maxSourceDuration avMaxSourceDuration)
      (ceilingOr maxSourceResolutionHeight avMaxSourceResolutionHeight) inPath src)).andThen fun _ =>
  avPipeline host inPath outPath target o src

/-- The converter with its two ceilings.

Source: `av.go` Convert -/
def avConvert (host : AVHost) (maxSourceDuration maxSourceResolutionHeight : Int)
    (inPath outPath : String) (opts : Opts) : Tool (Except GoError Unit) :=
  match avOptsFromMap host.codec opts with
  | .error err => .ret (.error (err.wrap "av"))
  | .ok o =>
    let target := normalizeFormat (UnixPath.ext outPath)
    if target ∈ avTargetFormats then
      avConvertTo host maxSourceDuration maxSourceResolutionHeight inPath outPath target o
    else .ret (.error (.new ("av: unsupported target format " ++ goQuote target)))

/-! ## What a run does with ffmpeg -/

/-- The arguments that ffmpeg is given for a probed source. -/
def avArgs (host : AVHost) (inPath outPath target : String) (o : AVOpts) (src : AVSourceProbe) :
    Except GoError (List String) :=
  if target ∈ avTranscodeTargets then avTranscodeArgs host inPath outPath target o src
  else if target ∈ avAudioExtractTargets then avExtractArgs inPath outPath target src
  else avThumbnailArgs host.text inPath outPath target o src

/-- The error that a failure of ffmpeg is joined to. -/
def avStageError (target : String) : GoError :=
  if target ∈ avTranscodeTargets then errAVTranscodeFailed
  else if target ∈ avAudioExtractTargets then errAVAudioExtractFailed
  else errAVThumbnailFailed

/-- The three pipelines are one stage with different arguments. -/
theorem avPipeline_eq (host : AVHost) (inPath outPath target : String) (o : AVOpts)
    (src : AVSourceProbe) : avPipeline host inPath outPath target o src =
      runStage (avStageError target) (avArgs host inPath outPath target o src) outPath target := by
  unfold avPipeline avStageError avArgs
  split
  · rfl
  · split <;> rfl

/-- Nothing in the trace runs ffmpeg. -/
def Quiet (tr : ToolTrace) : Prop := ∀ x ∈ tr, ∀ args, x.1 ≠ .run "ffmpeg" args

/-- The trace runs ffmpeg once, with these arguments. -/
def RunsFfmpeg (tr : ToolTrace) (args : List String) : Prop :=
  ∃ before answer after, tr = before ++ ⟨.run "ffmpeg" args, answer⟩ :: after ∧
    Quiet before ∧ Quiet after

/-- Two runs without ffmpeg make one. -/
theorem Quiet.append {tr tr' : ToolTrace} (h : Quiet tr) (h' : Quiet tr') : Quiet (tr ++ tr') := by
  intro x hx
  rcases List.mem_append.mp hx with hx | hx
  · exact h x hx
  · exact h' x hx

/-- What is run before ffmpeg does not matter. -/
theorem RunsFfmpeg.prepend {tr tr' : ToolTrace} {args : List String} (h : Quiet tr)
    (h' : RunsFfmpeg tr' args) : RunsFfmpeg (tr ++ tr') args := by
  obtain ⟨before, answer, after, rfl, hbefore, hafter⟩ := h'
  refine ⟨tr ++ before, answer, after, ?_, h.append hbefore, hafter⟩
  rw [List.append_assoc]

/-- A trace that runs ffmpeg is not quiet, and the arguments are determined by it. -/
theorem RunsFfmpeg.unique {tr : ToolTrace} {args args' : List String} (h : RunsFfmpeg tr args)
    (h' : RunsFfmpeg tr args') : args' = args := by
  obtain ⟨before, answer, after, rfl, hbefore, hafter⟩ := h
  obtain ⟨before', answer', after', htr, -, -⟩ := h'
  have hmem : (⟨.run "ffmpeg" args', answer'⟩ : Prog.Event ToolCall ToolCall.Result) ∈
      before ++ ⟨.run "ffmpeg" args, answer⟩ :: after := by
    rw [htr]
    simp
  rcases List.mem_append.mp hmem with hmem | hmem
  · exact absurd rfl (hbefore _ hmem args')
  · rcases List.mem_cons.mp hmem with heq | hmem
    · have hcall := congrArg Sigma.fst heq
      exact (ToolCall.run.inj hcall).2
    · exact absurd rfl (hafter _ hmem args')

/-- A run of ffmpeg is not quiet. -/
theorem RunsFfmpeg.not_quiet {tr : ToolTrace} {args : List String} (h : RunsFfmpeg tr args) :
    ¬ Quiet tr := by
  obtain ⟨before, answer, after, rfl, -, -⟩ := h
  intro hquiet
  exact hquiet ⟨.run "ffmpeg" args, answer⟩ (by simp) args rfl

/-- What the three probes at the beginning of a trace say about the source. -/
def Probed (text : FloatText) (inPath : String) (tr : ToolTrace) (src : AVSourceProbe) : Prop :=
  ∃ raw out codec rest,
    tr = ⟨.run "ffprobe" (ffprobeDurationArgs inPath), .ok raw⟩ ::
      ⟨.run "ffprobe" (ffprobeStreamArgs inPath), .ok out⟩ ::
      ⟨.run "ffprobe" (ffprobeAudioCodecArgs inPath), .ok codec⟩ :: rest ∧
    parseProbedDuration text raw = .ok src.duration ∧ readVideoStreams out = .ok src.videoStreams ∧
    avPrimaryVideoStream src.videoStreams = some src.primary ∧ src.audioCodec = Strings.trimSpace codec

/-- What was probed stays so while the run goes on. -/
theorem Probed.append {text : FloatText} {inPath : String} {tr tr' : ToolTrace} {src : AVSourceProbe}
    (h : Probed text inPath tr src) : Probed text inPath (tr ++ tr') src := by
  obtain ⟨raw, out, codec, rest, rfl, hread⟩ := h
  exact ⟨raw, out, codec, rest ++ tr', rfl, hread⟩

/-- The probes at the beginning of a trace say one thing about the source. -/
theorem Probed.unique {text : FloatText} {inPath : String} {tr : ToolTrace} {src src' : AVSourceProbe}
    (h : Probed text inPath tr src) (h' : Probed text inPath tr src') : src' = src := by
  obtain ⟨raw, out, codec, rest, rfl, hduration, hstreams, hprimary, haudio⟩ := h
  obtain ⟨raw', out', codec', rest', htr, hduration', hstreams', hprimary', haudio'⟩ := h'
  obtain ⟨hraw, htr⟩ := List.cons.inj htr
  obtain ⟨hout, htr⟩ := List.cons.inj htr
  obtain ⟨hcodec, -⟩ := List.cons.inj htr
  obtain rfl : raw = raw' := Except.ok.inj (Prog.Event.inj hraw)
  obtain rfl : out = out' := Except.ok.inj (Prog.Event.inj hout)
  obtain rfl : codec = codec' := Except.ok.inj (Prog.Event.inj hcodec)
  obtain ⟨duration, streams, primary, audioCodec⟩ := src
  obtain ⟨duration', streams', primary', audioCodec'⟩ := src'
  dsimp only at *
  obtain rfl : duration = duration' := Except.ok.inj (hduration.symm.trans hduration')
  obtain rfl : streams = streams' := Except.ok.inj (hstreams.symm.trans hstreams')
  obtain rfl : primary = primary' := Option.some.inj (hprimary.symm.trans hprimary')
  rw [haudio, haudio']

/-- A run of ffprobe is quiet. -/
theorem quiet_ffprobe (args : List String) (answer : Except RunFailure String) :
    Quiet [⟨.run "ffprobe" args, answer⟩] := by
  intro x hx args'
  rw [List.mem_singleton.mp hx]
  simp

/-- The probe stage asks ffprobe three questions. -/
theorem avProbeSource_always (text : FloatText) (inPath : String) :
    (avProbeSource text inPath).Always fun tr r =>
      Quiet tr ∧ ∀ src, r = .ok src → Probed text inPath tr src := by
  apply (probe_always _ _).andThen
  · rintro tr e ⟨answer, rfl, -⟩
    exact ⟨quiet_ffprobe _ _, by simp⟩
  rintro tr duration ⟨answer, rfl, hduration⟩
  apply (probe_always _ _).andThen
  · rintro tr e ⟨answer', rfl, -⟩
    exact ⟨(quiet_ffprobe _ _).append (quiet_ffprobe _ _), by simp⟩
  rintro tr streams ⟨answer', rfl, hstreams⟩
  rcases hprimary : avPrimaryVideoStream streams with _ | primary
  · exact ⟨((quiet_ffprobe _ _).append (quiet_ffprobe _ _)).append (by simp [Quiet]), by simp⟩
  apply (probe_always _ _).andThen
  · rintro tr e ⟨answer'', rfl, -⟩
    exact ⟨(quiet_ffprobe _ _).append ((quiet_ffprobe _ _).append (quiet_ffprobe _ _)), by simp⟩
  rintro tr codec ⟨answer'', rfl, hcodec⟩
  refine ⟨(quiet_ffprobe _ _).append ((quiet_ffprobe _ _).append ((quiet_ffprobe _ _).append
    (by simp [Quiet]))), ?_⟩
  rintro src hsrc
  obtain rfl := Except.ok.inj hsrc
  rcases answer with f | raw
  · exact absurd hduration (by simp)
  rcases answer' with f | out
  · exact absurd hstreams (by simp)
  rcases answer'' with f | audio
  · exact absurd hcodec (by simp)
  exact ⟨raw, out, audio, [], rfl, hduration.symm, hstreams.symm, hprimary, Except.ok.inj hcodec⟩

/-- A source that the guard stage lets through. -/
structure Admitted (maxDuration maxHeight : Int) (src : AVSourceProbe) : Prop where
  duration : src.duration ≤ maxDuration
  height : ∀ s ∈ src.videoStreams, s.height ≤ maxHeight

/-- The ceiling on the duration lets shorter sources through. -/
theorem enforceMaxDurationOf_ok {d max : Int} (h : enforceMaxDurationOf d max = .ok ()) : d ≤ max := by
  unfold enforceMaxDurationOf at h
  split at h
  · exact absurd h (by simp)
  · omega

/-- The ceiling on the height lets lower streams through. -/
theorem enforceMaxResolutionOf_ok {streams : List AVVideoStream} {maxHeight : Int}
    (h : enforceMaxResolutionOf streams maxHeight = .ok ()) : ∀ s ∈ streams, s.height ≤ maxHeight := by
  unfold enforceMaxResolutionOf at h
  split at h
  · exact absurd h (by simp)
  · intro s hs
    have hle := height_le_avMaxVideoHeight hs
    omega

/-- The calls other than commands. -/
def FileCall : ToolCall → Prop
  | .run _ _ => False
  | _ => True

/-- Calls about files are quiet. -/
theorem quiet_of_fileCall {tr : ToolTrace} (h : ∀ x ∈ tr, FileCall x.1) : Quiet tr := by
  intro x hx args heq
  have hcall := h x hx
  rw [heq] at hcall
  exact hcall

/-- The check of the disk makes calls about files only. -/
theorem enforceMinFreeDisk_calls (host : AVHost) (dir : String) (size : Int) :
    (enforceMinFreeDisk host dir size).Calls FileCall := by
  apply (Prog.Calls.perform (show FileCall (.statfs dir) from trivial)).bind
  rintro (why | ⟨bavail, bsize⟩)
  · trivial
  · dsimp only
    split <;> trivial

/-- So does the check of the output. -/
theorem validateAVOutput_calls (path target : String) :
    (validateAVOutput path target).Calls FileCall := by
  apply (Prog.Calls.perform (show FileCall (.stat path) from trivial)).bind
  rintro (why | size)
  · trivial
  dsimp only
  split
  · trivial
  split
  · apply (Prog.Calls.perform (show FileCall (.openFile path) from trivial)).bind
    rintro (why | f)
    · trivial
    dsimp only
    split
    · trivial
    · split <;> trivial
  · trivial

/-- The guard stage runs no command, and admits the source if it succeeds. -/
theorem avGuard_always (host : AVHost) (maxDuration maxHeight : Int) (inPath : String)
    (src : AVSourceProbe) : (avGuard host maxDuration maxHeight inPath src).Always fun tr r =>
      Quiet tr ∧ (r = .ok () → Admitted maxDuration maxHeight src) := by
  have hnil : Quiet [] := by simp [Quiet]
  unfold avGuard
  rcases hduration : enforceMaxDurationOf src.duration maxDuration with e | ⟨⟩
  · exact ⟨hnil, by simp⟩
  rcases hheight : enforceMaxResolutionOf src.videoStreams maxHeight with e | ⟨⟩
  · exact ⟨hnil, by simp⟩
  have hadmitted : Admitted maxDuration maxHeight src :=
    ⟨enforceMaxDurationOf_ok hduration, enforceMaxResolutionOf_ok hheight⟩
  rw [Prog.always_iff]
  intro tr r hrun
  refine ⟨quiet_of_fileCall (hrun.mem_calls ?_), fun _ => hadmitted⟩
  apply Prog.Calls.andThen (Prog.Calls.perform (show FileCall (.stat inPath) from trivial)).mapError
  intro size
  exact enforceMinFreeDisk_calls host _ size

/-- A stage runs ffmpeg once with its arguments, or not at all if there are none. -/
theorem runStage_always (failed : GoError) (args : Except GoError (List String))
    (outPath target : String) : (runStage failed args outPath target).Always fun tr _ =>
      Quiet tr ∨ ∃ l, args = .ok l ∧ RunsFfmpeg tr l := by
  rcases args with e | l
  · exact .inl (by simp [Quiet])
  rw [Prog.always_iff]
  intro tr r hrun
  refine .inr ⟨l, rfl, ?_⟩
  have hstage : (runStage failed (.ok l) outPath target).Always fun tr _ =>
      ∃ answer after, tr = ⟨.run "ffmpeg" l, answer⟩ :: after ∧ ∀ x ∈ after, FileCall x.1 := by
    apply ((runCommand_always "ffmpeg" l).mapError (fun tr _ =>
      ∃ answer, tr = [⟨.run "ffmpeg" l, answer⟩]) ?_).andThen
    · rintro tr e ⟨answer, rfl⟩
      exact ⟨answer, [], rfl, by simp⟩
    · rintro tr out ⟨answer, rfl⟩
      rw [Prog.always_iff]
      intro tr' r' hrun'
      exact ⟨answer, tr', rfl, hrun'.mem_calls (validateAVOutput_calls outPath target)⟩
    · rintro tr r ⟨answer, rfl, -⟩
      exact ⟨answer, rfl⟩
  obtain ⟨answer, after, rfl, hafter⟩ := Prog.always_iff.mp hstage tr r hrun
  exact ⟨[], answer, after, rfl, by simp [Quiet], quiet_of_fileCall hafter⟩

/-- **A run starts ffmpeg at most once**: on a source that was probed and admitted, with the arguments
that belong to it. -/
theorem avConvertTo_always (host : AVHost) (maxDuration maxHeight : Int)
    (inPath outPath target : String) (o : AVOpts) :
    (avConvertTo host maxDuration maxHeight inPath outPath target o).Always fun tr _ =>
      Quiet tr ∨ ∃ args src, RunsFfmpeg tr args ∧ Probed host.text inPath tr src ∧
        Admitted (ceilingOr maxDuration avMaxSourceDuration)
          (ceilingOr maxHeight avMaxSourceResolutionHeight) src ∧
        avArgs host inPath outPath target o src = .ok args := by
  apply ((avProbeSource_always host.text inPath).mapError
    (fun tr r => Quiet tr ∧ ∀ src, r = .ok src → Probed host.text inPath tr src) ?_).andThen
  · rintro tr e ⟨hquiet, -⟩
    exact .inl hquiet
  · rintro tr src ⟨hquiet, hprobed⟩
    apply ((avGuard_always host _ _ inPath src).mapError
      (fun tr r => Quiet tr ∧ (r = .ok () → Admitted (ceilingOr maxDuration avMaxSourceDuration)
        (ceilingOr maxHeight avMaxSourceResolutionHeight) src)) ?_).andThen
    · rintro tr' e ⟨hquiet', -⟩
      exact .inl (hquiet.append hquiet')
    · rintro tr' ⟨⟩ ⟨hquiet', hadmitted⟩
      rw [avPipeline_eq]
      apply (runStage_always _ _ _ _).mono
      rintro tr'' r (hquiet'' | ⟨args, hargs, hruns⟩)
      · exact .inl (hquiet.append (hquiet'.append hquiet''))
      · refine .inr ⟨args, src, (hruns.prepend hquiet').prepend hquiet, ?_, hadmitted rfl, hargs⟩
        exact (hprobed src rfl).append
    · rintro tr' (e | ⟨⟩) ⟨hquiet', hadmitted⟩
      · exact ⟨hquiet', nofun⟩
      · exact ⟨hquiet', fun _ => hadmitted rfl⟩
  · rintro tr (e | src) ⟨hquiet, hprobed⟩
    · exact ⟨hquiet, nofun⟩
    · exact ⟨hquiet, hprobed⟩

/-! ## Runs that reach ffmpeg -/

/-- The probe of a source that ffprobe can read. -/
theorem probe_runs {α : Type} (args : List String) (read : String → Except GoError α) (out : String) :
    (probe args read).Runs [⟨.run "ffprobe" args, .ok out⟩] (read out) := .call (.ret _)

/-- The probe of a source whose properties ffprobe prints. -/
theorem avProbeSource_runs {text : FloatText} (inPath : String) {raw out codec : String}
    {src : AVSourceProbe} (hduration : parseProbedDuration text raw = .ok src.duration)
    (hstreams : readVideoStreams out = .ok src.videoStreams)
    (hprimary : avPrimaryVideoStream src.videoStreams = some src.primary)
    (haudio : src.audioCodec = Strings.trimSpace codec) :
    (avProbeSource text inPath).Runs
      [⟨.run "ffprobe" (ffprobeDurationArgs inPath), .ok raw⟩,
        ⟨.run "ffprobe" (ffprobeStreamArgs inPath), .ok out⟩,
        ⟨.run "ffprobe" (ffprobeAudioCodecArgs inPath), .ok codec⟩] (.ok src) := by
  obtain ⟨duration, streams, primary, audioCodec⟩ := src
  dsimp only at *
  have hfirst := probe_runs (ffprobeDurationArgs inPath) (parseProbedDuration text) raw
  have hsecond := probe_runs (ffprobeStreamArgs inPath) readVideoStreams out
  have hthird := probe_runs (ffprobeAudioCodecArgs inPath)
    (fun out => (.ok (Strings.trimSpace out) : Except GoError String)) codec
  rw [hduration] at hfirst
  rw [hstreams] at hsecond
  rw [← haudio] at hthird
  apply hfirst.andThen
  apply hsecond.andThen
  rw [hprimary]
  exact hthird.andThen (.ret _)

/-- The check of a disk with space. -/
theorem enforceMinFreeDisk_runs {host : AVHost} {dir : String} {size : Int} {bavail bsize : Nat}
    (hdisk : neededBytes host size ≤ bavail * bsize % 2 ^ 64) :
    (enforceMinFreeDisk host dir size).Runs [⟨.statfs dir, .ok (bavail, bsize)⟩] (.ok ()) := by
  have hfree : (if bavail * bsize % 2 ^ 64 < neededBytes host size then
      .ret (.error (insufficientDisk host (bavail * bsize % 2 ^ 64) size))
      else .ret (.ok ()) : Tool (Except GoError Unit)) = .ret (.ok ()) := if_neg (by omega)
  have hret : (Prog.ret (.ok ()) : Tool (Except GoError Unit)).Runs [] (.ok ()) := .ret _
  rw [← hfree] at hret
  exact .call hret

/-- The guard of a source that is allowed. -/
theorem avGuard_runs {host : AVHost} {maxDuration maxHeight : Int} (inPath : String)
    {src : AVSourceProbe} {size : Int} {bavail bsize : Nat} (hduration : src.duration ≤ maxDuration)
    (hheight : avMaxVideoHeight src.videoStreams ≤ maxHeight)
    (hdisk : neededBytes host size ≤ bavail * bsize % 2 ^ 64) :
    (avGuard host maxDuration maxHeight inPath src).Runs
      [⟨.stat inPath, .ok size⟩, ⟨.statfs (UnixPath.dir inPath), .ok (bavail, bsize)⟩] (.ok ()) := by
  have hfirst : enforceMaxDurationOf src.duration maxDuration = .ok () := if_neg (by omega)
  have hsecond : enforceMaxResolutionOf src.videoStreams maxHeight = .ok () := if_neg (by omega)
  unfold avGuard
  rw [hfirst, hsecond]
  exact .call (enforceMinFreeDisk_runs hdisk)

/-- **A source that was probed and admitted reaches ffmpeg**, if its arguments can be built and the
disk has the space. -/
theorem avConvertTo_runs {host : AVHost} {maxDuration maxHeight : Int}
    {inPath outPath target : String} {o : AVOpts} {raw out codec : String} {src : AVSourceProbe}
    {size : Int} {bavail bsize : Nat} {args : List String}
    (hduration : parseProbedDuration host.text raw = .ok src.duration)
    (hstreams : readVideoStreams out = .ok src.videoStreams)
    (hprimary : avPrimaryVideoStream src.videoStreams = some src.primary)
    (haudio : src.audioCodec = Strings.trimSpace codec)
    (hmax : src.duration ≤ ceilingOr maxDuration avMaxSourceDuration)
    (hheight : avMaxVideoHeight src.videoStreams ≤ ceilingOr maxHeight avMaxSourceResolutionHeight)
    (hdisk : neededBytes host size ≤ bavail * bsize % 2 ^ 64)
    (hargs : avArgs host inPath outPath target o src = .ok args) (f : RunFailure) :
    ∃ tr r, (avConvertTo host maxDuration maxHeight inPath outPath target o).Runs tr r ∧
      RunsFfmpeg tr args ∧ Probed host.text inPath tr src := by
  have hprobe := (avProbeSource_runs inPath hduration hstreams hprimary haudio).mapError
    (g := GoError.wrap "av")
  have hguard := (avGuard_runs inPath hmax hheight hdisk).mapError (g := GoError.wrap "av")
  have hstage : (runStage (avStageError target) (.ok args) outPath target).Runs
      [⟨.run "ffmpeg" args, .error f⟩] (.error ((avStageError target).join (f.err "ffmpeg"))) :=
    .call (.ret _)
  rw [← hargs, ← avPipeline_eq] at hstage
  refine ⟨_, _, hprobe.andThen (hguard.andThen hstage), ?_, raw, out, codec, _, rfl,
    hduration, hstreams,
    hprimary, haudio⟩
  refine RunsFfmpeg.prepend ?_ (RunsFfmpeg.prepend ?_ ⟨[], _, [], rfl, ?_, ?_⟩)
  · intro x hx
    simp only [List.mem_cons, List.not_mem_nil, or_false] at hx
    rcases hx with rfl | rfl | rfl <;> simp
  · intro x hx
    simp only [List.mem_cons, List.not_mem_nil, or_false] at hx
    rcases hx with rfl | rfl <;> simp
  · simp [Quiet]
  · simp [Quiet]

end OctoConv
