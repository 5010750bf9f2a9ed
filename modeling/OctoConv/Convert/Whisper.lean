import OctoConv.Convert.Agreement
import OctoConv.Convert.Probe

/-!
# The audio converter

A transcript is made in two stages: ffmpeg normalises the sound of a source, and whisper-cli transcribes
it. The first stage is not begun when little of the time of the attempt is left.

Source: `internal/convert/whisper.go`.
-/

namespace OctoConv

open Conc

/-! ## Arguments -/

/-- Source: `whisper.go` videoSourceFormats -/
def videoSourceFormats : List String := ["mp4", "mov", "avi", "mkv", "webm"]

/-- Source: `whisper.go` minFfmpegBudget -/
def minFfmpegBudget : Int := 30 * second

/-- Source: `whisper.go` minFfmpegBudgetVideo -/
def minFfmpegBudgetVideo : Int := 90 * second

/-- Source: `whisper.go` selectMinFfmpegBudget -/
def selectMinFfmpegBudget (inPath : String) : Int :=
  if normalizeFormat (UnixPath.ext inPath) ∈ videoSourceFormats then minFfmpegBudgetVideo
  else minFfmpegBudget

/-- Source: `whisper.go` ffmpegNormalizeArgs -/
def ffmpegNormalizeArgs (inPath normPath : String) : List String :=
  ["-y", "-nostdin", "-protocol_whitelist", "file,crypto", "-i", "file:" ++ inPath, "-map", "0:a:0",
    "-ar", "16000", "-ac", "1", "-c:a", "pcm_s16le", "file:" ++ normPath]

/-- Source: `whisper.go` whisperArgs -/
def whisperArgs (model normPath outBase : String) (outFlags : List String) (o : AudioOpts)
    (threads : Int) : List String :=
  ["-m", model, "-f", normPath, "-of", outBase] ++ outFlags ++
    ["-l", if o.language = "" then "auto" else o.language] ++
    (if o.translate then ["-tr"] else []) ++ ["-t", toString threads]

/-- Where the normalised sound is written.

Source: `whisper.go` Convert -/
def normPath (outPath : String) : String := UnixPath.join [UnixPath.dir outPath, "norm.wav"]

/-- The output path without its extension, which whisper-cli appends.

Source: `whisper.go` Convert -/
def whisperOutBase (outPath : String) : String := Strings.trimSuffix outPath (UnixPath.ext outPath)

/-! ## Conversion -/

/-- What the converter takes from its process. -/
structure AudioHost where
  text : FloatText
  codec : FloatCodec
  /-- Source: `whisper.go` model -/
  model : String
  /-- Source: `whisper.go` audioThreadCount -/
  threads : Int

/-- The output is there and not empty.

Source: `whisper.go` validateAudioOutput -/
def validateAudioOutput (path : String) : Tool (Except GoError Unit) :=
  (Prog.mapError (fun why => (GoError.new why).wrap "audio: stat output") (tool (.stat path))).andThen
    fun size => .ret (if size = 0 then .error (.new "audio: output is empty") else .ok ())

/-- The error for an attempt of which too little time is left. -/
def insufficientBudget : GoError :=
  ContextEnd.deadlineExceeded.err.wrap "audio: insufficient attempt budget remaining"

/-- Whether too little of the time of the attempt is left; without a deadline there is enough. -/
def budgetGuard (inPath : String) : Tool (Except GoError Unit) :=
  (tool .untilDeadline) >>= fun left => .ret <|
    match left with
    | some left => if left < selectMinFfmpegBudget inPath then .error insufficientBudget else .ok ()
    | none => .ok ()

/-- The two stages, with their output flags and parsed options.

Source: `whisper.go` Convert -/
def audioConvertTo (host : AudioHost) (inPath outPath : String) (outFlags : List String)
    (o : AudioOpts) : Tool (Except GoError Unit) :=
  (budgetGuard inPath).andThen fun _ =>
  (Prog.mapError (GoError.wrap "audio: ffmpeg")
    (runCommand "ffmpeg" (ffmpegNormalizeArgs inPath (normPath outPath)))).andThen fun _ =>
  (Prog.mapError (GoError.wrap "audio: whisper-cli")
    (runCommand "whisper-cli" (whisperArgs host.model (normPath outPath) (whisperOutBase outPath)
      outFlags o host.threads))).andThen fun _ =>
  validateAudioOutput outPath

/-- Source: `whisper.go` Convert -/
def audioConvert (host : AudioHost) (inPath outPath : String) (opts : Opts) :
    Tool (Except GoError Unit) :=
  match audioOptsFromMap host.codec opts with
  | .error err => .ret (.error (err.wrap "audio"))
  | .ok o =>
    let target := normalizeFormat (UnixPath.ext outPath)
    if whisperOutputFlag target = [] then
      .ret (.error (.new ("audio: unsupported target format " ++ goQuote target)))
    else audioConvertTo host inPath outPath (whisperOutputFlag target) o

end OctoConv
