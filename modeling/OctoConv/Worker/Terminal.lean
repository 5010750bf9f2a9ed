import Mathlib.Data.List.Infix
import OctoConv.Base.Errors

/-!
# Terminal and transient errors

Whether a failed conversion attempt is given up at once or retried. One classifier is shared; the
engine classes differ in what they make of a timeout and of their own stages.

Source: `internal/worker/worker.go`.
-/

namespace OctoConv.Worker

/-- `unicode.ToLower`, as far as its result can be an ASCII letter; other letters beyond ASCII are
left alone, and no signature contains one. -/
def lowerChar (c : Char) : Char :=
  if c = '\u0130' then 'i' else if c = '\u212a' then 'k' else c.toLower

/-- `strings.Contains(strings.ToLower(text), sig)` -/
def mentions (text sig : String) : Bool := sig.toList <:+: text.toList.map lowerChar

/-- Source: `worker.go` terminalVipsSignatures -/
def terminalVipsSignatures : List String :=
  ["is not a known file format", "premature end of jpeg file",
    "jpeg datastream contains no image"]

/-- Source: `worker.go` terminalLibreOfficeSignatures -/
def terminalLibreOfficeSignatures : List String :=
  ["output missing %pdf- magic bytes", "output is empty", "no export filter for",
    "output does not match expected container format", "produced no output file",
    "output missing pdf/a outputintent marker", "pdf_profile requested for non-pdf target"]

/-- Source: `worker.go` terminalChromiumSignatures -/
def terminalChromiumSignatures : List String :=
  ["output is empty", "output missing %pdf- magic bytes", "stat output"]

/-- Source: `worker.go` terminalAudioSignatures -/
def terminalAudioSignatures : List String := ["audio: output is empty", "audio: stat output"]

/-- Source: `worker.go` terminalVeraPDFSignatures -/
def terminalVeraPDFSignatures : List String := ["pdf/a non-compliant", "pdf/a validation error"]

/-- The shared classifier.

Source: `worker.go` isTerminal -/
def isTerminal (err : GoError) : Bool :=
  err.is .noSuchKey ||
  mentions err.text "no converter for" ||
  terminalVipsSignatures.any (mentions err.text) ||
  terminalLibreOfficeSignatures.any (mentions err.text) ||
  terminalChromiumSignatures.any (mentions err.text) ||
  terminalVeraPDFSignatures.any (mentions err.text)

/-- Source: `worker.go` timeoutIsTerminal -/
def timeoutIsTerminal (err : GoError) : Bool := err.is .deadlineExceeded || isTerminal err

/-- Source: `worker.go` isDocumentTerminal -/
def isDocumentTerminal (err : GoError) : Bool := timeoutIsTerminal err

/-- Source: `worker.go` isHTMLTerminal -/
def isHTMLTerminal (err : GoError) : Bool := timeoutIsTerminal err

/-- Source: `worker.go` isAudioTerminal -/
def isAudioTerminal (err : GoError) : Bool :=
  err.is .audioDurationExceeded ||
  mentions err.text "audio: ffmpeg:" ||
  mentions err.text "ffprobe: unparseable duration" ||
  mentions err.text "ffprobe: implausible duration" ||
  mentions err.text "ffprobe failed:" ||
  terminalAudioSignatures.any (mentions err.text) ||
  isTerminal err

/-- Source: `worker.go` isAVTerminal -/
def isAVTerminal (err : GoError) : Bool :=
  if err.is .avOutputMissingOrEmpty || err.is .avTimecodeOutOfRange ||
      err.is .avResolutionExceeded || err.is .avReencodeResolutionExceeded ||
      err.is .audioDurationExceeded || err.is .avNoVideoStream then true
  else if err.is .avTranscodeFailed then !err.is .deadlineExceeded
  else if err.is .avAudioExtractFailed || err.is .avThumbnailFailed then true
  else isTerminal err

/-- The code and the message of a terminal failure, for every class but audio and av. -/
def engineError (_ : GoError) : String × String :=
  ("engine_error", "unsupported or corrupted input format")

/-- Source: `worker.go` HandleAudioConvert -/
def audioFailureCode (err : GoError) : String × String :=
  if err.is .audioDurationExceeded then
    ("duration_exceeded", "declared audio duration exceeds the configured maximum")
  else engineError err

/-- Source: `worker.go` avFailureCode -/
def avFailureCode (err : GoError) : String × String :=
  if err.is .avTimecodeOutOfRange then
    ("timecode_out_of_range", "requested thumbnail timecode exceeds source duration")
  else if err.is .audioDurationExceeded then
    ("duration_exceeded", "declared video duration exceeds the configured maximum")
  else if err.is .avResolutionExceeded then
    ("resolution_exceeded", "declared video resolution exceeds the configured maximum")
  else if err.is .avNoVideoStream then
    ("no_video_stream", "no video stream found in source")
  else engineError err

end OctoConv.Worker
