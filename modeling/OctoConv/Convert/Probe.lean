import OctoConv.Base.Floats
import OctoConv.Convert.Exec
import OctoConv.Convert.Opts
import OctoConv.Lib.FirstMax
import Mathlib.Data.Int.Init

/-!
# Probing a source

Before anything is decoded, `ffprobe` is asked for the duration of a source, for its video streams
and for the codec of its first audio stream. The answers are parsed and compared with ceilings.

Source: `internal/convert/audioduration.go`, `internal/convert/avduration.go`, `internal/convert/av.go`.

## Main results

* `probe_always` — a probe runs ffprobe once and reads its output.
* `avPrimaryVideoStream_mem` — the primary stream is one of the streams.
-/

namespace OctoConv

open Conc
open Conc.JsonText (Value parse)

/-- An error with a detail behind it: `fmt.Errorf("%w: <detail>", err)`. -/
def GoError.detail (err : GoError) (detail : String) : GoError :=
  ⟨err.text ++ ": " ++ detail, err.chain⟩

/-- A detail changes nothing about what an error is. -/
@[simp] theorem GoError.detail_is (err : GoError) (detail : String) (target : Sentinel) :
    (err.detail detail).is target = err.is target := rfl

/-! ## Duration -/

/-- Source: `audioduration.go` ErrAudioDurationExceeded -/
def errAudioDurationExceeded : GoError :=
  ⟨"declared audio duration exceeds configured maximum", [.audioDurationExceeded]⟩

/-- Source: `audioduration.go` maxSaneDurationSeconds -/
def maxSaneDurationSeconds : Nat := 2 ^ 31

/-- The error for a duration that is no plausible number of seconds. -/
def implausibleDuration (text : FloatText) (secs : Float64) : GoError :=
  .new ("ffprobe: implausible duration " ++ text.general secs)

/-- The error for a duration that is no number. -/
def unparseableDuration (raw why : String) : GoError :=
  .new ("ffprobe: unparseable duration " ++ goQuote raw ++ ": " ++ why)

/-- Source: `audioduration.go` parseProbedDuration -/
def parseProbedDuration (text : FloatText) (raw : String) : Except GoError Int :=
  match text.parse (Strings.trimSpace raw) with
  | .error why => .error (unparseableDuration raw why)
  | .ok (.finite q) =>
    if q < 0 ∨ maxSaneDurationSeconds < q then .error (implausibleDuration text (.finite q))
    else .ok (nanoseconds q)
  | .ok secs => .error (implausibleDuration text secs)

/-- Source: `audioduration.go` ffprobeDurationArgs -/
def ffprobeDurationArgs (path : String) : List String :=
  ["-v", "error", "-show_entries", "format=duration", "-of", "default=noprint_wrappers=1:nokey=1",
    "-protocol_whitelist", "file,crypto", "file:" ++ path]

/-- Run ffprobe and parse what it prints. -/
def probe {α : Type} (args : List String) (read : String → Except GoError α) :
    Tool (Except GoError α) :=
  (Prog.mapError (GoError.wrap "ffprobe") (runCommand "ffprobe" args)).andThen fun out =>
    .ret (read out)

/-- Source: `audioduration.go` ProbeDuration -/
def probeDuration (text : FloatText) (path : String) : Tool (Except GoError Int) :=
  probe (ffprobeDurationArgs path) (parseProbedDuration text)

/-- The error for a source that is longer than the ceiling.

Source: `audioduration.go` enforceMaxDurationOf -/
def sourceTooLong (d max : Int) : GoError :=
  errAudioDurationExceeded.detail
    ("declared " ++ durationText d ++ " exceeds ceiling " ++ durationText max)

/-- Source: `audioduration.go` enforceMaxDurationOf -/
def enforceMaxDurationOf (d max : Int) : Except GoError Unit :=
  if max < d then .error (sourceTooLong d max) else .ok ()

/-- The ceiling on the duration fails for longer sources. -/
theorem enforceMaxDurationOf_error {d max : Int} {e : GoError}
    (h : enforceMaxDurationOf d max = .error e) : max < d ∧ e = sourceTooLong d max := by
  unfold enforceMaxDurationOf at h
  split at h
  · rename_i hlt
    exact ⟨hlt, (Except.error.inj h).symm⟩
  · exact absurd h (by simp)

/-- Source: `audioduration.go` EnforceMaxDuration -/
def enforceMaxDuration (text : FloatText) (path : String) (max : Int) : Tool (Except GoError Unit) :=
  (probeDuration text path).andThen fun d => .ret (enforceMaxDurationOf d max)

/-! ## Video streams -/

/-- Source: `avduration.go` ErrAVResolutionExceeded -/
def errAVResolutionExceeded : GoError :=
  ⟨"declared video resolution exceeds configured maximum", [.avResolutionExceeded]⟩

/-- Source: `avduration.go` ErrAVNoVideoStream -/
def errAVNoVideoStream : GoError := ⟨"ffprobe: no video stream found", [.avNoVideoStream]⟩

/-- Source: `avduration.go` avVideoStream -/
structure AVVideoStream where
  /-- The index in the container, which `-map 0:<index>` selects. -/
  index : Int
  codecName : String
  width : Int
  height : Int
  /-- The stream is an embedded picture. -/
  attachedPic : Bool
deriving DecidableEq, Repr

/-- A stream as ffprobe prints it.

Source: `avduration.go` avStreamProbe -/
structure StreamEntry where
  index : Int
  codecName : String
  width : Int
  height : Int
  attachedPic : Int

/-- A field of a struct that is decoded without `DisallowUnknownFields`. -/
structure Target (α : Type) where
  name : String
  decode : Value → α → Except GoError α

/-- The error for a value that does not fit into a field. -/
def unmarshalError (value field goType : String) : GoError :=
  .new ("json: cannot unmarshal " ++ value ++ " into Go struct field " ++ field ++
    " of type " ++ goType)

/-- A field whose path in the struct that is decoded ends in its name. -/
def Target.ofField {α : Type} (path : String) (f : Field α) : Target α where
  name := f.name
  decode v o := (f.assign v o).mapError fun value => unmarshalError value (path ++ f.name) f.goType

/-- The target of a key: by its name, else by its folded name. -/
def findTarget {α : Type} (targets : List (Target α)) (key : String) : Option (Target α) :=
  (targets.find? fun t => t.name = key).or (targets.find? fun t => foldName t.name = foldName key)

/-- Decode a value into a struct; an unknown key is skipped, and so is null. -/
def decodeInto {α : Type} (targets : List (Target α)) (mismatch : String → GoError) :
    Value → α → Except GoError α
  | .null, o => .ok o
  | .object ms, o =>
    ms.foldlM (fun o m =>
      match findTarget targets m.1 with
      | none => .ok o
      | some t => t.decode m.2 o) o
  | v, _ => .error (mismatch (describe v))

/-- The Go type of the field disposition. -/
def dispositionType : String :=
  "struct \x7b AttachedPic int \"json:\\\"attached_pic\\\"\" \x7d"

/-- The Go type of an element of the field streams. -/
def streamType : String :=
  "struct \x7b Index int \"json:\\\"index\\\"\"; CodecName string \"json:\\\"codec_name\\\"\"; " ++
    "Width int \"json:\\\"width\\\"\"; Height int \"json:\\\"height\\\"\"; Disposition " ++
    dispositionType ++ " \"json:\\\"disposition\\\"\" \x7d"

/-- The fields of an element of the field streams. -/
def streamTargets : List (Target StreamEntry) :=
  [.ofField ".streams." (intField "index" fun n o => { o with index := n }),
    .ofField ".streams." (stringField "codec_name" fun s o => { o with codecName := s }),
    .ofField ".streams." (intField "width" fun n o => { o with width := n }),
    .ofField ".streams." (intField "height" fun n o => { o with height := n }),
    { name := "disposition"
      decode := decodeInto
        [.ofField ".streams.disposition."
          (intField "attached_pic" fun n o => { o with attachedPic := n })]
        fun value => unmarshalError value ".streams.disposition" dispositionType }]

/-- An element of the field streams, from its zero value. -/
def decodeStream (v : Value) : Except GoError StreamEntry :=
  decodeInto streamTargets (fun value => unmarshalError value ".streams" streamType) v ⟨0, "", 0, 0, 0⟩

/-- The field streams. -/
def streamsTarget : Target (List StreamEntry) where
  name := "streams"
  decode v _ :=
    match v with
    | .null => .ok []
    | .array vs => vs.mapM decodeStream
    | v => .error (unmarshalError (describe v) "avStreamProbe.streams" ("[]" ++ streamType))

/-- `json.Unmarshal` into an avStreamProbe. Which syntax error is reported is left out. -/
def unmarshalStreams (out : String) : Except GoError (List StreamEntry) :=
  match parse out with
  | none => .error (.new "invalid JSON")
  | some v =>
    decodeInto [streamsTarget] (fun value => .new
      ("json: cannot unmarshal " ++ value ++ " into Go value of type convert.avStreamProbe")) v []

/-- Source: `avduration.go` ffprobeStreamArgs -/
def ffprobeStreamArgs (path : String) : List String :=
  ["-v", "error", "-select_streams", "v",
    "-show_entries", "stream=index,codec_name,width,height:stream_disposition=attached_pic",
    "-of", "json", "-protocol_whitelist", "file,crypto", "file:" ++ path]

/-- The error for a size that is not positive. -/
def implausibleResolution (width height : Int) : GoError :=
  .new ("ffprobe: implausible resolution " ++ toString width ++ "x" ++ toString height)

/-- A stream with a plausible size. -/
def checkStream (s : StreamEntry) : Except GoError AVVideoStream :=
  if s.width ≤ 0 ∨ s.height ≤ 0 then .error (implausibleResolution s.width s.height)
  else .ok ⟨s.index, s.codecName, s.width, s.height, s.attachedPic = 1⟩

/-- The error for an answer that is not the JSON that was asked for. -/
def unparseableStreams (err : GoError) : GoError := err.wrap "ffprobe: unparseable stream probe output"

/-- The parse of the probe of the video streams. -/
def readVideoStreams (out : String) : Except GoError (List AVVideoStream) :=
  match unmarshalStreams out with
  | .error err => .error (unparseableStreams err)
  | .ok [] => .error errAVNoVideoStream
  | .ok entries => entries.mapM checkStream

/-- Source: `avduration.go` probeVideoStreams -/
def probeVideoStreams (path : String) : Tool (Except GoError (List AVVideoStream)) :=
  probe (ffprobeStreamArgs path) readVideoStreams

/-- The product of width and height as an `int` of 64 bits.

Source: `avduration.go` avPrimaryVideoStream -/
def AVVideoStream.area64 (s : AVVideoStream) : Int := (s.width * s.height).bmod (2 ^ 64)

/-- The stream that has been found, or a later one with a greater product. -/
def larger (best : Option AVVideoStream) (s : AVVideoStream) : Option AVVideoStream :=
  match best with
  | none => some s
  | some b => if b.area64 < s.area64 then some s else some b

/-- Source: `avduration.go` avPrimaryVideoStream -/
def avPrimaryVideoStream (streams : List AVVideoStream) : Option AVVideoStream :=
  match (streams.filter fun s => !s.attachedPic).foldl larger none with
  | some s => some s
  | none => streams.foldl larger none

/-- Source: `avduration.go` avMaxVideoHeight -/
def avMaxVideoHeight (streams : List AVVideoStream) : Int :=
  streams.foldl (fun m s => if m < s.height then s.height else m) 0

/-- The error for a source that is too high.

Source: `avduration.go` enforceMaxResolutionOf -/
def resolutionExceeded (height max : Int) : GoError :=
  errAVResolutionExceeded.detail
    ("declared height " ++ toString height ++ " exceeds ceiling " ++ toString max)

/-- Source: `avduration.go` enforceMaxResolutionOf -/
def enforceMaxResolutionOf (streams : List AVVideoStream) (maxHeight : Int) : Except GoError Unit :=
  if maxHeight < avMaxVideoHeight streams then
    .error (resolutionExceeded (avMaxVideoHeight streams) maxHeight)
  else .ok ()

/-! ## The audio codec -/

/-- Source: `av.go` ffprobeAudioCodecArgs -/
def ffprobeAudioCodecArgs (path : String) : List String :=
  ["-v", "error", "-select_streams", "a:0", "-show_entries", "stream=codec_name", "-of", "csv=p=0",
    "-protocol_whitelist", "file,crypto", "file:" ++ path]

/-- Source: `av.go` probeAudioCodec -/
def probeAudioCodec (path : String) : Tool (Except GoError String) :=
  probe (ffprobeAudioCodecArgs path) fun out => .ok (Strings.trimSpace out)

/-! ## What a probe does -/

/-- A probe runs ffprobe once; its result is read from the output, or it is the error of the run. -/
theorem probe_always {α : Type} (args : List String) (read : String → Except GoError α) :
    (probe args read).Always fun tr r =>
      ∃ answer : Except RunFailure String, tr = [⟨.run "ffprobe" args, answer⟩] ∧
        r = match answer with
          | .error f => .error ((f.err "ffprobe").wrap "ffprobe")
          | .ok out => read out := by
  intro answer
  rcases answer with f | out
  · exact ⟨.error f, rfl, rfl⟩
  · exact ⟨.ok out, rfl, rfl⟩

/-- How the probe of a duration fails. -/
inductive DurationFailure
  | run (f : RunFailure)
  /-- The answer is no number. -/
  | unparseable (raw why : String)
  /-- The answer is no plausible number of seconds. -/
  | outOfRange (secs : Float64)

/-- The error that the failure is reported as. -/
def DurationFailure.err (text : FloatText) : DurationFailure → GoError
  | .run f => (f.err "ffprobe").wrap "ffprobe"
  | .unparseable raw why => unparseableDuration raw why
  | .outOfRange secs => implausibleDuration text secs

/-- The answer of ffprobe that the failure is seen from. -/
def DurationFailure.Shown (text : FloatText) (answer : Except RunFailure String) :
    DurationFailure → Prop
  | .run f => answer = .error f
  | .unparseable raw why => answer = .ok raw ∧ text.parse (Strings.trimSpace raw) = .error why
  | .outOfRange secs => ∃ raw, answer = .ok raw ∧ text.parse (Strings.trimSpace raw) = .ok secs ∧
      ∀ q : Rat, secs = .finite q → q < 0 ∨ maxSaneDurationSeconds < q

/-- How a duration is not read. -/
theorem parseProbedDuration_error {text : FloatText} {raw : String} {e : GoError}
    (h : parseProbedDuration text raw = .error e) :
    ∃ f : DurationFailure, f.Shown text (.ok raw) ∧ e = f.err text := by
  unfold parseProbedDuration at h
  split at h
  · rename_i why hparse
    obtain rfl := Except.error.inj h
    exact ⟨.unparseable raw why, ⟨rfl, hparse⟩, rfl⟩
  · rename_i q hparse
    split at h
    · rename_i hq
      obtain rfl := Except.error.inj h
      refine ⟨.outOfRange (.finite q), ⟨raw, rfl, hparse, ?_⟩, rfl⟩
      intro q' heq
      rw [← Float64.finite.inj heq]
      exact hq
    · exact absurd h (by simp)
  · rename_i secs hfinite hparse
    obtain rfl := Except.error.inj h
    exact ⟨.outOfRange secs, ⟨raw, rfl, hparse, fun q heq => absurd heq (hfinite q)⟩, rfl⟩

/-- The probe of a duration runs ffprobe once: it fails as its answer shows, or it reads the answer. -/
theorem probeDuration_always (text : FloatText) (path : String) :
    (probeDuration text path).Always fun tr r =>
      ∃ answer : Except RunFailure String, tr = [⟨.run "ffprobe" (ffprobeDurationArgs path), answer⟩] ∧
        (∀ e, r = .error e → ∃ f : DurationFailure, f.Shown text answer ∧ e = f.err text) ∧
        ∀ d, r = .ok d → ∃ raw, answer = .ok raw ∧ parseProbedDuration text raw = .ok d := by
  apply (probe_always _ _).mono
  rintro tr r ⟨answer, rfl, rfl⟩
  refine ⟨answer, rfl, ?_⟩
  rcases answer with f | raw
  · refine ⟨?_, by simp⟩
    intro e he
    obtain rfl := Except.error.inj he
    exact ⟨.run f, rfl, rfl⟩
  · exact ⟨fun e he => parseProbedDuration_error he, fun d hd => ⟨raw, rfl, hd⟩⟩

/-! ## The primary stream -/

/-- The larger stream is the first one of the larger area. -/
theorem larger_eq : larger = keepMax AVVideoStream.area64 := by
  funext best s
  rcases best with _ | b
  · rfl
  · rfl

/-- The selection finds the first stream with the greatest product. -/
theorem foldl_larger_eq_some {streams : List AVVideoStream} {m : AVVideoStream} :
    streams.foldl larger none = some m ↔ FirstMax AVVideoStream.area64 streams m := by
  rw [larger_eq]
  exact foldl_keepMax_eq_some

/-- The primary stream is one of the streams. -/
theorem avPrimaryVideoStream_mem {streams : List AVVideoStream} {m : AVVideoStream}
    (h : avPrimaryVideoStream streams = some m) : m ∈ streams := by
  unfold avPrimaryVideoStream at h
  split at h
  · rename_i s hs
    obtain rfl : s = m := Option.some.inj h
    exact (List.mem_filter.mp (foldl_larger_eq_some.mp hs).mem).1
  · exact (foldl_larger_eq_some.mp h).mem

/-- No stream is higher than the greatest height. -/
theorem height_le_avMaxVideoHeight {streams : List AVVideoStream} {s : AVVideoStream}
    (hs : s ∈ streams) : s.height ≤ avMaxVideoHeight streams := by
  have hfold : ∀ (streams : List AVVideoStream) (m : Int),
      m ≤ streams.foldl (fun m s => if m < s.height then s.height else m) m ∧
        ∀ s ∈ streams, s.height ≤
          streams.foldl (fun m s => if m < s.height then s.height else m) m := by
    intro streams
    induction streams with
    | nil => simp
    | cons t streams ih =>
      intro m
      have hstep : m ≤ (if m < t.height then t.height else m) ∧
          t.height ≤ (if m < t.height then t.height else m) := by
        split <;> omega
      obtain ⟨hle, hall⟩ := ih (if m < t.height then t.height else m)
      rw [List.foldl_cons]
      refine ⟨hstep.1.trans hle, ?_⟩
      intro s hs
      rcases List.mem_cons.mp hs with rfl | hs
      · exact hstep.2.trans hle
      · exact hall s hs
  exact (hfold streams 0).2 s hs

end OctoConv
