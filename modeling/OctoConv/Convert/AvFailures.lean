import OctoConv.Convert.Av

/-!
# How a conversion of the av engine fails

A conversion fails at its options, in one of the probes, at one of the guards, in its run of ffmpeg,
or at the check of the output. Each failure has an error of its own, and what ffprobe, ffmpeg or the
file system has answered last shows which it was.

Source: `internal/convert/av.go`, `internal/convert/avduration.go`, `internal/convert/avdiskguard.go`.

## Main results

* `avConvert_fails` — a conversion that fails, fails in one of the ways of `AVFailure`, and shows it.
-/

namespace OctoConv

open Conc
open Conc.JsonText (Value)

/-! ## The failures -/

/-- The three pipelines. -/
inductive AVStage
  | transcode
  | audioExtract
  | thumbnail
deriving DecidableEq

/-- The error that a failure of ffmpeg is joined to. -/
def AVStage.failed : AVStage → GoError
  | transcode => errAVTranscodeFailed
  | audioExtract => errAVAudioExtractFailed
  | thumbnail => errAVThumbnailFailed

/-- The pipeline of a target.

Source: `av.go` Convert -/
def avStageOf (target : String) : AVStage :=
  if target ∈ avTranscodeTargets then .transcode
  else if target ∈ avAudioExtractTargets then .audioExtract
  else .thumbnail

/-- The error of the pipeline is that of its target. -/
theorem avStageError_eq (target : String) : avStageError target = (avStageOf target).failed := by
  unfold avStageError avStageOf
  split
  · rfl
  · split <;> rfl

/-- How a conversion fails. -/
inductive AVFailure
  /-- The options are not those of the engine. -/
  | options (err : GoError)
  /-- The target is not one of the converter's. -/
  | target (target : String)
  /-- A run of ffprobe has failed. -/
  | probe (f : RunFailure)
  | unparseableDuration (raw why : String)
  | implausibleDuration (secs : Float64)
  | unparseableStreams (err : GoError)
  | noVideoStream
  | implausibleResolution (width height : Int)
  | durationExceeded (d max : Int)
  | resolutionExceeded (height max : Int)
  | statInput (why : String)
  | statfs (dir why : String)
  | insufficientDisk (free : Nat) (size : Int)
  | reencodeBound (width height : Int)
  | timecodeOutOfRange (timecode seconds : Rat)
  | ffmpeg (stage : AVStage) (f : RunFailure)
  /-- The output is not there, or cannot be opened. -/
  | outputMissing (why : String)
  | outputEmpty
  /-- A thumbnail that cannot be read. -/
  | unreadable (target why : String)
  /-- A thumbnail in another format. -/
  | wrongFormat (target detected : String)

namespace AVFailure

/-- The error of the failure, as `Convert` returns it. -/
def convertErr (host : AVHost) : AVFailure → GoError
  | options e => e.wrap "av"
  | target t => .new ("av: unsupported target format " ++ goQuote t)
  | probe f => ((f.err "ffprobe").wrap "ffprobe").wrap "av"
  | unparseableDuration raw why => (OctoConv.unparseableDuration raw why).wrap "av"
  | implausibleDuration secs => (OctoConv.implausibleDuration host.text secs).wrap "av"
  | unparseableStreams e => (OctoConv.unparseableStreams e).wrap "av"
  | noVideoStream => errAVNoVideoStream.wrap "av"
  | implausibleResolution w h => (OctoConv.implausibleResolution w h).wrap "av"
  | durationExceeded d max => (sourceTooLong d max).wrap "av"
  | resolutionExceeded height max => (OctoConv.resolutionExceeded height max).wrap "av"
  | statInput why => (GoError.new why).wrap "av"
  | statfs dir why => (GoError.new ("av: statfs " ++ goQuote dir ++ ": " ++ why)).wrap "av"
  | insufficientDisk free size => (OctoConv.insufficientDisk host free size).wrap "av"
  | reencodeBound w h => (reencodeExceeded w h).wrap "av"
  | timecodeOutOfRange t s => OctoConv.timecodeOutOfRange host.text t s
  | ffmpeg stage f => stage.failed.join (f.err "ffmpeg")
  | outputMissing why => errAVOutputMissingOrEmpty.detail why
  | outputEmpty => errAVOutputMissingOrEmpty
  | unreadable t why => .new ("av: thumbnail not a valid " ++ t ++ ": " ++ why)
  | wrongFormat t detected => OctoConv.wrongFormat t detected

end AVFailure

/-! ## What shows a failure -/

/-- A conversion: the converter with its ceilings, and what it is called with. -/
structure AVCall where
  host : AVHost
  maxDuration : Int
  maxHeight : Int
  inPath : String
  outPath : String
  opts : Opts

namespace AVCall

/-- The format that is asked for. -/
def target (c : AVCall) : String := normalizeFormat (UnixPath.ext c.outPath)

/-- The conversion. -/
def convert (c : AVCall) : Tool (Except GoError Unit) :=
  avConvert c.host c.maxDuration c.maxHeight c.inPath c.outPath c.opts

/-- The last answer of a trace. -/
def Last (tr : ToolTrace) (call : ToolCall) (answer : call.Result) : Prop := [⟨call, answer⟩] <:+ tr

end AVCall

open AVCall (Last)

/-- What a failed conversion shows: the answer that it has ended with, and what was read from it, or
what was probed before. -/
def AVFailure.Shown (c : AVCall) (tr : ToolTrace) : AVFailure → Prop
  | options e => avOptsFromMap c.host.codec c.opts = .error e
  | target t => t = c.target ∧ t ∉ avTargetFormats
  | probe f => ∃ args, Last tr (.run "ffprobe" args) (.error f)
  | unparseableDuration raw why =>
    Last tr (.run "ffprobe" (ffprobeDurationArgs c.inPath)) (.ok raw) ∧
      (DurationFailure.unparseable raw why).Shown c.host.text (.ok raw)
  | implausibleDuration secs =>
    ∃ raw, Last tr (.run "ffprobe" (ffprobeDurationArgs c.inPath)) (.ok raw) ∧
      (DurationFailure.outOfRange secs).Shown c.host.text (.ok raw)
  | unparseableStreams e =>
    ∃ out, Last tr (.run "ffprobe" (ffprobeStreamArgs c.inPath)) (.ok out) ∧
      unmarshalStreams out = .error e
  | noVideoStream =>
    ∃ out, Last tr (.run "ffprobe" (ffprobeStreamArgs c.inPath)) (.ok out) ∧
      unmarshalStreams out = .ok []
  | implausibleResolution w h =>
    ∃ out entries, Last tr (.run "ffprobe" (ffprobeStreamArgs c.inPath)) (.ok out) ∧
      unmarshalStreams out = .ok entries ∧
      ∃ s ∈ entries, s.width = w ∧ s.height = h ∧ (w ≤ 0 ∨ h ≤ 0)
  | durationExceeded d max => max = ceilingOr c.maxDuration avMaxSourceDuration ∧ max < d ∧
      ∃ src, Probed c.host.text c.inPath tr src ∧ src.duration = d
  | resolutionExceeded height max => max = ceilingOr c.maxHeight avMaxSourceResolutionHeight ∧
      max < height ∧
      ∃ src, Probed c.host.text c.inPath tr src ∧ avMaxVideoHeight src.videoStreams = height
  | statInput why => Last tr (.stat c.inPath) (.error why)
  | statfs dir why => dir = UnixPath.dir c.inPath ∧ Last tr (.statfs dir) (.error why)
  | insufficientDisk free size => free < neededBytes c.host size ∧
      ∃ bavail bsize : Nat, Last tr (.statfs (UnixPath.dir c.inPath)) (.ok (bavail, bsize)) ∧
        free = bavail * bsize % 2 ^ 64
  | reencodeBound w h => avStageOf c.target = .transcode ∧
      (avMaxReencodeSourceHeight < h ∨ avMaxReencodeSourceWidth < w) ∧
      ∃ src, Probed c.host.text c.inPath tr src ∧ src.primary.width = w ∧ src.primary.height = h
  | timecodeOutOfRange t s => avStageOf c.target = .thumbnail ∧ s ≤ t ∧
      ∃ src, Probed c.host.text c.inPath tr src ∧ durationSeconds src.duration = s
  | ffmpeg stage f => stage = avStageOf c.target ∧ ∃ args, Last tr (.run "ffmpeg" args) (.error f)
  | outputMissing why => Last tr (.stat c.outPath) (.error why) ∨
      Last tr (.openFile c.outPath) (.error why)
  | outputEmpty => Last tr (.stat c.outPath) (.ok 0)
  | unreadable t why => t = c.target ∧ t ∈ avThumbnailExtractTargets ∧
      ∃ f : OpenedFile, Last tr (.openFile c.outPath) (.ok f) ∧ detectedFormat f = none ∧
        f.readError = why
  | wrongFormat t detected => t = c.target ∧ t ∈ avThumbnailExtractTargets ∧ detected ≠ t ∧
      ∃ f : OpenedFile, Last tr (.openFile c.outPath) (.ok f) ∧ detectedFormat f = some detected

/-- An error of a part of the conversion is, behind a context, the one of a failure that the trace
shows. -/
def AVShows (c : AVCall) (context : GoError → GoError) (tr : ToolTrace) (e : GoError) : Prop :=
  ∃ f : AVFailure, f.Shown c tr ∧ context e = f.convertErr c.host

variable {c : AVCall}

/-- What is shown behind any trace. -/
def AVShowsBehind (c : AVCall) (context : GoError → GoError) (tr : ToolTrace) (e : GoError) : Prop :=
  ∀ before, AVShows c context (before ++ tr) e

/-- What a run shows behind others it shows with them. -/
theorem AVShowsBehind.prepend {context : GoError → GoError} (before tr : ToolTrace) (e : GoError)
    (h : AVShowsBehind c context tr e) : AVShowsBehind c context (before ++ tr) e := by
  intro before'
  rw [← List.append_assoc]
  exact h (before' ++ before)

/-! ## The probes -/

/-- How the probe of the duration fails. -/
theorem probeDuration_fails :
    (probeDuration c.host.text c.inPath).Fails (AVShowsBehind c (.wrap "av")) := by
  apply (probeDuration_always c.host.text c.inPath).mono
  rintro tr r ⟨answer, rfl, herr, -⟩ e he before
  obtain ⟨f, hf, rfl⟩ := herr e he
  rcases f with f | ⟨raw, why⟩ | secs
  · obtain rfl := hf
    exact ⟨.probe f, ⟨_, List.suffix_append _ _⟩, rfl⟩
  · obtain ⟨rfl, hread⟩ := hf
    exact ⟨.unparseableDuration raw why, ⟨List.suffix_append _ _, rfl, hread⟩, rfl⟩
  · obtain ⟨raw, rfl, hread⟩ := hf
    exact ⟨.implausibleDuration secs, ⟨raw, List.suffix_append _ _, raw, rfl, hread⟩, rfl⟩

/-- The streams are rejected for the first one without a plausible size. -/
theorem mapM_checkStream_error {entries : List StreamEntry} {e : GoError}
    (h : entries.mapM checkStream = .error e) :
    ∃ s ∈ entries, (s.width ≤ 0 ∨ s.height ≤ 0) ∧ e = implausibleResolution s.width s.height := by
  induction entries with
  | nil => exact absurd h (by simp [pure, Except.pure])
  | cons s entries ih =>
    rw [List.mapM_cons] at h
    by_cases hs : s.width ≤ 0 ∨ s.height ≤ 0
    · rw [show checkStream s = .error (implausibleResolution s.width s.height) from if_pos hs] at h
      exact ⟨s, List.mem_cons_self, hs, (Except.error.inj h).symm⟩
    · rw [show checkStream s = .ok ⟨s.index, s.codecName, s.width, s.height, s.attachedPic = 1⟩ from
        if_neg hs] at h
      rcases hrest : entries.mapM checkStream with e' | streams
      · rw [hrest] at h
        obtain ⟨s', hmem, hbad⟩ := ih (hrest.trans h)
        exact ⟨s', List.mem_cons_of_mem s hmem, hbad⟩
      · rw [hrest] at h
        exact absurd h (by simp [bind, Except.bind, pure, Except.pure])

/-- How the answer about the streams is rejected. -/
theorem readVideoStreams_error {out : String} {e : GoError} (h : readVideoStreams out = .error e) :
    (∃ err, unmarshalStreams out = .error err ∧ e = unparseableStreams err) ∨
      (unmarshalStreams out = .ok [] ∧ e = errAVNoVideoStream) ∨
      ∃ entries, unmarshalStreams out = .ok entries ∧
        ∃ s ∈ entries, (s.width ≤ 0 ∨ s.height ≤ 0) ∧ e = implausibleResolution s.width s.height := by
  unfold readVideoStreams at h
  rcases hread : unmarshalStreams out with err | (_ | ⟨s, entries⟩)
  · rw [hread] at h
    exact .inl ⟨err, rfl, (Except.error.inj h).symm⟩
  · rw [hread] at h
    exact .inr (.inl ⟨rfl, (Except.error.inj h).symm⟩)
  · rw [hread] at h
    exact .inr (.inr ⟨s :: entries, rfl, mapM_checkStream_error h⟩)

/-- Streams that were read and checked are not none at all. -/
theorem readVideoStreams_ne_nil {out : String} : readVideoStreams out ≠ .ok [] := by
  unfold readVideoStreams
  rcases unmarshalStreams out with err | (_ | ⟨s, entries⟩)
  · simp
  · simp
  · dsimp only
    rw [List.mapM_cons]
    rcases checkStream s with e | stream
    · simp [bind, Except.bind]
    · rcases entries.mapM checkStream with e | streams
      · simp [bind, Except.bind]
      · simp [bind, Except.bind, pure, Except.pure]

/-- How the probe of the video streams fails. -/
theorem probeVideoStreams_fails :
    (probeVideoStreams c.inPath).Fails (AVShowsBehind c (.wrap "av")) := by
  apply (probe_always _ _).mono
  rintro tr r ⟨answer, rfl, hr⟩ e he before
  rw [he] at hr
  rcases answer with f | out
  · obtain rfl := Except.error.inj hr
    exact ⟨.probe f, ⟨_, List.suffix_append _ _⟩, rfl⟩
  have hlast : Last (before ++ [⟨.run "ffprobe" (ffprobeStreamArgs c.inPath), .ok out⟩])
      (.run "ffprobe" (ffprobeStreamArgs c.inPath)) (.ok out) := List.suffix_append _ _
  rcases readVideoStreams_error hr.symm with ⟨err, hread, rfl⟩ | ⟨hread, rfl⟩ |
    ⟨entries, hread, s, hmem, hbad, rfl⟩
  · exact ⟨.unparseableStreams err, ⟨out, hlast, hread⟩, rfl⟩
  · exact ⟨.noVideoStream, ⟨out, hlast, hread⟩, rfl⟩
  · exact ⟨.implausibleResolution s.width s.height,
      ⟨out, entries, hlast, hread, s, hmem, rfl, rfl, hbad⟩, rfl⟩

/-- How the probe of the audio codec fails. -/
theorem probeAudioCodec_fails : (probeAudioCodec c.inPath).Fails (AVShowsBehind c (.wrap "av")) := by
  apply (probe_always _ _).mono
  rintro tr r ⟨answer, rfl, hr⟩ e he before
  rw [he] at hr
  rcases answer with f | out
  · obtain rfl := Except.error.inj hr
    exact ⟨.probe f, ⟨_, List.suffix_append _ _⟩, rfl⟩
  · exact absurd hr (by simp)

/-- Of any streams one is primary. -/
theorem avPrimaryVideoStream_ne_none {streams : List AVVideoStream} (h : streams ≠ []) :
    avPrimaryVideoStream streams ≠ none := by
  rcases streams with _ | ⟨s, streams⟩
  · exact absurd rfl h
  obtain ⟨m, hm, -⟩ := foldl_keepMax_some AVVideoStream.area64 streams s
  unfold avPrimaryVideoStream
  split
  · simp
  · rw [larger_eq, List.foldl_cons, keepMax, hm]
    simp

/-- The probe stage. -/
theorem avProbeSource_fails :
    (avProbeSource c.host.text c.inPath).Fails (AVShowsBehind c (.wrap "av")) := by
  apply probeDuration_fails.andThen AVShowsBehind.prepend
  intro duration
  apply Prog.Always.andThen ((probe_always _ _).and probeVideoStreams_fails)
  · rintro tr e ⟨-, herr⟩ e' he
    obtain rfl := Except.error.inj he
    exact herr e rfl
  rintro tr streams ⟨⟨answer, rfl, hread⟩, -⟩
  have hne : streams ≠ [] := by
    rintro rfl
    rcases answer with f | out
    · exact absurd hread (by simp)
    · exact readVideoStreams_ne_nil hread.symm
  rcases hprimary : avPrimaryVideoStream streams with _ | primary
  · exact absurd hprimary (avPrimaryVideoStream_ne_none hne)
  have hrest : ((probeAudioCodec c.inPath).andThen fun audioCodec =>
      .ret (.ok ⟨duration, streams, primary, audioCodec⟩) : Tool (Except GoError AVSourceProbe)).Fails
      (AVShowsBehind c (.wrap "av")) := by
    apply probeAudioCodec_fails.andThen AVShowsBehind.prepend
    intro audioCodec e he
    exact absurd he (by simp)
  apply hrest.mono
  intro tr' r h e he
  exact (h e he).prepend _ tr' e

/-! ## The guards -/

/-- How the check of the disk fails. -/
theorem enforceMinFreeDisk_fails (size : Int) :
    (enforceMinFreeDisk c.host (UnixPath.dir c.inPath) size).Fails (AVShowsBehind c (.wrap "av")) := by
  rintro (why | ⟨bavail, bsize⟩)
  · intro e he before
    obtain rfl := Except.error.inj he
    exact ⟨.statfs (UnixPath.dir c.inPath) why, ⟨rfl, List.suffix_append _ _⟩, rfl⟩
  · have hdisk : (if bavail * bsize % 2 ^ 64 < neededBytes c.host size then
        .ret (.error (insufficientDisk c.host (bavail * bsize % 2 ^ 64) size)) else .ret (.ok ()) :
        Tool (Except GoError Unit)).Fails fun tr e => AVShowsBehind c (.wrap "av")
          (⟨.statfs (UnixPath.dir c.inPath), .ok (bavail, bsize)⟩ :: tr) e := by
      split
      · rename_i hlt
        apply Prog.Fails.error
        intro before
        exact ⟨.insufficientDisk _ size, ⟨hlt, bavail, bsize, List.suffix_append _ _, rfl⟩, rfl⟩
      · intro e he
        exact absurd he (by simp)
    exact hdisk

/-- The ceiling on the height fails for a source that is higher. -/
theorem enforceMaxResolutionOf_error {streams : List AVVideoStream} {max : Int} {e : GoError}
    (h : enforceMaxResolutionOf streams max = .error e) :
    max < avMaxVideoHeight streams ∧ e = resolutionExceeded (avMaxVideoHeight streams) max := by
  unfold enforceMaxResolutionOf at h
  split at h
  · rename_i hlt
    exact ⟨hlt, (Except.error.inj h).symm⟩
  · exact absurd h (by simp)

/-- The guard stage, behind the probes. -/
theorem avGuard_fails {before : ToolTrace} {src : AVSourceProbe}
    (hprobed : Probed c.host.text c.inPath before src) :
    (avGuard c.host (ceilingOr c.maxDuration avMaxSourceDuration)
      (ceilingOr c.maxHeight avMaxSourceResolutionHeight) c.inPath src).Fails
      fun tr e => AVShows c (.wrap "av") (before ++ tr) e := by
  unfold avGuard
  rcases hduration : enforceMaxDurationOf src.duration
    (ceilingOr c.maxDuration avMaxSourceDuration) with
    e | ⟨⟩
  · obtain ⟨hlt, rfl⟩ := enforceMaxDurationOf_error hduration
    exact Prog.Fails.error ⟨.durationExceeded _ _, ⟨rfl, hlt, src, hprobed.append, rfl⟩, rfl⟩
  rcases hheight : enforceMaxResolutionOf src.videoStreams
    (ceilingOr c.maxHeight avMaxSourceResolutionHeight) with e | ⟨⟩
  · obtain ⟨hlt, rfl⟩ := enforceMaxResolutionOf_error hheight
    exact Prog.Fails.error ⟨.resolutionExceeded _ _, ⟨rfl, hlt, src, hprobed.append, rfl⟩, rfl⟩
  have hstat : (Prog.mapError GoError.new (tool (.stat c.inPath))).Fails
      (AVShowsBehind c (.wrap "av")) := by
    rintro (why | size)
    · intro e he before
      obtain rfl := Except.error.inj he
      exact ⟨.statInput why, List.suffix_append _ _, rfl⟩
    · intro e he
      exact nomatch he
  apply (hstat.andThen AVShowsBehind.prepend enforceMinFreeDisk_fails).mono
  intro tr r h e he
  exact h e he before

/-! ## The run of ffmpeg and its output -/

/-- A failure that the last answer shows. -/
theorem avShowsBehind_last {call : ToolCall} {answer : call.Result} {context : GoError → GoError}
    {e : GoError} (f : AVFailure) (hf : ∀ tr, Last tr call answer → f.Shown c tr)
    (he : context e = f.convertErr c.host) : AVShowsBehind c context [⟨call, answer⟩] e :=
  fun before => ⟨f, hf _ (List.suffix_append before _), he⟩

/-- The check of the output. -/
theorem validateAVOutput_fails {t : String} (ht : t = c.target) :
    (validateAVOutput c.outPath t).Fails (AVShowsBehind c id) := by
  apply Prog.Fails.perform_bind
  rintro (why | size)
  · apply Prog.Fails.error
    exact avShowsBehind_last (.outputMissing why) (fun tr h => .inl h) rfl
  dsimp only
  split
  · rename_i hzero
    subst hzero
    apply Prog.Fails.error
    exact avShowsBehind_last .outputEmpty (fun tr h => h) rfl
  split
  · rename_i hthumb
    apply Prog.Fails.perform_bind
    rintro (why | f)
    · apply Prog.Fails.error
      apply AVShowsBehind.prepend [⟨.stat c.outPath, .ok size⟩]
      exact avShowsBehind_last (.outputMissing why) (fun tr h => .inr h) rfl
    dsimp only
    rcases hformat : detectedFormat f with _ | detected
    · apply Prog.Fails.error
      apply AVShowsBehind.prepend [⟨.stat c.outPath, .ok size⟩]
      exact avShowsBehind_last (.unreadable t f.readError)
        (fun tr h => ⟨ht, hthumb, f, h, hformat, rfl⟩) rfl
    dsimp only
    split
    · rename_i hne
      apply Prog.Fails.error
      apply AVShowsBehind.prepend [⟨.stat c.outPath, .ok size⟩]
      exact avShowsBehind_last (.wrongFormat t detected)
        (fun tr h => ⟨ht, hthumb, hne, f, h, hformat⟩) rfl
    · intro e he
      exact absurd he (by simp)
  · intro e he
    exact absurd he (by simp)

/-- The bound on what is encoded again fails for a larger source. -/
theorem enforceReencodeSourceBound_error {w h : Int} {e : GoError}
    (herr : enforceReencodeSourceBound w h = .error e) :
    (avMaxReencodeSourceHeight < h ∨ avMaxReencodeSourceWidth < w) ∧ e = reencodeExceeded w h := by
  unfold enforceReencodeSourceBound at herr
  split at herr
  · rename_i hbound
    exact ⟨hbound, (Except.error.inj herr).symm⟩
  · exact absurd herr (by simp)

variable {host : AVHost} {inPath outPath target : String} {o : AVOpts}
  {src : AVSourceProbe} {e : GoError}

/-- A transcode has no arguments for a source that is too large to be encoded again. -/
theorem avTranscodeArgs_error (ht : target ∈ avTranscodeTargets)
    (h : avTranscodeArgs host inPath outPath target o src = .error e) :
    (avMaxReencodeSourceHeight < src.primary.height ∨ avMaxReencodeSourceWidth < src.primary.width) ∧
      e = (reencodeExceeded src.primary.width src.primary.height).wrap "av" := by
  unfold avTranscodeArgs at h
  split at h
  · exact absurd h (by simp)
  rcases hbound : enforceReencodeSourceBound src.primary.width src.primary.height with err | ⟨⟩
  · rw [hbound] at h
    obtain ⟨hlt, rfl⟩ := enforceReencodeSourceBound_error hbound
    exact ⟨hlt, (Except.error.inj h).symm⟩
  · rw [hbound] at h
    simp only [avTranscodeTargets, List.mem_cons, List.not_mem_nil, or_false] at ht
    rcases ht with rfl | rfl
    · exact absurd h (by simp)
    · exact absurd h (by simp)

/-- An audio extraction has arguments. -/
theorem avExtractArgs_ne_error (ht : target ∈ avAudioExtractTargets) :
    avExtractArgs inPath outPath target src ≠ .error e := by
  simp only [avAudioExtractTargets, List.mem_cons, List.not_mem_nil, or_false] at ht
  unfold avExtractArgs extractAudioArgs
  rcases ht with rfl | rfl | rfl
  · simp
  · simp
  · by_cases hcopy : src.audioCodec = "aac" <;> simp [hcopy]

/-- A thumbnail has no arguments for a seek point that lies behind the source. -/
theorem avThumbnailArgs_error {text : FloatText} (ht : target ∈ avThumbnailExtractTargets)
    (h : avThumbnailArgs text inPath outPath target o src = .error e) :
    ∃ t, durationSeconds src.duration ≤ t ∧
      e = timecodeOutOfRange text t (durationSeconds src.duration) := by
  unfold avThumbnailArgs at h
  rcases htime : avTimecode text o src with err | t
  · rw [htime] at h
    obtain rfl := Except.error.inj h
    unfold avTimecode at htime
    dsimp only at htime
    rcases hasked : o.timecode with _ | t
    · rw [hasked] at htime
      exact absurd htime (by simp)
    · rw [hasked] at htime
      rcases ite_eq_iff.mp htime with ⟨hle, herr⟩ | ⟨-, herr⟩
      · exact ⟨t, hle, (Except.error.inj herr).symm⟩
      · exact absurd herr (by simp)
  · rw [htime] at h
    simp only [avThumbnailExtractTargets, List.mem_cons, List.not_mem_nil, or_false] at ht
    unfold thumbnailArgs at h
    rcases ht with rfl | rfl | rfl
    · exact absurd h (by simp)
    · exact absurd h (by simp)
    · exact absurd h (by simp)

/-- Why the arguments of a stage cannot be built. -/
theorem avArgs_error (ht : target ∈ avTargetFormats)
    (h : avArgs host inPath outPath target o src = .error e) :
    (avStageOf target = .transcode ∧ (avMaxReencodeSourceHeight < src.primary.height ∨
        avMaxReencodeSourceWidth < src.primary.width) ∧
      e = (reencodeExceeded src.primary.width src.primary.height).wrap "av") ∨
    (avStageOf target = .thumbnail ∧ ∃ t, durationSeconds src.duration ≤ t ∧
      e = timecodeOutOfRange host.text t (durationSeconds src.duration)) := by
  unfold avArgs at h
  unfold avStageOf
  by_cases htranscode : target ∈ avTranscodeTargets
  · rw [if_pos htranscode] at h ⊢
    exact .inl ⟨rfl, avTranscodeArgs_error htranscode h⟩
  rw [if_neg htranscode] at h ⊢
  by_cases haudio : target ∈ avAudioExtractTargets
  · rw [if_pos haudio] at h
    exact absurd h (avExtractArgs_ne_error haudio)
  rw [if_neg haudio] at h ⊢
  have hthumb : target ∈ avThumbnailExtractTargets := by
    unfold avTargetFormats at ht
    simp only [List.mem_append] at ht
    tauto
  exact .inr ⟨rfl, avThumbnailArgs_error hthumb h⟩

/-- The run of ffmpeg, behind the probes and the guards. -/
theorem runStage_fails {before : ToolTrace} (hprobed : Probed c.host.text c.inPath before src)
    (ht : target = c.target) (hmem : target ∈ avTargetFormats) :
    (runStage (avStageError target) (avArgs c.host c.inPath c.outPath target o src) c.outPath
      target).Fails fun tr e => AVShows c id (before ++ tr) e := by
  rcases hargs : avArgs c.host c.inPath c.outPath target o src with e | args
  · apply Prog.Fails.error
    rcases avArgs_error hmem hargs with ⟨hstage, hbound, rfl⟩ | ⟨hstage, t, hle, rfl⟩
    · exact ⟨.reencodeBound _ _, ⟨ht ▸ hstage, hbound, src, hprobed.append, rfl, rfl⟩, rfl⟩
    · exact ⟨.timecodeOutOfRange t _, ⟨ht ▸ hstage, hle, src, hprobed.append, rfl⟩, rfl⟩
  · have hffmpeg : (Prog.mapError (avStageError target).join (runCommand "ffmpeg" args)).Fails
        (AVShowsBehind c id) := by
      rintro (f | out)
      · intro e he
        obtain rfl := Except.error.inj he
        refine avShowsBehind_last (.ffmpeg (avStageOf target) f) (fun tr h => ⟨by rw [ht], args, h⟩) ?_
        rw [avStageError_eq]
        rfl
      · intro e he
        exact nomatch he
    apply (hffmpeg.andThen AVShowsBehind.prepend fun _ => validateAVOutput_fails ht).mono
    intro tr r h e he
    exact h e he before

/-- A conversion with parsed options to a format of the converter. -/
theorem avConvertTo_fails (ht : target = c.target) (hmem : target ∈ avTargetFormats) :
    (avConvertTo c.host c.maxDuration c.maxHeight c.inPath c.outPath target o).Fails
      (AVShows c id) := by
  have hprobe : (avProbeSource c.host.text c.inPath).Always fun tr r =>
      (∀ e, r = .error e → AVShows c (.wrap "av") tr e) ∧
        ∀ src, r = .ok src → Probed c.host.text c.inPath tr src := by
    apply (avProbeSource_fails.and (avProbeSource_always c.host.text c.inPath)).mono
    rintro tr r ⟨hfails, -, hprobed⟩
    exact ⟨fun e he => hfails e he [], hprobed⟩
  apply (hprobe.mapError (fun tr r => (∀ e, r = .error e → AVShows c id tr e) ∧
    ∀ src, r = .ok src → Probed c.host.text c.inPath tr src) ?_).andThen
  · rintro tr e ⟨hfails, -⟩ e' he
    obtain rfl := Except.error.inj he
    exact hfails e rfl
  · rintro tr src ⟨-, hprobed⟩
    have hguard : Prog.Fails (fun tr' e => AVShows c id (tr ++ tr') e)
        (Prog.mapError (GoError.wrap "av") (avGuard c.host (ceilingOr c.maxDuration avMaxSourceDuration)
          (ceilingOr c.maxHeight avMaxSourceResolutionHeight) c.inPath src)) :=
      (avGuard_fails (hprobed src rfl)).mapError fun tr' e h => h
    apply Prog.Always.andThen hguard
    · intro tr' e h e' he
      obtain rfl := Except.error.inj he
      exact h e rfl
    · intro tr' _ _
      rw [avPipeline_eq]
      apply (runStage_fails (hprobed src rfl).append ht hmem).mono
      intro tr'' r h e he
      rw [← List.append_assoc]
      exact h e he
  · rintro tr (e | src) ⟨hfails, hprobed⟩
    · refine ⟨?_, nofun⟩
      intro e' he
      obtain rfl := Except.error.inj he
      exact hfails e rfl
    · exact ⟨nofun, hprobed⟩

/-- **A conversion that fails**, fails in one of the ways of `AVFailure`, and shows it. -/
theorem avConvert_fails (c : AVCall) : c.convert.Fails (AVShows c id) := by
  rw [Prog.Fails, Prog.always_iff]
  intro tr r hrun e he
  unfold AVCall.convert avConvert at hrun
  rcases hopts : avOptsFromMap c.host.codec c.opts with err | o
  · rw [hopts] at hrun
    rcases hrun
    obtain rfl := Except.error.inj he
    exact ⟨.options err, hopts, rfl⟩
  rw [hopts] at hrun
  dsimp only at hrun
  split at hrun
  · rename_i hmem
    exact Prog.always_iff.mp (avConvertTo_fails rfl hmem) tr r hrun e he
  · rename_i hmem
    rcases hrun
    obtain rfl := Except.error.inj he
    exact ⟨.target c.target, ⟨rfl, hmem⟩, rfl⟩

/-! ## Errors that wrap nothing -/

section Plain

variable {α β ε : Type}

/-- A fold fails as one of its steps does. -/
theorem foldlM_error {f : β → α → Except ε β} {P : ε → Prop} (hf : ∀ b a e, f b a = .error e → P e)
    {l : List α} {b : β} {e : ε} (h : l.foldlM f b = .error e) : P e := by
  induction l generalizing b with
  | nil => exact absurd h (by simp [pure, Except.pure])
  | cons a l ih =>
    rw [List.foldlM_cons] at h
    rcases hstep : f b a with e' | b'
    · rw [hstep] at h
      obtain rfl := Except.error.inj h
      exact hf b a e' hstep
    · rw [hstep] at h
      exact ih h

/-- A list fails as one of its elements does. -/
theorem mapM_error {f : α → Except ε β} {P : ε → Prop} (hf : ∀ a e, f a = .error e → P e) {l : List α}
    {e : ε} (h : l.mapM f = .error e) : P e := by
  induction l with
  | nil => exact absurd h (by simp [pure, Except.pure])
  | cons a l ih =>
    rw [List.mapM_cons] at h
    rcases hfirst : f a with e' | b
    · rw [hfirst] at h
      obtain rfl := Except.error.inj h
      exact hf a e' hfirst
    rw [hfirst] at h
    rcases hrest : l.mapM f with e' | bs
    · rw [hrest] at h
      exact ih (hrest.trans h)
    · rw [hrest] at h
      exact absurd h (by simp [bind, Except.bind, pure, Except.pure])

/-- The errors of a member are plain. -/
theorem decodeMember_plain {struct : String} {fields : List (Field α)} {o : α} {m : String × Value}
    {e : GoError} (h : decodeMember struct fields o m = .error e) : e.chain = [] := by
  unfold decodeMember at h
  split at h
  · rw [← Except.error.inj h]
    rfl
  split at h
  · exact absurd h (by simp)
  · rw [← Except.error.inj h]
    rfl

/-- The errors of an object are plain. -/
theorem decodeStruct_plain {struct : String} {fields : List (Field α)} {zero : α} {raw : String}
    {e : GoError} (h : decodeStruct struct fields zero raw = .error e) : e.chain = [] := by
  unfold decodeStruct at h
  split at h
  · rw [← Except.error.inj h]
    rfl
  · exact absurd h (by simp)
  · exact foldlM_error (fun o m e he => decodeMember_plain he) h
  · rw [← Except.error.inj h]
    rfl

/-- The error for a duplicate key is plain. -/
theorem duplicateKey_plain {ms : List (String × Value)} {e : GoError} (h : duplicateKey ms = some e) :
    e.chain = [] := by
  unfold duplicateKey at h
  obtain ⟨k, -, rfl⟩ := Option.map_eq_some_iff.mp h
  rfl

/-- The errors of the strict check are plain. -/
theorem checkStrictObject_plain {raw : String} {e : GoError} (h : checkStrictObject raw = .error e) :
    e.chain = [] := by
  unfold checkStrictObject at h
  split at h
  · split at h
    · rename_i err hdup
      obtain rfl := Except.error.inj h
      exact duplicateKey_plain hdup
    · exact absurd h (by simp)
  · rw [← Except.error.inj h]
    rfl
  split at h
  · rename_i ms _
    rw [← Except.error.inj h]
    rcases hdup : duplicateKey ms with _ | err
    · rfl
    · exact duplicateKey_plain hdup
  · rw [← Except.error.inj h]
    rfl

/-- Options that are rejected are rejected with a text alone. -/
theorem optsFromMap_plain {schema : Schema α} (hcheck : ∀ o e, schema.check o = some e → e.chain = [])
    {codec : FloatCodec} {m : Opts} {e : GoError} (h : schema.optsFromMap codec m = .error e) :
    e.chain = [] := by
  unfold Schema.optsFromMap at h
  split at h
  · exact absurd h (by simp)
  unfold Schema.parseOpts at h
  split at h
  · rename_i err hstrict
    obtain rfl := Except.error.inj h
    exact checkStrictObject_plain hstrict
  split at h
  · rename_i err hdecode
    rw [← Except.error.inj h]
    exact (decodeStruct_plain hdecode : err.chain = [])
  split at h
  · rename_i err hc
    obtain rfl := Except.error.inj h
    exact hcheck _ _ hc
  · exact absurd h (by simp)

/-- The errors of the av options are plain. -/
theorem avOptsFromMap_plain {codec : FloatCodec} {m : Opts} {e : GoError}
    (h : avOptsFromMap codec m = .error e) : e.chain = [] := by
  refine optsFromMap_plain ?_ h
  intro o e hc
  simp only [avSchema] at hc
  split_ifs at hc
  · rw [← Option.some.inj hc]
    rfl
  · rw [← Option.some.inj hc]
    rfl
  · rw [← Option.some.inj hc]
    rfl

/-- Every error of a field that is decoded wraps nothing. -/
def PlainTarget (t : Target α) : Prop := ∀ v o e, t.decode v o = .error e → e.chain = []

/-- The errors of decoding into a struct are plain. -/
theorem decodeInto_plain {targets : List (Target α)} (ht : ∀ t ∈ targets, PlainTarget t)
    {mismatch : String → GoError} (hm : ∀ s, (mismatch s).chain = []) {v : Value} {o : α} {e : GoError}
    (h : decodeInto targets mismatch v o = .error e) : e.chain = [] := by
  unfold decodeInto at h
  split at h
  · exact absurd h (by simp)
  · refine foldlM_error (P := fun e => e.chain = []) ?_ h
    intro o m e he
    split at he
    · exact absurd he (by simp)
    · rename_i t hfind
      refine ht t ?_ _ _ e he
      rcases Option.or_eq_some_iff.mp hfind with hfind | ⟨-, hfind⟩
      · exact List.mem_of_find?_eq_some hfind
      · exact List.mem_of_find?_eq_some hfind
  · rw [← Except.error.inj h]
    exact hm _

/-- A field of the options is a plain target. -/
theorem plainTarget_ofField (path : String) (f : Field α) : PlainTarget (.ofField path f) := by
  intro v o e he
  unfold Target.ofField at he
  dsimp only at he
  rcases hassign : f.assign v o with value | o'
  · rw [hassign] at he
    rw [← Except.error.inj he]
    rfl
  · rw [hassign] at he
    exact nomatch he

/-- The errors of a stream are plain. -/
theorem decodeStream_plain {v : Value} {e : GoError} (h : decodeStream v = .error e) :
    e.chain = [] := by
  refine decodeInto_plain ?_ (fun _ => rfl) h
  intro t hmem
  simp only [streamTargets, List.mem_cons, List.not_mem_nil, or_false] at hmem
  rcases hmem with rfl | rfl | rfl | rfl | rfl
  · exact plainTarget_ofField _ _
  · exact plainTarget_ofField _ _
  · exact plainTarget_ofField _ _
  · exact plainTarget_ofField _ _
  · intro v o e he
    dsimp only at he
    refine decodeInto_plain ?_ (fun _ => rfl) he
    intro t ht
    obtain rfl := List.mem_singleton.mp ht
    exact plainTarget_ofField _ _

/-- The errors of the stream list are plain. -/
theorem unmarshalStreams_plain {out : String} {e : GoError} (h : unmarshalStreams out = .error e) :
    e.chain = [] := by
  unfold unmarshalStreams at h
  split at h
  · rw [← Except.error.inj h]
    rfl
  refine decodeInto_plain ?_ (fun _ => rfl) h
  intro t ht v o e he
  obtain rfl := List.mem_singleton.mp ht
  unfold streamsTarget at he
  dsimp only at he
  split at he
  · exact absurd he (by simp)
  · exact mapM_error (P := fun e => e.chain = []) (fun v e hv => decodeStream_plain hv) he
  · rw [← Except.error.inj he]
    rfl

end Plain

end OctoConv
