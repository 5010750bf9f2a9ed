import OctoConv.Worker.Ceilings
import OctoConv.Worker.Signatures

/-!
# The verdict on a failed attempt of the audio engine

An attempt fails at the guard, at one of the checks before the first stage, in one of the two stages, or
at the check of the output. Which of these are final is documented; the classifier finds it out from the
text of the error, which for some of them ends in what a subprocess has written.

Source: `internal/worker/worker.go`, `internal/convert/whisper.go`.

## Main results

* `audioAttempt_fails` — an attempt that fails, fails in one of the ways of `AudioFailure`.
* `audio_verdict_documented_iff` — the verdict is the documented one, unless a subprocess whose
  failure is passing has written a signature.
-/

namespace OctoConv.Worker

open Conc Scan

/-! ## How an attempt fails -/

/-- How an attempt of the audio engine fails. -/
inductive AudioFailure
  | guard (f : GuardFailure)
  /-- The options are not those of the engine. -/
  | options (err : GoError)
  /-- The target is not one of the converter's. -/
  | target (target : String)
  /-- Too little of the time of the attempt is left. -/
  | budget
  | ffmpeg (f : RunFailure)
  | whisper (f : RunFailure)
  | statOutput (why : String)
  | emptyOutput

namespace AudioFailure

/-- The error that `process` returns. -/
def err (text : FloatText) : AudioFailure → GoError
  | guard f => f.err text
  | options e => (e.wrap "audio").wrap "convert"
  | target t => (GoError.new ("audio: unsupported target format " ++ goQuote t)).wrap "convert"
  | budget => insufficientBudget.wrap "convert"
  | ffmpeg f => ((f.err "ffmpeg").wrap "audio: ffmpeg").wrap "convert"
  | whisper f => ((f.err "whisper-cli").wrap "audio: whisper-cli").wrap "convert"
  | statOutput why => ((GoError.new why).wrap "audio: stat output").wrap "convert"
  | emptyOutput => (GoError.new "audio: output is empty").wrap "convert"

/-- What a failed attempt shows: the answer that it has ended with, or what it was given. -/
def Shown (host : AudioHost) (max : Int) (inPath outPath : String) (opts : Opts) (tr : ToolTrace) :
    AudioFailure → Prop
  | guard f => ∃ answer : Except RunFailure String,
      [⟨.run "ffprobe" (ffprobeDurationArgs inPath), answer⟩] <:+ tr ∧ f.Shown host.text max answer
  | options e => audioOptsFromMap host.codec opts = .error e
  | target t => t = normalizeFormat (UnixPath.ext outPath) ∧ whisperOutputFlag t = []
  | budget => ∃ left : Int, [⟨.untilDeadline, some left⟩] <:+ tr ∧ left < selectMinFfmpegBudget inPath
  | ffmpeg f => [⟨.run "ffmpeg" (ffmpegNormalizeArgs inPath (normPath outPath)), .error f⟩] <:+ tr
  | whisper f => ∃ args, [⟨.run "whisper-cli" args, .error f⟩] <:+ tr
  | statOutput why => [⟨.stat outPath, .error why⟩] <:+ tr
  | emptyOutput => [⟨.stat outPath, .ok 0⟩] <:+ tr

/-- The documented verdict: the source or its conversion is at fault, or the circumstances are.

Source: `worker.go` isAudioTerminal, in its comment -/
def documented : AudioFailure → Option Bool
  | guard (.duration (.run (.start _))) => some false
  | guard (.duration (.run (.killed _))) => some false
  | guard (.duration (.run (.exit _ _))) => some true
  | guard (.duration (.unparseable _ _)) => some true
  | guard (.duration (.outOfRange _)) => some true
  | guard (.exceeded _ _) => some true
  | options _ => none
  | target _ => none
  | budget => some false
  | ffmpeg _ => some true
  | whisper _ => some false
  | statOutput _ => some true
  | emptyOutput => some true

/-- A failure that the classifier does not take for another one: no signature occurs in what is reported
about a start of ffprobe, or in what whisper-cli has left. -/
def Unmistakable : AudioFailure → Prop
  | guard (.duration (.run (.start why))) => ¬ Mentions audioSignatures ("ffprobe: " ++ why)
  | whisper (.start why) => ¬ Mentions audioSignatures why
  | whisper (.exit status stderr) => ¬ Mentions audioSignatures (status ++ ": " ++ stderr)
  | _ => True

end AudioFailure

/-- An attempt of the audio engine, from the download on.

Source: `worker.go` process -/
def audioAttempt (host : AudioHost) (max : Int) (inPath outPath : String) (opts : Opts) :
    Tool (Except GoError Unit) :=
  enforceAudioGuardBeforeConvert host.text .audio inPath max (audioConvert host inPath outPath opts)

variable {host : AudioHost} {max : Int} {inPath outPath : String} {opts : Opts}

/-- What the end of an attempt shows, the attempt shows. -/
theorem AudioFailure.Shown.prepend {f : AudioFailure} {tr : ToolTrace}
    (h : f.Shown host max inPath outPath opts tr) (before : ToolTrace) :
    f.Shown host max inPath outPath opts (before ++ tr) := by
  have hend : ∀ e : Prog.Event ToolCall ToolCall.Result, [e] <:+ tr → [e] <:+ before ++ tr :=
    fun e he => he.trans (List.suffix_append before tr)
  rcases f with f | e | t | _ | f | f | why | _
  · obtain ⟨answer, htr, hf⟩ := h
    exact ⟨answer, hend _ htr, hf⟩
  · exact h
  · exact h
  · obtain ⟨left, htr, hlt⟩ := h
    exact ⟨left, hend _ htr, hlt⟩
  · exact hend _ h
  · obtain ⟨args, htr⟩ := h
    exact ⟨args, hend _ htr⟩
  · exact hend _ h
  · exact hend _ h

/-- The error of a part of the attempt is, behind a context, the one of a failure that its trace
shows. -/
def Shows (host : AudioHost) (max : Int) (inPath outPath : String) (opts : Opts)
    (context : GoError → GoError) (tr : ToolTrace) (e : GoError) : Prop :=
  ∃ f : AudioFailure, f.Shown host max inPath outPath opts tr ∧ context e = f.err host.text

/-- What a run shows behind others it shows with them. -/
theorem Shows.prepend {context : GoError → GoError} (before tr : ToolTrace) (e : GoError)
    (h : Shows host max inPath outPath opts context tr e) :
    Shows host max inPath outPath opts context (before ++ tr) e := by
  obtain ⟨f, hf, he⟩ := h
  exact ⟨f, hf.prepend before, he⟩

/-- How the check of the time budget fails. -/
theorem budgetGuard_fails :
    (budgetGuard inPath).Fails (Shows host max inPath outPath opts (.wrap "convert")) := by
  rintro (_ | left)
  · intro e he
    exact absurd he (by simp)
  · intro e he
    dsimp only at he
    split at he
    · rename_i hlt
      obtain rfl := Except.error.inj he
      exact ⟨.budget, ⟨left, List.suffix_rfl, hlt⟩, rfl⟩
    · exact absurd he (by simp)

/-- A stage fails when its command does. -/
theorem stage_fails {name context : String} {args : List String}
    (toFailure : RunFailure → AudioFailure)
    (hshown : ∀ f, (toFailure f).Shown host max inPath outPath opts [⟨.run name args, .error f⟩])
    (herr : ∀ f : RunFailure, ((f.err name).wrap context).wrap "convert" =
      (toFailure f).err host.text) :
    (Prog.mapError (GoError.wrap context) (runCommand name args)).Fails
      (Shows host max inPath outPath opts (.wrap "convert")) := by
  rintro (f | out)
  · intro e he
    obtain rfl := Except.error.inj he
    exact ⟨toFailure f, hshown f, herr f⟩
  · intro e he
    exact nomatch he

/-- How the check of the output fails. -/
theorem validateAudioOutput_fails :
    (validateAudioOutput outPath).Fails (Shows host max inPath outPath opts (.wrap "convert")) := by
  rintro (why | size)
  · intro e he
    obtain rfl := Except.error.inj he
    exact ⟨.statOutput why, List.suffix_rfl, rfl⟩
  · intro e he
    have hzero : size = 0 ∧ e = .new "audio: output is empty" := by
      rcases ite_eq_iff.mp he with ⟨hzero, herr⟩ | ⟨-, herr⟩
      · exact ⟨hzero, (Except.error.inj herr).symm⟩
      · exact absurd herr (by simp)
    obtain ⟨rfl, rfl⟩ := hzero
    exact ⟨.emptyOutput, List.suffix_rfl, rfl⟩

/-- How the conversion to a known target fails. -/
theorem audioConvertTo_fails (outFlags : List String) (o : AudioOpts) :
    (audioConvertTo host inPath outPath outFlags o).Fails
      (Shows host max inPath outPath opts (.wrap "convert")) := by
  apply budgetGuard_fails.andThen Shows.prepend
  intro _
  apply (stage_fails .ffmpeg (fun f => List.suffix_rfl) fun f => rfl).andThen Shows.prepend
  intro _
  apply (stage_fails .whisper (fun f => ⟨_, List.suffix_rfl⟩) fun f => rfl).andThen Shows.prepend
  intro _
  exact validateAudioOutput_fails

/-- How the conversion fails. -/
theorem audioConvert_fails :
    (audioConvert host inPath outPath opts).Fails
      (Shows host max inPath outPath opts (.wrap "convert")) := by
  rw [Prog.Fails, Prog.always_iff]
  intro tr r hrun e he
  unfold audioConvert at hrun
  rcases hopts : audioOptsFromMap host.codec opts with err | o
  · rw [hopts] at hrun
    rcases hrun
    obtain rfl := Except.error.inj he
    exact ⟨.options err, hopts, rfl⟩
  rw [hopts] at hrun
  dsimp only at hrun
  split at hrun
  · rename_i hflags
    rcases hrun
    obtain rfl := Except.error.inj he
    exact ⟨.target _, ⟨rfl, hflags⟩, rfl⟩
  · exact Prog.always_iff.mp (audioConvertTo_fails _ o) tr r hrun e he

/-- **An attempt that fails**, fails in one of the ways of `AudioFailure`, and shows it. -/
theorem audioAttempt_fails :
    (audioAttempt host max inPath outPath opts).Fails (Shows host max inPath outPath opts id) := by
  have hguard : (enforceMaxDuration host.text inPath max).Fails
      (Shows host max inPath outPath opts id) := by
    apply (enforceMaxDuration_always host.text inPath max).mono
    rintro tr r ⟨answer, rfl, herr, -⟩ e he
    obtain ⟨f, hf, rfl⟩ := herr e he
    exact ⟨.guard f, ⟨answer, List.suffix_rfl, hf⟩, rfl⟩
  apply hguard.andThen Shows.prepend
  intro _
  exact audioConvert_fails.mapError fun tr e h => h

/-! ## What the classifier makes of it -/

/-- A text with a signature is final. -/
theorem audio_terminal_of_mentions {e : GoError} (h : Mentions audioSignatures e.text) :
    isAudioTerminal e = true := isAudioTerminal_iff.mpr (.inr (.inr h))

/-- A command that is killed is passing if the report mentions no signature. -/
theorem audio_passing_of_killed (cause : ContextEnd) (wrap : GoError → GoError)
    (hchain : ∀ e, (wrap e).chain = e.chain)
    (htext : ¬ Mentions audioSignatures (wrap cause.err).text) :
    isAudioTerminal (wrap cause.err) = false := by
  apply (Classifier.passing_iff (k := .audio) _).mpr htext
  rintro ⟨t, ht, hin⟩
  rw [GoError.is, hchain] at hin
  revert t
  rcases cause <;> decide

/-- A failure that is reported in a fixed context is passing if the report mentions no signature. -/
theorem audio_passing_of_report {e : GoError} (context report : String)
    (htext : e.text = context ++ report) (hchain : e.chain = [])
    (hcontext : ∀ p ∈ audioSignatures.map String.toList, Detached p (lower context)) :
    isAudioTerminal e = false ↔ ¬ Mentions audioSignatures report := by
  rw [← mentions_append hcontext, ← htext]
  exact Classifier.passing_iff (k := .audio) (Classifier.not_recognises_of_plain hchain)

/-- A failure whose text begins with a signature in its context is final. -/
theorem audio_final {e : GoError} (context report : String) (htext : e.text = context ++ report)
    (hcontext : Mentions audioSignatures context) (v : Bool) :
    some true = some v → isAudioTerminal e = v := by
  rintro ⟨⟩
  apply audio_terminal_of_mentions
  rw [htext]
  exact hcontext.append report

/-- A failure of the probe. -/
theorem duration_verdict_iff (text : FloatText) (f : DurationFailure) :
    (∀ v, (AudioFailure.guard (.duration f)).documented = some v → isAudioTerminal (f.err text) = v) ↔
      (AudioFailure.guard (.duration f)).Unmistakable := by
  rcases f with (why | cause | ⟨status, stderr⟩) | ⟨raw, why⟩ | secs
  · apply verdict_passing
    refine audio_passing_of_report "ffprobe: start " ("ffprobe: " ++ why) ?_ rfl (by decide +kernel)
    simp only [DurationFailure.err, RunFailure.err, GoError.wrap, GoError.new, String.append_assoc]
    rfl
  · have hkilled : isAudioTerminal ((cause.err.wrap "ffprobe killed").wrap "ffprobe") = false := by
      apply audio_passing_of_killed cause (fun e => (e.wrap "ffprobe killed").wrap "ffprobe")
      · exact fun e => rfl
      · rcases cause <;> decide +kernel
    exact verdict_passing (iff_of_true hkilled trivial)
  · refine iff_of_true (audio_final "ffprobe: ffprobe failed: " (status ++ ": " ++ stderr) ?_
      (by decide +kernel)) trivial
    simp only [DurationFailure.err, RunFailure.err, GoError.wrap, GoError.new, String.append_assoc]
    rfl
  · refine iff_of_true (audio_final "ffprobe: unparseable duration " (goQuote raw ++ ": " ++ why) ?_
      (by decide +kernel)) trivial
    simp only [DurationFailure.err, unparseableDuration, GoError.new, String.append_assoc]
  · exact iff_of_true (audio_final "ffprobe: implausible duration " (text.general secs) rfl
      (by decide +kernel)) trivial

/-- A failure that is documented as final is final, and one that is documented as passing is so if it is
unmistakable. -/
theorem AudioFailure.verdict_iff (text : FloatText) (f : AudioFailure) :
    (∀ v, f.documented = some v → isAudioTerminal (f.err text) = v) ↔ f.Unmistakable := by
  rcases f with (f | ⟨d, max⟩) | e | t | _ | f | (why | cause | ⟨status, stderr⟩) | why | _
  · exact duration_verdict_iff text f
  · refine iff_of_true ?_ trivial
    rintro v ⟨⟩
    rfl
  · exact iff_of_true (fun v hv => absurd hv (by simp [documented])) trivial
  · exact iff_of_true (fun v hv => absurd hv (by simp [documented])) trivial
  · have hbudget : isAudioTerminal (insufficientBudget.wrap "convert") = false := by
      apply (Classifier.passing_iff (k := .audio) _).mpr
      · decide +kernel
      · decide
    exact verdict_passing (iff_of_true hbudget trivial)
  · refine iff_of_true (audio_final "convert: audio: ffmpeg: " (f.err "ffmpeg").text ?_
      (by decide +kernel)) trivial
    simp only [AudioFailure.err, GoError.wrap, String.append_assoc]
    rfl
  · apply verdict_passing
    refine audio_passing_of_report "convert: audio: whisper-cli: start whisper-cli: " why ?_ rfl
      (by decide +kernel)
    simp only [AudioFailure.err, RunFailure.err, GoError.wrap, GoError.new, String.append_assoc]
    rfl
  · have hkilled : isAudioTerminal
        (((cause.err.wrap "whisper-cli killed").wrap "audio: whisper-cli").wrap "convert") = false := by
      apply audio_passing_of_killed cause
        (fun e => ((e.wrap "whisper-cli killed").wrap "audio: whisper-cli").wrap "convert")
      · exact fun e => rfl
      · rcases cause <;> decide +kernel
    exact verdict_passing (iff_of_true hkilled trivial)
  · apply verdict_passing
    refine audio_passing_of_report "convert: audio: whisper-cli: whisper-cli failed: "
      (status ++ ": " ++ stderr) ?_ rfl (by decide +kernel)
    simp only [AudioFailure.err, RunFailure.err, GoError.wrap, GoError.new, String.append_assoc]
    rfl
  · refine iff_of_true (audio_final "convert: audio: stat output: " why ?_ (by decide +kernel)) trivial
    simp only [AudioFailure.err, GoError.wrap, GoError.new, String.append_assoc]
    rfl
  · exact iff_of_true (audio_final "convert: audio: output is empty" "" rfl (by decide +kernel)) trivial

/-- **The verdict is the documented one**, unless a subprocess whose failure is passing has written a
signature: in every attempt that fails, for every answer of the tools. -/
theorem audio_verdict_documented_iff {tr : ToolTrace} {e : GoError}
    (hrun : (audioAttempt host max inPath outPath opts).Runs tr (.error e)) :
    ∃ f : AudioFailure, f.Shown host max inPath outPath opts tr ∧ e = f.err host.text ∧
      ((∀ v, f.documented = some v → isAudioTerminal e = v) ↔ f.Unmistakable) := by
  obtain ⟨f, hf, he⟩ := Prog.always_iff.mp audioAttempt_fails tr _ hrun e rfl
  rw [show e = f.err host.text from he]
  exact ⟨f, hf, rfl, f.verdict_iff host.text⟩

/-! ## Attempts that fail in whisper-cli -/

/-- An attempt gets as far as whisper-cli, and fails there. -/
theorem audioAttempt_whisper_runs {raw : String} {d : Int} {o : AudioOpts}
    (hparse : parseProbedDuration host.text raw = .ok d) (hle : d ≤ max)
    (hopts : audioOptsFromMap host.codec opts = .ok o)
    (hflags : whisperOutputFlag (normalizeFormat (UnixPath.ext outPath)) ≠ []) (f : RunFailure) :
    ∃ tr, (audioAttempt host max inPath outPath opts).Runs tr
        (.error ((AudioFailure.whisper f).err host.text)) ∧
      (AudioFailure.whisper f).Shown host max inPath outPath opts tr := by
  have hguard : (enforceMaxDuration host.text inPath max).Runs
      [⟨.run "ffprobe" (ffprobeDurationArgs inPath), .ok raw⟩] (.ok ()) := by
    have hprobe := probe_runs (ffprobeDurationArgs inPath) (parseProbedDuration host.text) raw
    have hallowed : enforceMaxDurationOf d max = .ok () := if_neg (by omega)
    rw [hparse] at hprobe
    apply hprobe.andThen
    rw [hallowed]
    exact .ret _
  have hbudget : (budgetGuard inPath).Runs [⟨.untilDeadline, none⟩] (.ok ()) := .call (.ret _)
  have hconvert : audioConvert host inPath outPath opts =
      audioConvertTo host inPath outPath
        (whisperOutputFlag (normalizeFormat (UnixPath.ext outPath))) o := by
    unfold audioConvert
    rw [hopts]
    exact if_neg hflags
  have hstages : (audioConvertTo host inPath outPath
      (whisperOutputFlag (normalizeFormat (UnixPath.ext outPath))) o).Runs
      [⟨.untilDeadline, none⟩,
        ⟨.run "ffmpeg" (ffmpegNormalizeArgs inPath (normPath outPath)), .ok ""⟩,
        ⟨.run "whisper-cli" (whisperArgs host.model (normPath outPath) (whisperOutBase outPath)
          (whisperOutputFlag (normalizeFormat (UnixPath.ext outPath))) o host.threads), .error f⟩]
      (.error ((f.err "whisper-cli").wrap "audio: whisper-cli")) :=
    hbudget.andThen (.call (.call (.ret _)))
  rw [← hconvert] at hstages
  refine ⟨_, hguard.andThen hstages.mapError, whisperArgs host.model (normPath outPath)
    (whisperOutBase outPath) (whisperOutputFlag (normalizeFormat (UnixPath.ext outPath))) o
    host.threads, ?_⟩
  exact ⟨[⟨.run "ffprobe" (ffprobeDurationArgs inPath), .ok raw⟩, ⟨.untilDeadline, none⟩,
    ⟨.run "ffmpeg" (ffmpegNormalizeArgs inPath (normPath outPath)), .ok ""⟩], rfl⟩

/-- A host of the audio engine. -/
def exampleAudioHost : AudioHost := ⟨exampleText, Api.exampleCodec, "/models/ggml-base.bin", 2⟩

/-- The attempt whose whisper fails. -/
theorem exampleAudioHost_runs (f : RunFailure) :
    ∃ tr, (audioAttempt exampleAudioHost defaultCeiling "/tmp/in.mp3" "/tmp/out.txt" []).Runs tr
        (.error ((AudioFailure.whisper f).err exampleAudioHost.text)) ∧
      (AudioFailure.whisper f).Shown exampleAudioHost defaultCeiling "/tmp/in.mp3"
        "/tmp/out.txt" [] tr := by
  have hparse : parseProbedDuration exampleAudioHost.text "10" = .ok 10000000000 := by decide +kernel
  exact audioAttempt_whisper_runs hparse (by decide) rfl (by decide +kernel) f

/-- A timeout of whisper-cli. -/
theorem audio_verdict_documented_timeout :
    ∃ tr e, (audioAttempt exampleAudioHost defaultCeiling "/tmp/in.mp3" "/tmp/out.txt" []).Runs tr
        (.error e) ∧
      ∃ f : AudioFailure,
        f.Shown exampleAudioHost defaultCeiling "/tmp/in.mp3" "/tmp/out.txt" [] tr ∧
        e = f.err exampleAudioHost.text ∧
        ((∀ v, f.documented = some v → isAudioTerminal e = v) ↔ f.Unmistakable) := by
  obtain ⟨tr, hrun, -⟩ := exampleAudioHost_runs (.killed .deadlineExceeded)
  exact ⟨tr, _, hrun, audio_verdict_documented_iff hrun⟩

/-- A failure of whisper-cli is given up at once because of what is written to its standard error. -/
theorem whisper_stderr_terminal :
    ∃ tr e, (audioAttempt exampleAudioHost defaultCeiling "/tmp/in.mp3" "/tmp/out.txt" []).Runs tr
        (.error e) ∧
      (∃ f : RunFailure, (AudioFailure.whisper f).Shown exampleAudioHost defaultCeiling "/tmp/in.mp3"
        "/tmp/out.txt" [] tr ∧ (AudioFailure.whisper f).documented = some false) ∧
      isAudioTerminal e = true := by
  obtain ⟨tr, hrun, hshown⟩ := exampleAudioHost_runs
    (.exit "exit status 1" "error: '/tmp/norm.wav' is not a known file format")
  refine ⟨tr, _, hrun, ⟨_, hshown, rfl⟩, ?_⟩
  apply audio_terminal_of_mentions
  exact Mentions.prepend (show Mentions audioSignatures
    "whisper-cli failed: exit status 1: error: '/tmp/norm.wav' is not a known file format" by
      decide +kernel) "convert: audio: whisper-cli: "

end OctoConv.Worker
