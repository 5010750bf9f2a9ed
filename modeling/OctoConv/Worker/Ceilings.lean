import OctoConv.Base.Encoding
import OctoConv.Base.Environ
import OctoConv.Convert.AvOptions
import OctoConv.Lib.Wrap
import OctoConv.Worker.Guard

/-!
# The ceiling on the duration of a source

The workers of the audio and the av engine read a ceiling from their environment: a duration, or a
bare number of seconds. It reaches the engine as a count of nanoseconds, for audio as an argument of
the guard, for av as a field of the converter.

Source: `cmd/audio-worker/main.go`, `cmd/av-worker/main.go`.

## Main results

* `envDurationSeconds_bare` — what becomes of a bare number of seconds.
* `attempt_probed` — an attempt that runs ffmpeg has probed a duration below the ceiling that is
  enforced.
* `configured_ceiling_enforced_iff` — the ceiling that is written is the one that is enforced,
  unless it is zero for av.
-/

namespace OctoConv.Worker

open Conc

/-! ## Reading the ceiling -/

/-- The default of both workers. -/
def defaultCeiling : Int := 240 * minute

/-- The warning for a value that is not understood. -/
def ceilingWarning (key field : String) (dflt : Int) : String :=
  "\u26a0\ufe0f " ++ key ++ "=" ++ goQuote field ++
    " is neither a duration (\"4h\") nor bare integer seconds (\"14400\"); using default " ++
    durationText dflt

/-- The ceiling, and the warning that is logged. The product of seconds is one of 64 bits.

Source: `main.go` envDurationSeconds -/
def envDurationSeconds (env : Environ) (key : String) (dflt : Int) : Int × Option String :=
  if env key = "" then (dflt, none)
  else
    let f := firstField (env key)
    match (parseDuration f).filter (0 ≤ ·) with
    | some d => (d, none)
    | none =>
      match (atoi f).filter (0 ≤ ·) with
      | some sec => ((sec * second).bmod (2 ^ 64), none)
      | none => (dflt, some (ceilingWarning key f dflt))

/-- The text is a bare number of seconds. -/
structure BareSeconds (text : String) (s : Nat) : Prop where
  nonempty : text.toList ≠ []
  digits : ∀ c ∈ text.toList, c.isDigit = true
  value : ofDigits text.toList = s

section Bare

variable {text : String} {s : Nat}

/-- Bare seconds have no sign. -/
theorem BareSeconds.splitSign (h : BareSeconds text s) :
    OctoConv.splitSign text.toList = (false, text.toList) := by
  rcases hl : text.toList with _ | ⟨c, l⟩
  · rfl
  have hc := h.digits c (by rw [hl]; exact List.mem_cons_self)
  unfold OctoConv.splitSign
  split
  · rename_i heq
    rw [(List.cons.inj heq).1] at hc
    exact absurd hc (by decide)
  · rename_i heq
    rw [(List.cons.inj heq).1] at hc
    exact absurd hc (by decide)
  · rfl

/-- A number without a unit is no duration, but for a single zero. -/
theorem BareSeconds.parseDuration (h : BareSeconds text s) :
    OctoConv.parseDuration text = if text.toList = ['0'] then some 0 else none := by
  have hterm : durationTerm text.toList = none := by
    have hspan : text.toList.span Char.isDigit = (text.toList, []) := by
      rw [List.span_eq_takeWhile_dropWhile, List.takeWhile_eq_self_iff.mpr h.digits,
        List.dropWhile_eq_nil_iff.mpr h.digits]
    unfold durationTerm
    rw [hspan]
    simp [h.nonempty, unitMap]
  unfold OctoConv.parseDuration
  rw [h.splitSign]
  dsimp only
  split
  · rfl
  rw [if_neg h.nonempty]
  rcases hl : text.toList with _ | ⟨c, l⟩
  · exact absurd hl h.nonempty
  rw [hl] at hterm
  rw [List.length_cons, durationTerms, hterm]
  exact List.cons_ne_nil c l

/-- They are a number of 64 bits, or too large for one. -/
theorem BareSeconds.atoi (h : BareSeconds text s) :
    OctoConv.atoi text = if s < 2 ^ 63 then some (s : Int) else none := by
  have hall : text.toList.all Char.isDigit = true := List.all_eq_true.mpr h.digits
  unfold OctoConv.atoi
  rw [h.splitSign]
  simp only [h.nonempty, hall, h.value, not_true_eq_false, or_self, if_false, Bool.false_eq_true]

/-- **What becomes of a bare number of seconds**: a product of 64 bits, or the default with a
warning. -/
theorem envDurationSeconds_bare {env : Environ} {key : String} (dflt : Int)
    (h : BareSeconds (firstField (env key)) s) :
    envDurationSeconds env key dflt =
      if s < 2 ^ 63 then ((s * second).bmod (2 ^ 64), none)
      else (dflt, some (ceilingWarning key (firstField (env key)) dflt)) := by
  have hset : env key ≠ "" := by
    intro hempty
    apply h.nonempty
    rw [hempty]
    rfl
  unfold envDurationSeconds
  rw [if_neg hset]
  dsimp only
  rw [h.parseDuration, h.atoi]
  have hnonneg : (0 : Int) ≤ s := by omega
  by_cases hzero : (firstField (env key)).toList = ['0']
  · have hs : s = 0 := by
      rw [← h.value, hzero]
      rfl
    rw [if_pos hzero, hs]
    rfl
  · rw [if_neg hzero, Option.filter_none]
    by_cases hs : s < 2 ^ 63
    · rw [if_pos hs, if_pos hs, Option.filter_some, if_pos (decide_eq_true hnonneg)]
    · rw [if_neg hs, if_neg hs, Option.filter_none]

end Bare

/-! ## The attempts of the two workers -/

/-- A worker that enforces a ceiling, with what its converter takes from the process. -/
inductive MediaWorker
  | audio (host : AudioHost)
  | av (host : AVHost)

namespace MediaWorker

/-- The variable of the ceiling.

Source: `main.go` main -/
def key : MediaWorker → String
  | audio _ => "AUDIO_MAX_DURATION_SECONDS"
  | av _ => "AV_MAX_DURATION_SECONDS"

/-- How the worker reads numbers. -/
def text : MediaWorker → FloatText
  | audio host => host.text
  | av host => host.text

/-- The ceiling, and the warning that is logged.

Source: `main.go` main -/
def ceiling (w : MediaWorker) (env : Environ) : Int × Option String :=
  envDurationSeconds env w.key defaultCeiling

/-- An attempt, from the download on: the audio worker hands its ceiling to the guard, the av worker to
its converter, with the default height.

Source: `main.go` main, `worker.go` process -/
def attempt (w : MediaWorker) (env : Environ) (inPath outPath : String) (opts : Opts) :
    Tool (Except GoError Unit) :=
  match w with
  | audio host =>
    enforceAudioGuardBeforeConvert host.text .audio inPath ((audio host).ceiling env).1
      (audioConvert host inPath outPath opts)
  | av host =>
    enforceAudioGuardBeforeConvert host.text .av inPath 0
      (avConvert host ((av host).ceiling env).1 avMaxSourceResolutionHeight inPath outPath opts)

/-- The ceiling that the engine compares with: for av, a zero stands for the default. -/
def enforced (w : MediaWorker) (env : Environ) : Int :=
  match w with
  | audio _ => (w.ceiling env).1
  | av _ => ceilingOr (w.ceiling env).1 avMaxSourceDuration

/-- The worker has fallen back to its default, and has logged so, for a number of seconds that is no
`time.Duration`. -/
def FallsBack (w : MediaWorker) (env : Environ) (s : Nat) : Prop :=
  (w.ceiling env).1 = defaultCeiling ∧ (w.ceiling env).2 ≠ none ∧ (2 : Int) ^ 63 ≤ s * second

end MediaWorker

/-- The probe at the beginning of the trace says that the source has this duration. -/
def ProbedDuration (text : FloatText) (inPath : String) (tr : ToolTrace) (d : Int) : Prop :=
  ∃ raw rest, tr = ⟨.run "ffprobe" (ffprobeDurationArgs inPath), .ok raw⟩ :: rest ∧
    parseProbedDuration text raw = .ok d

/-- A run has probed one duration. -/
theorem ProbedDuration.unique {text : FloatText} {inPath : String} {tr : ToolTrace} {d d' : Int}
    (h : ProbedDuration text inPath tr d) (h' : ProbedDuration text inPath tr d') : d' = d := by
  obtain ⟨raw, rest, rfl, hparse⟩ := h
  obtain ⟨raw', rest', htr, hparse'⟩ := h'
  obtain rfl : raw = raw' := Except.ok.inj (Prog.Event.inj (List.cons.inj htr).1)
  exact Except.ok.inj (hparse'.symm.trans hparse)

/-- The converter of the av engine, on options and a target that it may reject. -/
theorem avConvert_always (host : AVHost) (maxDuration maxHeight : Int) (inPath outPath : String)
    (opts : Opts) : (avConvert host maxDuration maxHeight inPath outPath opts).Always fun tr _ =>
      Quiet tr ∨ ∃ src, Probed host.text inPath tr src ∧
        src.duration ≤ ceilingOr maxDuration avMaxSourceDuration := by
  rw [Prog.always_iff]
  intro tr r hrun
  unfold avConvert at hrun
  rcases hopts : avOptsFromMap host.codec opts with e | o
  · rw [hopts] at hrun
    rcases hrun
    exact .inl (by simp [Quiet])
  rw [hopts] at hrun
  dsimp only at hrun
  split at hrun
  · rcases Prog.always_iff.mp (avConvertTo_always host _ _ inPath outPath _ o) tr r hrun with
      hquiet | ⟨args, src, -, hprobed, hadmitted, -⟩
    · exact .inl hquiet
    · exact .inr ⟨src, hprobed, hadmitted.duration⟩
  · rcases hrun
    exact .inl (by simp [Quiet])

/-- **An attempt that runs ffmpeg has probed a duration** below the ceiling that is enforced. -/
theorem attempt_probed (w : MediaWorker) (env : Environ) (inPath outPath : String) (opts : Opts) :
    (w.attempt env inPath outPath opts).Always fun tr _ =>
      Quiet tr ∨ ∃ d, ProbedDuration w.text inPath tr d ∧ d ≤ w.enforced env := by
  rcases w with host | host
  · apply (enforceMaxDuration_always host.text inPath _).andThen
    · rintro tr e ⟨answer, rfl, -⟩
      exact .inl (quiet_ffprobe _ _)
    · rintro tr ⟨⟩ ⟨answer, rfl, -, hok⟩
      obtain ⟨raw, d, rfl, hparse, hle⟩ := hok rfl
      rw [Prog.always_iff]
      intro tr' r _
      exact .inr ⟨d, ⟨raw, tr', rfl, hparse⟩, hle⟩
  · apply (avConvert_always host _ _ inPath outPath opts).mapError
    rintro tr r (hquiet | ⟨src, ⟨raw, out, codec, rest, rfl, hparse, -⟩, hle⟩)
    · exact .inl hquiet
    · exact .inr ⟨src.duration, ⟨raw, _, rfl, hparse⟩, hle⟩

/-! ## The ceiling that is written and the one that is enforced -/

variable {w : MediaWorker} {env : Environ} {s : Nat}

/-- A number of seconds that the worker can read is its ceiling, as a product of 64 bits. -/
theorem ceiling_of_lt (h : BareSeconds (firstField (env w.key)) s) (hs : s < 2 ^ 63) :
    w.ceiling env = ((s * second).bmod (2 ^ 64), none) := by
  rw [MediaWorker.ceiling, envDurationSeconds_bare _ h, if_pos hs]

/-- The default is taken for seconds that do not fit into 64 bits. -/
theorem fallsBack_iff (h : BareSeconds (firstField (env w.key)) s) :
    w.FallsBack env s ↔ 2 ^ 63 ≤ s := by
  constructor
  · rintro ⟨-, hwarned, -⟩
    by_contra hs
    rw [ceiling_of_lt h (by omega)] at hwarned
    exact hwarned rfl
  · intro hs
    unfold MediaWorker.FallsBack MediaWorker.ceiling
    rw [envDurationSeconds_bare _ h, if_neg (by omega)]
    refine ⟨rfl, by simp, ?_⟩
    unfold second
    omega

/-- A count of seconds that is cut to zero nanoseconds is zero, or longer than the default. -/
theorem default_le_of_bmod_eq_zero (hs : (s * second).bmod (2 ^ 64) = 0) :
    s = 0 ∨ avMaxSourceDuration ≤ s * second := by
  rcases Nat.eq_zero_or_pos s with hzero | hpos
  · exact .inl hzero
  · have hlong := Wrap.le_of_bmod_eq_zero hs (Int.mul_pos (by omega) (by decide))
    have hmax : avMaxSourceDuration ≤ ((2 ^ 64 : Nat) : Int) := by decide
    exact .inr (hmax.trans hlong)

/-- Unless zero is written for av, no more than what is written is enforced. -/
theorem enforced_le (h : BareSeconds (firstField (env w.key)) s) (hs : s < 2 ^ 63)
    (hzero : ∀ host, w = .av host → s ≠ 0) : w.enforced env ≤ s * second := by
  have hnonneg : (0 : Int) ≤ s * second := by
    apply Int.mul_nonneg (Int.natCast_nonneg s)
    decide
  have hcut : (w.ceiling env).1 = (s * second).bmod (2 ^ 64) := by rw [ceiling_of_lt h hs]
  rcases w with host | host
  · exact hcut.trans_le (Wrap.bmod_le_self (by decide) hnonneg)
  · unfold MediaWorker.enforced ceilingOr
    dsimp only
    rw [hcut]
    split
    · rename_i hcutzero
      exact (default_le_of_bmod_eq_zero hcutzero).resolve_left (hzero host rfl)
    · exact Wrap.bmod_le_self (by decide) hnonneg

/-- An extraction of the sound, without options. -/
theorem avConvert_wav (host : AVHost) (maxDuration maxHeight : Int) (inPath : String) :
    avConvert host maxDuration maxHeight inPath "/tmp/out.wav" [] =
      avConvertTo host maxDuration maxHeight inPath "/tmp/out.wav" "wav" ⟨none, 0, ""⟩ := by
  have hformat : normalizeFormat (UnixPath.ext "/tmp/out.wav") = "wav" := by decide +kernel
  unfold avConvert
  rw [show avOptsFromMap host.codec [] = .ok ⟨none, 0, ""⟩ from rfl]
  dsimp only
  rw [hformat]
  exact if_pos (by decide)

/-- With zero written for av, a source of ten seconds reaches ffmpeg. -/
theorem av_zero_runs (host : AVHost) (h : BareSeconds (firstField (env (MediaWorker.av host).key)) 0) :
    ∃ tr r, ((MediaWorker.av host).attempt env "/tmp/in.mp4" "/tmp/out.wav" []).Runs tr r ∧ ¬ Quiet tr ∧
      ProbedDuration host.text "/tmp/in.mp4" tr 10000000000 := by
  have hceiling : ((MediaWorker.av host).ceiling env).1 = 0 := by
    rw [ceiling_of_lt h (by norm_num)]
    rfl
  have hduration : parseProbedDuration host.text "10" = .ok exampleSource.duration := by
    have hten : Strings.trimSpace "10" = toString 10 := by decide +kernel
    unfold parseProbedDuration
    rw [hten, host.text.parse_natural 10 (by norm_num)]
    dsimp only
    rw [if_neg (by decide +kernel)]
    exact congrArg Except.ok (show nanoseconds ((10 : Nat) : Rat) = exampleSource.duration by
      decide +kernel)
  have hstreams : readVideoStreams exampleStreams = .ok exampleSource.videoStreams := by decide +kernel
  have hdisk : neededBytes host 0 ≤ 0 * 4096 % 2 ^ 64 := by
    unfold neededBytes
    rw [show roundFloat ((0 : Int) : Rat) = 0 by decide +kernel, zero_mul]
    decide +kernel
  have hargs : avArgs host "/tmp/in.mp4" "/tmp/out.wav" "wav" ⟨none, 0, ""⟩ exampleSource =
      avExtractArgs "/tmp/in.mp4" "/tmp/out.wav" "wav" exampleSource := by
    unfold avArgs
    rw [if_neg (by decide), if_pos (by decide)]
  have hextract : avExtractArgs "/tmp/in.mp4" "/tmp/out.wav" "wav" exampleSource =
      .ok (avInputArgs "/tmp/in.mp4" ++ ["-vn"] ++ ["-c:a", "pcm_s16le"] ++ ["file:/tmp/out.wav"]) := by
    decide +kernel
  have haudio : exampleSource.audioCodec = Strings.trimSpace "opus" := by decide +kernel
  have hmax : exampleSource.duration ≤ ceilingOr 0 avMaxSourceDuration := by decide +kernel
  have hheight : avMaxVideoHeight exampleSource.videoStreams ≤
      ceilingOr avMaxSourceResolutionHeight avMaxSourceResolutionHeight := by decide +kernel
  obtain ⟨tr, r, hrun, hffmpeg, hprobed⟩ := avConvertTo_runs hduration hstreams (by decide +kernel)
    haudio hmax hheight hdisk (hargs.trans hextract) (.killed .deadlineExceeded)
  rw [← avConvert_wav, ← hceiling] at hrun
  obtain ⟨raw, out, codec, rest, htr, hraw, -⟩ := hprobed
  exact ⟨tr, _, hrun.mapError, hffmpeg.not_quiet, raw, _, htr, hraw⟩

/-- **The ceiling that is written is the one that is enforced**, unless it is zero for av: the
worker falls back to its default, with a warning, or ffmpeg runs on no source that was probed to be
longer. -/
theorem configured_ceiling_enforced_iff (w : MediaWorker) (env : Environ) (s : Nat)
    (h : BareSeconds (firstField (env w.key)) s) :
    (w.FallsBack env s ∨
      ∀ inPath outPath opts tr r, (w.attempt env inPath outPath opts).Runs tr r → ¬ Quiet tr →
        ∃ d, ProbedDuration w.text inPath tr d ∧ d ≤ s * second) ↔
      ¬ ((∃ host, w = .av host) ∧ s = 0) := by
  constructor
  · rintro hclaim ⟨⟨host, rfl⟩, rfl⟩
    obtain ⟨tr, r, hrun, hffmpeg, hprobed⟩ := av_zero_runs host h
    rcases hclaim with hfalls | hbelow
    · exact absurd ((fallsBack_iff h).mp hfalls) (by norm_num)
    · obtain ⟨d, hd, hle⟩ := hbelow _ _ _ tr r hrun hffmpeg
      rw [hprobed.unique hd] at hle
      exact absurd hle (by decide)
  · intro hzero
    rw [fallsBack_iff h]
    rcases Nat.lt_or_ge s (2 ^ 63) with hs | hs
    · refine .inr fun inPath outPath opts tr r hrun hffmpeg => ?_
      have hle := enforced_le h hs fun host hw hs0 => hzero ⟨⟨host, hw⟩, hs0⟩
      rcases Prog.always_iff.mp (attempt_probed w env inPath outPath opts) tr r hrun with
        hquiet | ⟨d, hd, hd'⟩
      · exact absurd hquiet hffmpeg
      · exact ⟨d, hd, hd'.trans hle⟩
    · exact .inl hs

/-- The environment of an av worker with a ceiling. -/
def ceilingEnv (value : String) : Environ := fun key =>
  if key = "AV_MAX_DURATION_SECONDS" then value else ""

/-- Four hours, with a comment behind them. -/
theorem configured_ceiling_enforced_four_hours :
    ((MediaWorker.av exampleHost).FallsBack (ceilingEnv "14400 # four hours") 14400 ∨
      ∀ inPath outPath opts tr r,
        ((MediaWorker.av exampleHost).attempt (ceilingEnv "14400 # four hours") inPath outPath
          opts).Runs tr r → ¬ Quiet tr →
        ∃ d, ProbedDuration (MediaWorker.av exampleHost).text inPath tr d ∧
          d ≤ (14400 : Nat) * second) ↔
      ¬ ((∃ host, MediaWorker.av exampleHost = .av host) ∧ 14400 = 0) :=
  configured_ceiling_enforced_iff (.av exampleHost) (ceilingEnv "14400 # four hours") 14400
    ⟨by decide +kernel, List.all_eq_true.mp (by decide +kernel), by decide +kernel⟩

/-- With zero written for av, nothing is logged, and a source of ten seconds reaches ffmpeg. -/
theorem zero_ceiling_not_enforced :
    BareSeconds (firstField (ceilingEnv "0" (MediaWorker.av exampleHost).key)) 0 ∧
      ¬ ((MediaWorker.av exampleHost).FallsBack (ceilingEnv "0") 0 ∨
        ∀ inPath outPath opts tr r,
          ((MediaWorker.av exampleHost).attempt (ceilingEnv "0") inPath outPath opts).Runs tr r →
          ¬ Quiet tr →
          ∃ d, ProbedDuration (MediaWorker.av exampleHost).text inPath tr d ∧
            d ≤ (0 : Nat) * second) := by
  have hbare : BareSeconds (firstField (ceilingEnv "0" (MediaWorker.av exampleHost).key)) 0 :=
    ⟨by decide +kernel, List.all_eq_true.mp (by decide +kernel), by decide +kernel⟩
  obtain ⟨tr, r, hrun, hffmpeg, hprobed⟩ := av_zero_runs exampleHost hbare
  refine ⟨hbare, ?_⟩
  rintro (hfalls | hbelow)
  · exact absurd ((fallsBack_iff hbare).mp hfalls) (by norm_num)
  · obtain ⟨d, hd, hle⟩ := hbelow _ _ _ tr r hrun hffmpeg
    rw [hprobed.unique hd] at hle
    exact absurd hle (by decide)

end OctoConv.Worker
