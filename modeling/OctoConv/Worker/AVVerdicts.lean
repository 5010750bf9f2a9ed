import OctoConv.Convert.AvFailures
import OctoConv.Worker.Ceilings
import OctoConv.Worker.Signatures

/-!
# The verdict on a failed attempt of the av engine

The classifier of the av engine asks for the sentinels of the converter, and leaves what has none to the
shared classifier, which searches the text. A failure that comes from the source and the options alone
should be final, one of the circumstances should not.

Source: `internal/worker/worker.go`, `internal/convert/av.go`.

## Main results

* `AVFailure.verdict_iff` — which failures get the verdict that they should.
* `av_verdict_claimed_iff` — so it is in every attempt that fails.
-/

namespace OctoConv

open Conc

/-! ## What the verdict should be -/

/-- The verdict that a failure should get: final for what the source and the options alone determine and
for what ffmpeg makes of them, passing for a transcode that runs out of time, a full disk, and a command
that cannot be started or a probe that is killed. None for what is neither. -/
def AVFailure.claimed : AVFailure → Option Bool
  | options _ => some true
  | target _ => none
  | probe (.start _) => some false
  | probe (.killed _) => some false
  | probe (.exit _ _) => some true
  | unparseableDuration _ _ => some true
  | implausibleDuration _ => some true
  | unparseableStreams _ => some true
  | noVideoStream => some true
  | implausibleResolution _ _ => some true
  | durationExceeded _ _ => some true
  | resolutionExceeded _ _ => some true
  | statInput _ => none
  | statfs _ _ => none
  | insufficientDisk _ _ => some false
  | reencodeBound _ _ => some true
  | timecodeOutOfRange _ _ => some true
  | ffmpeg _ (.start _) => some false
  | ffmpeg .transcode (.killed .deadlineExceeded) => some false
  | ffmpeg _ _ => some true
  | outputMissing _ => some true
  | outputEmpty => some true
  | unreadable _ _ => some true
  | wrongFormat _ _ => some true

namespace Worker

open Scan

/-- The failures that get it. What ffprobe finds wrong with the source, what it cannot be asked about a
thumbnail, and options that are rejected have no sentinel: they are final only by a signature in what is
reported. ffmpeg is given up also if it cannot be started. -/
def AsClaimed : AVFailure → Prop
  | .options e => Mentions sharedSignatures e.text
  | .probe (.start why) => ¬ Mentions sharedSignatures why
  | .probe (.exit status stderr) => Mentions sharedSignatures status ∨ Mentions sharedSignatures stderr
  | .unparseableDuration raw why =>
    Mentions sharedSignatures (goQuote raw) ∨ Mentions sharedSignatures why
  | .implausibleDuration _ => False
  | .unparseableStreams e => Mentions sharedSignatures e.text
  | .implausibleResolution _ _ => False
  | .ffmpeg _ (.start _) => False
  | .unreadable _ why => Mentions sharedSignatures why
  | .wrongFormat _ _ => False
  | _ => True

/-- An error without a sentinel is final if its text mentions a shared signature. -/
theorem isAVTerminal_plain {e : GoError} (h : e.chain = []) :
    isAVTerminal e = true ↔ Mentions sharedSignatures e.text :=
  Classifier.verdict_of_not_recognises (k := .av) (Classifier.not_recognises_of_plain h)

/-! ## The texts of the failures -/

/-- No digit is one of these letters, and every shared signature has one of them. -/
def SignatureLetter (c : Char) : Prop := c ∈ ['s', 'v', 'm', 'l', '_', '/']

instance (c : Char) : Decidable (SignatureLetter c) := inferInstanceAs (Decidable (c ∈ _))

/-- Every signature has a letter that belongs to signatures. -/
theorem signatureLetter_mem : ∀ p ∈ sharedSignatures.map String.toList, ∃ c ∈ p, SignatureLetter c := by
  intro p hp
  have hany : ∀ p ∈ sharedSignatures.map String.toList,
      (p.any fun c => decide (SignatureLetter c)) = true := by decide +kernel
  obtain ⟨c, hc, hletter⟩ := List.any_eq_true.mp (hany p hp)
  exact ⟨c, hc, of_decide_eq_true hletter⟩

/-- A text without such letters is none. -/
theorem not_mentions_of_letters {text : String}
    (h : ∀ c ∈ text.toList, ¬ SignatureLetter (lowerChar c)) :
    ¬ Mentions sharedSignatures text := by
  apply not_scans_of_forall (P := fun c => ¬ SignatureLetter c)
  rotate_left
  · intro p hp
    obtain ⟨c, hc, hletter⟩ := signatureLetter_mem p hp
    exact ⟨c, hc, not_not_intro hletter⟩
  intro c hc
  obtain ⟨d, hd, rfl⟩ := List.mem_map.mp hc
  exact h d hd

/-- A digit is no such letter. -/
theorem not_signatureLetter_of_isDigit {c : Char} (h : c.isDigit = true) :
    ¬ SignatureLetter (lowerChar c) := by
  have hdigit : c.val.toNat ≤ 57 := by
    unfold Char.isDigit at h
    simp only [Bool.and_eq_true, decide_eq_true_eq] at h
    exact UInt32.le_iff_toNat_le.mp h.2
  have hlower : lowerChar c = c := by
    unfold lowerChar
    have hi : c ≠ '\u0130' := by
      rintro rfl
      exact absurd hdigit (by decide)
    have hk : c ≠ '\u212a' := by
      rintro rfl
      exact absurd hdigit (by decide)
    rw [if_neg hi, if_neg hk]
    unfold Char.toLower
    rw [dif_neg]
    rintro ⟨hupper, -⟩
    have hval := UInt32.le_iff_toNat_le.mp hupper
    have ha : 'A'.val.toNat = 65 := by decide
    omega
  rw [hlower]
  intro hletter
  have hlarge : (['s', 'v', 'm', 'l', '_', '/'].all fun d => !d.isDigit) = true := by decide
  have hc := List.all_eq_true.mp hlarge c hletter
  rw [h] at hc
  exact absurd hc (by decide)

/-- A number is written in digits. -/
theorem isDigit_of_mem_toString {n : Nat} {c : Char} (h : c ∈ (toString n).toList) :
    c.isDigit = true := by
  rw [Nat.toString_eq_ofList_toDigits, String.toList_ofList] at h
  exact Nat.isDigit_of_mem_toDigits (by decide) (by decide) h

/-- The digits of a whole number, behind a sign. -/
theorem mem_toString_int {n : Int} {c : Char} (h : c ∈ (toString n).toList) :
    c = '-' ∨ c.isDigit = true := by
  rw [Int.toString_eq_repr, Int.repr_eq_if] at h
  split at h
  · exact .inr (isDigit_of_mem_toString h)
  · rw [String.toList_append] at h
    rcases List.mem_append.mp h with h | h
    · exact .inl (List.mem_singleton.mp h)
    · exact .inr (isDigit_of_mem_toString h)

/-- The fixed texts in front of a report mention nothing. -/
theorem not_mentions_contexts : ∀ context ∈ ["av: insufficient free disk space", "start ffprobe",
    "ffprobe failed", "ffprobe: unparseable stream probe output"],
    ¬ Mentions sharedSignatures context := by
  decide +kernel

/-- No signature begins in the fixed texts in front of what ffprobe says about a source. -/
theorem detached_starts : ∀ start ∈ ["ffprobe: unparseable duration ", "ffprobe: implausible duration ",
    "ffprobe: implausible resolution "],
    ∀ p ∈ sharedSignatures.map String.toList, Detached p (lower start) := by
  decide +kernel

/-- What is reported about a full disk mentions no signature: its numbers have no letters, and the
factor is written without a blank. -/
theorem not_mentions_insufficientDisk (host : AVHost) (free : Nat) (size : Int) :
    ¬ Mentions sharedSignatures (insufficientDisk host free size).text := by
  have hcontext := not_mentions_contexts "av: insufficient free disk space" (by simp)
  have htext : (insufficientDisk host free size).text = "av: insufficient free disk space" ++ ": " ++
      ("free=" ++ toString free ++ " needed=" ++ toString (neededBytes host size) ++ " input=" ++
        toString size ++ " factor" ++ String.singleton '=' ++
          host.text.fixed 2 host.diskSafetyFactor) := by
    have hfactor : " factor=" = " factor" ++ String.singleton '=' := by decide
    rw [insufficientDisk, GoError.detail, hfactor]
    simp only [String.append_assoc]
    rfl
  rw [htext, mentions_colon, mentions_split (by decide) fun p hp =>
    (sharedSignatures_shape p hp).2.2.2.1]
  rintro (h | h | h)
  · exact hcontext h
  · refine not_mentions_of_letters ?_ h
    intro c hc
    have hall : ∀ word ∈ ["free=", " needed=", " input=", " factor"],
        (word.toList.all fun c => decide (¬ SignatureLetter (lowerChar c))) = true := by decide +kernel
    have hwords : ∀ word ∈ ["free=", " needed=", " input=", " factor"], ∀ c ∈ word.toList,
        ¬ SignatureLetter (lowerChar c) :=
      fun word hword c hc => of_decide_eq_true (List.all_eq_true.mp (hall word hword) c hc)
    simp only [String.toList_append, List.mem_append] at hc
    rcases hc with (((((hc | hc) | hc) | hc) | hc) | hc) | hc
    · exact hwords "free=" (by simp) c hc
    · exact not_signatureLetter_of_isDigit (isDigit_of_mem_toString hc)
    · exact hwords " needed=" (by simp) c hc
    · exact not_signatureLetter_of_isDigit (isDigit_of_mem_toString hc)
    · exact hwords " input=" (by simp) c hc
    · rcases mem_toString_int hc with rfl | hc
      · decide
      · exact not_signatureLetter_of_isDigit hc
    · exact hwords " factor" (by simp) c hc
  · exact not_mentions_shared (host.text.fixed_blank _ _) h

/-- The contexts of an attempt and of the converter mention nothing. -/
theorem mentions_convert {e : GoError} :
    Mentions sharedSignatures (e.wrap "convert").text ↔ Mentions sharedSignatures e.text :=
  mentions_wrap (not_mentions_shared (by decide))

/-- The context of the engine says nothing. -/
theorem mentions_av {e : GoError} :
    Mentions sharedSignatures (e.wrap "av").text ↔ Mentions sharedSignatures e.text :=
  mentions_wrap (not_mentions_shared (by decide))

/-- The context of ffprobe says nothing. -/
theorem mentions_ffprobe {e : GoError} :
    Mentions sharedSignatures (e.wrap "ffprobe").text ↔ Mentions sharedSignatures e.text :=
  mentions_wrap (not_mentions_shared (by decide))

/-- What the failure of a probe mentions. -/
theorem mentions_runFailure (f : RunFailure) :
    Mentions sharedSignatures (f.err "ffprobe").text ↔
      match f with
      | .start why => Mentions sharedSignatures why
      | .killed _ => False
      | .exit status stderr => Mentions sharedSignatures status ∨ Mentions sharedSignatures stderr := by
  rcases f with why | cause | ⟨status, stderr⟩
  · have hcontext := not_mentions_contexts "start ffprobe" (by simp)
    have htext : (RunFailure.err "ffprobe" (.start why)).text = "start ffprobe" ++ ": " ++ why := rfl
    rw [htext, mentions_colon]
    exact or_iff_right hcontext
  · have hkilled : ¬ Mentions sharedSignatures (cause.err.wrap "ffprobe killed").text := by
      rcases cause <;> decide +kernel
    exact iff_false_intro hkilled
  · have hcontext := not_mentions_contexts "ffprobe failed" (by simp)
    have htext : (RunFailure.err "ffprobe" (.exit status stderr)).text =
        "ffprobe failed" ++ ": " ++ status ++ ": " ++ stderr := rfl
    rw [htext, mentions_colon, mentions_colon, or_iff_right hcontext]

/-- What is reported about a duration that is no number. -/
theorem mentions_unparseableDuration (raw why : String) :
    Mentions sharedSignatures (unparseableDuration raw why).text ↔
      Mentions sharedSignatures (goQuote raw) ∨ Mentions sharedSignatures why := by
  have hstart := detached_starts "ffprobe: unparseable duration " (by simp)
  rw [unparseableDuration, GoError.new, mentions_colon, mentions_append hstart]

/-- What is reported about a number that is no duration. -/
theorem not_mentions_implausibleDuration (text : FloatText) (secs : Float64) :
    ¬ Mentions sharedSignatures (implausibleDuration text secs).text := by
  have hstart := detached_starts "ffprobe: implausible duration " (by simp)
  rw [implausibleDuration, GoError.new, mentions_append hstart]
  exact not_mentions_shared (text.general_blank secs)

/-- What is reported about a size that is not positive. -/
theorem not_mentions_implausibleResolution (w h : Int) :
    ¬ Mentions sharedSignatures (implausibleResolution w h).text := by
  have hstart := detached_starts "ffprobe: implausible resolution " (by simp)
  have hblank : ∀ n : Int, ' ' ∉ (toString n).toList := by
    intro n hmem
    rcases mem_toString_int hmem with heq | hdigit
    · exact absurd heq (by decide)
    · exact absurd hdigit (by decide)
  rw [implausibleResolution, GoError.new, String.append_assoc, String.append_assoc,
    mentions_append hstart]
  apply not_mentions_shared
  simp only [String.toList_append, List.mem_append, not_or]
  exact ⟨hblank w, by decide, hblank h⟩

/-- What is reported about the answer of ffprobe to the question for the streams. -/
theorem mentions_unparseableStreams (e : GoError) :
    Mentions sharedSignatures (unparseableStreams e).text ↔ Mentions sharedSignatures e.text :=
  mentions_wrap (not_mentions_contexts "ffprobe: unparseable stream probe output" (by simp))

/-- The format of a file is one of the sniffer's, or empty. -/
theorem detectedFormat_mem {f : OpenedFile} {detected : String} (h : detectedFormat f = some detected) :
    detected ∈ "" :: signatures.map fun sig => normalizeFormat sig.1 := by
  obtain ⟨s, hs, hresult⟩ := Option.bind_eq_some_iff.mp h
  unfold sniff sniffWith at hs
  dsimp only at hs
  split at hs
  · rw [← Option.some.inj hs] at hresult
    exact absurd hresult (by simp)
  · obtain ⟨format, hformat, rfl⟩ := Option.map_eq_some_iff.mp hs
    obtain rfl : format = detected := by simpa using hresult
    split at hformat
    · rename_i sig hfind
      rw [← Option.some.inj hformat]
      exact List.mem_cons_of_mem _ (List.mem_map_of_mem (List.mem_of_find?_eq_some hfind))
    · rw [← Option.some.inj hformat]
      exact List.mem_cons_self

/-- The words about a bad thumbnail keep signatures apart. -/
theorem thumbnail_detached : ∀ t ∈ avThumbnailExtractTargets, ∀ p ∈ sharedSignatures.map String.toList,
    Detached p (lower ("av: thumbnail not a valid " ++ t ++ " (detected ")) := by
  decide +kernel

/-- What is reported about a thumbnail in another format. -/
theorem not_mentions_wrongFormat {target detected : String} (ht : target ∈ avThumbnailExtractTargets)
    {f : OpenedFile} (hf : detectedFormat f = some detected) :
    ¬ Mentions sharedSignatures (wrongFormat target detected).text := by
  have hquoted : ∀ d ∈ "" :: signatures.map fun sig => normalizeFormat sig.1,
      ' ' ∉ (goQuote d ++ ")").toList := by decide +kernel
  rw [wrongFormat, GoError.new, String.append_assoc, mentions_append (thumbnail_detached target ht)]
  exact not_mentions_shared (hquoted detected (detectedFormat_mem hf))

/-- What is reported about a thumbnail that cannot be read. -/
theorem mentions_unreadable {target : String} (ht : target ∈ avThumbnailExtractTargets) (why : String) :
    Mentions sharedSignatures ("av: thumbnail not a valid " ++ target ++ ": " ++ why) ↔
      Mentions sharedSignatures why := by
  have hcontext : ¬ Mentions sharedSignatures ("av: thumbnail not a valid " ++ target) := by
    intro h
    obtain ⟨p, hp, hin⟩ := h.append " (detected "
    exact (thumbnail_detached target ht p hp).inside hin
  rw [mentions_colon]
  exact or_iff_right hcontext

/-! ## The verdict -/

/-- A plain error is tried again unless its text is a signature. -/
theorem isAVTerminal_plain_false {e : GoError} (h : e.chain = []) :
    isAVTerminal e = false ↔ ¬ Mentions sharedSignatures e.text :=
  Classifier.passing_iff (k := .av) (Classifier.not_recognises_of_plain h)

/-- A verdict that a sentinel makes final. -/
theorem verdict_sentinel {verdict : Bool} (h : verdict = true) :
    (∀ v, some true = some v → verdict = v) ↔ True := verdict_final (iff_of_true h trivial)

/-- A run of ffprobe that has failed. -/
theorem probe_verdict_iff (host : AVHost) (f : RunFailure) :
    (∀ v, (AVFailure.probe f).claimed = some v →
      isAVTerminal (((AVFailure.probe f).convertErr host).wrap "convert") = v) ↔
      AsClaimed (.probe f) := by
  have hmentions := mentions_convert.trans (mentions_av.trans (mentions_ffprobe.trans
    (mentions_runFailure f)))
  rcases f with why | cause | ⟨status, stderr⟩
  · apply verdict_passing
    rw [isAVTerminal_plain_false rfl]
    exact not_congr hmentions
  · have hkilled : isAVTerminal ((((cause.err.wrap "ffprobe killed").wrap "ffprobe").wrap "av").wrap
        "convert") = false := by
      apply (Classifier.passing_iff (k := .av) _).mpr
      · exact hmentions.not.mpr id
      · rcases cause <;> decide
    exact verdict_passing (iff_of_true hkilled trivial)
  · apply verdict_final
    rw [isAVTerminal_plain rfl]
    exact hmentions

/-- A run of ffmpeg that has failed. -/
theorem ffmpeg_verdict_iff (host : AVHost) (stage : AVStage) (f : RunFailure) :
    (∀ v, (AVFailure.ffmpeg stage f).claimed = some v →
      isAVTerminal (((AVFailure.ffmpeg stage f).convertErr host).wrap "convert") = v) ↔
      AsClaimed (.ffmpeg stage f) := by
  have hstart : ∀ why, isAVTerminal (((AVFailure.ffmpeg stage (.start why)).convertErr host).wrap
      "convert") = true := by
    intro why
    rcases stage <;> rfl
  rcases f with why | cause | ⟨status, stderr⟩
  · have hclaimed : (AVFailure.ffmpeg stage (.start why)).claimed = some false := by
      rcases stage <;> rfl
    rw [hclaimed]
    apply verdict_passing
    rw [hstart why]
    exact iff_of_false (by decide) id
  · rcases stage
    · rcases cause
      · exact verdict_passing (iff_of_true rfl trivial)
      · exact verdict_sentinel rfl
    · rcases cause <;> exact verdict_sentinel rfl
    · rcases cause <;> exact verdict_sentinel rfl
  · rcases stage
    · exact verdict_sentinel rfl
    · exact verdict_sentinel rfl
    · exact verdict_sentinel rfl

/-- **Which failures get the verdict that they should.** -/
theorem AVFailure.verdict_iff {c : AVCall} {tr : ToolTrace} {f : AVFailure} (hf : f.Shown c tr) :
    (∀ v, f.claimed = some v → isAVTerminal ((f.convertErr c.host).wrap "convert") = v) ↔
      AsClaimed f := by
  rcases f with e | t | f | ⟨raw, why⟩ | secs | e | _ | ⟨w, h⟩ | ⟨d, max⟩ | ⟨height, max⟩ | why |
    ⟨dir, why⟩ | ⟨free, size⟩ | ⟨w, h⟩ | ⟨t, s⟩ | ⟨stage, f⟩ | why | _ | ⟨t, why⟩ | ⟨t, detected⟩
  · have hplain : e.chain = [] := avOptsFromMap_plain hf
    apply verdict_final
    rw [isAVTerminal_plain
      (show (((AVFailure.options e).convertErr c.host).wrap "convert").chain = [] from
      hplain), mentions_convert]
    exact mentions_av
  · exact iff_of_true (fun v hv => absurd hv (by simp [AVFailure.claimed])) trivial
  · exact probe_verdict_iff c.host f
  · apply verdict_final
    rw [isAVTerminal_plain rfl, mentions_convert]
    exact mentions_av.trans (mentions_unparseableDuration raw why)
  · apply verdict_final
    rw [isAVTerminal_plain rfl, mentions_convert]
    exact mentions_av.trans (iff_false_intro (not_mentions_implausibleDuration c.host.text secs))
  · obtain ⟨out, -, hread⟩ := hf
    have hplain : e.chain = [] := unmarshalStreams_plain hread
    apply verdict_final
    rw [isAVTerminal_plain (show (((AVFailure.unparseableStreams e).convertErr c.host).wrap
      "convert").chain = [] from hplain), mentions_convert]
    exact mentions_av.trans (mentions_unparseableStreams e)
  · exact verdict_sentinel rfl
  · apply verdict_final
    rw [isAVTerminal_plain rfl, mentions_convert]
    exact mentions_av.trans (iff_false_intro (not_mentions_implausibleResolution w h))
  · exact verdict_sentinel rfl
  · exact verdict_sentinel rfl
  · exact iff_of_true (fun v hv => absurd hv (by simp [AVFailure.claimed])) trivial
  · exact iff_of_true (fun v hv => absurd hv (by simp [AVFailure.claimed])) trivial
  · apply verdict_passing
    rw [isAVTerminal_plain_false rfl, mentions_convert]
    exact iff_of_true (mentions_av.not.mpr (not_mentions_insufficientDisk c.host free size)) trivial
  · exact verdict_sentinel rfl
  · exact verdict_sentinel rfl
  · exact ffmpeg_verdict_iff c.host stage f
  · exact verdict_sentinel rfl
  · exact verdict_sentinel rfl
  · obtain ⟨-, ht, -⟩ := hf
    apply verdict_final
    rw [isAVTerminal_plain rfl, mentions_convert]
    exact mentions_unreadable ht why
  · obtain ⟨-, ht, -, file, -, hformat⟩ := hf
    apply verdict_final
    rw [isAVTerminal_plain rfl, mentions_convert]
    exact iff_false_intro (not_mentions_wrongFormat ht hformat)

/-- An attempt of the av engine, from the download on.

Source: `worker.go` process -/
def avAttempt (c : AVCall) : Tool (Except GoError Unit) :=
  enforceAudioGuardBeforeConvert c.host.text .av c.inPath 0 c.convert

/-- **The verdict is the one that it should be**, in every attempt that fails, for the failures that the
condition names and for no others. -/
theorem av_verdict_claimed_iff {c : AVCall} {tr : ToolTrace} {e : GoError}
    (hrun : (avAttempt c).Runs tr (.error e)) :
    ∃ f : AVFailure, f.Shown c tr ∧ e = (f.convertErr c.host).wrap "convert" ∧
      ((∀ v, f.claimed = some v → isAVTerminal e = v) ↔ AsClaimed f) := by
  have hfails : (avAttempt c).Fails fun tr e =>
      ∃ f : AVFailure, f.Shown c tr ∧ e = (f.convertErr c.host).wrap "convert" := by
    apply (avConvert_fails c).mapError
    rintro tr e ⟨f, hf, he⟩
    exact ⟨f, hf, congrArg (GoError.wrap "convert") he⟩
  obtain ⟨f, hf, rfl⟩ := Prog.always_iff.mp hfails tr _ hrun e rfl
  exact ⟨f, hf, rfl, AVFailure.verdict_iff hf⟩

/-- The sound of a video. -/
def exampleCall : AVCall := ⟨exampleHost, 0, 0, "/tmp/in.mp4", "/tmp/out.wav", []⟩

/-- An attempt that fails in its first probe. -/
theorem exampleCall_runs (f : RunFailure) :
    ∃ tr, (avAttempt exampleCall).Runs tr
        (.error (((AVFailure.probe f).convertErr exampleCall.host).wrap "convert")) ∧
      (AVFailure.probe f).Shown exampleCall tr := by
  have hprobe : (probeDuration exampleHost.text "/tmp/in.mp4").Runs
      [⟨.run "ffprobe" (ffprobeDurationArgs "/tmp/in.mp4"), .error f⟩]
      (.error ((f.err "ffprobe").wrap "ffprobe")) := .call (.ret _)
  have hconvert : (avConvertTo exampleHost 0 0 "/tmp/in.mp4" "/tmp/out.wav" "wav" ⟨none, 0, ""⟩).Runs
      [⟨.run "ffprobe" (ffprobeDurationArgs "/tmp/in.mp4"), .error f⟩]
      (.error (((f.err "ffprobe").wrap "ffprobe").wrap "av")) :=
    (hprobe.andThen_error.mapError).andThen_error
  rw [← avConvert_wav] at hconvert
  exact ⟨_, hconvert.mapError, ffprobeDurationArgs "/tmp/in.mp4", List.suffix_rfl⟩

/-- A first probe that runs out of time. -/
theorem av_verdict_claimed_timeout :
    ∃ tr e, (avAttempt exampleCall).Runs tr (.error e) ∧
      ∃ f : AVFailure, f.Shown exampleCall tr ∧
        e = (f.convertErr exampleCall.host).wrap "convert" ∧
        ((∀ v, f.claimed = some v → isAVTerminal e = v) ↔ AsClaimed f) := by
  obtain ⟨tr, hrun, -⟩ := exampleCall_runs (.killed .deadlineExceeded)
  exact ⟨tr, _, hrun, av_verdict_claimed_iff hrun⟩

/-- A source that ffprobe cannot read is tried again, although another attempt can only end in the same
way. -/
theorem probe_exit_retried :
    ∃ tr e, (avAttempt exampleCall).Runs tr (.error e) ∧
      (∃ f : RunFailure, (AVFailure.probe f).Shown exampleCall tr ∧
        (AVFailure.probe f).claimed = some true) ∧
      isAVTerminal e = false := by
  obtain ⟨tr, hrun, hshown⟩ := exampleCall_runs
    (.exit "exit status 1" "/tmp/in.mp4: Invalid data found when processing input")
  refine ⟨tr, _, hrun, ⟨_, hshown, rfl⟩, ?_⟩
  rw [isAVTerminal_plain_false rfl]
  intro h
  have hreport := (mentions_convert.trans (mentions_av.trans mentions_ffprobe)).mp h
  exact absurd hreport (by decide +kernel)

end Worker

end OctoConv
