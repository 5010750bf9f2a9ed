import OctoConv.Api.Options
import OctoConv.Convert.Av

/-!
# What becomes of the options of a video

The options of a job are parsed and checked against its formats; later the av converter chooses
between a copy of the streams and a re-encode, and one of four builders writes the arguments of
ffmpeg. An option is honoured if the arguments ask for what it says. All of them are, but for the
codec h264 where the target is another format than mp4: the check admits it there, and no builder
reads it.

Source: `internal/convert/av.go`, `internal/convert/avopts.go`.

## Main results

* `honoured_iff` — the arguments honour the options exactly if these do not ask for h264 in another
  container than mp4.
* `av_options_honoured_iff` — so it is in every run that starts ffmpeg.
-/

namespace OctoConv

open Conc

/-! ## Reading arguments -/

/-- The argument names an option. -/
def isFlag (arg : String) : Bool := arg.toList.head? = some '-'

/-- The options of ffmpeg that take no value. -/
def bareFlags : List String := ["-y", "-nostdin", "-vn"]

/-- The options of an argument list with their values, as ffmpeg reads them: an option takes the next
argument, unless it takes no value. Any other argument is an output, here a value of the empty name. -/
def ffmpegOptions : List String → List (String × String)
  | [] => []
  | [arg] => if isFlag arg then [(arg, "")] else [("", arg)]
  | arg :: value :: rest =>
    if bareFlags.contains arg then (arg, "") :: ffmpegOptions (value :: rest)
    else if isFlag arg then (arg, value) :: ffmpegOptions rest
    else ("", arg) :: ffmpegOptions (value :: rest)

/-- The values that the arguments give to an option. -/
def valuesOf (flag : String) (args : List String) : List String :=
  (ffmpegOptions args).filterMap fun e => if e.1 = flag then some e.2 else none

/-- The options of ffmpeg that the builders give a value. -/
def valueFlags : List String :=
  ["-protocol_whitelist", "-i", "-ss", "-map", "-vf", "-c", "-c:v", "-c:a", "-preset", "-crf", "-b:v",
    "-b:a", "-q:v", "-q:a", "-frames:v", "-movflags", "-threads"]

/-- Every flag of the table takes a value. -/
theorem valueFlags_valued : ∀ flag ∈ valueFlags,
    bareFlags.contains flag = false ∧ isFlag flag = true := by
  decide +kernel

/-- Every flag without a value is a flag. -/
theorem bareFlags_flags : ∀ flag ∈ bareFlags, isFlag flag = true := by
  decide +kernel

/-- Options without a value, one after the other. -/
theorem valuesOf_bare {flag : String} {bare : List String} (hbare : ∀ b ∈ bare, b ∈ bareFlags)
    (hne : flag ∉ bare) (rest : List String) : valuesOf flag (bare ++ rest) = valuesOf flag rest := by
  induction bare with
  | nil => rfl
  | cons b bare ih =>
    have hb : b ∈ bareFlags := hbare b List.mem_cons_self
    rw [List.mem_cons, not_or] at hne
    have hstep : ffmpegOptions (b :: (bare ++ rest)) = (b, "") :: ffmpegOptions (bare ++ rest) := by
      rcases bare ++ rest with _ | ⟨value, rest⟩
      · simp only [ffmpegOptions, bareFlags_flags b hb, if_true]
      · rw [ffmpegOptions, if_pos (List.contains_iff_mem.mpr hb)]
    rw [← ih (fun b hb => hbare b (List.mem_cons_of_mem _ hb)) hne.2, List.cons_append, valuesOf, hstep,
      List.filterMap_cons, if_neg (Ne.symm hne.1)]
    rfl

/-- Options with their values, one after the other. -/
theorem valuesOf_pairs (flag : String) {es : List (String × String)}
    (hes : ∀ e ∈ es, e.1 ∈ valueFlags) (rest : List String) :
    valuesOf flag ((es.flatMap fun e => [e.1, e.2]) ++ rest) =
      (es.filterMap fun e => if e.1 = flag then some e.2 else none) ++ valuesOf flag rest := by
  induction es with
  | nil => rfl
  | cons e es ih =>
    obtain ⟨hvalued, hflag⟩ := valueFlags_valued e.1 (hes e List.mem_cons_self)
    have hstep : ffmpegOptions (((e :: es).flatMap fun e => [e.1, e.2]) ++ rest) =
        e :: ffmpegOptions ((es.flatMap fun e => [e.1, e.2]) ++ rest) := by
      rw [List.flatMap_cons, List.append_assoc, List.cons_append, List.cons_append, List.nil_append,
        ffmpegOptions, if_neg (by rw [hvalued]; exact Bool.false_ne_true), if_pos hflag]
    rw [valuesOf, hstep, List.filterMap_cons, List.filterMap_cons]
    have hih := ih fun e he => hes e (List.mem_cons_of_mem _ he)
    by_cases heq : e.1 = flag
    · rw [if_pos heq]
      exact congrArg (e.2 :: ·) hih
    · rw [if_neg heq]
      exact hih

/-- The output at the end. -/
theorem valuesOf_output {flag : String} (hflag : flag ∈ valueFlags) (path : String) :
    valuesOf flag ["file:" ++ path] = [] := by
  have hfile : isFlag ("file:" ++ path) = false := by
    simp [isFlag, String.toList_append]
  have hne : "" ≠ flag := by
    rintro rfl
    exact absurd hflag (by decide +kernel)
  rw [valuesOf, ffmpegOptions, hfile, if_neg Bool.false_ne_true, List.filterMap_cons, if_neg hne]
  rfl

/-- A list of the shape that every builder writes: options without a value, options with one, the same
again, and the output. -/
theorem valuesOf_shape {flag : String} (hflag : flag ∈ valueFlags) (bare bare' : List String)
    (es es' : List (String × String)) (hbare : ∀ b ∈ bare ++ bare', b ∈ bareFlags)
    (hes : ∀ e ∈ es ++ es', e.1 ∈ valueFlags) (path : String) :
    valuesOf flag (bare ++ ((es.flatMap fun e => [e.1, e.2]) ++ (bare' ++
      ((es'.flatMap fun e => [e.1, e.2]) ++ ["file:" ++ path])))) =
      (es ++ es').filterMap fun e => if e.1 = flag then some e.2 else none := by
  have hnot : ∀ b ∈ bare ++ bare', b ≠ flag := by
    rintro b hb rfl
    have hb' := List.contains_iff_mem.mpr (hbare b hb)
    rw [(valueFlags_valued b hflag).1] at hb'
    exact Bool.false_ne_true hb'
  rw [valuesOf_bare (fun b hb => hbare b (List.mem_append_left _ hb))
      (fun hmem => hnot flag (List.mem_append_left _ hmem) rfl),
    valuesOf_pairs flag (fun e he => hes e (List.mem_append_left _ he)),
    valuesOf_bare (fun b hb => hbare b (List.mem_append_right _ hb))
      (fun hmem => hnot flag (List.mem_append_right _ hmem) rfl),
    valuesOf_pairs flag (fun e he => hes e (List.mem_append_right _ he)), valuesOf_output hflag,
    List.append_nil, List.filterMap_append]

/-- Options whose names are given literally. -/
theorem valued_of_keys {es : List (String × String)} (keys : List String)
    (hkeys : es.map Prod.fst = keys) (h : ∀ key ∈ keys, key ∈ valueFlags) :
    ∀ e ∈ es, e.1 ∈ valueFlags := by
  intro e he
  apply h
  rw [← hkeys]
  exact List.mem_map_of_mem he

/-! ## What the builders ask for -/

/-- The scale filter with its option. -/
def scaleOption (height : Int) : List (String × String) :=
  if height = 0 then [] else [("-vf", "scale=-2:" ++ toString height)]

/-- The filter, as options. -/
theorem avFilterArgs_eq (height : Int) :
    avFilterArgs height = (scaleOption height).flatMap fun e => [e.1, e.2] := by
  unfold avFilterArgs avScaleFilter scaleOption
  split
  · rfl
  · rw [if_pos (by simp [String.ext_iff, String.toList_append])]
    rfl

/-- Its flag takes a value. -/
theorem scaleOption_flags (height : Int) : ∀ e ∈ scaleOption height, e.1 ∈ valueFlags := by
  unfold scaleOption
  split
  · simp
  · exact valued_of_keys ["-vf"] rfl (by simp [valueFlags])

/-- The options in front of the streams that are mapped. -/
def inputOptions (inPath : String) : List (String × String) :=
  [("-protocol_whitelist", "file,crypto"), ("-i", "file:" ++ inPath)]

/-- The flags of the input take values. -/
theorem inputOptions_flags (inPath : String) : ∀ e ∈ inputOptions inPath, e.1 ∈ valueFlags :=
  valued_of_keys ["-protocol_whitelist", "-i"] rfl (by simp [valueFlags])

/-- The options of a re-encode to mp4 behind the scale filter. -/
def mp4Options (codec : String) (threads : Int) : List (String × String) :=
  [("-c:v", if codec = "hevc" then "libx265" else "libx264"), ("-preset", "veryfast"),
    ("-crf", toString (if codec = "hevc" then x265DefaultCRF else x264DefaultCRF)), ("-c:a", "aac"),
    ("-b:a", "128k"), ("-movflags", "+faststart"), ("-threads", toString threads)]

/-- The options of a re-encode to webm behind the scale filter. -/
def webmOptions (threads : Int) : List (String × String) :=
  [("-c:v", "libvpx-vp9"), ("-b:v", "1M"), ("-c:a", "libopus"), ("-threads", toString threads)]

/-- The streams that a re-encode maps. -/
def mapOptions (videoIndex : Int) (audio : String) : List (String × String) :=
  [("-map", "0:" ++ toString videoIndex), ("-map", audio)]

/-- The flags of the mapping take values. -/
theorem mapOptions_flags (videoIndex : Int) (audio : String) :
    ∀ e ∈ mapOptions videoIndex audio, e.1 ∈ valueFlags :=
  valued_of_keys ["-map", "-map"] rfl (by simp [valueFlags])

/-- The values of an option in a list of options. -/
def lookupAll (flag : String) (es : List (String × String)) : List String :=
  es.filterMap fun e => if e.1 = flag then some e.2 else none

/-- The values of a flag add up. -/
theorem lookupAll_append (flag : String) (es es' : List (String × String)) :
    lookupAll flag (es ++ es') = lookupAll flag es ++ lookupAll flag es' := List.filterMap_append

variable {flag inPath outPath : String}

/-- A re-encode: the input, the streams, the scale filter and the codecs. -/
theorem valuesOf_reencode (inPath outPath : String) (hflag : flag ∈ valueFlags)
    {codecs : List (String × String)}
    (hcodecs : ∀ e ∈ codecs, e.1 ∈ valueFlags) (height videoIndex : Int) :
    valuesOf flag (avInputArgs inPath ++ ["-map", "0:" ++ toString videoIndex, "-map", "0:a:0?"] ++
      avFilterArgs height ++ (codecs.flatMap fun e => [e.1, e.2]) ++ ["file:" ++ outPath]) =
      lookupAll flag (inputOptions inPath ++ mapOptions videoIndex "0:a:0?") ++
        lookupAll flag (scaleOption height) ++ lookupAll flag codecs := by
  have hes : ∀ e ∈ (inputOptions inPath ++ mapOptions videoIndex "0:a:0?") ++
      (scaleOption height ++ codecs), e.1 ∈ valueFlags := by
    simp only [List.forall_mem_append]
    exact ⟨⟨inputOptions_flags _, mapOptions_flags _ _⟩, scaleOption_flags _, hcodecs⟩
  have h := valuesOf_shape hflag ["-y", "-nostdin"] [] _ _ (by simp [bareFlags]) hes
    outPath
  rw [avFilterArgs_eq, List.append_assoc _ (lookupAll _ _), ← lookupAll_append, ← lookupAll_append,
    lookupAll, ← h, List.flatMap_append, List.flatMap_append]
  simp only [avInputArgs, inputOptions, mapOptions, List.flatMap_cons, List.flatMap_nil,
    List.append_assoc, List.cons_append, List.nil_append, List.append_nil]

/-- What the MP4 builder gives for a flag. -/
theorem valuesOf_mp4 (inPath outPath : String) (hflag : flag ∈ valueFlags) (codec : String)
    (height videoIndex threads : Int) :
    valuesOf flag (transcodeToMP4Args inPath outPath codec height videoIndex threads) =
      lookupAll flag (inputOptions inPath ++ mapOptions videoIndex "0:a:0?") ++
        lookupAll flag (scaleOption height) ++ lookupAll flag (mp4Options codec threads) := by
  rw [← valuesOf_reencode inPath outPath hflag (valued_of_keys ["-c:v", "-preset", "-crf", "-c:a",
    "-b:a", "-movflags", "-threads"] rfl (by simp [valueFlags])) height videoIndex]
  simp only [transcodeToMP4Args, mp4Options, List.flatMap_cons, List.flatMap_nil, List.append_assoc,
    List.cons_append, List.nil_append]

/-- What the WebM builder gives for a flag. -/
theorem valuesOf_webm (inPath outPath : String) (hflag : flag ∈ valueFlags)
    (height videoIndex threads : Int) :
    valuesOf flag (transcodeToWebMArgs inPath outPath height videoIndex threads) =
      lookupAll flag (inputOptions inPath ++ mapOptions videoIndex "0:a:0?") ++
        lookupAll flag (scaleOption height) ++ lookupAll flag (webmOptions threads) := by
  rw [← valuesOf_reencode inPath outPath hflag (valued_of_keys ["-c:v", "-b:v", "-c:a", "-threads"]
    rfl (by simp [valueFlags])) height videoIndex]
  simp only [transcodeToWebMArgs, webmOptions, List.flatMap_cons, List.flatMap_nil, List.append_assoc,
    List.cons_append, List.nil_append]

/-- The options of a stream copy behind the streams. -/
def copyOptions (target : String) : List (String × String) :=
  ("-c", "copy") :: if target = "mp4" then [("-movflags", "+faststart")] else []

/-- What the builder of the stream copy gives for a flag. -/
theorem valuesOf_copy (inPath outPath : String) (hflag : flag ∈ valueFlags) (target : String)
    (videoIndex : Int) :
    valuesOf flag (streamCopyArgs inPath outPath target videoIndex) =
      lookupAll flag (inputOptions inPath ++ mapOptions videoIndex "0:a:0" ++ copyOptions target) := by
  have hcopy : ∀ e ∈ copyOptions target, e.1 ∈ valueFlags := by
    unfold copyOptions
    split
    · exact valued_of_keys ["-c", "-movflags"] rfl (by simp [valueFlags])
    · exact valued_of_keys ["-c"] rfl (by simp [valueFlags])
  have hes : ∀ e ∈ inputOptions inPath ++ mapOptions videoIndex "0:a:0" ++ copyOptions target,
      e.1 ∈ valueFlags := by
    simp only [List.forall_mem_append]
    exact ⟨⟨inputOptions_flags _, mapOptions_flags _ _⟩, hcopy⟩
  have h := valuesOf_shape hflag ["-y", "-nostdin"] [] _ []
    (by simp [bareFlags]) (by simpa only [List.append_nil] using hes) outPath
  rw [List.append_nil] at h
  rw [lookupAll, ← h]
  simp only [streamCopyArgs, avInputArgs, inputOptions, mapOptions, copyOptions, List.flatMap_cons,
    List.flatMap_nil, List.cons_append, List.nil_append]
  split <;> rfl

/-- The options of an audio extraction behind the input. -/
def extractOptions (target : String) (streamCopy : Bool) : List (String × String) :=
  if streamCopy then [("-c:a", "copy")]
  else if target = "mp3" then [("-c:a", "libmp3lame"), ("-q:a", "2")]
  else if target = "wav" then [("-c:a", "pcm_s16le")]
  else [("-c:a", "aac"), ("-b:a", "128k")]

/-- What the builder of the audio targets gives for a flag. -/
theorem valuesOf_extract (hflag : flag ∈ valueFlags) {target : String} {streamCopy : Bool}
    {args : List String} (hargs : extractAudioArgs inPath outPath target streamCopy = some args) :
    valuesOf flag args = lookupAll flag (inputOptions inPath ++ extractOptions target streamCopy) := by
  have hcodecs : ∀ e ∈ extractOptions target streamCopy, e.1 ∈ valueFlags := by
    unfold extractOptions
    split_ifs
    · exact valued_of_keys ["-c:a"] rfl (by simp [valueFlags])
    · exact valued_of_keys ["-c:a", "-q:a"] rfl (by simp [valueFlags])
    · exact valued_of_keys ["-c:a"] rfl (by simp [valueFlags])
    · exact valued_of_keys ["-c:a", "-b:a"] rfl (by simp [valueFlags])
  have hes : ∀ e ∈ inputOptions inPath ++ extractOptions target streamCopy, e.1 ∈ valueFlags := by
    simp only [List.forall_mem_append]
    exact ⟨inputOptions_flags _, hcodecs⟩
  have h := valuesOf_shape hflag ["-y", "-nostdin"] ["-vn"] _ _ (by simp [bareFlags]) hes
    outPath
  have hshape : args = ["-y", "-nostdin"] ++ (((inputOptions inPath).flatMap fun e => [e.1, e.2]) ++
      (["-vn"] ++ (((extractOptions target streamCopy).flatMap fun e => [e.1, e.2]) ++
        ["file:" ++ outPath]))) := by
    unfold extractAudioArgs at hargs
    obtain ⟨codec, hcodec, rfl⟩ := Option.map_eq_some_iff.mp hargs
    unfold extractOptions
    split_ifs at hcodec ⊢ <;> obtain rfl := Option.some.inj hcodec <;> rfl
  rw [hshape, h, lookupAll]

/-- The options of a thumbnail in front of its codec. -/
def seekOptions (text : FloatText) (inPath : String) (timecode : Rat) (videoIndex : Int) :
    List (String × String) :=
  [("-protocol_whitelist", "file,crypto"), ("-ss", text.shortest timecode), ("-i", "file:" ++ inPath),
    ("-map", "0:" ++ toString videoIndex), ("-frames:v", "1")]

/-- The codec of a thumbnail. -/
def thumbnailOptions (target : String) : List (String × String) :=
  if target = "jpg" then [("-c:v", "mjpeg"), ("-q:v", "2")]
  else if target = "png" then [("-c:v", "png")]
  else [("-c:v", "libwebp")]

/-- What the builder of the thumbnails gives for a flag. -/
theorem valuesOf_thumbnail (hflag : flag ∈ valueFlags) {text : FloatText} {target : String}
    {timecode : Rat} {videoIndex : Int} {args : List String}
    (hargs : thumbnailArgs text inPath outPath target timecode videoIndex = some args) :
    valuesOf flag args =
      lookupAll flag (seekOptions text inPath timecode videoIndex ++ thumbnailOptions target) := by
  have hseek : ∀ e ∈ seekOptions text inPath timecode videoIndex, e.1 ∈ valueFlags :=
    valued_of_keys ["-protocol_whitelist", "-ss", "-i", "-map", "-frames:v"] rfl (by simp [valueFlags])
  have hcodec : ∀ e ∈ thumbnailOptions target, e.1 ∈ valueFlags := by
    unfold thumbnailOptions
    split_ifs
    · exact valued_of_keys ["-c:v", "-q:v"] rfl (by simp [valueFlags])
    · exact valued_of_keys ["-c:v"] rfl (by simp [valueFlags])
    · exact valued_of_keys ["-c:v"] rfl (by simp [valueFlags])
  have hes : ∀ e ∈ seekOptions text inPath timecode videoIndex ++ thumbnailOptions target,
      e.1 ∈ valueFlags := by
    simp only [List.forall_mem_append]
    exact ⟨hseek, hcodec⟩
  have h := valuesOf_shape hflag ["-y", "-nostdin"] [] _ _ (by simp [bareFlags]) hes
    outPath
  have hshape : args = ["-y", "-nostdin"] ++
      (((seekOptions text inPath timecode videoIndex).flatMap fun e => [e.1, e.2]) ++
        ([] ++ (((thumbnailOptions target).flatMap fun e => [e.1, e.2]) ++ ["file:" ++ outPath]))) := by
    unfold thumbnailArgs at hargs
    obtain ⟨codec, hcodec, rfl⟩ := Option.map_eq_some_iff.mp hargs
    unfold thumbnailOptions
    split_ifs at hcodec ⊢ <;> obtain rfl := Option.some.inj hcodec <;> rfl
  rw [hshape, h, lookupAll]

/-! ## Honouring the options -/

/-- The codecs of the source are those that the contract of the target's container names; m4a holds no
video. -/
def InContract (target : String) (src : AVSourceProbe) : Prop :=
  target = "mp4" ∧ src.primary.codecName = "h264" ∧ src.audioCodec = "aac" ∨
    target = "webm" ∧ src.primary.codecName = "vp9" ∧ src.audioCodec = "opus" ∨
    target = "m4a" ∧ src.audioCodec = "aac"

/-- The arguments ask for what each option says that was set, and copy streams only if these are
what was asked for. -/
structure Honoured (text : FloatText) (target : String) (o : AVOpts) (src : AVSourceProbe)
    (args : List String) : Prop where
  height : o.resolutionHeight ≠ 0 → valuesOf "-vf" args = ["scale=-2:" ++ toString o.resolutionHeight]
  hevc : o.codec = "hevc" →
    valuesOf "-c:v" args = ["libx265"] ∧ valuesOf "-crf" args = [toString x265DefaultCRF]
  h264 : o.codec = "h264" →
    valuesOf "-c:v" args = ["libx264"] ∨ valuesOf "-c" args = ["copy"] ∧ src.primary.codecName = "h264"
  timecode : ∀ t, o.timecode = some t → valuesOf "-ss" args = [text.shortest t]
  copy : (∃ flag ∈ ["-c", "-c:v", "-c:a"], "copy" ∈ valuesOf flag args) →
    InContract target src ∧ o.resolutionHeight = 0 ∧ o.timecode = none ∧
      (o.codec = "" ∨ o.codec = src.primary.codecName)

/-- Options that the parser and the check of the formats accept. -/
structure Accepted (target : String) (o : AVOpts) : Prop where
  codec : o.codec = "" ∨ o.codec = "h264" ∨ o.codec = "hevc"
  timecode : o.timecode ≠ none → target ∈ avThumbnailTargets
  height : o.resolutionHeight ≠ 0 → target ∈ avTranscodeTargets
  hevc : o.codec = "hevc" → target = "mp4"

/-- Options that were accepted pass their check. -/
theorem check_of_optsFromMap {codec : FloatCodec} {opts : Opts} {o : AVOpts}
    (h : avOptsFromMap codec opts = .ok o) : (avSchema codec).check o = none := by
  unfold avOptsFromMap Schema.optsFromMap at h
  split at h
  · obtain rfl := Except.ok.inj h
    rfl
  · exact Schema.parseOpts_check h

/-- Options that apply to the target are accepted for it. -/
theorem accepted_of_applicable {codec : FloatCodec} {opts : Opts} {o : AVOpts} {source target : String}
    (hopts : avOptsFromMap codec opts = .ok o) (htarget : normalizeFormat target = target)
    (happ : validateAVApplicability .av source target o = none) : Accepted target o := by
  have hcodec : o.codec = "" ∨ o.codec = "h264" ∨ o.codec = "hevc" := by
    have hcheck := check_of_optsFromMap hopts
    by_contra hnot
    simp only [not_or] at hnot
    have hmem : o.codec ∉ avCodecAllowlist := by
      simp only [avCodecAllowlist, List.mem_cons, List.not_mem_nil, or_false, not_or]
      exact hnot.2
    simp only [avSchema] at hcheck
    split_ifs at hcheck with _ _ hallowed
    exact hallowed ⟨hnot.1, hmem⟩
  by_cases hzero : isZeroAVOpts o = true
  · simp only [isZeroAVOpts, Bool.and_eq_true, decide_eq_true_eq] at hzero
    obtain ⟨⟨htime, hheight⟩, hnone⟩ := hzero
    refine ⟨hcodec, fun h => absurd htime h, fun h => absurd hheight h, ?_⟩
    intro h
    rw [hnone] at h
    exact absurd h (by decide)
  · unfold validateAVApplicability at happ
    rw [if_neg hzero, if_neg (by simp)] at happ
    dsimp only at happ
    rw [htarget] at happ
    split_ifs at happ with htime hheight hhevc
    refine ⟨hcodec, ?_, ?_, ?_⟩
    · intro h
      by_contra hnot
      exact htime ⟨h, hnot⟩
    · intro h
      by_contra hnot
      exact hheight ⟨h, hnot⟩
    · intro h
      by_contra hnot
      exact hhevc ⟨h, hnot⟩

variable {text : FloatText} {host : AVHost} {target : String} {o : AVOpts} {src : AVSourceProbe}
  {args : List String}

/-- The flags that carry options take values. -/
theorem flags_valued : ∀ flag ∈ ["-vf", "-c", "-c:v", "-c:a", "-crf", "-ss"], flag ∈ valueFlags := by
  simp [valueFlags]

/-- A transcoding has no timecode. -/
theorem timecode_none (hacc : Accepted target o) (ht : target ∈ avTranscodeTargets) :
    o.timecode = none := by
  by_contra hne
  have hmem := hacc.timecode hne
  simp only [avThumbnailTargets, avTranscodeTargets, List.mem_cons, List.not_mem_nil,
    or_false] at hmem ht
  rcases ht with rfl | rfl <;> simp at hmem

/-- A copy is made only of streams that are what was asked for. -/
theorem honoured_copy (hacc : Accepted target o) (hcopy : avStreamCopyEligible target o src = true)
    (ht : target ∈ avTranscodeTargets) :
    Honoured text target o src (streamCopyArgs inPath outPath target src.primary.index) := by
  have hvalues := fun flag hflag => valuesOf_copy inPath outPath
    (flags_valued flag hflag) target src.primary.index
  simp only [avStreamCopyEligible, Bool.and_eq_true, decide_eq_true_eq, Bool.or_eq_true] at hcopy
  obtain ⟨⟨hlegal, hheight⟩, hcodec⟩ := hcopy
  have htime := timecode_none hacc ht
  have hcontract : InContract target src := by
    simp only [avTranscodeTargets, List.mem_cons, List.not_mem_nil, or_false] at ht
    rcases ht with rfl | rfl
    · simp only [avStreamCopyLegal, if_true, Bool.and_eq_true, decide_eq_true_eq] at hlegal
      exact .inl ⟨rfl, hlegal⟩
    · simp only [avStreamCopyLegal, String.reduceEq, if_true, if_false, Bool.and_eq_true,
        decide_eq_true_eq] at hlegal
      exact .inr (.inl ⟨rfl, hlegal⟩)
  have hsame : o.codec ≠ "" → o.codec = src.primary.codecName := fun h => hcodec.resolve_left h
  refine ⟨fun h => absurd hheight h, ?_, ?_, ?_, fun _ => ⟨hcontract, hheight, htime, hcodec⟩⟩
  · intro hhevc
    have hmp4 := hacc.hevc hhevc
    have hsrc := hsame (by rw [hhevc]; decide)
    rw [hhevc] at hsrc
    rcases hcontract with ⟨-, h264, -⟩ | ⟨hwebm, -⟩ | ⟨hm4a, -⟩
    · rw [h264] at hsrc
      exact absurd hsrc (by decide)
    · rw [hmp4] at hwebm
      exact absurd hwebm (by decide)
    · rw [hmp4] at hm4a
      exact absurd hm4a (by decide)
  · intro h264
    refine .inr ⟨?_, ?_⟩
    · rw [hvalues "-c" (by simp)]
      simp only [lookupAll, inputOptions, mapOptions, copyOptions]
      split <;> simp
    · rw [← hsame (by rw [h264]; decide), h264]
  · intro t h
    rw [htime] at h
    exact absurd h (by simp)

/-- The filter that a re-encode is given. -/
theorem lookupAll_scale {height : Int} (h : height ≠ 0) :
    lookupAll "-vf" (scaleOption height) = ["scale=-2:" ++ toString height] := by
  rw [scaleOption, if_neg h]
  rfl

/-- The filter is given under its own flag only. -/
theorem lookupAll_scale_ne {flag : String} (hne : "-vf" ≠ flag) (height : Int) :
    lookupAll flag (scaleOption height) = [] := by
  unfold scaleOption
  split
  · rfl
  · simp [lookupAll, hne]

/-- The flags of the codecs take values. -/
theorem codec_valued : ∀ flag ∈ ["-c", "-c:v", "-c:a", "-crf"], flag ∈ valueFlags := by
  simp [valueFlags]

/-- An option of a codec is none of the input, of the streams or of the filter. -/
theorem lookupAll_codec {flag : String} (hflag : flag ∈ ["-c", "-c:v", "-c:a", "-crf"])
    (inPath : String) (videoIndex height : Int) (codecs : List (String × String)) :
    lookupAll flag (inputOptions inPath ++ mapOptions videoIndex "0:a:0?") ++
      lookupAll flag (scaleOption height) ++ lookupAll flag codecs = lookupAll flag codecs := by
  have hscale : "-vf" ≠ flag := by
    rintro rfl
    simp at hflag
  rw [lookupAll_scale_ne hscale, List.append_nil]
  simp only [List.mem_cons, List.not_mem_nil, or_false] at hflag
  rcases hflag with rfl | rfl | rfl | rfl <;> simp [lookupAll, inputOptions, mapOptions]

/-- A re-encode to mp4 honours every option. -/
theorem honoured_mp4 (hacc : Accepted "mp4" o) (videoIndex threads : Int) :
    Honoured text "mp4" o src
      (transcodeToMP4Args inPath outPath o.codec o.resolutionHeight videoIndex threads) := by
  have hvalues := fun flag hflag => valuesOf_mp4 inPath outPath
    (flags_valued flag hflag) o.codec o.resolutionHeight videoIndex threads
  have hcodecs := fun flag hflag => (valuesOf_mp4 inPath outPath (codec_valued flag hflag) o.codec
    o.resolutionHeight videoIndex threads).trans (lookupAll_codec hflag _ _ _ _)
  have hcopy : ¬ ∃ flag ∈ ["-c", "-c:v", "-c:a"], "copy" ∈ valuesOf flag
      (transcodeToMP4Args inPath outPath o.codec o.resolutionHeight videoIndex threads) := by
    rintro ⟨flag, hflag, hmem⟩
    simp only [List.mem_cons, List.not_mem_nil, or_false] at hflag
    rcases hflag with rfl | rfl | rfl
    · rw [hcodecs "-c" (by simp)] at hmem
      simp [lookupAll, mp4Options] at hmem
    · rw [hcodecs "-c:v" (by simp)] at hmem
      simp only [lookupAll, mp4Options] at hmem
      split at hmem <;> simp at hmem
    · rw [hcodecs "-c:a" (by simp)] at hmem
      simp [lookupAll, mp4Options] at hmem
  refine ⟨?_, ?_, ?_, ?_, fun h => absurd h hcopy⟩
  · intro hheight
    rw [hvalues "-vf" (by simp), lookupAll_scale hheight]
    simp [lookupAll, inputOptions, mapOptions, mp4Options]
  · intro hhevc
    rw [hcodecs "-c:v" (by simp), hcodecs "-crf" (by simp)]
    simp [lookupAll, mp4Options, hhevc]
  · intro h264
    left
    rw [hcodecs "-c:v" (by simp)]
    simp [lookupAll, mp4Options, h264]
  · intro t h
    rw [timecode_none hacc (by simp [avTranscodeTargets])] at h
    exact absurd h (by simp)

/-- Arguments that neither copy the streams nor ask for libx264 do not honour h264. -/
theorem not_honoured (h264 : o.codec = "h264") (hencoder : valuesOf "-c:v" args ≠ ["libx264"])
    (hcopy : valuesOf "-c" args = []) : ¬ Honoured text target o src args := by
  intro h
  rcases h.h264 h264 with hx | ⟨hx, -⟩
  · exact hencoder hx
  · rw [hcopy] at hx
    exact absurd hx (by simp)

/-- What is left to check where no codec was asked for. -/
theorem honoured_of_no_codec (hcodec : o.codec = "")
    (hheight : o.resolutionHeight ≠ 0 →
      valuesOf "-vf" args = ["scale=-2:" ++ toString o.resolutionHeight])
    (htime : ∀ t, o.timecode = some t → valuesOf "-ss" args = [text.shortest t])
    (hcopy : (∃ flag ∈ ["-c", "-c:v", "-c:a"], "copy" ∈ valuesOf flag args) →
      InContract target src ∧ o.resolutionHeight = 0 ∧ o.timecode = none) :
    Honoured text target o src args := by
  refine ⟨hheight, ?_, ?_, htime, ?_⟩
  · intro h
    rw [hcodec] at h
    exact absurd h (by decide)
  · intro h
    rw [hcodec] at h
    exact absurd h (by decide)
  · intro h
    obtain ⟨hcontract, hzero, hnone⟩ := hcopy h
    exact ⟨hcontract, hzero, hnone, .inl hcodec⟩

/-- Outside mp4 no codec is set but h264. -/
theorem codec_cases (hacc : Accepted target o) (ht : target ≠ "mp4") :
    o.codec = "" ∨ o.codec = "h264" := by
  rcases hacc.codec with h | h | h
  · exact .inl h
  · exact .inr h
  · exact absurd (hacc.hevc h) ht

/-- A re-encode to webm honours every option but h264. -/
theorem honoured_webm_iff (hacc : Accepted "webm" o) (videoIndex threads : Int) :
    Honoured text "webm" o src
      (transcodeToWebMArgs inPath outPath o.resolutionHeight videoIndex threads) ↔
      o.codec ≠ "h264" := by
  have hvalues := fun flag hflag => valuesOf_webm inPath outPath
    (flags_valued flag hflag) o.resolutionHeight videoIndex threads
  have hcodecs := fun flag hflag => (valuesOf_webm inPath outPath (codec_valued flag hflag)
    o.resolutionHeight videoIndex threads).trans (lookupAll_codec hflag _ _ _ _)
  have hencoder : valuesOf "-c:v"
      (transcodeToWebMArgs inPath outPath o.resolutionHeight videoIndex threads) = ["libvpx-vp9"] := by
    rw [hcodecs "-c:v" (by simp)]
    simp [lookupAll, webmOptions]
  have hcopy : valuesOf "-c"
      (transcodeToWebMArgs inPath outPath o.resolutionHeight videoIndex threads) = [] := by
    rw [hcodecs "-c" (by simp)]
    simp [lookupAll, webmOptions]
  constructor
  · intro h h264
    exact not_honoured h264 (by rw [hencoder]; decide) hcopy h
  · intro hne
    apply honoured_of_no_codec ((codec_cases hacc (by decide)).resolve_right hne)
    · intro hheight
      rw [hvalues "-vf" (by simp), lookupAll_scale hheight]
      simp [lookupAll, inputOptions, mapOptions, webmOptions]
    · intro t h
      rw [timecode_none hacc (by simp [avTranscodeTargets])] at h
      exact absurd h (by simp)
    · rintro ⟨flag, hflag, hmem⟩
      simp only [List.mem_cons, List.not_mem_nil, or_false] at hflag
      rcases hflag with rfl | rfl | rfl
      · rw [hcopy] at hmem
        exact absurd hmem (by simp)
      · rw [hencoder] at hmem
        exact absurd hmem (by simp)
      · rw [hcodecs "-c:a" (by simp)] at hmem
        simp [lookupAll, webmOptions] at hmem

/-- Only a transcoding has a height. -/
theorem height_zero (hacc : Accepted target o) (ht : target ∉ avTranscodeTargets) :
    o.resolutionHeight = 0 := by
  by_contra hne
  exact ht (hacc.height hne)

/-- An audio extraction honours every option but h264. -/
theorem honoured_extract_iff (hacc : Accepted target o) (ht : target ∈ avAudioExtractTargets)
    (hargs : avExtractArgs inPath outPath target src = .ok args) :
    Honoured text target o src args ↔ o.codec ≠ "h264" := by
  unfold avExtractArgs at hargs
  split at hargs
  · exact absurd hargs (by simp)
  rename_i l hl
  obtain rfl := Except.ok.inj hargs
  have hvalues := fun flag hflag => valuesOf_extract (flags_valued flag hflag) hl
  simp only [avAudioExtractTargets, List.mem_cons, List.not_mem_nil, or_false] at ht
  have hheight : o.resolutionHeight = 0 := by
    apply height_zero hacc
    rcases ht with rfl | rfl | rfl <;> simp [avTranscodeTargets]
  have htime : o.timecode = none := by
    by_contra hne
    have hmem := hacc.timecode hne
    rcases ht with rfl | rfl | rfl <;> simp [avThumbnailTargets] at hmem
  have hencoder : valuesOf "-c:v" l = [] := by
    rw [hvalues "-c:v" (by simp)]
    simp only [lookupAll, inputOptions, extractOptions]
    split_ifs <;> simp
  have hcopy : valuesOf "-c" l = [] := by
    rw [hvalues "-c" (by simp)]
    simp only [lookupAll, inputOptions, extractOptions]
    split_ifs <;> simp
  have hmp4 : target ≠ "mp4" := by
    rcases ht with rfl | rfl | rfl <;> decide
  constructor
  · intro h h264
    exact not_honoured h264 (by rw [hencoder]; decide) hcopy h
  · intro hne
    apply honoured_of_no_codec ((codec_cases hacc hmp4).resolve_right hne)
    · exact fun h => absurd hheight h
    · intro t h
      rw [htime] at h
      exact absurd h (by simp)
    · rintro ⟨flag, hflag, hmem⟩
      refine ⟨?_, hheight, htime⟩
      simp only [List.mem_cons, List.not_mem_nil, or_false] at hflag
      rcases hflag with rfl | rfl | rfl
      · rw [hcopy] at hmem
        exact absurd hmem (by simp)
      · rw [hencoder] at hmem
        exact absurd hmem (by simp)
      · rw [hvalues "-c:a" (by simp)] at hmem
        by_cases hsrc : target = "m4a" ∧ src.audioCodec = "aac"
        · exact .inr (.inr hsrc)
        · have hfalse : (decide (target = "m4a") && decide (src.audioCodec = "aac")) = false := by
            rw [← Bool.decide_and, decide_eq_false_iff_not]
            exact hsrc
          rw [hfalse, extractOptions, if_neg Bool.false_ne_true] at hmem
          split at hmem
          · simp [lookupAll, inputOptions] at hmem
          · split at hmem <;> simp [lookupAll, inputOptions] at hmem

/-- A thumbnail honours every option but h264. -/
theorem honoured_thumbnail_iff (hacc : Accepted target o) (ht : target ∈ avThumbnailExtractTargets)
    (hargs : avThumbnailArgs text inPath outPath target o src = .ok args) :
    Honoured text target o src args ↔ o.codec ≠ "h264" := by
  unfold avThumbnailArgs at hargs
  split at hargs
  · exact absurd hargs (by simp)
  rename_i timecode htimecode
  split at hargs
  · exact absurd hargs (by simp)
  rename_i l hl
  obtain rfl := Except.ok.inj hargs
  have hvalues := fun flag hflag => valuesOf_thumbnail (flags_valued flag hflag) hl
  simp only [avThumbnailExtractTargets, List.mem_cons, List.not_mem_nil, or_false] at ht
  have hheight : o.resolutionHeight = 0 := by
    apply height_zero hacc
    rcases ht with rfl | rfl | rfl <;> simp [avTranscodeTargets]
  have hencoder : valuesOf "-c:v" l ∈ [["mjpeg"], ["png"], ["libwebp"]] := by
    rw [hvalues "-c:v" (by simp)]
    simp only [lookupAll, seekOptions, thumbnailOptions]
    split_ifs <;> simp
  have hcopy : valuesOf "-c" l = [] := by
    rw [hvalues "-c" (by simp)]
    simp only [lookupAll, seekOptions, thumbnailOptions]
    split_ifs <;> simp
  have hmp4 : target ≠ "mp4" := by
    rcases ht with rfl | rfl | rfl <;> decide
  constructor
  · intro h h264
    refine not_honoured h264 ?_ hcopy h
    intro heq
    rw [heq] at hencoder
    exact absurd hencoder (by simp)
  · intro hne
    apply honoured_of_no_codec ((codec_cases hacc hmp4).resolve_right hne)
    · exact fun h => absurd hheight h
    · intro t h
      have hseek : timecode = t := by
        unfold avTimecode at htimecode
        rw [h] at htimecode
        dsimp only at htimecode
        split at htimecode
        · exact absurd htimecode (by simp)
        · exact (Except.ok.inj htimecode).symm
      rw [hvalues "-ss" (by simp), hseek]
      simp only [lookupAll, seekOptions, thumbnailOptions]
      split_ifs <;> simp
    · rintro ⟨flag, hflag, hmem⟩
      simp only [List.mem_cons, List.not_mem_nil, or_false] at hflag
      rcases hflag with rfl | rfl | rfl
      · rw [hcopy] at hmem
        exact absurd hmem (by simp)
      · simp only [List.mem_cons, List.not_mem_nil, or_false] at hencoder
        rcases hencoder with h | h | h <;> rw [h] at hmem <;> simp at hmem
      · rw [hvalues "-c:a" (by simp)] at hmem
        simp only [lookupAll, seekOptions, thumbnailOptions] at hmem
        split_ifs at hmem <;> simp at hmem

/-- **The arguments honour the options** exactly if these do not ask for h264 in another container than
mp4. -/
theorem honoured_iff (hacc : Accepted target o) (ht : target ∈ avTargetFormats)
    (hargs : avArgs host inPath outPath target o src = .ok args) :
    Honoured host.text target o src args ↔ ¬ (o.codec = "h264" ∧ target ≠ "mp4") := by
  unfold avArgs at hargs
  split at hargs
  · rename_i htrans
    unfold avTranscodeArgs at hargs
    split at hargs
    · rename_i hcopy
      obtain rfl := Except.ok.inj hargs
      refine iff_of_true (honoured_copy hacc hcopy htrans) ?_
      rintro ⟨h264, hne⟩
      simp only [avStreamCopyEligible, Bool.and_eq_true, decide_eq_true_eq, Bool.or_eq_true] at hcopy
      obtain ⟨⟨hlegal, -⟩, hcodec⟩ := hcopy
      have hsrc : src.primary.codecName = "h264" := by
        rw [← hcodec.resolve_left (by rw [h264]; decide), h264]
      simp only [avTranscodeTargets, List.mem_cons, List.not_mem_nil, or_false] at htrans
      obtain rfl := htrans.resolve_left hne
      rw [hsrc] at hlegal
      simp [avStreamCopyLegal] at hlegal
    · split at hargs
      · exact absurd hargs (by simp)
      split_ifs at hargs with hmp4 hwebm
      · subst hmp4
        obtain rfl := Except.ok.inj hargs
        exact iff_of_true (honoured_mp4 hacc _ _) (by simp)
      · subst hwebm
        obtain rfl := Except.ok.inj hargs
        rw [honoured_webm_iff hacc]
        simp
  · split at hargs
    · rename_i haudio
      have hmp4 : target ≠ "mp4" := by
        rintro rfl
        exact absurd haudio (by decide)
      rw [honoured_extract_iff hacc haudio hargs]
      simp [hmp4]
    · rename_i htrans haudio
      have hthumb : target ∈ avThumbnailExtractTargets := by
        simp only [avTargetFormats, List.mem_append] at ht
        rcases ht with (h | h) | h
        · exact absurd h htrans
        · exact absurd h haudio
        · exact h
      have hmp4 : target ≠ "mp4" := by
        rintro rfl
        exact absurd hthumb (by decide)
      rw [honoured_thumbnail_iff hacc hthumb hargs]
      simp [hmp4]

/-- The targets of the converter's pairs are the formats it converts to, and canonical. -/
theorem target_of_pair {maxDuration maxHeight : Int} {source target : String}
    (h : Pair.mk source target ∈ (Converter.av maxDuration maxHeight).pairs) :
    target ∈ avTargetFormats ∧ normalizeFormat target = target := by
  have hall : ∀ q ∈ (Converter.av 0 0).pairs, q.target ∈ avTargetFormats := by decide +kernel
  exact ⟨hall _ h, formatKeys_canonical _ (Converter.pairs_keys _ _ h).2⟩

/-- **Every run that starts ffmpeg** gives it, once, arguments that honour the accepted options
exactly if these do not ask for h264 in another container than mp4. -/
theorem av_options_honoured_iff {maxDuration maxHeight : Int} {opts : Opts} {source : String}
    {tr : ToolTrace} {r : Except GoError Unit}
    (hpair : Pair.mk source (normalizeFormat (UnixPath.ext outPath)) ∈
      (Converter.av maxDuration maxHeight).pairs)
    (hopts : avOptsFromMap host.codec opts = .ok o)
    (happ : validateAVApplicability .av source (normalizeFormat (UnixPath.ext outPath)) o = none)
    (hrun : (avConvert host maxDuration maxHeight inPath outPath opts).Runs tr r)
    (hffmpeg : ¬ Quiet tr) :
    ∃ args src, RunsFfmpeg tr args ∧ Probed host.text inPath tr src ∧
      (Honoured host.text (normalizeFormat (UnixPath.ext outPath)) o src args ↔
        ¬ (o.codec = "h264" ∧ normalizeFormat (UnixPath.ext outPath) ≠ "mp4")) := by
  obtain ⟨ht, hcanonical⟩ := target_of_pair hpair
  unfold avConvert at hrun
  rw [hopts] at hrun
  dsimp only at hrun
  rw [if_pos ht] at hrun
  rcases Prog.always_iff.mp (avConvertTo_always host maxDuration maxHeight inPath outPath _ o) tr r
    hrun with hquiet | ⟨args, src, hruns, hprobed, -, hargs⟩
  · exact absurd hquiet hffmpeg
  · have hacc := accepted_of_applicable hopts hcanonical happ
    exact ⟨args, src, hruns, hprobed, honoured_iff hacc ht hargs⟩

/-! ## A host -/

/-- The whole part of a number, without its sign. -/
def wholeText (x : Rat) : String := toString (x.num.natAbs / x.den)

/-- A whole number is written without blanks. -/
theorem blank_notMem_wholeText (x : Rat) : ' ' ∉ (wholeText x).toList := by
  intro h
  rw [wholeText, Nat.toString_eq_ofList_toDigits, String.toList_ofList] at h
  exact absurd (Nat.isDigit_of_mem_toDigits (by decide) (by decide) h) (by decide)

/-- A number that is whole is read as the library reads it. -/
def parseWhole (s : String) : Except String Float64 :=
  match Api.naturalOf s with
  | some n => .ok (.finite n)
  | none => .error ("strconv.ParseFloat: parsing " ++ goQuote s ++ ": invalid syntax")

/-- The text of a natural number is read back. -/
theorem parseWhole_natural (n : Nat) (h : n ≤ 2 ^ 31) : parseWhole (toString n) = .ok (.finite n) := by
  rw [parseWhole, Api.naturalOf_toString (by omega)]

/-- A number is written without its fraction. -/
def writeWhole : Float64 → String
  | .finite q => wholeText q
  | .inf negative => if negative then "-Inf" else "+Inf"
  | .nan => "NaN"

/-- A float is written without blanks. -/
theorem blank_notMem_writeWhole (x : Float64) : ' ' ∉ (writeWhole x).toList := by
  rcases x with q | negative | _
  · exact blank_notMem_wholeText q
  · cases negative <;> decide
  · decide

/-- So is one with decimals. -/
theorem blank_notMem_fixedWhole (n : Nat) (x : Rat) :
    ' ' ∉ (wholeText x ++ "." ++ String.ofList (List.replicate n '0')).toList := by
  simp [String.toList_append, blank_notMem_wholeText x]

/-- Numbers that are whole are read and written as the library does. -/
def exampleText : FloatText where
  parse := parseWhole
  general := writeWhole
  shortest := wholeText
  fixed n x := wholeText x ++ "." ++ String.ofList (List.replicate n '0')
  parse_natural := parseWhole_natural
  general_blank := blank_notMem_writeWhole
  fixed_blank := blank_notMem_fixedWhole

/-- A host with two threads per run that keeps twice the size of an input free. -/
def exampleHost : AVHost := ⟨exampleText, Api.exampleCodec, 2, 2⟩

/-- What ffprobe prints about a video without embedded pictures. -/
def exampleStreams : String :=
  "\x7b\"streams\": [\x7b\"index\": 0, \"codec_name\": \"h264\", \"width\": 640, \"height\": 360, " ++
    "\"disposition\": \x7b\"attached_pic\": 0\x7d\x7d]\x7d"

/-- That source, of ten seconds, with sound. -/
def exampleSource : AVSourceProbe :=
  ⟨10000000000, [⟨0, "h264", 640, 360, false⟩], ⟨0, "h264", 640, 360, false⟩, "opus"⟩

/-- A source that the host can probe reaches ffmpeg. -/
theorem exampleHost_runs {inPath outPath : String} {opts : Opts} {o : AVOpts} {args : List String}
    {out : String} {src : AVSourceProbe} (hopts : avOptsFromMap exampleHost.codec opts = .ok o)
    (ht : normalizeFormat (UnixPath.ext outPath) ∈ avTargetFormats)
    (hduration : src.duration = 10000000000) (hstreams : readVideoStreams out = .ok src.videoStreams)
    (hprimary : avPrimaryVideoStream src.videoStreams = some src.primary)
    (haudio : src.audioCodec = "opus")
    (hheight : avMaxVideoHeight src.videoStreams ≤ avMaxSourceResolutionHeight)
    (hargs : avArgs exampleHost inPath outPath (normalizeFormat (UnixPath.ext outPath)) o src =
      .ok args) :
    ∃ tr r, (avConvert exampleHost 0 0 inPath outPath opts).Runs tr r ∧ RunsFfmpeg tr args ∧
      Probed exampleText inPath tr src := by
  have hconvert : avConvert exampleHost 0 0 inPath outPath opts =
      avConvertTo exampleHost 0 0 inPath outPath (normalizeFormat (UnixPath.ext outPath)) o := by
    unfold avConvert
    rw [hopts]
    exact if_pos ht
  rw [hconvert]
  have hread : parseProbedDuration exampleText "10" = .ok src.duration := by
    rw [hduration]
    decide +kernel
  have hcodec : src.audioCodec = Strings.trimSpace "opus" := by
    rw [haudio]
    decide +kernel
  have hmax : src.duration ≤ ceilingOr 0 avMaxSourceDuration := by
    rw [hduration]
    decide +kernel
  have hdisk : neededBytes exampleHost 4096 ≤ 1000000 * 4096 % 2 ^ 64 := by decide +kernel
  exact avConvertTo_runs hread hstreams hprimary hcodec hmax hheight hdisk hargs
    (.killed .deadlineExceeded)

/-- A webm of another height is made of an mp4 with the scale filter. -/
theorem av_options_honoured_height :
    ∃ tr r, (avConvert exampleHost 0 0 "/tmp/in.mp4" "/tmp/out.webm"
        [("resolution_height", .number 480)]).Runs tr r ∧
      ∃ args src, RunsFfmpeg tr args ∧ Probed exampleText "/tmp/in.mp4" tr src ∧
        (Honoured exampleText "webm" ⟨none, 480, ""⟩ src args ↔
          ¬ ("" = "h264" ∧ normalizeFormat (UnixPath.ext "/tmp/out.webm") ≠ "mp4")) := by
  have hopts : avOptsFromMap exampleHost.codec [("resolution_height", .number 480)] =
      .ok ⟨none, 480, ""⟩ := by decide +kernel
  have hformat : normalizeFormat (UnixPath.ext "/tmp/out.webm") = "webm" := by decide +kernel
  have hbound : enforceReencodeSourceBound exampleSource.primary.width exampleSource.primary.height =
      .ok () := by decide +kernel
  have hargs : avArgs exampleHost "/tmp/in.mp4" "/tmp/out.webm"
      (normalizeFormat (UnixPath.ext "/tmp/out.webm")) ⟨none, 480, ""⟩ exampleSource =
        .ok (transcodeToWebMArgs "/tmp/in.mp4" "/tmp/out.webm" 480 0 2) := by
    rw [hformat]
    decide +kernel
  have hstreams : readVideoStreams exampleStreams = .ok exampleSource.videoStreams := by decide +kernel
  obtain ⟨tr, r, hrun, hffmpeg, -⟩ := exampleHost_runs hopts (by rw [hformat]; decide +kernel) rfl
    hstreams (by decide +kernel) rfl (by decide +kernel) hargs
  have happ : validateAVApplicability .av "mp4" (normalizeFormat (UnixPath.ext "/tmp/out.webm"))
      ⟨none, 480, ""⟩ = none := by
    rw [hformat]
    decide +kernel
  have hpair : Pair.mk "mp4" (normalizeFormat (UnixPath.ext "/tmp/out.webm")) ∈
      (Converter.av 0 0).pairs := by
    rw [hformat]
    decide +kernel
  have h := av_options_honoured_iff hpair hopts happ hrun hffmpeg.not_quiet
  rw [hformat] at h ⊢
  exact ⟨tr, r, hrun, h⟩

/-- From mp4 to webm the codec h264 is admitted, and ffmpeg is asked for vp9. -/
theorem codec_h264_discarded :
    Pair.mk "mp4" "webm" ∈ (Converter.av 0 0).pairs ∧
      avOptsFromMap exampleHost.codec [("codec", .string "h264")] = .ok ⟨none, 0, "h264"⟩ ∧
      validateAVApplicability .av "mp4" "webm" ⟨none, 0, "h264"⟩ = none ∧
      ∃ tr r args src, (avConvert exampleHost 0 0 "/tmp/in.mp4" "/tmp/out.webm"
          [("codec", .string "h264")]).Runs tr r ∧
        RunsFfmpeg tr args ∧ Probed exampleText "/tmp/in.mp4" tr src ∧
        valuesOf "-c:v" args = ["libvpx-vp9"] ∧
        ¬ Honoured exampleText "webm" ⟨none, 0, "h264"⟩ src args := by
  have hopts : avOptsFromMap exampleHost.codec [("codec", .string "h264")] = .ok ⟨none, 0, "h264"⟩ := by
    decide +kernel
  have hformat : normalizeFormat (UnixPath.ext "/tmp/out.webm") = "webm" := by decide +kernel
  have hargs : avArgs exampleHost "/tmp/in.mp4" "/tmp/out.webm"
      (normalizeFormat (UnixPath.ext "/tmp/out.webm")) ⟨none, 0, "h264"⟩ exampleSource =
        .ok (transcodeToWebMArgs "/tmp/in.mp4" "/tmp/out.webm" 0 0 2) := by
    rw [hformat]
    decide +kernel
  have hstreams : readVideoStreams exampleStreams = .ok exampleSource.videoStreams := by decide +kernel
  obtain ⟨tr, r, hrun, hffmpeg, hprobed⟩ := exampleHost_runs hopts (by rw [hformat]; decide +kernel) rfl
    hstreams (by decide +kernel) rfl (by decide +kernel) hargs
  have hencoder : valuesOf "-c:v" (transcodeToWebMArgs "/tmp/in.mp4" "/tmp/out.webm" 0 0 2) =
      ["libvpx-vp9"] := by decide +kernel
  have hcopy : valuesOf "-c" (transcodeToWebMArgs "/tmp/in.mp4" "/tmp/out.webm" 0 0 2) = [] := by
    decide +kernel
  refine ⟨by decide +kernel, hopts, by decide +kernel, tr, r, _, _, hrun, hffmpeg, hprobed, hencoder,
    ?_⟩
  intro h
  rcases h.h264 rfl with henc | ⟨hstream, -⟩
  · rw [hencoder] at henc
    exact absurd henc (by decide)
  · rw [hcopy] at hstream
    exact absurd hstream (by decide)

end OctoConv
