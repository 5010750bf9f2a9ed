import OctoConv.Convert.AvOptions

/-!
# Which stream is decoded

A re-encode and a thumbnail decode one video stream of the source. The stream that is mapped is the
first one with the greatest product of width and height among those that are no embedded pictures;
the height of every stream is checked against a ceiling, but the width only for a re-encode.

Source: `internal/convert/av.go`, `internal/convert/avduration.go`.

## Main results

* `avPrimaryVideoStream_eq_some` — the primary stream of a source that has more than embedded pictures.
* `largest_of_firstMax` — it has the greatest area, if sizes are numbers of 31 bits.
* `decoded_stream_bounded_iff` — when a stream that is decoded is bounded and the largest.
-/

namespace OctoConv

open Conc

/-! ## The primary stream -/

/-- The streams that are no embedded pictures. -/
def nonCover (streams : List AVVideoStream) : List AVVideoStream :=
  streams.filter fun s => !s.attachedPic

/-- The area of the frames of a stream. -/
def AVVideoStream.area (s : AVVideoStream) : Int := s.width * s.height

/-- A stream of the largest area among those that are no embedded pictures. -/
structure Largest (streams : List AVVideoStream) (s : AVVideoStream) : Prop where
  mem : s ∈ nonCover streams
  area_le : ∀ t ∈ nonCover streams, t.area ≤ s.area

/-- The primary stream of a source that has more than embedded pictures. -/
theorem avPrimaryVideoStream_eq_some {streams : List AVVideoStream} {s : AVVideoStream}
    (hne : nonCover streams ≠ []) :
    avPrimaryVideoStream streams = some s ↔ FirstMax AVVideoStream.area64 (nonCover streams) s := by
  have hfold : ∃ m, (nonCover streams).foldl larger none = some m := by
    rcases hl : nonCover streams with _ | ⟨x, l⟩
    · exact absurd hl hne
    · rw [larger_eq]
      obtain ⟨m, hm, -⟩ := foldl_keepMax_some AVVideoStream.area64 l x
      exact ⟨m, hm⟩
  obtain ⟨m, hm⟩ := hfold
  have hprimary : avPrimaryVideoStream streams = some m := by
    unfold avPrimaryVideoStream
    rw [nonCover] at hm
    rw [hm]
  rw [hprimary, ← hm, foldl_larger_eq_some]

/-- A product of two sizes of 31 bits does not overflow. -/
theorem area64_eq {s : AVVideoStream} (hw : 0 ≤ s.width) (hw' : s.width < 2 ^ 31) (hh : 0 ≤ s.height)
    (hh' : s.height < 2 ^ 31) : s.area64 = s.area := by
  have hpos : 0 ≤ s.width * s.height := Int.mul_nonneg hw hh
  have hlt : s.width * s.height < 2 ^ 31 * 2 ^ 31 := by
    calc s.width * s.height ≤ s.width * 2 ^ 31 := Int.mul_le_mul_of_nonneg_left (by omega) hw
      _ < 2 ^ 31 * 2 ^ 31 := by omega
  unfold AVVideoStream.area64 AVVideoStream.area
  exact Int.bmod_eq_of_le (by omega) (by omega)

/-- The stream that is selected has the greatest area, if the sizes are numbers of 31 bits. -/
theorem largest_of_firstMax {streams : List AVVideoStream} {s : AVVideoStream}
    (h : FirstMax AVVideoStream.area64 (nonCover streams) s)
    (hsize : ∀ t ∈ streams, 0 ≤ t.width ∧ t.width < 2 ^ 31 ∧ 0 ≤ t.height ∧ t.height < 2 ^ 31) :
    Largest streams s := by
  have harea : ∀ t ∈ nonCover streams, t.area64 = t.area := by
    intro t ht
    obtain ⟨hw, hw', hh, hh'⟩ := hsize t (List.mem_filter.mp ht).1
    exact area64_eq hw hw' hh hh'
  refine ⟨h.mem, ?_⟩
  intro t ht
  rw [← harea t ht, ← harea s h.mem]
  exact h.le t ht

/-! ## What is mapped and decoded -/

/-- The arguments make ffmpeg decode video: they neither copy the streams nor leave the video out. -/
def DecodesVideo (args : List String) : Prop := "copy" ∉ valuesOf "-c" args ∧ "-vn" ∉ args

/-- The bound lets smaller sources through. -/
theorem enforceReencodeSourceBound_ok {width height : Int}
    (h : enforceReencodeSourceBound width height = .ok ()) :
    height ≤ avMaxReencodeSourceHeight ∧ width ≤ avMaxReencodeSourceWidth := by
  unfold enforceReencodeSourceBound at h
  split at h
  · exact absurd h (by simp)
  · omega

variable {host : AVHost} {inPath outPath target : String} {o : AVOpts} {src : AVSourceProbe}
  {args : List String}

/-- What is mapped is the video stream and the audio stream. -/
theorem lookupAll_map (inPath : String) (videoIndex : Int) (audio : String) :
    lookupAll "-map" (inputOptions inPath ++ mapOptions videoIndex audio) =
      ["0:" ++ toString videoIndex, audio] := rfl

/-- A re-encode maps the primary stream, and its width was checked. -/
theorem mapped_of_transcode
    (hargs : avTranscodeArgs host inPath outPath target o src = .ok args)
    (hdecodes : DecodesVideo args) :
    (valuesOf "-map" args).head? = some ("0:" ++ toString src.primary.index) ∧
      src.primary.width ≤ avMaxReencodeSourceWidth := by
  have hmap : "-map" ∈ valueFlags := by decide +kernel
  have hcopy : "-c" ∈ valueFlags := by decide +kernel
  unfold avTranscodeArgs at hargs
  split at hargs
  · obtain rfl := Except.ok.inj hargs
    refine absurd ?_ hdecodes.1
    rw [valuesOf_copy inPath outPath hcopy, lookupAll_append]
    apply List.mem_append_right
    simp [lookupAll, copyOptions]
  · split at hargs
    · exact absurd hargs (by simp)
    rename_i hbound
    refine ⟨?_, (enforceReencodeSourceBound_ok hbound).2⟩
    split_ifs at hargs with hmp4 hwebm
    · obtain rfl := Except.ok.inj hargs
      rw [valuesOf_mp4 inPath outPath hmap, lookupAll_map]
      rfl
    · obtain rfl := Except.ok.inj hargs
      rw [valuesOf_webm inPath outPath hmap, lookupAll_map]
      rfl

/-- An audio extraction leaves the video out. -/
theorem not_decodes_of_extract (hargs : avExtractArgs inPath outPath target src = .ok args) :
    ¬ DecodesVideo args := by
  unfold avExtractArgs at hargs
  split at hargs
  · exact absurd hargs (by simp)
  · rename_i args' hextract
    obtain rfl := Except.ok.inj hargs
    obtain ⟨codec, -, rfl⟩ := Option.map_eq_some_iff.mp hextract
    intro hdecodes
    exact hdecodes.2 (by simp)

/-- A thumbnail maps the primary stream. -/
theorem mapped_of_thumbnail {text : FloatText}
    (hargs : avThumbnailArgs text inPath outPath target o src = .ok args) :
    (valuesOf "-map" args).head? = some ("0:" ++ toString src.primary.index) := by
  have hmap : "-map" ∈ valueFlags := by decide +kernel
  unfold avThumbnailArgs at hargs
  split at hargs
  · exact absurd hargs (by simp)
  split at hargs
  · exact absurd hargs (by simp)
  rename_i hthumb
  obtain rfl := Except.ok.inj hargs
  rw [valuesOf_thumbnail hmap hthumb, lookupAll_append]
  rfl

/-- **The stream that is decoded** is bounded on both axes and the largest one exactly if the source has
more than embedded pictures, the product of 64 bits selects a largest stream, and, for a thumbnail, that
stream is not too wide. -/
theorem decoded_stream_bounded_iff {maxDuration maxHeight W : Int} {opts : Opts} {tr : ToolTrace}
    {r : Except GoError Unit} (hW : avMaxReencodeSourceWidth ≤ W)
    (hrun : (avConvert host maxDuration maxHeight inPath outPath opts).Runs tr r)
    (hffmpeg : RunsFfmpeg tr args) (hdecodes : DecodesVideo args) :
    ∃ src, Probed host.text inPath tr src ∧ src.primary ∈ src.videoStreams ∧
      (valuesOf "-map" args).head? = some ("0:" ++ toString src.primary.index) ∧
      ((src.primary.width ≤ W ∧
          src.primary.height ≤ ceilingOr maxHeight avMaxSourceResolutionHeight ∧
          Largest src.videoStreams src.primary) ↔
        ∃ s, FirstMax AVVideoStream.area64 (nonCover src.videoStreams) s ∧
          (∀ t ∈ nonCover src.videoStreams, t.area ≤ s.area) ∧
          (normalizeFormat (UnixPath.ext outPath) ∈ avThumbnailExtractTargets → s.width ≤ W)) := by
  unfold avConvert at hrun
  split at hrun
  · rcases hrun
    exact absurd (by simp [Quiet]) hffmpeg.not_quiet
  rename_i o hopts
  dsimp only at hrun
  split at hrun
  swap
  · rcases hrun
    exact absurd (by simp [Quiet]) hffmpeg.not_quiet
  rename_i ht
  rcases Prog.always_iff.mp (avConvertTo_always host maxDuration maxHeight inPath outPath _ o) tr r
    hrun with hquiet | ⟨args', src, hruns, hprobed, hadmitted, hargs⟩
  · exact absurd hquiet hffmpeg.not_quiet
  obtain rfl := hffmpeg.unique hruns
  have hprimary : avPrimaryVideoStream src.videoStreams = some src.primary := by
    obtain ⟨-, -, -, -, -, -, -, hprimary, -⟩ := hprobed
    exact hprimary
  have hmem := avPrimaryVideoStream_mem hprimary
  have hmapped : (valuesOf "-map" args').head? = some ("0:" ++ toString src.primary.index) ∧
      (normalizeFormat (UnixPath.ext outPath) ∉ avThumbnailExtractTargets →
        src.primary.width ≤ avMaxReencodeSourceWidth) := by
    unfold avArgs at hargs
    split at hargs
    · obtain ⟨hmap, hwidth⟩ := mapped_of_transcode hargs hdecodes
      exact ⟨hmap, fun _ => hwidth⟩
    · rename_i htrans
      split at hargs
      · exact absurd hdecodes (not_decodes_of_extract hargs)
      · rename_i haudio
        refine ⟨mapped_of_thumbnail hargs, fun hthumb => ?_⟩
        simp only [avTargetFormats, List.mem_append] at ht
        exact absurd ht (by simp [htrans, haudio, hthumb])
  refine ⟨src, hprobed, hmem, hmapped.1, ?_⟩
  constructor
  · rintro ⟨hwidth, -, hlargest⟩
    have hne : nonCover src.videoStreams ≠ [] := List.ne_nil_of_mem hlargest.mem
    exact ⟨src.primary, (avPrimaryVideoStream_eq_some hne).mp hprimary, hlargest.area_le,
      fun _ => hwidth⟩
  · rintro ⟨s, hfirst, harea, hwidth⟩
    have hne : nonCover src.videoStreams ≠ [] := List.ne_nil_of_mem hfirst.mem
    obtain rfl := hfirst.unique ((avPrimaryVideoStream_eq_some hne).mp hprimary)
    refine ⟨?_, hadmitted.height _ hmem, hfirst.mem, harea⟩
    by_cases hthumb : normalizeFormat (UnixPath.ext outPath) ∈ avThumbnailExtractTargets
    · exact hwidth hthumb
    · exact (hmapped.2 hthumb).trans hW

/-- A re-encode of a small mp4 to webm. -/
theorem decoded_stream_bounded_webm :
    ∃ tr r args, (avConvert exampleHost 0 0 "/tmp/in.mp4" "/tmp/out.webm"
        [("resolution_height", .number 480)]).Runs tr r ∧ RunsFfmpeg tr args ∧ DecodesVideo args ∧
      ∃ src, Probed exampleHost.text "/tmp/in.mp4" tr src ∧ src.primary ∈ src.videoStreams ∧
        (valuesOf "-map" args).head? = some ("0:" ++ toString src.primary.index) ∧
        ((src.primary.width ≤ avMaxReencodeSourceWidth ∧
            src.primary.height ≤ ceilingOr 0 avMaxSourceResolutionHeight ∧
            Largest src.videoStreams src.primary) ↔
          ∃ s, FirstMax AVVideoStream.area64 (nonCover src.videoStreams) s ∧
            (∀ t ∈ nonCover src.videoStreams, t.area ≤ s.area) ∧
            (normalizeFormat (UnixPath.ext "/tmp/out.webm") ∈ avThumbnailExtractTargets →
              s.width ≤ avMaxReencodeSourceWidth)) := by
  have hopts : avOptsFromMap exampleHost.codec [("resolution_height", .number 480)] =
      .ok ⟨none, 480, ""⟩ := by decide +kernel
  have hargs : avArgs exampleHost "/tmp/in.mp4" "/tmp/out.webm"
      (normalizeFormat (UnixPath.ext "/tmp/out.webm")) ⟨none, 480, ""⟩ exampleSource =
        .ok (transcodeToWebMArgs "/tmp/in.mp4" "/tmp/out.webm" 480 0 2) := by decide +kernel
  have hstreams : readVideoStreams exampleStreams = .ok exampleSource.videoStreams := by decide +kernel
  obtain ⟨tr, r, hrun, hffmpeg, -⟩ := exampleHost_runs hopts (by decide +kernel) rfl hstreams
    (by decide +kernel) rfl (by decide +kernel) hargs
  have hdecodes : DecodesVideo (transcodeToWebMArgs "/tmp/in.mp4" "/tmp/out.webm" 480 0 2) :=
    ⟨by decide +kernel, by decide +kernel⟩
  exact ⟨tr, r, _, hrun, hffmpeg, hdecodes,
    decoded_stream_bounded_iff (le_refl _) hrun hffmpeg hdecodes⟩

/-- What ffprobe prints about a video whose frames are as wide as a number of 31 bits can be. -/
def wideStreams : String :=
  "\x7b\"streams\": [\x7b\"index\": 0, \"codec_name\": \"png\", \"width\": 2147483647, " ++
    "\"height\": 360, \"disposition\": \x7b\"attached_pic\": 0\x7d\x7d]\x7d"

/-- That source, of ten seconds, with sound. -/
def wideSource : AVSourceProbe :=
  ⟨10000000000, [⟨0, "png", 2147483647, 360, false⟩], ⟨0, "png", 2147483647, 360, false⟩, "opus"⟩

/-- The arguments for its thumbnail. -/
def wideArgs : List String :=
  ["-y", "-nostdin", "-protocol_whitelist", "file,crypto", "-ss", "1", "-i", "file:/tmp/in.mov",
    "-map", "0:0", "-frames:v", "1", "-c:v", "mjpeg", "-q:v", "2", "file:/tmp/out.jpg"]

/-- No bound on the width holds of the streams that are decoded for a thumbnail. -/
theorem thumbnail_width_unbounded :
    ¬ ∃ W : Int, W < 2147483647 ∧
      ∀ tr r args src, (avConvert exampleHost 0 0 "/tmp/in.mov" "/tmp/out.jpg" []).Runs tr r →
        RunsFfmpeg tr args → DecodesVideo args → Probed exampleText "/tmp/in.mov" tr src →
          src.primary.width ≤ W ∧
            src.primary.height ≤ ceilingOr 0 avMaxSourceResolutionHeight ∧
              Largest src.videoStreams src.primary := by
  rintro ⟨W, hW, hall⟩
  have hopts : avOptsFromMap exampleHost.codec [] = .ok ⟨none, 0, ""⟩ := by decide +kernel
  have hargs : avArgs exampleHost "/tmp/in.mov" "/tmp/out.jpg"
      (normalizeFormat (UnixPath.ext "/tmp/out.jpg")) ⟨none, 0, ""⟩ wideSource = .ok wideArgs := by
    decide +kernel
  have hdecodes : DecodesVideo wideArgs := ⟨by decide +kernel, by decide +kernel⟩
  have hstreams : readVideoStreams wideStreams = .ok wideSource.videoStreams := by decide +kernel
  obtain ⟨tr, r, hrun, hffmpeg, hprobed⟩ := exampleHost_runs hopts (by decide +kernel) rfl hstreams
    (by decide +kernel) rfl (by decide +kernel) hargs
  obtain ⟨hwidth, -, -⟩ := hall tr r wideArgs wideSource hrun hffmpeg hdecodes hprobed
  have hwide : wideSource.primary.width = 2147483647 := rfl
  omega

end OctoConv
