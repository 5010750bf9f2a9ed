import OctoConv.Convert.Formats
import OctoConv.Worker.Handlers

/-!
# The pair a job names

The API accepts a conversion by normalizing the target twice and stores it normalized once. The
worker normalizes what is stored, and each converter normalizes the extension of the output file.
All of them mean the same registered pair when the stored target is a canonical key.

Main results:

* `Agrees.of_registered` : a pair that is registered as it is written is read the same everywhere;
* `Agrees.dispatches` : the converter of such a pair accepts the paths the worker hands to it;
* `stored_agrees_iff` : an accepted target is stored as a canonical key exactly when, trimmed and
  without one leading dot, it begins with neither a dot nor white space.

Source: `internal/api/handlers.go` handleCreateJob, `internal/worker/worker.go` process and the
`Convert` methods of the converters.
-/

namespace OctoConv

open Registry

/-! ## What the converters read from the paths -/

/-- The target format as a converter derives it from the path of its output.

Source: `libreoffice.go`, `whisper.go`, `av.go` Convert -/
def targetOf (outPath : String) : String := normalizeFormat (UnixPath.ext outPath)

/-- Source: `libreoffice.go` filterTable -/
def filterTable : List (Pair × String) :=
  [(⟨"docx", "pdf"⟩, "writer_pdf_Export"), (⟨"odt", "pdf"⟩, "writer_pdf_Export"),
    (⟨"xlsx", "pdf"⟩, "calc_pdf_Export"), (⟨"ods", "pdf"⟩, "calc_pdf_Export"),
    (⟨"pptx", "pdf"⟩, "impress_pdf_Export"), (⟨"odp", "pdf"⟩, "impress_pdf_Export"),
    (⟨"docx", "odt"⟩, "writer8"), (⟨"odt", "docx"⟩, "MS Word 2007 XML"),
    (⟨"xlsx", "ods"⟩, "calc8"), (⟨"ods", "xlsx"⟩, "Calc MS Excel 2007 XML"),
    (⟨"pptx", "odp"⟩, "impress8"), (⟨"odp", "pptx"⟩, "Impress MS PowerPoint 2007 XML")]

/-- The export filter of a pair of keys. -/
def exportFilter (key : Pair) : Option String :=
  (filterTable.find? fun e => e.1 = key).map fun e => e.2

/-- Source: `libreoffice.go` filterFor -/
def filterFor (sourceExt targetFormat : String) : Except GoError String :=
  match exportFilter ⟨normalizeFormat sourceExt, normalizeFormat targetFormat⟩ with
  | some filter => .ok filter
  | none => .error (GoError.new ("no export filter for " ++ sourceExt ++ " -> " ++ targetFormat))

/-- Source: `whisper.go` whisperOutputFlag -/
def whisperOutputFlag (target : String) : List String :=
  if target = "txt" then ["-otxt"]
  else if target = "srt" then ["-osrt"]
  else if target = "vtt" then ["-ovtt"]
  else if target = "json" then ["-ojf"]
  else []

/-- Whether a converter gets past its check of the extensions of its two paths.

Source: Convert of each converter -/
def Converter.dispatches (c : Converter) (inExt outExt : String) : Bool :=
  match c with
  | libvips => true
  | libreOffice => (filterFor inExt outExt).isOk
  | chromium => true
  | audio => whisperOutputFlag (normalizeFormat outExt) ≠ []
  | av _ _ =>
    ["mp4", "webm", "mp3", "wav", "m4a", "jpg", "png", "webp"].contains (normalizeFormat outExt)

/-- The paths of an attempt in its temporary directory.

Source: `worker.go` process -/
def inPath (workDir : String) (job : Job) : String :=
  UnixPath.join [workDir, "in." ++ job.sourceFormat]

/-- Source: `worker.go` process -/
def outPath (workDir : String) (job : Job) : String := UnixPath.join [workDir, Worker.outName job]

/-! ## Agreement -/

/-- Every reader of the two stored formats means one pair, literally as it is registered. -/
structure Agrees (source target : String) : Prop where
  /-- The stored target is a canonical key. -/
  canonical : normalizeFormat target = target
  /-- The pair is registered as it is written. -/
  registered : (default.m ⟨source, target⟩).isSome
  /-- Every worker's lookup reads the entry of this pair, whose converter has the stored engine. -/
  lookup : ∀ cfg, (worker cfg).lookup source target = (worker cfg).m ⟨source, target⟩ ∧
    (worker cfg).engineFor source target = default.engineFor source target
  /-- The extension of the output path leads back to the target. -/
  extension : ∀ workDir job, job.targetFormat = target → targetOf (outPath workDir job) = target
  /-- The content type is the one of the target's own key. -/
  mime : mimeType target = mimeOf target

/-- Only known formats are registered. -/
theorem registered_keys {s t : String} (h : (default.m ⟨s, t⟩).isSome) :
    s ∈ formatKeys ∧ t ∈ formatKeys := by
  obtain ⟨c, hm⟩ := Option.isSome_iff_exists.1 h
  exact c.pairs_keys ⟨s, t⟩ (default_advertised _ c hm)

/-- The extension of a file of the temporary directory is the format in its name. -/
theorem ext_join {base f : String} (hb : base ∈ ["in.", "out."]) (hf : f ∈ formatKeys)
    (workDir : String) : UnixPath.ext (UnixPath.join [workDir, base ++ f]) = "." ++ f := by
  obtain ⟨b, hl, hb0, hb1⟩ : ∃ b, base.toList = b ++ ['.'] ∧ b ≠ [] ∧ '/' ∉ b := by
    simp only [List.mem_cons, List.not_mem_nil, or_false] at hb
    obtain rfl | rfl := hb
    · exact ⟨['i', 'n'], by decide⟩
    · exact ⟨['o', 'u', 't'], by decide⟩
  obtain ⟨hne, hs, hd, -⟩ := formatKeys_plain f hf
  have hn : (base ++ f).toList = b ++ '.' :: f.toList := by
    rw [String.toList_append, hl]
    simp
  have hplain : UnixPath.Plain (base ++ f).toList := by
    have hb' := List.length_pos_iff.2 hb0
    have hf' : 0 < f.toList.length := List.length_pos_iff.2 (by simpa using hne)
    apply UnixPath.Plain.of_length
    · rw [hn]
      simp [hb1, hs]
    · rw [hn, List.length_append, List.length_cons]
      omega
  apply String.toList_inj.1
  have hj := UnixPath.toList_join_plain hplain workDir
  rw [hn, ← List.append_assoc] at hj
  rw [UnixPath.ext_append hj hs hd]
  simp

/-- The format that a converter derives from its output path is the stored one. -/
theorem targetOf_outPath (workDir : String) {job : Job} (h : job.targetFormat ∈ formatKeys) :
    targetOf (outPath workDir job) = job.targetFormat := by
  rw [targetOf, outPath, Worker.outName, ext_join (by simp) h]
  exact (formatKeys_plain _ h).2.2.2

/-- A pair that is registered as it is written is read the same everywhere. -/
theorem Agrees.of_registered {s t : String} (h : (default.m ⟨s, t⟩).isSome) : Agrees s t := by
  obtain ⟨hs, ht⟩ := registered_keys h
  have hs' := formatKeys_canonical _ hs
  have ht' := formatKeys_canonical _ ht
  constructor
  · exact ht'
  · exact h
  · intro cfg
    refine ⟨lookup_canonical _ hs' ht', ?_⟩
    rw [engineFor, engineFor, lookup_canonical _ hs' ht', lookup_canonical _ hs' ht',
      worker_engine]
  · intro workDir job hj
    rw [← hj] at ht ⊢
    exact targetOf_outPath workDir ht
  · rw [mimeType, ht']

/-- The filter of a pair of extensions is that of their formats. -/
theorem filterFor_eq {sourceExt targetExt filter : String}
    (h : exportFilter ⟨normalizeFormat sourceExt, normalizeFormat targetExt⟩ = some filter) :
    filterFor sourceExt targetExt = .ok filter := by
  unfold filterFor
  simp only [h]

/-- A converter dispatches its pairs. -/
theorem Converter.dispatches_pairs (c : Converter) {s t : String} (hp : ⟨s, t⟩ ∈ c.pairs) :
    c.dispatches ("." ++ s) ("." ++ t) := by
  obtain ⟨hs, ht⟩ := c.pairs_keys _ hp
  have hs' := (formatKeys_plain s hs).2.2.2
  have ht' := (formatKeys_plain t ht).2.2.2
  cases c with
  | libvips => rfl
  | libreOffice =>
    have hf : ∀ p ∈ libreOffice.pairs, (exportFilter p).isSome := by decide +kernel
    obtain ⟨filter, he⟩ := Option.isSome_iff_exists.1 (hf ⟨s, t⟩ hp)
    rw [dispatches, filterFor_eq (by rw [hs', ht', he])]
    rfl
  | chromium => rfl
  | audio =>
    have hf : ∀ p ∈ audio.pairs, whisperOutputFlag p.target ≠ [] := by decide +kernel
    have ha := hf ⟨s, t⟩ hp
    dsimp only at ha
    simpa only [dispatches, ht', decide_eq_true_eq] using ha
  | av d h =>
    have hf : ∀ p ∈ (av 0 0).pairs,
        ["mp4", "webm", "mp3", "wav", "m4a", "jpg", "png", "webp"].contains p.target := by
      decide +kernel
    have ha := hf ⟨s, t⟩ hp
    dsimp only at ha
    rwa [dispatches, ht']

/-- The converter that a worker finds for such a pair accepts the paths the worker hands to it. -/
theorem Agrees.dispatches {job : Job} (h : Agrees job.sourceFormat job.targetFormat)
    (workDir : String) (cfg : Option (Int × Int)) :
    ∃ c, (worker cfg).lookup job.sourceFormat job.targetFormat = some c ∧
      c.dispatches (UnixPath.ext (inPath workDir job)) (UnixPath.ext (outPath workDir job)) := by
  obtain ⟨hs, ht⟩ := registered_keys h.registered
  have he := worker_engine cfg ⟨job.sourceFormat, job.targetFormat⟩
  obtain ⟨c, hc⟩ := Option.isSome_iff_exists.1 h.registered
  rw [hc] at he
  obtain ⟨d, hd, -⟩ := Option.map_eq_some_iff.1 he
  refine ⟨d, (h.lookup cfg).1.trans hd, ?_⟩
  have hi : UnixPath.ext (inPath workDir job) = "." ++ job.sourceFormat := ext_join (by simp) hs workDir
  have ho : UnixPath.ext (outPath workDir job) = "." ++ job.targetFormat := by
    rw [outPath, Worker.outName]
    exact ext_join (by simp) ht workDir
  rw [hi, ho]
  exact d.dispatches_pairs (worker_advertised cfg _ _ hd)

/-! ## Accepted targets -/

/-- An accepted target is stored as a canonical key that every reader understands as the accepted
pair, exactly when it is settled. -/
theorem stored_agrees_iff {s t : String} (hs : s ∈ detectedFormats)
    (ha : (default.engineFor s (normalizeFormat t)).isSome) :
    Agrees s (normalizeFormat t) ↔ Settled t := by
  rw [← normalizeFormat_fixed_iff]
  constructor
  · intro h
    exact h.canonical
  · intro h
    apply Agrees.of_registered
    have hs' := formatKeys_canonical s (List.mem_append_left _ hs)
    rw [engineFor, Option.isSome_map, lookup, hs', h] at ha
    exact ha

/-- The condition at a target with white space before its dot. -/
theorem stored_agrees_tiff :
    Agrees "png" (normalizeFormat " .TIF ") ↔ Settled " .TIF " :=
  stored_agrees_iff (by decide) (by rw [engineFor, lookup, default_m]; decide +kernel)

/-- A target with white space after its dot is accepted and stored with the white space, and the
document converter then finds no export filter for it. -/
theorem stored_disagrees : ¬ ∀ s ∈ detectedFormats, ∀ t,
    (default.engineFor s (normalizeFormat t)).isSome → Agrees s (normalizeFormat t) := by
  intro h
  have ha := h "docx" (by decide) ". pdf" (by rw [engineFor, lookup, default_m]; decide +kernel)
  have hf : normalizeFormat (normalizeFormat ". pdf") ≠ normalizeFormat ". pdf" := by
    decide +kernel
  exact hf ha.canonical

end OctoConv
