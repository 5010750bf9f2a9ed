import OctoConv.Jobs.Model
import OctoConv.Lib.Path
import OctoConv.Lib.Strings

/-!
# Formats and the registry of conversions

A format is named by a short key such as `png`. `NormalizeFormat` folds an extension or a raw name
to its key, the registry maps pairs of keys to the converter that handles them, and every reader of
a format normalizes it again.

Main results:

* `normalizeFormat_fixed_iff` : normalizing a second time changes nothing exactly when the text,
  trimmed and without one leading dot, begins with neither a dot nor white space;
* `register_m` : a registration decides the pairs of its converter and no others;
* `default_m` : the registry holds the pairs the converters advertise, as they are written.

Source: `internal/convert/convert.go`, `internal/convert/converters.go` and the `Pairs` methods of
the converters.
-/

namespace OctoConv

open Strings

/-! ## Normalization -/

/-- The canonical key of a lower-case name.

Source: `convert.go` NormalizeFormat -/
def foldAlias (f : String) : String :=
  if f = "jpeg" then "jpg"
  else if f = "tif" then "tiff"
  else if f = "htm" then "html"
  else f

/-- Source: `convert.go` NormalizeFormat -/
def normalizeFormat (f : String) : String :=
  foldAlias (toLower (trimPrefix (trimSpace f) "."))

example : normalizeFormat " .HTM" = "html" := by decide +kernel

/-- The text begins with neither a dot nor white space. -/
def Bare (f : String) : Prop :=
  ∀ c ∈ f.toList.head?, c ≠ '.' ∧ Unicode.isSpace c = false

instance (f : String) : Decidable (Bare f) :=
  decidable_of_iff (f.toList.head?.all fun c => c ≠ '.' && !Unicode.isSpace c)
    (by simp [Bare, Option.all_eq_true])

/-- What is left of a text after one trim and one leading dot is bare. -/
def Settled (t : String) : Prop := Bare (trimPrefix (trimSpace t) ".")

instance (t : String) : Decidable (Settled t) := by
  unfold Settled
  infer_instance

/-- A format without a dot is left as it is. -/
theorem trimPrefix_dot_of_bare {f : String} (h : Bare f) : trimPrefix f "." = f := by
  unfold trimPrefix
  split
  · rename_i hp
    obtain ⟨l, hl⟩ := List.isPrefixOf_iff_prefix.1 hp
    have hd := h '.' (by rw [← hl]; rfl)
    exact absurd rfl hd.1
  · rfl

/-- Lower case neither makes nor removes dots and blanks. -/
theorem bare_toLower_iff (f : String) : Bare (toLower f) ↔ Bare f := by
  have hdot : Unicode.caseless '.'.toNat := by decide +kernel
  unfold Bare
  rw [toList_toLower, List.head?_map]
  cases f.toList.head? with
  | none => simp
  | some c => simp [Unicode.toLower_eq_iff hdot]

/-- A text whose cleaning is bare is cleaned no further by a second pass. -/
theorem clean_toLower_of_settled {t : String} (h : Settled t) :
    trimPrefix (trimSpace (toLower (trimPrefix (trimSpace t) "."))) "." =
      toLower (trimPrefix (trimSpace t) ".") := by
  have hb : Bare (toLower (trimPrefix (trimSpace t) ".")) := (bare_toLower_iff _).2 h
  have ht : Tight (trimPrefix (trimSpace t) ".") := by
    constructor
    · intro c hc
      exact (h c hc).2
    · intro c hc
      obtain ⟨pre, hpre⟩ := trimPrefix_suffix (trimSpace t) "."
      apply getLast?_trimSpace t c
      rw [← hpre, List.getLast?_append, hc]
      rfl
  rw [trimSpace_eq_self (tight_toLower ht), trimPrefix_dot_of_bare hb]

/-- A text that is not bare gets shorter when it is cleaned. -/
theorem length_clean_lt {f : String} (h : ¬ Bare f) :
    (trimPrefix (trimSpace f) ".").toList.length < f.toList.length := by
  cases hf : f.toList with
  | nil =>
    apply absurd _ h
    intro c hc
    rw [hf] at hc
    cases hc
  | cons c l =>
    have hle := (trimPrefix_suffix (trimSpace f) ".").length_le
    have hc : c = '.' ∨ Unicode.isSpace c = true := by
      by_contra hn
      rw [not_or, Bool.not_eq_true] at hn
      apply h
      intro d hd
      rw [hf] at hd
      obtain rfl : c = d := Option.some.inj hd
      exact hn
    rw [← hf]
    by_cases hs : Unicode.isSpace c
    · have hlt := length_trimSpace_lt hf hs
      omega
    · obtain rfl := hc.resolve_right hs
      obtain ⟨l', hl'⟩ := head_trimSpace hf (Bool.not_eq_true _ ▸ hs)
      have ht := length_trimSpace_le f
      have hp : ".".toList.isPrefixOf (trimSpace f).toList = true := by
        rw [hl']
        rfl
      rw [trimPrefix, if_pos hp, String.toList_ofList, List.length_drop]
      have hone : ".".toList.length = 1 := by decide
      rw [hl', List.length_cons] at ht ⊢
      omega

/-- An alias is folded to its format, and every other name is left. -/
theorem foldAlias_cases (f : String) :
    (f ∈ ["jpeg", "tif", "htm"] ∧ foldAlias f ∈ ["jpg", "tiff", "html"]) ∨ foldAlias f = f := by
  unfold foldAlias
  split
  · simp_all
  · split
    · simp_all
    · split
      · simp_all
      · exact .inr rfl

/-- Normalizing a second time changes nothing exactly when the text is settled. -/
theorem normalizeFormat_fixed_iff (t : String) :
    normalizeFormat (normalizeFormat t) = normalizeFormat t ↔ Settled t := by
  have hkeys : ∀ k ∈ ["jpg", "tiff", "html"], normalizeFormat k = k ∧ Bare k := by
    decide +kernel
  have halias : ∀ k ∈ ["jpeg", "tif", "htm"], Bare k := by decide +kernel
  obtain ⟨hl, hk⟩ | hf := foldAlias_cases (toLower (trimPrefix (trimSpace t) "."))
  · -- an alias is bare, and its key is fixed
    have hb := (bare_toLower_iff _).1 (halias _ hl)
    exact ⟨fun _ => hb, fun _ => (hkeys _ hk).1⟩
  · have hn : normalizeFormat t = toLower (trimPrefix (trimSpace t) ".") := hf
    constructor
    · intro hfix
      by_contra hs
      have hb : ¬ Bare (normalizeFormat t) := by
        rwa [hn, bare_toLower_iff]
      obtain ⟨-, hk⟩ | hf' :=
        foldAlias_cases (toLower (trimPrefix (trimSpace (normalizeFormat t)) "."))
      · -- the second pass ends in a key, which is bare
        apply hb
        rw [← hfix]
        exact (hkeys _ hk).2
      · have hlt := length_clean_lt hb
        have he : toLower (trimPrefix (trimSpace (normalizeFormat t)) ".") = normalizeFormat t :=
          hf'.symm.trans hfix
        have hlen := congrArg (fun f => f.toList.length) he
        simp only [toList_toLower, List.length_map] at hlen
        omega
    · intro hs
      rw [hn, normalizeFormat, clean_toLower_of_settled hs, toLower_toLower, hf]

/-- Normalizing keeps every character that is no dot, no white space and has no case. -/
theorem mem_normalizeFormat {t : String} {c : Char} (h : c ∈ t.toList) (hdot : c ≠ '.')
    (hspace : Unicode.isSpace c = false) (hcase : Unicode.caseless c.toNat) :
    c ∈ (normalizeFormat t).toList := by
  have hm : c ∈ (toLower (trimPrefix (trimSpace t) ".")).toList := by
    rw [toList_toLower, List.mem_map]
    refine ⟨c, mem_trimPrefix (mem_trimSpace h hspace) (by simpa using hdot), ?_⟩
    exact (Unicode.toLower_eq_iff hcase).2 rfl
  obtain ⟨hl, -⟩ | hf := foldAlias_cases (toLower (trimPrefix (trimSpace t) "."))
  · -- the aliases are written in letters, and these have case
    have ha : ∀ k ∈ ["jpeg", "tif", "htm"],
        (k.toList.all fun d => !Unicode.caseless d.toNat) = true := by
      decide +kernel
    have hn := List.all_eq_true.1 (ha _ hl) c hm
    simp [hcase] at hn
  · rwa [normalizeFormat, hf]

/-! ## Converters -/

/-- An ordered pair of formats.

Source: `convert.go` Pair -/
structure Pair where
  source : String
  target : String
deriving DecidableEq, Repr

/-- The registered converters. The av converter carries its ceilings.

Source: `libvips.go`, `libreoffice.go`, `chromium.go`, `whisper.go`, `av.go` -/
inductive Converter
  | libvips
  | libreOffice
  | chromium
  | audio
  | av (maxSourceDuration : Int) (maxSourceResolutionHeight : Int)
deriving DecidableEq, Repr

/-- Source: `libvips.go` imageFormats -/
def imageFormats : List String := ["png", "jpg", "webp", "heic", "tiff"]

/-- Source: `libreoffice.go` documentFormats -/
def documentFormats : List String := ["docx", "odt", "xlsx", "ods", "pptx", "odp"]

/-- Source: `libreoffice.go` crossPairs -/
def crossPairs : List Pair :=
  [⟨"docx", "odt"⟩, ⟨"odt", "docx"⟩, ⟨"xlsx", "ods"⟩, ⟨"ods", "xlsx"⟩, ⟨"pptx", "odp"⟩,
    ⟨"odp", "pptx"⟩]

/-- Source: `whisper.go` audioSourceFormats -/
def audioSourceFormats : List String :=
  ["mp3", "wav", "m4a", "ogg", "mp4", "mov", "avi", "mkv", "webm"]

/-- Source: `whisper.go` audioTargetFormats -/
def audioTargetFormats : List String := ["txt", "srt", "vtt", "json"]

/-- Source: `av.go` avTranscodeToMP4Sources -/
def avTranscodeToMP4Sources : List String := ["mov", "avi", "mkv", "webm"]

/-- Source: `av.go` avExtractSources -/
def avExtractSources : List String := ["mp4", "mov", "avi", "mkv", "webm"]

/-- Source: `av.go` avAudioExtractTargets -/
def avAudioExtractTargets : List String := ["mp3", "wav", "m4a"]

/-- Source: `av.go` avThumbnailExtractTargets -/
def avThumbnailExtractTargets : List String := ["jpg", "png", "webp"]

/-- Every pair of a source and a target. -/
def crossProduct (sources targets : List String) : List Pair :=
  sources.flatMap fun f => targets.map (Pair.mk f)

namespace Converter

/-- The pairs a converter advertises.

Source: Pairs of each converter -/
def pairs : Converter → List Pair
  | libvips => (crossProduct imageFormats imageFormats).filter fun p => p.source ≠ p.target
  | libreOffice => documentFormats.map (Pair.mk · "pdf") ++ crossPairs
  | chromium => [⟨"html", "pdf"⟩]
  | audio => crossProduct audioSourceFormats audioTargetFormats
  | av _ _ =>
    avTranscodeToMP4Sources.map (Pair.mk · "mp4") ++ [⟨"mp4", "webm"⟩] ++
      crossProduct avExtractSources avAudioExtractTargets ++
      crossProduct avExtractSources avThumbnailExtractTargets

/-- Source: Engine of each converter -/
def engine : Converter → Engine
  | libvips => .image
  | libreOffice => .document
  | chromium => .html
  | audio => .audio
  | av _ _ => .av

end Converter

/-! ## The registry -/

/-- Source: `convert.go` Registry -/
structure Registry where
  /-- The converter of each registered pair. -/
  m : Pair → Option Converter

namespace Registry

/-- Source: `convert.go` NewRegistry -/
def new : Registry := ⟨fun _ => none⟩

/-- One assignment of the map. -/
def set (r : Registry) (p : Pair) (c : Converter) : Registry :=
  ⟨fun q => if q = p then some c else r.m q⟩

/-- Source: `convert.go` Register -/
def register (r : Registry) (c : Converter) : Registry :=
  c.pairs.foldl
    (fun r p => r.set ⟨normalizeFormat p.source, normalizeFormat p.target⟩ c) r

/-- Source: `convert.go` Lookup -/
def lookup (r : Registry) (source target : String) : Option Converter :=
  r.m ⟨normalizeFormat source, normalizeFormat target⟩

/-- Source: `convert.go` EngineFor -/
def engineFor (r : Registry) (source target : String) : Option Engine :=
  (r.lookup source target).map Converter.engine

/-- The registry every process starts with.

Source: `converters.go` init -/
def default : Registry :=
  ((((new.register .libvips).register .libreOffice).register .chromium).register .audio).register
    (.av 0 0)

/-- The registry of a worker process: the one it starts with, and on the av worker the configured
converter registered over it.

Source: `cmd/av-worker/main.go` main -/
def worker : Option (Int × Int) → Registry
  | none => default
  | some (maxSourceDuration, maxSourceResolutionHeight) =>
    default.register (.av maxSourceDuration maxSourceResolutionHeight)

end Registry

/-! ## Keys -/

/-- The formats that content detection answers: the magic numbers, the office containers, html,
the EBML containers and the audio formats.

Source: `sniff.go` signatures, `docsniff.go` ooxmlRootParts, odfMimetypes, `handlers.go`
handleCreateJob, `avsniff.go` matchEBML, `audiosniff.go` SniffAudio -/
def detectedFormats : List String :=
  ["png", "jpg", "webp", "heic", "tiff", "mp4", "mov", "avi", "docx", "xlsx", "pptx", "odt", "ods",
    "odp", "html", "mkv", "webm", "wav", "ogg", "m4a", "mp3"]

/-- The keys of all formats: the detected ones and the ones that are targets only. -/
def formatKeys : List String := detectedFormats ++ ["pdf", "txt", "srt", "vtt", "json"]

/-- The known formats are canonical. -/
theorem formatKeys_canonical : ∀ f ∈ formatKeys, normalizeFormat f = f := by
  decide +kernel

/-- A key is a plain name without dots, and with a dot in front of it normalizes to itself. -/
theorem formatKeys_plain : ∀ f ∈ formatKeys,
    f ≠ "" ∧ '/' ∉ f.toList ∧ '.' ∉ f.toList ∧ normalizeFormat ("." ++ f) = f := by
  decide +kernel

/-- The pairs of a converter are written in keys. -/
theorem Converter.pairs_keys (c : Converter) :
    ∀ p ∈ c.pairs, p.source ∈ formatKeys ∧ p.target ∈ formatKeys := by
  cases c with
  | av d h =>
    have hp : ∀ p ∈ (Converter.av 0 0).pairs, p.source ∈ formatKeys ∧ p.target ∈ formatKeys := by
      decide +kernel
    exact hp
  | _ => decide +kernel

/-! ## What is registered -/

/-- So are the pairs of every converter. -/
theorem Converter.pairs_canonical (c : Converter) :
    ∀ p ∈ c.pairs, Pair.mk (normalizeFormat p.source) (normalizeFormat p.target) = p := by
  intro p hp
  obtain ⟨hs, ht⟩ := c.pairs_keys p hp
  rw [formatKeys_canonical _ hs, formatKeys_canonical _ ht]

namespace Registry

/-- A registration decides the pairs of its converter and no others. -/
theorem register_m (r : Registry) (c : Converter) (q : Pair) :
    (r.register c).m q = if q ∈ c.pairs then some c else r.m q := by
  have hfold : ∀ ps : List Pair,
      (∀ p ∈ ps, Pair.mk (normalizeFormat p.source) (normalizeFormat p.target) = p) →
      ∀ r : Registry, (ps.foldl
        (fun r p => r.set ⟨normalizeFormat p.source, normalizeFormat p.target⟩ c) r).m q =
          if q ∈ ps then some c else r.m q := by
    intro ps
    induction ps with
    | nil => simp
    | cons p ps ih =>
      intro hp r
      rw [List.foldl_cons, ih (fun p' h => hp p' (List.mem_cons_of_mem _ h)),
        hp p List.mem_cons_self]
      by_cases hq : q ∈ ps
      · simp [hq]
      · simp [hq, set]
  exact hfold c.pairs c.pairs_canonical r

/-- The registry answers with the last converter that advertises a pair. -/
theorem default_m (q : Pair) : default.m q =
    [Converter.av 0 0, .audio, .chromium, .libreOffice, .libvips].find? (q ∈ ·.pairs) := by
  simp only [default, register_m, List.find?_cons, List.find?_nil]
  repeat' split
  all_goals simp_all [new]

/-- Every pair is registered with a converter that advertises it. -/
def Advertised (r : Registry) : Prop := ∀ q c, r.m q = some c → q ∈ c.pairs

/-- A registry with one more converter advertises canonical pairs. -/
theorem Advertised.register {r : Registry} (h : r.Advertised) (c : Converter) :
    (r.register c).Advertised := by
  intro q d hd
  rw [register_m] at hd
  split at hd
  · rename_i hq
    obtain rfl := Option.some.inj hd
    exact hq
  · exact h q d hd

/-- So does the default one. -/
theorem default_advertised : default.Advertised := by
  have hnew : new.Advertised := by
    intro q c h
    cases h
  exact ((((hnew.register _).register _).register _).register _).register _

/-- And that of a worker. -/
theorem worker_advertised (cfg : Option (Int × Int)) : (worker cfg).Advertised := by
  cases cfg with
  | none => exact default_advertised
  | some cfg => exact default_advertised.register _

/-- A worker finds a converter only for names that normalize to keys. -/
theorem lookup_keys {cfg : Option (Int × Int)} {s t : String}
    (h : ((worker cfg).lookup s t).isSome) :
    normalizeFormat s ∈ formatKeys ∧ normalizeFormat t ∈ formatKeys := by
  unfold lookup at h
  generalize normalizeFormat s = a at h ⊢
  generalize normalizeFormat t = b at h ⊢
  obtain ⟨c, hc⟩ := Option.isSome_iff_exists.1 h
  exact c.pairs_keys ⟨a, b⟩ (worker_advertised cfg _ c hc)

/-- The configured av converter takes the place of the one registered first, so a worker finds a
converter of the same engine for every pair. -/
theorem worker_engine (cfg : Option (Int × Int)) (q : Pair) :
    ((worker cfg).m q).map Converter.engine = (default.m q).map Converter.engine := by
  cases cfg with
  | none => rfl
  | some cfg =>
    obtain ⟨d, h⟩ := cfg
    rw [worker, register_m]
    split
    · rename_i hq
      have hq' : q ∈ (Converter.av 0 0).pairs := hq
      rw [default, register_m, if_pos hq']
      rfl
    · rfl

/-- The lookup of a canonical pair reads the entry of the pair itself. -/
theorem lookup_canonical (r : Registry) {s t : String} (hs : normalizeFormat s = s)
    (ht : normalizeFormat t = t) : r.lookup s t = r.m ⟨s, t⟩ := by
  rw [lookup, hs, ht]

end Registry

/-! ## MIME types -/

/-- Source: `sniff.go` MIMEType -/
def mimeTypes : List (String × String) :=
  [("png", "image/png"),
    ("jpg", "image/jpeg"),
    ("webp", "image/webp"),
    ("heic", "image/heic"),
    ("tiff", "image/tiff"),
    ("pdf", "application/pdf"),
    ("docx", "application/vnd.openxmlformats-officedocument.wordprocessingml.document"),
    ("xlsx", "application/vnd.openxmlformats-officedocument.spreadsheetml.sheet"),
    ("pptx", "application/vnd.openxmlformats-officedocument.presentationml.presentation"),
    ("odt", "application/vnd.oasis.opendocument.text"),
    ("ods", "application/vnd.oasis.opendocument.spreadsheet"),
    ("odp", "application/vnd.oasis.opendocument.presentation"),
    ("html", "text/html"),
    ("mp3", "audio/mpeg"),
    ("wav", "audio/wav"),
    ("m4a", "audio/mp4"),
    ("ogg", "audio/ogg"),
    ("txt", "text/plain"),
    ("srt", "application/x-subrip"),
    ("vtt", "text/vtt"),
    ("json", "application/json"),
    ("mp4", "video/mp4"),
    ("mov", "video/quicktime"),
    ("avi", "video/x-msvideo"),
    ("mkv", "video/x-matroska"),
    ("webm", "video/webm")]

/-- The MIME type of a format by its key.

Source: `sniff.go` MIMEType -/
def mimeOf (key : String) : String :=
  match mimeTypes.find? fun e => e.1 = key with
  | some e => e.2
  | none => "application/octet-stream"

/-- Source: `sniff.go` MIMEType -/
def mimeType (format : String) : String := mimeOf (normalizeFormat format)

end OctoConv
