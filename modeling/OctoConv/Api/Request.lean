import OctoConv.Api.Jobs
import OctoConv.Api.Options
import OctoConv.Convert.Cfb
import OctoConv.Convert.Docsniff
import OctoConv.Convert.Htmlsniff
import OctoConv.Convert.Sniff

/-!
# The checks of a create request

Before anything is stored, a create request is read from its form and its upload is inspected: the
content is detected, the conversion must be registered, and sizes, dimensions, the callback URL and
the options are checked. Each check may end the request with an error answer. The detectors that
read the upload in sequence pass its reader on; those that read at an offset leave the reader alone.

The multipart parser, `archive/zip`, `url.Parse`, `netip.ParseAddr` and the resolver are parameters.

Source: `internal/api/handlers.go` handleCreateJob, `internal/api/callbackurl.go`.

## Main results

* `detect_holds` — after the detectors, nothing was detected or the reader has all bytes of the file.
* `inspect_passes` — what is known of a request that passes every check.
-/

namespace OctoConv.Api

open Conc

/-! ## Requests and exits -/

/-- A file part of a form; the size of its header is the length of the data.

Source: `mime/multipart` FileHeader -/
structure FilePart where
  filename : String
  file : Source

/-- Source: `mime/multipart` FileHeader.Size -/
def FilePart.size (part : FilePart) : Nat := part.file.data.length

/-- What ParseMultipartForm makes of a request: the body exceeds the limit, or is no form, or is one
with these values and this file. -/
inductive Form
  | tooLarge
  | malformed
  | parsed (value : String → String) (file : Option FilePart)

/-- How a request ends early: with an error answer, or with a panic. -/
inductive Exit
  | reject (r : Rejection)
  | panic
deriving DecidableEq

/-- `writeError` and `return`. -/
def reject {α : Type} (status : Nat) (message : String) : Except Exit α :=
  .error (.reject ⟨status, message⟩)

/-! ## Callback URLs -/

/-- Source: `net/url` URL -/
structure CallbackURL where
  scheme : String
  host : String
  hostname : String

/-- Source: `net/netip` Addr -/
structure IPAddr where
  isLoopback : Bool
  isPrivate : Bool
  isLinkLocalUnicast : Bool
  isLinkLocalMulticast : Bool
  isUnspecified : Bool

/-- What the check of a callback URL asks of its surroundings. -/
structure Network where
  parseURL : String → Option CallbackURL
  parseAddr : String → Option IPAddr
  lookupHost : String → Option (List String)
  /-- WEBHOOK_ALLOW_INSECURE_HTTP -/
  allowInsecureHTTP : Bool
  /-- WEBHOOK_ALLOW_PRIVATE_IPS -/
  allowPrivateIPs : Bool

/-- Source: `callbackurl.go` isBlockedIP -/
def Network.isBlockedIP (net : Network) (addr : IPAddr) : Bool :=
  addr.isLoopback || (!net.allowPrivateIPs && addr.isPrivate) || addr.isLinkLocalUnicast ||
    addr.isLinkLocalMulticast || addr.isUnspecified

/-- Source: `callbackurl.go` validateCallbackURL -/
def Network.validateCallbackURL (net : Network) (raw : String) : Option GoError :=
  if raw = "" then some (.new "callback_url: empty")
  else
    match net.parseURL raw with
    | none => some (.new "callback_url: invalid URL")
    | some u =>
      if u.host = "" then some (.new "callback_url: missing host")
      else if u.scheme ≠ "https" ∧ u.scheme ≠ "http" then
        some (.new "callback_url: unsupported scheme")
      else if u.scheme = "http" ∧ net.allowInsecureHTTP = false then
        some (.new "callback_url: http scheme not allowed")
      else if u.hostname = "" then some (.new "callback_url: missing host")
      else
        match net.parseAddr u.hostname with
        | some addr =>
          if net.isBlockedIP addr then some (.new "callback_url: blocked address") else none
        | none =>
          match net.lookupHost u.hostname with
          | none => some (.new "callback_url: cannot resolve host")
          | some addrs =>
            if (addrs.filterMap net.parseAddr).any net.isBlockedIP then
              some (.new "callback_url: blocked address")
            else none

/-! ## The form -/

/-- What the API is configured with, and what it uses of other packages.

Source: `api.go` Server -/
structure Server where
  env : Env
  codec : FloatCodec
  net : Network
  /-- `zip.NewReader` -/
  zipReader : Bytes → Option (List ZipFile)
  maxEngineBytes : Engine → Option Int
  maxImagePixels : Nat
  maxDocumentUncompressedBytes : UInt64

/-- Source: `handlers.go` maxPresetNameBytes -/
def maxPresetNameBytes : Nat := 128

/-- What is read from the form. -/
structure Fields where
  presetName : String
  rawOpts : String
  callbackURL : String
  target : String
  part : FilePart
  filename : String
  source : String

/-- Source: `handlers.go` handleCreateJob (usingPreset) -/
def Fields.usingPreset (f : Fields) : Prop := f.presetName ≠ ""

instance (f : Fields) : Decidable f.usingPreset := by
  unfold Fields.usingPreset
  infer_instance

/-- Source: `handlers.go` handleCreateJob -/
def readForm : Form → Except Exit Fields
  | .tooLarge => reject 413 "file exceeds size limit"
  | .malformed => reject 400 "invalid multipart form"
  | .parsed value file =>
    let presetName := value "preset"
    let rawTarget := value "target"
    let rawOpts := value "opts"
    if presetName ≠ "" ∧ (rawTarget ≠ "" ∨ (rawOpts ≠ "" ∧ rawOpts ≠ "{}")) then
      reject 422 "specify either preset or target/opts, not both"
    else if presetName ≠ "" ∧ maxPresetNameBytes < presetName.utf8ByteSize then
      reject 400 "invalid preset name"
    else
      let target := normalizeFormat rawTarget
      if presetName = "" ∧ target = "" then reject 400 "missing target format"
      else
        match file with
        | none => reject 400 "missing file"
        | some part =>
          let filename := pathBase part.filename
          let source := normalizeFormat (Strings.trimPrefix (UnixPath.ext filename) ".")
          if source = "" then reject 400 "cannot determine source format from filename"
          else .ok ⟨presetName, rawOpts, value "callback_url", target, part, filename, source⟩

/-! ## Detection -/

/-- The variables `detected` and `rest`. -/
structure Detection where
  detected : String
  rest : Reader

/-- The signatures of a fixed length. -/
def sniffStage (part : FilePart) : Except Exit Detection :=
  match sniff (.file part.file 0 0) with
  | none => .error .panic
  | some s =>
    match s.result with
    | none => reject 400 "invalid multipart form"
    | some (detected, rest) => .ok ⟨detected, rest⟩

/-- The office formats. -/
def zipStage (s : Server) (part : FilePart) (d : Detection) : Except Exit Detection :=
  if d.detected = "" ∧ readAt part.file.data 4 0 = [0x50, 0x4B, 0x03, 0x04] then
    match zipVerdict s.maxDocumentUncompressedBytes (sniffContainer (s.zipReader part.file.data)) with
    | .accepted format => .ok { d with detected := format }
    | .zipBomb => reject 422 "declared uncompressed size exceeds configured limit"
    | .macros => reject 422 "macro-carrying documents are not accepted"
    | .unrecognised => .ok d
  else .ok d

/-- HTML, if the name says so. -/
def htmlStage (part : FilePart) (source : String) (d : Detection) : Except Exit Detection :=
  if d.detected = "" ∧ source = "html" ∧ looksLikeHTML part.file.data part.size = true then
    .ok { d with detected := "html" }
  else .ok d

/-- Compound files are refused. -/
def cfbStage (part : FilePart) (d : Detection) : Except Exit Detection :=
  if d.detected = "" ∧ isOLECFB part.file.data = true then
    match classifyCFB part.file.data part.size with
    | .encrypted =>
      reject 422 "password-protected Office file is not supported; remove the password and re-upload"
    | .legacy =>
      reject 422 ("legacy binary Office format (.doc/.xls/.ppt) is not supported; " ++
        "convert to docx/xlsx/pptx")
    | .unknown =>
      reject 422 ("legacy binary or password-protected Office format is not supported; " ++
        "convert to docx/xlsx/pptx or remove the password")
  else .ok d

/-- mkv and webm. The reader is replaced whether or not one is found. -/
def videoStage (d : Detection) : Except Exit Detection :=
  if d.detected = "" then
    match sniffVideo d.rest with
    | none => .error .panic
    | some s =>
      match s.result with
      | some (videoDetected, videoRest) => .ok ⟨videoDetected, videoRest⟩
      | none => .ok { d with rest := s.drained }
  else .ok d

/-- The audio formats. The reader is replaced only if one is found. -/
def audioStage (d : Detection) : Except Exit Detection :=
  if d.detected = "" then
    match sniffAudio d.rest with
    | none => .error .panic
    | some s =>
      match s.result with
      | some (audioDetected, audioRest) =>
        if audioDetected ≠ "" then .ok ⟨audioDetected, audioRest⟩
        else .ok { d with rest := s.drained }
      | none => .ok { d with rest := s.drained }
  else .ok d

/-- The detectors in their order. -/
def detect (s : Server) (f : Fields) : Except Exit Detection := do
  let d ← sniffStage f.part
  let d ← zipStage s f.part d
  let d ← htmlStage f.part f.source d
  let d ← cfbStage f.part d
  let d ← videoStage d
  audioStage d

/-! ## The other checks -/

/-- The declared name is honest about the content, and the conversion is registered. -/
def checkPair (f : Fields) (target : String) (d : Detection) : Except Exit Engine :=
  if d.detected = "" then reject 422 ("unrecognized file content for " ++ f.filename)
  else if d.detected ≠ f.source then
    reject 422 ("declared format " ++ f.source ++ " does not match detected content " ++ d.detected)
  else
    match Registry.default.engineFor d.detected target with
    | none => reject 422 ("unsupported conversion: " ++ d.detected ++ " -> " ++ target)
    | some engine => .ok engine

/-- The size limit of the engine class. -/
def checkSize (s : Server) (f : Fields) (engine : Engine) : Except Exit Unit :=
  match s.maxEngineBytes engine with
  | some limit =>
    if limit < f.part.size then reject 413 "file exceeds size limit for this conversion type"
      else .ok ()
  | none => .ok ()

/-- The pixel limit of image formats. -/
def checkDimensions (s : Server) (f : Fields) (d : Detection) : Except Exit Detection :=
  if hasDimensionLimit d.detected then
    match dimensions d.detected d.rest with
    | none => .error .panic
    | some none => reject 422 ("cannot determine declared image dimensions for " ++ f.filename)
    | some (some ((width, height), dimRest)) =>
      if s.maxImagePixels < width * height then
        reject 422 "declared image dimensions exceed configured limit"
      else .ok { d with rest := dimRest }
  else .ok d

/-- The callback URL is optional. -/
def checkCallback (s : Server) (f : Fields) : Except Exit Unit :=
  if f.callbackURL = "" then .ok ()
  else
    match s.net.validateCallbackURL f.callbackURL with
    | some _ => reject 400 "invalid callback_url"
    | none => .ok ()

/-- The options, normalized. -/
def checkOpts (s : Server) (engine : Engine) (detected target rawOpts : String) : Except Exit Opts :=
  (normalizeOpts s.codec engine detected target rawOpts).mapError .reject

/-- What is known of a request that passes every check. -/
structure Inspected where
  engine : Engine
  detected : String
  rest : Reader
  normalizedOpts : Opts

/-- The checks between the first resolution of the preset and the upload.

Source: `handlers.go` handleCreateJob -/
def inspect (s : Server) (f : Fields) (target rawOpts : String) : Except Exit Inspected := do
  let d ← detect s f
  let engine ← checkPair f target d
  checkSize s f engine
  let d ← checkDimensions s f d
  checkCallback s f
  let normalizedOpts ← checkOpts s engine d.detected target rawOpts
  .ok ⟨engine, d.detected, d.rest, normalizedOpts⟩

/-! ## Every refusal is an error answer -/

/-- If the check ends the request with an answer, the answer is an error. -/
def Erring {α : Type} (x : Except Exit α) : Prop := ∀ r, x = .error (.reject r) → 400 ≤ r.status

/-- What goes on is no refusal. -/
theorem erring_ok {α : Type} (a : α) : Erring (.ok a : Except Exit α) := nofun

/-- A panic is no answer. -/
theorem erring_panic {α : Type} : Erring (.error .panic : Except Exit α) := nofun

/-- A refusal has a status of 400 or more. -/
theorem erring_reject {α : Type} (n : Nat) (message : String) :
    Erring (reject (n + 400) message : Except Exit α) := by
  intro r hr
  cases hr
  exact Nat.le_add_left 400 n

/-- A sequence refuses as its parts do. -/
theorem Erring.bind {α β : Type} {x : Except Exit α} {k : α → Except Exit β} (hx : Erring x)
    (hk : ∀ a, Erring (k a)) : Erring (x >>= k) := by
  rcases x with e | a
  · exact fun r hr => hx r (congrArg Except.error (Except.error.inj hr))
  · exact hk a

/-- A branch refuses as its arms do. -/
theorem erring_ite {α : Type} {c : Prop} [Decidable c] {x y : Except Exit α} (hx : Erring x)
    (hy : Erring y) : Erring (if c then x else y) := by
  split
  · exact hx
  · exact hy

/-- Reading the form refuses with 400 or more. -/
theorem readForm_erring (form : Form) : Erring (readForm form) := by
  rcases form with _ | _ | ⟨value, file⟩
  · exact erring_reject _ _
  · exact erring_reject _ _
  · unfold readForm
    refine erring_ite (erring_reject _ _) (erring_ite (erring_reject _ _) ?_)
    refine erring_ite (erring_reject _ _) ?_
    rcases file with _ | part
    · exact erring_reject _ _
    · exact erring_ite (erring_reject _ _) (erring_ok _)

/-- So does the detection. -/
theorem detect_erring (s : Server) (f : Fields) : Erring (detect s f) := by
  have hsniff : Erring (sniffStage f.part) := by
    unfold sniffStage
    split
    · exact erring_panic
    · split
      · exact erring_reject _ _
      · exact erring_ok _
  have hzip (d : Detection) : Erring (zipStage s f.part d) := by
    unfold zipStage
    refine erring_ite ?_ (erring_ok _)
    split
    · exact erring_ok _
    · exact erring_reject _ _
    · exact erring_reject _ _
    · exact erring_ok _
  have hhtml (d : Detection) : Erring (htmlStage f.part f.source d) :=
    erring_ite (erring_ok _) (erring_ok _)
  have hcfb (d : Detection) : Erring (cfbStage f.part d) := by
    unfold cfbStage
    refine erring_ite ?_ (erring_ok _)
    split
    · exact erring_reject _ _
    · exact erring_reject _ _
    · exact erring_reject _ _
  have hvideo (d : Detection) : Erring (videoStage d) := by
    unfold videoStage
    refine erring_ite ?_ (erring_ok _)
    split
    · exact erring_panic
    · split
      · exact erring_ok _
      · exact erring_ok _
  have haudio (d : Detection) : Erring (audioStage d) := by
    unfold audioStage
    refine erring_ite ?_ (erring_ok _)
    split
    · exact erring_panic
    · split
      · exact erring_ite (erring_ok _) (erring_ok _)
      · exact erring_ok _
  unfold detect
  exact hsniff.bind fun d => (hzip d).bind fun d => (hhtml d).bind fun d => (hcfb d).bind fun d =>
    (hvideo d).bind haudio

/-- So does the check of the options. -/
theorem normalizeOpts_erring (codec : FloatCodec) (engine : Engine) (source target rawOpts : String) :
    ∀ r, normalizeOpts codec engine source target rawOpts = .error r → 400 ≤ r.status := by
  have hwith {α : Type} (sch : Schema α) (applies : α → Option GoError) :
      ∀ r, normalizeWith codec sch applies rawOpts = .error r → 400 ≤ r.status := by
    intro r h
    unfold normalizeWith at h
    split at h
    · cases h
      decide
    · split at h
      · cases h
        decide
      · split at h
        · cases h
          decide
        · cases h
  intro r h
  unfold normalizeOpts at h
  split at h
  · cases h
  split at h
  · cases h
    decide
  split at h
  · exact hwith _ _ r h
  · exact hwith _ _ r h
  · exact hwith _ _ r h
  · exact hwith _ _ r h

/-- So does the whole inspection. -/
theorem inspect_erring (s : Server) (f : Fields) (target rawOpts : String) :
    Erring (inspect s f target rawOpts) := by
  have hpair (d : Detection) : Erring (checkPair f target d) := by
    unfold checkPair
    refine erring_ite (erring_reject _ _) (erring_ite (erring_reject _ _) ?_)
    split
    · exact erring_reject _ _
    · exact erring_ok _
  have hsize (engine : Engine) : Erring (checkSize s f engine) := by
    unfold checkSize
    split
    · exact erring_ite (erring_reject _ _) (erring_ok _)
    · exact erring_ok _
  have hdims (d : Detection) : Erring (checkDimensions s f d) := by
    unfold checkDimensions
    refine erring_ite ?_ (erring_ok _)
    split
    · exact erring_panic
    · exact erring_reject _ _
    · exact erring_ite (erring_reject _ _) (erring_ok _)
  have hcallback : Erring (checkCallback s f) := by
    unfold checkCallback
    refine erring_ite (erring_ok _) ?_
    split
    · exact erring_reject _ _
    · exact erring_ok _
  have hopts (engine : Engine) (detected : String) :
      Erring (checkOpts s engine detected target rawOpts) := by
    intro r h
    unfold checkOpts at h
    rcases hnorm : normalizeOpts s.codec engine detected target rawOpts with r' | m
    · rw [hnorm] at h
      cases h
      exact normalizeOpts_erring _ _ _ _ _ _ hnorm
    · rw [hnorm] at h
      cases h
  unfold inspect
  exact (detect_erring s f).bind fun d => (hpair d).bind fun engine => (hsize engine).bind fun _ =>
    (hdims d).bind fun d' => hcallback.bind fun _ =>
      (hopts engine d'.detected).bind fun _ => erring_ok _

/-! ## The reader keeps the file -/

/-- What a stage passes on has the bytes of the file. -/
def Keeps (b : Bytes) (stage : Detection → Except Exit Detection) : Prop :=
  ∀ d d', stage d = .ok d' → Holds d.rest b → Holds d'.rest b

/-- A check that passes after another one. -/
theorem ok_of_bind {α β : Type} {x : Except Exit α} {k : α → Except Exit β} {b : β}
    (h : x >>= k = .ok b) : ∃ a, x = .ok a ∧ k a = .ok b := by
  rcases x with e | a
  · cases h
  · exact ⟨a, rfl, h⟩

/-- A refusal is no success. -/
theorem reject_ne_ok {α : Type} {status : Nat} {message : String} {a : α} :
    (reject status message : Except Exit α) ≠ .ok a := nofun

/-- After the sniffing the stream holds the whole upload, if no read fails. -/
theorem sniffStage_holds {part : FilePart} (hreads : ∀ turn, part.file.fails turn = false)
    {d : Detection} (h : sniffStage part = .ok d) : Holds d.rest part.file.data := by
  have hfile : Holds (.file part.file 0 0) part.file.data := ⟨hreads, List.drop_zero⟩
  unfold sniffStage at h
  split at h
  · cases h
  · rename_i s hs
    obtain ⟨format, rest, hresult, hrest⟩ := sniffWith_content hs hfile
    rw [hresult] at h
    cases h
    exact hrest

/-- The check of a ZIP keeps the stream. -/
theorem zipStage_keeps (s : Server) (part : FilePart) (b : Bytes) : Keeps b (zipStage s part) := by
  intro d d' h hd
  unfold zipStage at h
  split at h
  · split at h
    · cases h
      exact hd
    · exact absurd h reject_ne_ok
    · exact absurd h reject_ne_ok
    · cases h
      exact hd
  · cases h
    exact hd

/-- The check of an HTML page keeps the stream. -/
theorem htmlStage_keeps (part : FilePart) (source : String) (b : Bytes) :
    Keeps b (htmlStage part source) := by
  intro d d' h hd
  unfold htmlStage at h
  split at h
  · cases h
    exact hd
  · cases h
    exact hd

/-- The check of a compound file keeps the stream. -/
theorem cfbStage_keeps (part : FilePart) (b : Bytes) : Keeps b (cfbStage part) := by
  intro d d' h hd
  unfold cfbStage at h
  split at h
  · split at h
    · exact absurd h reject_ne_ok
    · exact absurd h reject_ne_ok
    · exact absurd h reject_ne_ok
  · cases h
    exact hd

/-- The check of a video keeps the stream. -/
theorem videoStage_keeps (b : Bytes) : Keeps b videoStage := by
  intro d d' h hd
  unfold videoStage at h
  split at h
  · split at h
    · cases h
    · rename_i s hs
      obtain ⟨format, rest, hresult, hrest⟩ := sniffWith_content hs hd
      rw [hresult] at h
      cases h
      exact hrest
  · cases h
    exact hd

/-- Without a match the audio sniffer leaves a reader without its beginning; then nothing was
detected. -/
theorem audioStage_holds {d d' : Detection} {b : Bytes} (h : audioStage d = .ok d')
    (hd : Holds d.rest b) : d'.detected = "" ∨ Holds d'.rest b := by
  unfold audioStage at h
  split at h
  · rename_i hnone
    split at h
    · cases h
    · rename_i s hs
      obtain ⟨format, rest, hresult, hrest⟩ := sniffWith_content hs hd
      rw [hresult] at h
      dsimp only at h
      split at h
      · cases h
        exact .inr hrest
      · cases h
        exact .inl hnone
  · cases h
    exact .inr hd

/-- After the detectors, nothing was detected or the reader has all bytes of the file. -/
theorem detect_holds {s : Server} {f : Fields} (hreads : ∀ turn, f.part.file.fails turn = false)
    {d : Detection} (h : detect s f = .ok d) :
    d.detected = "" ∨ Holds d.rest f.part.file.data := by
  unfold detect at h
  obtain ⟨d₁, h₁, h⟩ := ok_of_bind h
  obtain ⟨d₂, h₂, h⟩ := ok_of_bind h
  obtain ⟨d₃, h₃, h⟩ := ok_of_bind h
  obtain ⟨d₄, h₄, h⟩ := ok_of_bind h
  obtain ⟨d₅, h₅, h⟩ := ok_of_bind h
  have hd₁ := sniffStage_holds hreads h₁
  have hd₂ := zipStage_keeps s f.part _ _ _ h₂ hd₁
  have hd₃ := htmlStage_keeps f.part f.source _ _ _ h₃ hd₂
  have hd₄ := cfbStage_keeps f.part _ _ _ h₄ hd₃
  exact audioStage_holds h (videoStage_keeps _ _ _ h₅ hd₄)

/-- The check of the dimensions keeps the stream. -/
theorem checkDimensions_keeps (s : Server) (f : Fields) (b : Bytes) :
    Keeps b (checkDimensions s f) := by
  intro d d' h hd
  unfold checkDimensions at h
  split at h
  · split at h
    · cases h
    · exact absurd h reject_ne_ok
    · rename_i width height dimRest hdims
      split at h
      · exact absurd h reject_ne_ok
      · cases h
        exact dimensions_content hdims hd
  · cases h
    exact hd

/-- The check of the dimensions does not change what was detected. -/
theorem checkDimensions_detected {s : Server} {f : Fields} {d d' : Detection}
    (h : checkDimensions s f d = .ok d') : d'.detected = d.detected := by
  unfold checkDimensions at h
  split at h
  · split at h
    · cases h
    · exact absurd h reject_ne_ok
    · split at h
      · exact absurd h reject_ne_ok
      · cases h
        rfl
  · cases h
    rfl

/-- What the check of the pair lets through: a detected format, as it was declared, with a conversion.
-/
theorem checkPair_ok {f : Fields} {target : String} {d : Detection} {engine : Engine}
    (h : checkPair f target d = .ok engine) :
    d.detected ≠ "" ∧ d.detected = f.source ∧ Registry.default.engineFor d.detected target =
      some engine := by
  unfold checkPair at h
  split at h
  · exact absurd h reject_ne_ok
  rename_i hne
  split at h
  · exact absurd h reject_ne_ok
  rename_i heq
  split at h
  · exact absurd h reject_ne_ok
  · rename_i e he
    cases h
    exact ⟨hne, not_not.mp heq, he⟩

/-- What passes the checks. -/
structure Passes (s : Server) (f : Fields) (target rawOpts : String) (i : Inspected) : Prop where
  detected : i.detected = f.source
  engine : Registry.default.engineFor i.detected target = some i.engine
  opts : normalizeOpts s.codec i.engine i.detected target rawOpts = .ok i.normalizedOpts
  rest : (∀ turn, f.part.file.fails turn = false) → Holds i.rest f.part.file.data

/-- What the inspection lets through has passed every check. -/
theorem inspect_passes {s : Server} {f : Fields} {target rawOpts : String} {i : Inspected}
    (h : inspect s f target rawOpts = .ok i) : Passes s f target rawOpts i := by
  unfold inspect at h
  obtain ⟨d, hdetect, h⟩ := ok_of_bind h
  obtain ⟨engine, hpair, h⟩ := ok_of_bind h
  obtain ⟨-, -, h⟩ := ok_of_bind h
  obtain ⟨d', hdims, h⟩ := ok_of_bind h
  obtain ⟨-, -, h⟩ := ok_of_bind h
  obtain ⟨normalizedOpts, hopts, h⟩ := ok_of_bind h
  cases h
  obtain ⟨hne, hsource, hengine⟩ := checkPair_ok hpair
  have hsame := checkDimensions_detected hdims
  refine ⟨hsame.trans hsource, by rw [hsame]; exact hengine, ?_, ?_⟩
  · unfold checkOpts at hopts
    rcases hnorm : normalizeOpts s.codec engine d'.detected target rawOpts with r | m
    · rw [hnorm] at hopts
      cases hopts
    · rw [hnorm] at hopts
      cases hopts
      rfl
  · intro hreads
    rcases detect_holds hreads hdetect with hnone | hholds
    · exact absurd hnone hne
    · exact checkDimensions_keeps s f _ _ _ hdims hholds

/-- A callback URL that passes was checked. -/
theorem inspect_callback {s : Server} {f : Fields} {target rawOpts : String} {i : Inspected}
    (h : inspect s f target rawOpts = .ok i) :
    f.callbackURL = "" ∨ s.net.validateCallbackURL f.callbackURL = none := by
  unfold inspect at h
  obtain ⟨d, -, h⟩ := ok_of_bind h
  obtain ⟨engine, -, h⟩ := ok_of_bind h
  obtain ⟨-, -, h⟩ := ok_of_bind h
  obtain ⟨d', -, h⟩ := ok_of_bind h
  obtain ⟨_, hcallback, -⟩ := ok_of_bind h
  unfold checkCallback at hcallback
  split at hcallback
  · rename_i hempty
    exact .inl hempty
  · split at hcallback
    · exact absurd hcallback reject_ne_ok
    · rename_i hnone
      exact .inr hnone

/-! ## Requests that pass -/

/-- A stage that succeeds goes on with its value. -/
theorem bind_of_ok {α β : Type} {x : Except Exit α} {k : α → Except Exit β} {a : α} (h : x = .ok a) :
    x >>= k = k a := by
  rw [h]
  rfl

/-- Once a signature has matched, no other detector looks at the file. -/
theorem detect_of_sniff {s : Server} {f : Fields} {d : Detection} (h : sniffStage f.part = .ok d)
    (hd : d.detected ≠ "") : detect s f = .ok d := by
  have hzip : zipStage s f.part d = .ok d := if_neg fun h => hd h.1
  have hhtml : htmlStage f.part f.source d = .ok d := if_neg fun h => hd h.1
  have hcfb : cfbStage f.part d = .ok d := if_neg fun h => hd h.1
  have hvideo : videoStage d = .ok d := if_neg hd
  have haudio : audioStage d = .ok d := if_neg hd
  unfold detect
  rw [bind_of_ok h, bind_of_ok hzip, bind_of_ok hhtml, bind_of_ok hcfb, bind_of_ok hvideo]
  exact haudio

/-- A request that passes every check. -/
theorem inspect_of_checks {s : Server} {f : Fields} {target rawOpts : String} {d d' : Detection}
    {engine : Engine} {m : Opts} (hdetect : detect s f = .ok d)
    (hpair : checkPair f target d = .ok engine)
    (hsize : checkSize s f engine = .ok ()) (hdims : checkDimensions s f d = .ok d')
    (hcallback : checkCallback s f = .ok ())
    (hopts : checkOpts s engine d'.detected target rawOpts = .ok m) :
    inspect s f target rawOpts = .ok ⟨engine, d'.detected, d'.rest, m⟩ := by
  unfold inspect
  rw [bind_of_ok hdetect, bind_of_ok hpair, bind_of_ok hsize, bind_of_ok hdims, bind_of_ok hcallback,
    bind_of_ok hopts]

end OctoConv.Api
