import OctoConv.Api.Options
import OctoConv.Convert.Agreement
import OctoConv.Convert.Disk
import OctoConv.Convert.Docsniff
import OctoConv.Convert.Opts
import OctoConv.Lib.Utf8

/-!
# The document converter

soffice converts a document next to its input, and may say that it has succeeded without having written
anything of use. So the converter looks at what it finds: a PDF has to begin like one, an archival PDF
has to carry its marker and to pass a validation by veraPDF, and every other document has to be a
container of the target format. What `encoding/xml` reads from a report and what `archive/zip` reads
from a file are parameters.

Source: `internal/convert/libreoffice.go`, `internal/convert/verapdf.go`, `internal/convert/opts.go`.

## Main results

* `validateReport_ok_iff` — which reports of veraPDF are trusted.
* `convertDocument_ends` — how a conversion ends, whatever soffice, veraPDF and the disk do.
* `document_valid` — what is reported as converted was there and was what was asked for when it was
  validated, and still is if the validator leaves the files alone.
-/

namespace OctoConv

open Conc Machine

/-! ## veraPDF -/

/-- Source: `verapdf.go` veraPDFReport -/
structure VeraCheck where
  status : String
  errorMessage : String

/-- Source: `verapdf.go` veraPDFReport -/
structure VeraRule where
  clause : String
  check : List VeraCheck

/-- Source: `verapdf.go` veraPDFReport -/
structure VeraValidation where
  jobEndStatus : String
  isCompliant : Bool
  rule : List VeraRule

/-- Source: `verapdf.go` veraPDFReport -/
structure VeraPDFReport where
  job : List VeraValidation
  failedToParse : Int
  outOfMemory : Int
  veraExceptions : Int
  failedJobs : Int

/-- The bytes of a text. -/
def bytesOf (text : String) : Bytes := Utf8.encode text.toList

/-- Bytes as a text; a character that was cut in two is shown as U+FFFD. -/
def textOf (b : Bytes) : String :=
  String.ofList ((Utf8.runes b).map fun
    | .char c => c
    | .bad _ => '\uFFFD')

/-- Source: `verapdf.go` maxSummaryChars -/
def maxSummaryChars : Nat := 500

/-- One check of a rule, added to the summary. -/
def summarizeCheck (clause : String) (b : Bytes) (check : VeraCheck) : Bytes :=
  if check.errorMessage = "" then b
  else (if 0 < b.length then b ++ bytesOf "; " else b) ++ bytesOf clause ++ bytesOf ": " ++
    bytesOf check.errorMessage

/-- The rules that are violated, shortened.

Source: `verapdf.go` parseVeraPDFReport -/
def summarize (rules : List VeraRule) : Bytes :=
  let b := rules.foldl (fun b rule => rule.check.foldl (summarizeCheck rule.clause) b) []
  if maxSummaryChars < b.length then b.take maxSummaryChars ++ bytesOf "...(truncated)" else b

/-- A verdict, and a summary of what is wrong.

Source: `verapdf.go` parseVeraPDFReport -/
def parseVeraPDFReport (unmarshal : Bytes → Except GoError VeraPDFReport) (raw : Bytes) :
    Except GoError (Bool × Bytes) :=
  match unmarshal raw with
  | .error err => .error (err.wrap "parse machine-readable report")
  | .ok report =>
    if 0 < report.failedToParse ∨ 0 < report.outOfMemory ∨ 0 < report.veraExceptions ∨
        0 < report.failedJobs then
      .error (GoError.new ("batch summary reports a validator failure (failedToParse=" ++
        toString report.failedToParse ++ " outOfMemory=" ++ toString report.outOfMemory ++
        " veraExceptions=" ++ toString report.veraExceptions ++ " failedJobs=" ++
        toString report.failedJobs ++ ")"))
    else
      match report.job with
      | [] => .error (GoError.new "report contains no job entries")
      | vr :: _ => if vr.isCompliant then .ok (true, []) else .ok (false, summarize vr.rule)

/-- Source: `verapdf.go` validateReport -/
def validateReport (unmarshal : Bytes → Except GoError VeraPDFReport) (raw : Bytes) :
    Except GoError Unit :=
  match parseVeraPDFReport unmarshal raw with
  | .error err => .error (err.wrap "verapdf: pdf/a validation error")
  | .ok (true, _) => .ok ()
  | .ok (false, summary) => .error (GoError.new ("verapdf: pdf/a non-compliant: " ++ textOf summary))

/-- A report that can be read, of a validation that did not fail, and that finds the file compliant. -/
def Compliant (unmarshal : Bytes → Except GoError VeraPDFReport) (raw : Bytes) : Prop :=
  ∃ report vr rest, unmarshal raw = .ok report ∧ report.failedToParse ≤ 0 ∧ report.outOfMemory ≤ 0 ∧
    report.veraExceptions ≤ 0 ∧ report.failedJobs ≤ 0 ∧ report.job = vr :: rest ∧ vr.isCompliant = true

variable {unmarshal : Bytes → Except GoError VeraPDFReport} {raw : Bytes}

/-- **Which reports are trusted.** -/
theorem validateReport_ok_iff : validateReport unmarshal raw = .ok () ↔ Compliant unmarshal raw := by
  unfold validateReport parseVeraPDFReport Compliant
  rcases unmarshal raw with err | report
  · constructor
    · exact fun h => nomatch h
    · rintro ⟨_, _, _, h, -⟩
      exact nomatch h
  · dsimp only
    split_ifs with hfailed
    · constructor
      · exact fun h => nomatch h
      · rintro ⟨report', _, _, h, hparse, hmemory, hexceptions, hjobs, -⟩
        obtain rfl := Except.ok.inj h
        omega
    · rcases hjob : report.job with _ | ⟨vr, rest⟩
      · constructor
        · exact fun h => nomatch h
        · rintro ⟨report', vr, rest, h, -, -, -, -, hcons, -⟩
          obtain rfl := Except.ok.inj h
          rw [hjob] at hcons
          cases hcons
      · dsimp only
        rcases hc : vr.isCompliant with _ | _
        · constructor
          · exact fun h => nomatch h
          · rintro ⟨report', vr', rest', h, -, -, -, -, hcons, hyes⟩
            obtain rfl := Except.ok.inj h
            rw [hjob] at hcons
            obtain rfl := (List.cons.inj hcons).1
            rw [hc] at hyes
            cases hyes
        · refine iff_of_true rfl ⟨report, vr, rest, rfl, ?_⟩
          refine ⟨by omega, by omega, by omega, by omega, hjob, hc⟩

/-- Source: `verapdf.go` ValidatePDFA -/
def verapdfArgs (path : String) : List String := ["-f", "2b", "--format", "xml", path]

/-- The report is read whatever the status of veraPDF was, if there is any.

Source: `verapdf.go` ValidatePDFA -/
def validatePDFA (unmarshal : Bytes → Except GoError VeraPDFReport) (path : String) :
    OnDisk (Except GoError Unit) :=
  disk (.run "verapdf" (verapdfArgs path)) >>= fun (r : Bytes × Option RunFailure) =>
    match r.2 with
    | some f =>
      if r.1.length = 0 then .ret (.error ((f.err "verapdf").wrap "verapdf: pdf/a validation error"))
      else .ret (validateReport unmarshal r.1)
    | none => .ret (validateReport unmarshal r.1)

/-! ## The output -/

/-- Source: `libreoffice.go` pdfMagic -/
def pdfMagic : Bytes := Bytes.ascii "%PDF-"

/-- Source: `libreoffice.go` gtsPDFAMarker -/
def gtsPDFAMarker : Bytes := Bytes.ascii "/GTS_PDFA"

/-- Source: `libreoffice.go` validatePDF -/
def validatePDF (path : String) : OnDisk (Except GoError Unit) :=
  (Prog.mapError (osError "libreoffice: stat output") (disk (.stat path))).andThen fun size =>
  if size = 0 then .ret (.error (GoError.new "libreoffice: output is empty"))
  else if size < pdfMagic.length then
    .ret (.error (GoError.new "libreoffice: output missing %PDF- magic bytes"))
  else
    (Prog.mapError (osError "libreoffice: open output") (disk (.openFile path))).andThen fun _ =>
    (Prog.mapError (osError "libreoffice: read output header")
      (disk (.readFull path pdfMagic.length))).andThen fun buf =>
    if buf ≠ pdfMagic then .ret (.error (GoError.new "libreoffice: output missing %PDF- magic bytes"))
    else .ret (.ok ())

/-- What the converter takes from packages that are not part of the repository: the floats of
`encoding/json`, the documents of `encoding/xml`, the entries of `archive/zip` (none: not an
archive). -/
structure DocHost where
  codec : FloatCodec
  unmarshal : Bytes → Except GoError VeraPDFReport
  zip : Bytes → Option (List ZipFile)

/-- An archival PDF: the marker first, as it costs nothing, then veraPDF.

Source: `libreoffice.go` validateDocumentOutput -/
def validateArchival (host : DocHost) (path : String) : OnDisk (Except GoError Unit) :=
  (Prog.mapError (osError "libreoffice: read output for PDF/A check")
    (disk (.readFile path))).andThen fun data =>
  if gtsPDFAMarker <:+: data then
    Prog.mapError (GoError.wrap "libreoffice") (validatePDFA host.unmarshal path)
  else .ret (.error (GoError.new "libreoffice: output missing PDF/A OutputIntent marker"))

/-- A document that is no PDF: the container check of uploads, on the output. A read of the
container that fails counts as a wrong container.

Source: `libreoffice.go` validateDocumentOutput -/
def validateContainer (host : DocHost) (path target : String) : OnDisk (Except GoError Unit) :=
  (Prog.mapError (osError "libreoffice: stat output") (disk (.stat path))).andThen fun size =>
  if size = 0 then .ret (.error (GoError.new "libreoffice: output is empty"))
  else
    (Prog.mapError (osError "libreoffice: open output") (disk (.openFile path))).andThen fun _ =>
    disk (.readFile path) >>= fun (content : Except String Bytes) =>
      let cr := sniffContainer (match content with
        | .ok b => host.zip b
        | .error _ => none)
      if (cr.map (·.format)) = some (normalizeFormat target) then .ret (.ok ())
      else .ret (.error (GoError.new
        ("libreoffice: output does not match expected container format " ++ target)))

/-- Source: `libreoffice.go` validateDocumentOutput -/
def validateDocumentOutput (host : DocHost) (path target : String) (wantPDFA : Bool) :
    OnDisk (Except GoError Unit) :=
  if normalizeFormat target = "pdf" then
    (validatePDF path).andThen fun _ =>
    if wantPDFA then validateArchival host path else .ret (.ok ())
  else validateContainer host path target

/-! ## Conversion -/

/-- Source: `opts.go` pdfaFilterOptionsSuffix -/
def pdfaFilterOptionsSuffix : String :=
  "\x7b\"SelectPdfVersion\":\x7b\"type\":\"long\",\"value\":\"2\"\x7d,\"EmbedStandardFonts\":" ++
    "\x7b\"type\":\"boolean\",\"value\":true\x7d\x7d"

/-- Source: `opts.go` PDFAFilterOptions -/
def pdfaFilterOptions (o : DocOpts) : String × Bool :=
  if o.pdfProfile ≠ pdfProfileA2b then ("", false) else (pdfaFilterOptionsSuffix, true)

/-- The value of `--convert-to`: the target, its filter, and the options of the filter if an
archival PDF was asked for.

Source: `libreoffice.go` Convert -/
def convertTo (target filter : String) (o : DocOpts) : String :=
  target ++ ":" ++ filter ++
    (if (pdfaFilterOptions o).2 then ":" ++ (pdfaFilterOptions o).1 else "")

/-- Source: `libreoffice.go` Convert -/
def sofficeArgs (inPath outPath filter : String) (o : DocOpts) : List String :=
  ["--headless", "--invisible", "--nocrashreport", "--nodefault", "--nologo", "--nofirststartwizard",
    "--norestore",
    "-env:UserInstallation=file://" ++ UnixPath.join [UnixPath.dir outPath, "lo-profile"],
    "--convert-to", convertTo (targetOf outPath) filter o, "--outdir", UnixPath.dir outPath, inPath]

/-- Where soffice leaves its output.

Source: `libreoffice.go` Convert -/
def producedPath (inPath outPath : String) : String :=
  UnixPath.join [UnixPath.dir outPath,
    Strings.trimSuffix (pathBase inPath) (UnixPath.ext inPath) ++ "." ++ targetOf outPath]

/-- The options and the filter of a conversion, checked before anything is run.

Source: `libreoffice.go` Convert -/
def documentSetup (host : DocHost) (inPath outPath : String) (opts : Opts) :
    Except GoError (DocOpts × String) :=
  match docOptsFromMap host.codec opts with
  | .error err => .error (err.wrap "libreoffice")
  | .ok o =>
    if (pdfaFilterOptions o).2 = true ∧ targetOf outPath ≠ "pdf" then
      .error (GoError.new ("libreoffice: pdf_profile requested for non-pdf target " ++
        goQuote (targetOf outPath)))
    else
      match filterFor (UnixPath.ext inPath) (UnixPath.ext outPath) with
      | .error err => .error (err.wrap "libreoffice")
      | .ok filter => .ok (o, filter)

/-- soffice writes next to the input; its output is moved to where it belongs, and looked at.

Source: `libreoffice.go` Convert -/
def produceDocument (host : DocHost) (inPath outPath : String) (o : DocOpts) (filter : String) :
    OnDisk (Except GoError Unit) :=
  (Prog.mapError (GoError.wrap "libreoffice")
    (runOn "soffice" (sofficeArgs inPath outPath filter o))).andThen fun _ =>
  (Prog.mapError (fun why => GoError.new ("libreoffice: produced no output file for " ++
    goQuote (targetOf outPath) ++ ": " ++ why))
    (disk (.stat (producedPath inPath outPath)))).andThen fun _ =>
  (Prog.mapError (osError "libreoffice: rename output")
    (disk (.rename (producedPath inPath outPath) outPath))).andThen fun _ =>
  validateDocumentOutput host outPath (targetOf outPath) (pdfaFilterOptions o).2

/-- Source: `libreoffice.go` Convert -/
def convertDocument (host : DocHost) (inPath outPath : String) (opts : Opts) :
    OnDisk (Except GoError Unit) :=
  (Prog.mapError (osError "libreoffice: mkdir profile")
    (disk (.mkdirAll (UnixPath.join [UnixPath.dir outPath, "lo-profile"])))).andThen fun _ =>
  match documentSetup host inPath outPath opts with
  | .error err => .ret (.error err)
  | .ok (o, filter) => produceDocument host inPath outPath o filter

/-! ## How the validation of an output ends -/

/-- Why an output is not accepted. -/
inductive OutputFailure
  | stat (why : String)
  | empty
  | magic
  | openFile (why : String)
  | header (why : String)
  | read (why : String)
  | marker
  | container (target : String)
  /-- veraPDF has said nothing. -/
  | silent (f : RunFailure)
  /-- It has said nothing that can be trusted. -/
  | unverified (err : GoError)
  | nonCompliant (summary : Bytes)

/-- The error that it is reported as. -/
def OutputFailure.err : OutputFailure → GoError
  | stat why => osError "libreoffice: stat output" why
  | empty => GoError.new "libreoffice: output is empty"
  | magic => GoError.new "libreoffice: output missing %PDF- magic bytes"
  | openFile why => osError "libreoffice: open output" why
  | header why => osError "libreoffice: read output header" why
  | read why => osError "libreoffice: read output for PDF/A check" why
  | marker => GoError.new "libreoffice: output missing PDF/A OutputIntent marker"
  | container target =>
      GoError.new ("libreoffice: output does not match expected container format " ++ target)
  | silent f => ((f.err "verapdf").wrap "verapdf: pdf/a validation error").wrap "libreoffice"
  | unverified err => (err.wrap "verapdf: pdf/a validation error").wrap "libreoffice"
  | nonCompliant summary =>
      (GoError.new ("verapdf: pdf/a non-compliant: " ++ textOf summary)).wrap "libreoffice"

/-- It can be found with any PDF. -/
def OutputFailure.OfPDF : OutputFailure → Prop
  | stat _ => True
  | empty => True
  | magic => True
  | openFile _ => True
  | header _ => True
  | _ => False

/-- A run of veraPDF over a file, between two states of the disk. -/
def VeraRun (path : String) (d d' : Disk) (x : Ran) : Prop :=
  x.name = "verapdf" ∧ x.args = verapdfArgs path ∧ x.files = d.files ∧ d' = d.after x

/-- What the disk shows of it, from the start of the validation to its end: the call that has failed,
the file that is wrong, or what veraPDF has said. -/
def OutputFailure.Shown (host : DocHost) (path target : String) (d d' : Disk) : OutputFailure → Prop
  | stat why => d' = d.refuse (.stat path) why
  | empty => d' = d ∧ d.files path = some []
  | magic => d' = d ∧ ∃ b, d.files path = some b ∧ b ≠ [] ∧ ¬ pdfMagic <+: b
  | openFile why => d' = d.refuse (.openFile path) why
  | header why => d' = d.refuse (.readFull path pdfMagic.length) why
  | read why => d' = d.refuse (.readFile path) why
  | marker => d' = d ∧ ∃ b, d.files path = some b ∧ ¬ gtsPDFAMarker <:+: b
  | container t => t = target ∧ normalizeFormat target ≠ "pdf" ∧
      ((d' = d ∧ ∃ b, d.files path = some b ∧
          (sniffContainer (host.zip b)).map (·.format) ≠ some (normalizeFormat target)) ∨
        ∃ why, d' = d.refuse (.readFile path) why)
  | silent f => ∃ x, VeraRun path d d' x ∧ x.stdout = [] ∧ x.failure = some f
  | unverified err => ∃ x, VeraRun path d d' x ∧
      parseVeraPDFReport host.unmarshal x.stdout = .error err
  | nonCompliant summary => ∃ x, VeraRun path d d' x ∧
      parseVeraPDFReport host.unmarshal x.stdout = .ok (false, summary)

/-- Nothing is run to find fault with a PDF as such. -/
theorem OutputFailure.Shown.ran {host : DocHost} {path target : String} {d d' : Disk}
    {f : OutputFailure} (h : f.Shown host path target d d') (hpdf : f.OfPDF) : d'.ran = d.ran := by
  cases f with
  | stat why =>
    obtain rfl : d' = d.refuse (.stat path) why := h
    rfl
  | openFile why =>
    obtain rfl : d' = d.refuse (.openFile path) why := h
    rfl
  | header why =>
    obtain rfl : d' = d.refuse (.readFull path pdfMagic.length) why := h
    rfl
  | empty => exact congrArg Disk.ran h.1
  | magic => exact congrArg Disk.ran h.1
  | _ => exact hpdf.elim

variable {host : DocHost} {path target : String} {d : Disk}

/-- How the check of a PDF ends. -/
theorem validatePDF_ends (host : DocHost) (path target : String) (d : Disk) :
    (validatePDF path).Ends d fun r d' =>
      match r with
      | .ok _ => d' = d ∧ ∃ b, d.files path = some b ∧ pdfMagic <+: b
      | .error e => ∃ f : OutputFailure, f.OfPDF ∧ f.Shown host path target d d' ∧ e = f.err := by
  apply ends_stage (ends_stat path d)
  · exact fun why => ⟨.stat why, trivial, rfl, rfl⟩
  rintro size ⟨b, hb, hlen⟩
  split_ifs with hzero hshort
  · refine alone_ret.mpr ⟨.empty, trivial, ⟨rfl, ?_⟩, rfl⟩
    rw [hb, List.eq_nil_of_length_eq_zero (hlen.trans hzero)]
  · refine alone_ret.mpr ⟨.magic, trivial, ⟨rfl, b, hb, ?_, fun hp => ?_⟩, rfl⟩
    · rintro rfl
      exact hzero hlen.symm
    · have := hp.length_le
      omega
  have hne : b ≠ [] := by
    rintro rfl
    exact hzero hlen.symm
  apply ends_stage (ends_openFile path _)
  · exact fun why => ⟨.openFile why, trivial, rfl, rfl⟩
  rintro _ -
  apply ends_stage (ends_readFull path _ _)
  · exact fun why => ⟨.header why, trivial, rfl, rfl⟩
  rintro buf ⟨b', hb', hle, hs⟩
  obtain rfl := Option.some.inj (hb.symm.trans hb')
  split_ifs with hmagic
  · refine alone_ret.mpr ⟨.magic, trivial, ⟨rfl, b, hb, hne, fun hp => hmagic ?_⟩, rfl⟩
    rw [hs]
    exact (List.prefix_iff_eq_take.mp hp).symm
  · refine alone_ret.mpr ⟨rfl, b, hb, ?_⟩
    rw [← not_not.mp hmagic, hs]
    exact List.take_prefix _ _

/-- A run of veraPDF over the file whose report is trusted. -/
def Certified (host : DocHost) (path : String) (d d' : Disk) : Prop :=
  ∃ x, VeraRun path d d' x ∧ Compliant host.unmarshal x.stdout

/-- How the run of veraPDF ends. -/
theorem validatePDFA_ends (host : DocHost) (path target : String) (d : Disk) :
    (validatePDFA host.unmarshal path).Ends d fun r d' =>
      match r with
      | .ok _ => Certified host path d d'
      | .error e => ∃ f : OutputFailure, f.Shown host path target d d' ∧
          e.wrap "libreoffice" = f.err := by
  apply (ends_run "verapdf" (verapdfArgs path) d).bind
  rintro ⟨out, failure⟩ d' ⟨left, rfl⟩
  have hrun : VeraRun path d (d.after ⟨"verapdf", verapdfArgs path, d.files, out, failure, left⟩)
      ⟨"verapdf", verapdfArgs path, d.files, out, failure, left⟩ := ⟨rfl, rfl, rfl, rfl⟩
  -- what a report leads to
  have hreport : match validateReport host.unmarshal out with
      | .ok _ => Certified host path d
          (d.after ⟨"verapdf", verapdfArgs path, d.files, out, failure, left⟩)
      | .error e => ∃ f : OutputFailure, f.Shown host path target d
          (d.after ⟨"verapdf", verapdfArgs path, d.files, out, failure, left⟩) ∧
            e.wrap "libreoffice" = f.err := by
    rcases hr : validateReport host.unmarshal out with e | u
    · unfold validateReport at hr
      rcases hp : parseVeraPDFReport host.unmarshal out with err | ⟨_ | _, summary⟩
      · rw [hp] at hr
        refine ⟨.unverified err, ⟨_, hrun, hp⟩, ?_⟩
        rw [← Except.error.inj hr]
        rfl
      · rw [hp] at hr
        refine ⟨.nonCompliant summary, ⟨_, hrun, hp⟩, ?_⟩
        rw [← Except.error.inj hr]
        rfl
      · rw [hp] at hr
        exact nomatch hr
    · exact ⟨_, hrun, validateReport_ok_iff.mp hr⟩
  rcases failure with _ | f
  · exact alone_ret.mpr hreport
  · dsimp only
    split_ifs with hnone
    · exact alone_ret.mpr
        ⟨.silent f, ⟨_, hrun, List.eq_nil_of_length_eq_zero hnone, rfl⟩, rfl⟩
    · exact alone_ret.mpr hreport

/-- What an output has to be, when its validation begins, and what the validation does. -/
structure DocumentValid (host : DocHost) (path target : String) (wantPDFA : Bool) (d d' : Disk) :
    Prop where
  /-- A PDF begins like one. -/
  pdf : normalizeFormat target = "pdf" → ∃ b, d.files path = some b ∧ pdfMagic <+: b
  /-- An archival PDF carries its marker, and the validation of this file has found it compliant. -/
  archival : normalizeFormat target = "pdf" → wantPDFA = true →
    (∃ b, d.files path = some b ∧ gtsPDFAMarker <:+: b) ∧ Certified host path d d'
  /-- Any other document is a container of its format. -/
  container : normalizeFormat target ≠ "pdf" → ∃ b cr, d.files path = some b ∧
    sniffContainer (host.zip b) = some cr ∧ cr.format = normalizeFormat target
  /-- Nothing is run that was not asked for. -/
  quiet : normalizeFormat target ≠ "pdf" ∨ wantPDFA = false → d' = d

/-- How the check of an archival PDF ends. -/
theorem validateArchival_ends (host : DocHost) (path target : String) (d : Disk) :
    (validateArchival host path).Ends d fun r d' =>
      match r with
      | .ok _ => (∃ b, d.files path = some b ∧ gtsPDFAMarker <:+: b) ∧ Certified host path d d'
      | .error e => ∃ f : OutputFailure, f.Shown host path target d d' ∧ e = f.err := by
  apply ends_stage (ends_readFile path d)
  · exact fun why => ⟨.read why, rfl, rfl⟩
  rintro data hb
  split_ifs with hmarker
  · apply (validatePDFA_ends host path target d).mapError.mono
    rintro _ d' ⟨r, hr, rfl⟩
    rcases r with e | _
    · exact hr
    · exact ⟨⟨data, hb, hmarker⟩, hr⟩
  · exact alone_ret.mpr ⟨.marker, ⟨rfl, data, hb, hmarker⟩, rfl⟩

/-- How the check of a container ends. -/
theorem validateContainer_ends (host : DocHost) (path target : String) (d : Disk)
    (ht : normalizeFormat target ≠ "pdf") :
    (validateContainer host path target).Ends d fun r d' =>
      match r with
      | .ok _ => d' = d ∧ ∃ b cr, d.files path = some b ∧ sniffContainer (host.zip b) = some cr ∧
          cr.format = normalizeFormat target
      | .error e => ∃ f : OutputFailure, f.Shown host path target d d' ∧ e = f.err := by
  apply ends_stage (ends_stat path d)
  · exact fun why => ⟨.stat why, rfl, rfl⟩
  rintro size ⟨b, hb, hlen⟩
  split_ifs with hzero
  · refine alone_ret.mpr ⟨.empty, ⟨rfl, ?_⟩, rfl⟩
    rw [hb, List.eq_nil_of_length_eq_zero (hlen.trans hzero)]
  apply ends_stage (ends_openFile path _)
  · exact fun why => ⟨.openFile why, rfl, rfl⟩
  rintro _ -
  apply (ends_readFile path _).bind
  rintro content d' hread
  rcases content with why | b
  · refine alone_ret.mpr ⟨.container target, ⟨rfl, ht, .inr ⟨why, hread⟩⟩, rfl⟩
  obtain ⟨rfl, hfound⟩ := hread
  dsimp only
  split_ifs with hformat
  · obtain ⟨cr, hcr, heq⟩ := Option.map_eq_some_iff.mp hformat
    exact alone_ret.mpr ⟨rfl, b, cr, hfound, hcr, heq⟩
  · exact alone_ret.mpr ⟨.container target, ⟨rfl, ht, .inl ⟨rfl, b, hfound, hformat⟩⟩, rfl⟩

/-- **How a validation ends.** -/
theorem validateDocumentOutput_ends (host : DocHost) (path target : String) (wantPDFA : Bool)
    (d : Disk) :
    (validateDocumentOutput host path target wantPDFA).Ends d fun r d' =>
      match r with
      | .ok _ => DocumentValid host path target wantPDFA d d'
      | .error e => ∃ f : OutputFailure, f.Shown host path target d d' ∧ e = f.err := by
  by_cases ht : normalizeFormat target = "pdf"
  · rw [validateDocumentOutput, if_pos ht]
    apply (validatePDF_ends host path target d).andThen
    · rintro e d' ⟨f, -, hf⟩
      exact ⟨f, hf⟩
    rintro _ _ ⟨rfl, hpdf⟩
    split_ifs with hwant
    · apply (validateArchival_ends host path target _).mono
      rintro r d' hr
      rcases r with e | _
      · exact hr
      · refine ⟨fun _ => hpdf, fun _ _ => hr, fun hne => absurd ht hne, fun hq => ?_⟩
        rcases hq with hne | hno
        · exact absurd ht hne
        · rw [hwant] at hno
          cases hno
    · apply alone_ret.mpr
      exact ⟨fun _ => hpdf, fun _ hw => absurd hw hwant, fun hne => absurd ht hne, fun _ => rfl⟩
  · rw [validateDocumentOutput, if_neg ht]
    apply (validateContainer_ends host path target d ht).mono
    rintro r d' hr
    rcases r with e | _
    · exact hr
    · exact ⟨fun hpdf => absurd hpdf ht, fun hpdf => absurd hpdf ht, fun _ => hr.2, fun _ => hr.1⟩

/-! ## How a conversion ends -/

/-- Why a conversion fails. -/
inductive DocFailure
  | mkdir (why : String)
  /-- The options are rejected, before anything was run. -/
  | options (err : GoError)
  /-- An archival profile for something that is not a PDF. -/
  | profile (target : String)
  /-- No filter between these formats. -/
  | filter (sourceExt targetExt : String)
  | soffice (f : RunFailure)
  | noOutput (target why : String)
  | rename (why : String)
  | output (f : OutputFailure)

/-- The error that it is reported as. -/
def DocFailure.err : DocFailure → GoError
  | mkdir why => osError "libreoffice: mkdir profile" why
  | options err => err.wrap "libreoffice"
  | profile target =>
      GoError.new ("libreoffice: pdf_profile requested for non-pdf target " ++ goQuote target)
  | filter sourceExt targetExt =>
      (GoError.new ("no export filter for " ++ sourceExt ++ " -> " ++ targetExt)).wrap "libreoffice"
  | soffice f => (f.err "soffice").wrap "libreoffice"
  | noOutput target why =>
      GoError.new ("libreoffice: produced no output file for " ++ goQuote target ++ ": " ++ why)
  | rename why => osError "libreoffice: rename output" why
  | output f => f.err

/-- soffice was run on the disk, once, with the arguments of the request. -/
def Produced (host : DocHost) (inPath outPath : String) (opts : Opts) (failure : Option RunFailure)
    (d d' : Disk) : Prop :=
  ∃ o filter out left, documentSetup host inPath outPath opts = .ok (o, filter) ∧
    d' = d.after ⟨"soffice", sofficeArgs inPath outPath filter o, d.files, out, failure, left⟩

/-- The output of soffice was moved to where it belongs. -/
def Moved (inPath outPath : String) (d d' : Disk) : Prop :=
  ∃ b, d.files (producedPath inPath outPath) = some b ∧
    d' = (d.set (producedPath inPath outPath) none).set outPath (some b)

/-- What the run shows of it, from its start to its end. -/
def DocFailure.Shown (host : DocHost) (inPath outPath : String) (opts : Opts) (d d' : Disk) :
    DocFailure → Prop
  | mkdir why =>
      d' = d.refuse (.mkdirAll (UnixPath.join [UnixPath.dir outPath, "lo-profile"])) why
  | options err => d' = d ∧ docOptsFromMap host.codec opts = .error err
  | profile target => d' = d ∧ target = targetOf outPath ∧ target ≠ "pdf" ∧
      ∃ o, docOptsFromMap host.codec opts = .ok o ∧ o.pdfProfile = pdfProfileA2b
  | filter sourceExt targetExt => d' = d ∧ sourceExt = UnixPath.ext inPath ∧
      targetExt = UnixPath.ext outPath ∧
        exportFilter ⟨normalizeFormat sourceExt, normalizeFormat targetExt⟩ = none
  | soffice f => Produced host inPath outPath opts (some f) d d'
  | noOutput target why => target = targetOf outPath ∧ ∃ d₁,
      Produced host inPath outPath opts none d d₁ ∧
        d' = d₁.refuse (.stat (producedPath inPath outPath)) why
  | rename why => ∃ d₁, Produced host inPath outPath opts none d d₁ ∧
      d' = d₁.refuse (.rename (producedPath inPath outPath) outPath) why
  | output f => ∃ d₁ d₂, Produced host inPath outPath opts none d d₁ ∧ Moved inPath outPath d₁ d₂ ∧
      f.Shown host outPath (targetOf outPath) d₂ d'

/-- A conversion that has succeeded: soffice was run once, with the arguments of the request, and its
output, moved to where it belongs, is what it has to be. -/
def Converted (host : DocHost) (inPath outPath : String) (opts : Opts) (d d₂ d' : Disk) : Prop :=
  ∃ o filter out left d₁, documentSetup host inPath outPath opts = .ok (o, filter) ∧
    d₁ = d.after ⟨"soffice", sofficeArgs inPath outPath filter o, d.files, out, none, left⟩ ∧
    Moved inPath outPath d₁ d₂ ∧
    DocumentValid host outPath (targetOf outPath) (pdfaFilterOptions o).2 d₂ d'

/-- A request that is rejected has run nothing. -/
theorem documentSetup_error {host : DocHost} {inPath outPath : String} {opts : Opts} {e : GoError}
    (h : documentSetup host inPath outPath opts = .error e) (d : Disk) :
    ∃ f : DocFailure, f.Shown host inPath outPath opts d d ∧ e = f.err := by
  unfold documentSetup at h
  rcases hopts : docOptsFromMap host.codec opts with err | o
  · rw [hopts] at h
    exact ⟨.options err, ⟨rfl, hopts⟩, (Except.error.inj h).symm⟩
  rw [hopts] at h
  dsimp only at h
  split_ifs at h with hprofile
  · refine ⟨.profile (targetOf outPath), ⟨rfl, rfl, hprofile.2, o, hopts, ?_⟩,
      (Except.error.inj h).symm⟩
    by_contra hne
    have hplain := hprofile.1
    rw [pdfaFilterOptions, if_pos hne] at hplain
    cases hplain
  · unfold filterFor at h
    rcases hfilter : exportFilter ⟨normalizeFormat (UnixPath.ext inPath),
        normalizeFormat (UnixPath.ext outPath)⟩ with _ | filter
    · rw [hfilter] at h
      exact ⟨.filter (UnixPath.ext inPath) (UnixPath.ext outPath), ⟨rfl, rfl, rfl, hfilter⟩,
        (Except.error.inj h).symm⟩
    · rw [hfilter] at h
      exact nomatch h

/-- How the run of soffice ends, with what is made of its output. -/
theorem produceDocument_ends {host : DocHost} {inPath outPath : String} {opts : Opts} {o : DocOpts}
    {filter : String} (hsetup : documentSetup host inPath outPath opts = .ok (o, filter)) (d : Disk) :
    (produceDocument host inPath outPath o filter).Ends d fun r d' =>
      match r with
      | .ok _ => ∃ d₂, Converted host inPath outPath opts d d₂ d'
      | .error e => ∃ f : DocFailure, f.Shown host inPath outPath opts d d' ∧ e = f.err := by
  apply (ends_runOn "soffice" (sofficeArgs inPath outPath filter o) _).mapError.andThen
  · rintro e d₁ ⟨r, ⟨out, left, ⟨rfl, -⟩ | ⟨f, rfl, hrun⟩⟩, hr⟩
    · exact nomatch hr
    · exact ⟨.soffice f, ⟨o, filter, out, left, hsetup, hrun⟩, Except.error.inj hr⟩
  rintro _ d₁ ⟨r, ⟨out, left, ⟨rfl, hrun⟩ | ⟨f, rfl, -⟩⟩, hr⟩
  swap
  · exact nomatch hr
  have hproduced : Produced host inPath outPath opts none d d₁ := ⟨o, filter, out, left, hsetup, hrun⟩
  apply ends_stage (ends_stat _ d₁)
  · exact fun why => ⟨.noOutput _ why, ⟨rfl, d₁, hproduced, rfl⟩, rfl⟩
  rintro _ -
  apply (ends_rename _ _ _).mapError.andThen
  · rintro e _ ⟨r, ⟨rfl, -⟩ | ⟨why, rfl, hrefused⟩, hr⟩
    · exact nomatch hr
    · exact ⟨.rename why, ⟨d₁, hproduced, hrefused⟩, Except.error.inj hr⟩
  rintro _ d₂ ⟨r, ⟨rfl, hmoved⟩ | ⟨why, rfl, -⟩, hr⟩
  swap
  · exact nomatch hr
  apply (validateDocumentOutput_ends host outPath (targetOf outPath) _ d₂).mono
  rintro r d₃ hvalid
  rcases r with e | _
  · obtain ⟨f, hf, rfl⟩ := hvalid
    exact ⟨.output f, ⟨d₁, d₂, hproduced, hmoved, hf⟩, rfl⟩
  · exact ⟨d₂, o, filter, out, left, d₁, hsetup, hrun, hmoved, hvalid⟩

/-- **How a conversion ends**, whatever soffice, veraPDF and the disk do. -/
theorem convertDocument_ends (host : DocHost) (inPath outPath : String) (opts : Opts) (d : Disk) :
    (convertDocument host inPath outPath opts).Ends d fun r d' =>
      match r with
      | .ok _ => ∃ d₂, Converted host inPath outPath opts d d₂ d'
      | .error e => ∃ f : DocFailure, f.Shown host inPath outPath opts d d' ∧ e = f.err := by
  rw [convertDocument]
  apply ends_stage (ends_mkdirAll _ d)
  · exact fun why => ⟨.mkdir why, rfl, rfl⟩
  rintro _ -
  rcases hsetup : documentSetup host inPath outPath opts with err | ⟨o, filter⟩
  · exact alone_ret.mpr (documentSetup_error hsetup _)
  · exact produceDocument_ends hsetup _

/-- veraPDF is a validator: the runs of it that are on record have left this file as they found it. -/
def VeraReadsOnly (path : String) (d : Disk) : Prop :=
  ∀ x ∈ d.ran, x.name = "verapdf" → x.left path = x.files path

/-- A validation by a validator that only reads leaves the file as it was. -/
theorem DocumentValid.files {host : DocHost} {path target : String} {wantPDFA : Bool} {d d' : Disk}
    (h : DocumentValid host path target wantPDFA d d') (hreads : VeraReadsOnly path d') :
    d'.files path = d.files path := by
  by_cases ht : normalizeFormat target = "pdf"
  · cases wantPDFA with
    | false => rw [h.quiet (.inr rfl)]
    | true =>
      obtain ⟨-, x, ⟨hname, -, hfiles, rfl⟩, -⟩ := h.archival ht rfl
      have hmem : x ∈ (d.after x).ran := List.mem_append_right _ (List.mem_singleton_self x)
      rw [Disk.after_files, hreads x hmem hname, hfiles]
  · rw [h.quiet (.inl ht)]

/-- **What is reported as converted is what was asked for**: soffice was run once, with the arguments
of the request; the output that was moved to its place is a PDF that begins like one, an archival PDF
that carries its marker and that veraPDF has found compliant as it was, or a container of its format.
And if veraPDF only reads what it validates, that output is what is there at the end. -/
theorem document_valid (host : DocHost) (inPath outPath : String) (opts : Opts) (d : Disk) :
    (convertDocument host inPath outPath opts).Ends d fun r d' => r = .ok () →
      ∃ d₂, Converted host inPath outPath opts d d₂ d' ∧
        (VeraReadsOnly outPath d' → d'.files outPath = d₂.files outPath) := by
  apply (convertDocument_ends host inPath outPath opts d).mono
  rintro r d' h rfl
  obtain ⟨d₂, hconverted⟩ := h
  refine ⟨d₂, hconverted, ?_⟩
  obtain ⟨o, filter, out, left, d₁, -, -, -, hvalid⟩ := hconverted
  exact hvalid.files

/-! ## A host -/

/-- A host whose report of veraPDF, if there is any, is one of a compliant file. -/
def exampleDocHost : DocHost where
  codec := Api.exampleCodec
  unmarshal raw :=
    if raw = [] then .error (GoError.new "EOF") else .ok ⟨[⟨"normal", true, []⟩], 0, 0, 0, 0⟩
  zip _ := none

/-- Nothing fails, and a command does nothing. -/
def calm : Weather := ⟨none, "no such file or directory", [], none, id⟩

/-- soffice writes an archival PDF next to its input. -/
def sofficeWrites : Weather :=
  { calm with
    writes := fun files p =>
      if p = "/w/in.pdf" then some (Bytes.ascii "%PDF-1.7 /GTS_PDFA") else files p }

/-- A disk with an upload. -/
def uploadDisk : Disk := ⟨fun p => if p = "/w/in.docx" then some [0x50, 0x4B] else none, [], []⟩

/-- How the calls of an archival conversion are answered, up to veraPDF. -/
def archivalAnswers (verapdf : Weather) : List Weather :=
  [calm, sofficeWrites, calm, calm, calm, calm, calm, calm, verapdf]

/-- The options of an archival conversion. -/
def archivalOpts : Opts := [("pdf_profile", .string "pdf/a-2b")]

/-- An archival conversion that succeeds, with a veraPDF that only reads. -/
theorem document_valid_archival :
    ∃ d₂ d', diskMachine.replay (convertDocument exampleDocHost "/w/in.docx" "/w/out.pdf" archivalOpts)
        uploadDisk (archivalAnswers { calm with stdout := Bytes.ascii "<report/>" }) =
          some (.ok (), d') ∧
      Converted exampleDocHost "/w/in.docx" "/w/out.pdf" archivalOpts uploadDisk d₂ d' ∧
        d'.files "/w/out.pdf" = d₂.files "/w/out.pdf" := by
  have hdone : ((diskMachine.replay
      (convertDocument exampleDocHost "/w/in.docx" "/w/out.pdf" archivalOpts) uploadDisk
      (archivalAnswers { calm with stdout := Bytes.ascii "<report/>" })).map fun x =>
        x.1.isOk && x.2.ran.all fun y => y.left "/w/out.pdf" = y.files "/w/out.pdf") = some true := by
    decide +kernel
  obtain ⟨⟨r, d'⟩, hrun, hboth⟩ := Option.map_eq_some_iff.mp hdone
  obtain ⟨hok, hall⟩ := Bool.and_eq_true_iff.mp hboth
  rcases r with _ | ⟨⟩
  · exact nomatch hok
  have hreads : VeraReadsOnly "/w/out.pdf" d' := fun y hy _ =>
    of_decide_eq_true (List.all_eq_true.mp hall y hy)
  obtain ⟨d₂, hconverted, hfiles⟩ := (document_valid exampleDocHost "/w/in.docx" "/w/out.pdf"
    archivalOpts uploadDisk).of_replay (fun _ _ => trivial) hrun rfl
  exact ⟨d₂, d', hrun, hconverted, hfiles hreads⟩

end OctoConv
