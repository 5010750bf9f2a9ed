import OctoConv.Convert.Agreement

/-!
# Downloads of the MCP client

In local mode the MCP client stores the result of a job in its output directory, under the base
name of the presigned URL's path. The path ends in the object key that the worker gave the result,
and the base name of that key holds the target format and not the job.

Main results:

* `localName_key` : the local name of a result is a function of its target format;
* `Downloads.spec` : what a sequence of successful downloads returns and leaves in the files;
* `downloads_kept_iff` : every returned file keeps the bytes of its job exactly when no two of the
  jobs have the same target format.

Source: `internal/mcpserver/client.go`.
-/

namespace OctoConv.Mcp

/-! ## The local name -/

/-- Source: `client.go` sanitizeBasename -/
def sanitizeBasename (rawPath : String) : String :=
  let name := pathBase rawPath
  if name = "" ∨ name = "." ∨ name = ".." ∨ name = "/" then ""
  else
    let name := Strings.trimLeft name "."
    if name = "" ∨ '/' ∈ name.toList ∨ '\\' ∈ name.toList then "" else name

/-- The name of the local file of a result: the base name of the URL's path, or a name made from
the job id when nothing safe is left of it.

Source: `client.go` Download -/
def localName (jobID urlPath : String) : String :=
  let name := sanitizeBasename urlPath
  if name = "" then jobID ++ "-result" else name

/-! ## One download -/

/-- The files, by path. -/
abbrev Files := String → Option (List UInt8)

/-- The files with a path written. -/
def Files.write (fs : Files) (path : String) (bytes : List UInt8) : Files :=
  fun p => if p = path then some bytes else fs p

/-- What the client reads of a response. -/
structure Response where
  statusCode : Nat
  body : List UInt8

/-- The client of the API: its output directory, and how it writes the errors of others.

Source: `client.go` Client -/
structure ApiClient where
  outputDir : String
  /-- `redact(_, c.apiKey)` -/
  redact : String → String
  /-- `extractErrorText` -/
  extractErrorText : List UInt8 → String

namespace ApiClient

variable (c : ApiClient)

/-- Source: `client.go` apiError -/
def apiError (action : String) (resp : Response) : GoError :=
  let msg := c.extractErrorText resp.body
  let msg := if msg = "" then "unexpected status " ++ toString resp.statusCode else msg
  GoError.new (action ++ ": " ++ c.redact msg)

/-- Source: `client.go` wrapTransportErr -/
def wrapTransportErr (action : String) (err : GoError) : GoError :=
  GoError.new (action ++ ": " ++ c.redact err.text)

end ApiClient

/-- What the network and the file system answer to one download. -/
structure Answers where
  /-- The error of http.NewRequestWithContext. -/
  newRequest : Option GoError
  /-- The response to the request. -/
  response : Except GoError Response
  /-- The path of the parsed URL. -/
  urlPath : Except GoError String
  /-- The error of os.Create. -/
  create : Option GoError
  /-- The bytes written before io.Copy failed, and its error. -/
  copyError : Option (List UInt8 × GoError)

/-- Source: `client.go` Download -/
def download (c : ApiClient) (jobID : String) (io : Answers) (fs : Files) :
    Except GoError String × Files :=
  match io.newRequest, io.response, io.urlPath with
  | some err, _, _ => (.error (err.wrap "build download request"), fs)
  | none, .error err, _ => (.error (c.wrapTransportErr "download result" err), fs)
  | none, .ok resp, urlPath =>
    if resp.statusCode ≠ 200 then (.error (c.apiError "download result" resp), fs)
    else
      match urlPath, io.create, io.copyError with
      | .error err, _, _ => (.error (err.wrap "parse download url"), fs)
      | .ok _, some err, _ => (.error (err.wrap "create local file"), fs)
      | .ok path, none, copyError =>
        let localPath := UnixPath.join [c.outputDir, localName jobID path]
        -- os.Create truncates a file that is there
        match copyError with
        | some (bytes, err) => (.error (err.wrap "write local file"), fs.write localPath bytes)
        | none => (.ok localPath, fs.write localPath resp.body)

/-- What a successful download does: the body of the response is the content of the returned
path. -/
theorem download_ok {c : ApiClient} {jobID path : String} {io : Answers} {fs fs' : Files}
    (h : download c jobID io fs = (.ok path, fs')) :
    ∃ resp urlPath, io.response = .ok resp ∧ io.urlPath = .ok urlPath ∧
      path = UnixPath.join [c.outputDir, localName jobID urlPath] ∧
      fs' = fs.write path resp.body := by
  unfold download at h
  split at h
  · cases h
  · cases h
  · rename_i resp urlPath hresp
    split at h
    · cases h
    · split at h
      · cases h
      · cases h
      · rename_i url hurl hcreate
        dsimp only at h
        split at h
        · cases h
        · obtain ⟨hp, rfl⟩ := Prod.mk.inj h
          obtain rfl := Except.ok.inj hp
          exact ⟨resp, url, hresp, by assumption, rfl, rfl⟩

/-! ## Results of jobs -/

/-- The download of the result of a finished job: a worker found a converter for its formats, and
the path of the presigned URL ends in the object key the worker gave the result. -/
structure DownloadCall where
  /-- The job id as the caller of the tool wrote it. -/
  jobID : String
  job : Job
  /-- The configuration of the worker that converted the job. -/
  cfg : Option (Int × Int)
  /-- The worker found a converter. -/
  found : ((Registry.worker cfg).lookup job.sourceFormat job.targetFormat).isSome
  /-- What stands before the key in the path of the URL, the bucket for example. -/
  prefixPath : String
  /-- The bytes of the result. -/
  bytes : List UInt8
  io : Answers
  /-- The URL carries the key. -/
  carries : ∀ path, io.urlPath = .ok path → path = prefixPath ++ "/" ++ Worker.outKey job
  /-- The storage answers with the result. -/
  serves : ∀ resp, io.response = .ok resp → resp.body = bytes

/-- A sequence of successful downloads, with the paths it returns. -/
inductive Downloads (c : ApiClient) : Files → List DownloadCall → List String → Files → Prop
  | nil {fs} : Downloads c fs [] [] fs
  | cons {fs fs' fs'' call calls path paths} :
    download c call.jobID call.io fs = (.ok path, fs') → Downloads c fs' calls paths fs'' →
      Downloads c fs (call :: calls) (path :: paths) fs''

/-- The target of a job that a worker found a converter for has no separator in it. -/
theorem DownloadCall.target_plain (call : DownloadCall) :
    '/' ∉ call.job.targetFormat.toList ∧ '\\' ∉ call.job.targetFormat.toList := by
  obtain ⟨-, hkey⟩ := Registry.lookup_keys call.found
  have hkeys : ∀ k ∈ formatKeys, '/' ∉ k.toList ∧ '\\' ∉ k.toList := by decide +kernel
  constructor
  · intro h
    exact (hkeys _ hkey).1
      (mem_normalizeFormat h (by decide) (by decide) (by decide +kernel))
  · intro h
    exact (hkeys _ hkey).2
      (mem_normalizeFormat h (by decide) (by decide) (by decide +kernel))

/-- The base name of a result's key. -/
def resultName (target : String) : String := "0-out." ++ target

/-- Targets are told apart by the names of their results. -/
theorem resultName_injective {s t : String} (h : resultName s = resultName t) : s = t := by
  have hl := congrArg String.toList h
  simp only [resultName, String.toList_append] at hl
  exact String.toList_inj.1 (List.append_cancel_left hl)

section Name

variable {target : String} (hs : '/' ∉ target.toList) (hb : '\\' ∉ target.toList)

include hs

/-- The name of a result is plain. -/
theorem resultName_plain : UnixPath.Plain (resultName target).toList := by
  apply UnixPath.Plain.of_length
  · simpa [resultName] using hs
  · rw [resultName, String.toList_append, List.length_append]
    have hl : "0-out.".toList.length = 6 := by decide
    omega

/-- The key of an output, written out. -/
theorem outputKey_eq (id : UUID) : outputKey id 0 ("out." ++ target) =
    "results/" ++ id.text ++ "/" ++ resultName target := by
  have hn : pathBase ("out." ++ target) = "out." ++ target := by
    rw [pathBase_eq (List.nil_append _).symm rfl (by simp) (by simpa using hs),
      String.ofList_toList]
  have hz : "0-out." = toString (0 : Int) ++ "-" ++ "out." := by decide
  rw [outputKey, hn, resultName, hz]
  simp only [String.append_assoc]

include hb

/-- The name of a result is safe as it is. -/
theorem sanitizeBasename_result {path dir : String} (hp : path = dir ++ "/" ++ resultName target) :
    sanitizeBasename path = resultName target := by
  have hplain := resultName_plain hs
  have hbase : pathBase path = resultName target := by
    have hl : path.toList = (dir.toList ++ ['/']) ++ (resultName target).toList := by
      rw [hp, String.toList_append, String.toList_append]
      rfl
    rw [pathBase_eq hl (by simp) hplain.nonempty hplain.slash, String.ofList_toList]
  have htrim : Strings.trimLeft (resultName target) "." = resultName target := by
    apply String.toList_inj.1
    simp [Strings.trimLeft, resultName]
  have hne : resultName target ≠ "" ∧ resultName target ≠ "." ∧ resultName target ≠ ".." ∧
      resultName target ≠ "/" := by
    refine ⟨?_, ?_, ?_, ?_⟩ <;> intro he <;> have hl := hplain <;> rw [he] at hl
    · exact hl.nonempty rfl
    · exact hl.ne_dot rfl
    · exact hl.ne_dotdot rfl
    · exact hl.slash (by decide)
  have hback : '\\' ∉ (resultName target).toList := by
    simpa [resultName] using hb
  unfold sanitizeBasename
  rw [hbase]
  dsimp only
  rw [if_neg (by simp [hne]), htrim, if_neg (by simp [hne, hplain.slash, hback])]

end Name

/-- The local name of a result is a function of its target format. -/
theorem localName_key (call : DownloadCall) {path : String} (h : call.io.urlPath = .ok path) :
    localName call.jobID path = resultName call.job.targetFormat := by
  obtain ⟨hs, hb⟩ := call.target_plain
  have hp : path = (call.prefixPath ++ "/results/" ++ call.job.id.text) ++ "/" ++
      resultName call.job.targetFormat := by
    have hsplit : "/results/" = "/" ++ "results/" := by decide
    rw [call.carries path h, Worker.outKey, Worker.outName, outputKey_eq hs, hsplit]
    simp only [String.append_assoc]
  have hne : resultName call.job.targetFormat ≠ "" := by
    intro he
    exact (resultName_plain hs).nonempty (by rw [he]; rfl)
  unfold localName
  rw [sanitizeBasename_result hs hb hp]
  dsimp only
  rw [if_neg hne]

/-! ## Sequences of downloads -/

/-- The local path of a result. -/
def resultPath (c : ApiClient) (target : String) : String :=
  UnixPath.join [c.outputDir, resultName target]

/-- Results of different targets have different paths. -/
theorem resultPath_injective {c : ApiClient} {s t : String} (hs : '/' ∉ s.toList)
    (ht : '/' ∉ t.toList) (h : resultPath c s = resultPath c t) : s = t :=
  resultName_injective (UnixPath.join_plain_injective (resultName_plain hs) (resultName_plain ht) h)

/-- A successful download writes the bytes of the job to the path of its target format. -/
theorem DownloadCall.spec {c : ApiClient} {call : DownloadCall} {fs fs' : Files} {path : String}
    (h : download c call.jobID call.io fs = (.ok path, fs')) :
    path = resultPath c call.job.targetFormat ∧ fs' = fs.write path call.bytes := by
  obtain ⟨resp, urlPath, hresp, hurl, hpath, hfs⟩ := download_ok h
  rw [localName_key call hurl] at hpath
  rw [call.serves resp hresp] at hfs
  exact ⟨hpath, hfs⟩

namespace Downloads

variable {c : ApiClient} {fs fs' : Files} {calls : List DownloadCall} {paths : List String}

/-- The paths that a sequence of downloads returns. -/
theorem paths_eq (h : Downloads c fs calls paths fs') :
    paths = calls.map fun call => resultPath c call.job.targetFormat := by
  induction h with
  | nil => rfl
  | cons hd _ ih =>
    obtain ⟨hp, -⟩ := DownloadCall.spec hd
    rw [List.map_cons, ← hp, ih]

/-- The paths are distinct exactly when the target formats are. -/
theorem nodup_iff (h : Downloads c fs calls paths fs') :
    paths.Nodup ↔ (calls.map fun call => call.job.targetFormat).Nodup := by
  have hp : paths = (calls.map fun call => call.job.targetFormat).map (resultPath c) := by
    rw [h.paths_eq, List.map_map]
    rfl
  rw [hp]
  constructor
  · exact List.Nodup.of_map _
  · intro hn
    refine hn.map_on fun s hs t ht he => ?_
    obtain ⟨a, -, rfl⟩ := List.mem_map.1 hs
    obtain ⟨b, -, rfl⟩ := List.mem_map.1 ht
    exact resultPath_injective a.target_plain.1 b.target_plain.1 he

/-- A file that no download of the sequence writes is unchanged. -/
theorem frame (h : Downloads c fs calls paths fs') {p : String} (hp : p ∉ paths) :
    fs' p = fs p := by
  induction h with
  | nil => rfl
  | cons hd _ ih =>
    obtain ⟨-, rfl⟩ := DownloadCall.spec hd
    rw [List.mem_cons, not_or] at hp
    rw [ih hp.2, Files.write, if_neg hp.1]

/-- When the paths are distinct, each file holds the bytes of its job in the end. -/
theorem kept (h : Downloads c fs calls paths fs') (hn : paths.Nodup) :
    ∀ e ∈ calls.zip paths, fs' e.2 = some e.1.bytes := by
  induction h with
  | nil => simp
  | cons hd ht ih =>
    obtain ⟨-, rfl⟩ := DownloadCall.spec hd
    obtain ⟨hnot, hn⟩ := List.nodup_cons.1 hn
    intro e he
    rw [List.zip_cons_cons, List.mem_cons] at he
    obtain rfl | he := he
    · rw [ht.frame hnot, Files.write, if_pos rfl]
    · exact ih hn e he

end Downloads

/-- The returned paths are distinct, and every returned file still holds the bytes of its job. -/
def Kept (calls : List DownloadCall) (paths : List String) (fs : Files) : Prop :=
  paths.Nodup ∧ ∀ e ∈ calls.zip paths, fs e.2 = some e.1.bytes

/-- A sequence of successful downloads, whatever the jobs, keeps every result exactly when no two of
the jobs have the same target format. -/
theorem downloads_kept_iff {c : ApiClient} {fs fs' : Files} {calls : List DownloadCall}
    {paths : List String} (h : Downloads c fs calls paths fs') :
    Kept calls paths fs' ↔ (calls.map fun call => call.job.targetFormat).Nodup := by
  rw [← h.nodup_iff]
  constructor
  · intro hk
    exact hk.1
  · intro hn
    exact ⟨hn, h.kept hn⟩

/-- A successful download of the result of a docx job. -/
def exampleCall (id : UUID) (target : String) (bytes : List UInt8)
    (hf : ((Registry.worker none).lookup "docx" target).isSome) : DownloadCall where
  jobID := id.text
  job := DB.newJob 0 id ⟨id, 3, "convert", .document, "docx", target, "", [], "", 0,
    ⟨0, "uploads/a.docx", "a.docx", "docx", 4, ""⟩⟩
  cfg := none
  found := hf
  prefixPath := "/octoconv"
  bytes := bytes
  io := ⟨none, .ok ⟨200, bytes⟩, .ok ("/octoconv" ++ "/" ++ outputKey id 0 ("out." ++ target)),
    none, none⟩
  carries path h := (Except.ok.inj h).symm
  serves resp h := by
    obtain rfl := Except.ok.inj h
    rfl

/-- The client of the examples. -/
def exampleClient : ApiClient := ⟨"/tmp/octoconv-mcp", id, fun _ => ""⟩

/-- There is a conversion from docx to pdf. -/
theorem found_pdf : ((Registry.worker none).lookup "docx" "pdf").isSome := by
  rw [Registry.worker, Registry.lookup, Registry.default_m]
  decide +kernel

/-- And one to odt. -/
theorem found_odt : ((Registry.worker none).lookup "docx" "odt").isSome := by
  rw [Registry.worker, Registry.lookup, Registry.default_m]
  decide +kernel

/-- The results of two jobs, downloaded one after the other. -/
theorem exampleRun {t u : String} (ht : ((Registry.worker none).lookup "docx" t).isSome)
    (hu : ((Registry.worker none).lookup "docx" u).isSome) :
    ∃ paths fs, Downloads exampleClient (fun _ => none)
      [exampleCall 1 t [1] ht, exampleCall 2 u [2] hu] paths fs :=
  ⟨_, _, .cons rfl (.cons rfl .nil)⟩

/-- Two results of one job are both kept. -/
theorem downloads_kept_pdf_odt : ∃ paths fs, Downloads exampleClient (fun _ => none)
    [exampleCall 1 "pdf" [1] found_pdf, exampleCall 2 "odt" [2] found_odt] paths fs ∧
    Kept [exampleCall 1 "pdf" [1] found_pdf, exampleCall 2 "odt" [2] found_odt] paths fs := by
  obtain ⟨paths, fs, h⟩ := exampleRun found_pdf found_odt
  exact ⟨paths, fs, h, (downloads_kept_iff h).2 (by decide)⟩

/-- The results of two pdf jobs are stored in one file. -/
theorem downloads_clobber : ¬ ∀ (c : ApiClient) (fs fs' : Files) (calls : List DownloadCall)
    (paths : List String), Downloads c fs calls paths fs' →
      (calls.map fun call => call.job.id).Nodup → Kept calls paths fs' := by
  intro h
  obtain ⟨paths, fs, hd⟩ := exampleRun found_pdf found_pdf
  have hk := h _ _ _ _ _ hd (by decide)
  have ht := hd.nodup_iff.1 hk.1
  revert ht
  decide

end OctoConv.Mcp
