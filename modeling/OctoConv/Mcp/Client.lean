import OctoConv.Base.Encoding
import OctoConv.Lib.Bytes
import OctoConv.Lib.Scan
import OctoConv.Lib.Traces
import OctoConv.Mcp.Download

/-!
# The MCP tools

The MCP server speaks to the API as any client does: it uploads the file of the agent, asks for the
status of the job until it is done, and in local mode downloads the result. A tool is a program over the
calls it makes: requests, files, the clock and the ticker. What the answers are is left open.

The clients of net/http, the parser of net/url and the decoders of encoding/json are parameters.

Source: `internal/mcpserver/client.go`, `tools.go`, `config.go`.

## Main results

* `serve_confined` — a request is only handed to net/http with the key of the client if it is one to
  the client's API, and files are only made in the output directory, in local mode, unless the id of
  a job has a slash in it.
-/

namespace OctoConv.Mcp

open Conc Prog

/-! ## The client -/

/-- Source: `config.go` ResultMode -/
inductive ResultMode
  | resultLocal
  | resultRemote
deriving DecidableEq, Repr

/-- Source: `config.go` Config -/
structure Config where
  baseURL : String
  apiKey : String
  outputDir : String
  /-- In nanoseconds, as the next. -/
  convertTimeout : Int
  pollInterval : Int
  resultMode : ResultMode

/-- Source: `client.go` Client -/
structure Client where
  baseURL : String
  apiKey : String
  outputDir : String
  convertTimeout : Int
  pollInterval : Int
  resultMode : ResultMode

/-- Source: `client.go` JobStatus -/
structure JobStatus where
  jobID : String
  status : String
  opts : Opts
  downloadURL : String
  errorCode : String
  errorMessage : String

/-- Source: `client.go` FormatsResponse -/
structure FormatsResponse where
  engines : List (String × List (String × String))

/-- Source: `client.go` Preset -/
structure Preset where
  name : String
  version : Int
  scope : String
  operation : String
  targetFormat : String
  options : Opts
  description : String
  isActive : Bool
  createdAt : Int
  updatedAt : Int

/-- A part of a multipart form. -/
inductive Part
  | file (name filename : String) (content : Bytes)
  | field (name value : String)

/-- A request to the API or for a result. -/
structure HttpRequest where
  method : String
  url : String
  /-- The Authorization header. -/
  authorization : Option String
  form : List Part

/-- Source: `client.go` ConvertResult -/
structure ConvertResult where
  jobID : String
  downloadURL : String
  localPath : String

/-- How a tool that has no result ends. -/
inductive ToolError
  | failed (err : GoError)
  /-- TimeoutError -/
  | timeout (jobID : String)
  /-- time.NewTicker panics. -/
  | panicked
  /-- It still polls after as many polls as it was given. -/
  | polling

/-- The text that the agent is shown.

Source: `client.go` TimeoutError.Error -/
def ToolError.text : ToolError → String
  | .failed err => err.text
  | .timeout jobID =>
    "conversion timed out waiting for job " ++ jobID ++ "; use get_job_status to check on it"
  | .panicked => "non-positive interval for NewTicker"
  | .polling => ""

/-- What the standard library does for the client. -/
structure ClientHost where
  /-- The error of http.NewRequestWithContext, by method and URL. -/
  newRequest : String → String → Option GoError
  /-- The path of a parsed URL. -/
  urlPath : String → Except GoError String
  /-- `string(body)` -/
  string : Bytes → String
  /-- The field of a JSON object of errors. -/
  errorField : Bytes → Option String
  decodeJobID : Bytes → Except GoError String
  decodeJob : Bytes → Except GoError JobStatus
  decodeFormats : Bytes → Except GoError FormatsResponse
  decodePresets : Bytes → Except GoError (List Preset)
  /-- The working directory. -/
  getwd : Except GoError String
  codec : FloatCodec

/-- What a tool asks of its surroundings. -/
inductive ClientCall
  | mkdirAll (path : String)
  | stat (path : String)
  | openFile (path : String)
  | readFile (path : String)
  /-- One call of `http.Client.Do`, with the redirects that it follows; to the same host or a subdomain
  of it they repeat the Authorization header. -/
  | send (req : HttpRequest)
  | createFile (path : String)
  /-- What is left of the body is copied to the file. -/
  | copy (path : String) (body : Bytes)
  | rename (oldPath newPath : String)
  | now
  /-- The select of the ticker and the context. -/
  | tick
  | notifyProgress (status : String) (progress : Nat)

/-- The answers. -/
abbrev ClientCall.Ans : ClientCall → Type
  | .stat _ => Except GoError Bool
  | .readFile _ => Except GoError Bytes
  | .send _ => Except GoError Response
  | .now => Int
  | .notifyProgress _ _ => Unit
  | _ => Except GoError Unit

/-- A program of the client. -/
abbrev OnClient (α : Type) := Prog ClientCall ClientCall.Ans α

/-- A call, to be bound to what follows it. -/
def ask (call : ClientCall) : OnClient call.Ans := perform call

/-- A call whose error is wrapped. -/
def orWrap {α : Type} (context : String) (p : OnClient (Except GoError α)) :
    OnClient (Except GoError α) := p.mapError (GoError.wrap context)

/-- The client of a configuration; in local mode the output directory is made.

Source: `client.go` NewClient -/
def newClient (cfg : Config) : OnClient (Except GoError Client) :=
  let c : Client := ⟨Strings.trimRight cfg.baseURL "/", cfg.apiKey, cfg.outputDir, cfg.convertTimeout,
    cfg.pollInterval, cfg.resultMode⟩
  if cfg.resultMode ≠ .resultRemote then
    (orWrap "create output dir" (ask (.mkdirAll cfg.outputDir))).andThen fun _ => .ret (.ok c)
  else .ret (.ok c)

/-- The client of one request, with the key of its caller.

Source: `client.go` NewClientForKey -/
def newClientForKey (base : Config) (apiKey : String) : OnClient (Except GoError Client) :=
  newClient { base with apiKey }

namespace Client

variable (host : ClientHost) (c : Client)

/-- Every occurrence of the key is replaced.

Source: `client.go` redact -/
def redact (s key : String) : String :=
  if key = "" then s
  else String.ofList (Scan.replaceAll key.toList "[REDACTED]".toList s.toList)

/-- Source: `client.go` maxErrorBodyBytes -/
def maxErrorBodyBytes : Nat := 4096

/-- Source: `client.go` extractErrorText -/
def extractErrorText (body : Bytes) : String :=
  match host.errorField body with
  | some text => if text ≠ "" then text else Strings.trimSpace (host.string body)
  | none => Strings.trimSpace (host.string body)

/-- The client as a writer of errors and of local files. -/
def api : ApiClient where
  outputDir := c.outputDir
  redact s := redact s c.apiKey
  extractErrorText body := extractErrorText host (body.take maxErrorBodyBytes)

/-! ## Requests to the API -/

/-- A request to the API, and what is decoded from its answer. -/
def request {α : Type} (action method url : String) (form : List Part) (status : Nat)
    (decode : Bytes → Except GoError α) : OnClient (Except GoError α) :=
  match host.newRequest method url with
  | some err => .ret (.error (err.wrap "build request"))
  | none =>
    ((ask (.send ⟨method, url, some ("ApiKey " ++ c.apiKey), form⟩)).mapError
      ((c.api host).wrapTransportErr action)).andThen fun resp =>
    if resp.statusCode ≠ status then .ret (.error ((c.api host).apiError action resp))
    else .ret ((decode resp.body).mapError (GoError.wrap (action ++ ": decode response")))

/-- The fields of the form that are not empty.

Source: `client.go` CreateJob -/
def fields (target preset opts : String) : List Part :=
  ([("target", target), ("preset", preset), ("opts", opts)].filter fun f => f.2 ≠ "").map
    fun f => .field f.1 f.2

/-- Source: `client.go` CreateJob -/
def createJob (filePath target preset opts : String) : OnClient (Except GoError String) :=
  (orWrap "open input file" (ask (.openFile filePath))).andThen fun _ =>
  (orWrap "build multipart request" (ask (.readFile filePath))).andThen fun content =>
  c.request host "create job" "POST" (c.baseURL ++ "/v1/jobs")
    (.file "file" (pathBase filePath) content :: fields target preset opts) 202 host.decodeJobID

/-- Source: `client.go` GetJob -/
def getJob (jobID : String) : OnClient (Except GoError JobStatus) :=
  c.request host "get job" "GET" (c.baseURL ++ "/v1/jobs/" ++ jobID) [] 200 host.decodeJob

/-- Source: `client.go` ListFormats -/
def listFormats : OnClient (Except GoError FormatsResponse) :=
  c.request host "list formats" "GET" (c.baseURL ++ "/v1/formats") [] 200 host.decodeFormats

/-- Source: `client.go` ListPresets -/
def listPresets (includeInactive : Bool) : OnClient (Except GoError (List Preset)) :=
  c.request host "list presets" "GET"
    (c.baseURL ++ "/v1/presets" ++ if includeInactive then "?all=true" else "") [] 200
    host.decodePresets

/-! ## Downloads -/

/-- The request for a result carries no key: its URL is all it takes.

Source: `client.go` Download -/
def download (jobID presignedURL : String) : OnClient (Except GoError String) :=
  match host.newRequest "GET" presignedURL with
  | some err => .ret (.error (err.wrap "build download request"))
  | none =>
    ((ask (.send ⟨"GET", presignedURL, none, []⟩)).mapError
      ((c.api host).wrapTransportErr "download result")).andThen fun resp =>
    if resp.statusCode ≠ 200 then .ret (.error ((c.api host).apiError "download result" resp))
    else
      (orWrap "parse download url" (.ret (host.urlPath presignedURL))).andThen fun path =>
      let localPath := UnixPath.join [c.outputDir, localName jobID path]
      (orWrap "create local file" (ask (.createFile localPath))).andThen fun _ =>
      (orWrap "write local file" (ask (.copy localPath resp.body))).andThen fun _ =>
      .ret (.ok localPath)

/-! ## Conversion -/

/-- The loop of ConvertBlocking, for so many polls at most; the second number counts them.

Source: `client.go` ConvertBlocking -/
def poll (notify : Bool) (jobID : String) (deadline : Int) :
    Nat → Nat → OnClient (Except ToolError ConvertResult)
  | 0, _ => .ret (.error .polling)
  | fuel + 1, n =>
    ((c.getJob host jobID).mapError ToolError.failed).andThen fun job =>
    (if notify then ask (.notifyProgress job.status (n + 1)) else .ret ()) >>= fun _ =>
    if job.status = "done" then
      if c.resultMode = .resultRemote then .ret (.ok ⟨jobID, job.downloadURL, ""⟩)
      else
        ((c.download host jobID job.downloadURL).mapError ToolError.failed).andThen fun localPath =>
        .ret (.ok ⟨jobID, job.downloadURL, localPath⟩)
    else if job.status = "failed" then
      let msg := if job.errorMessage = "" then "conversion failed" else job.errorMessage
      .ret (.error (.failed (.new ("job " ++ jobID ++ " failed: " ++ msg))))
    else
      ask .now >>= fun time =>
      if ¬ time < deadline then .ret (.error (.timeout jobID))
      else
        ((ask .tick).mapError ToolError.failed).andThen fun _ =>
        poll notify jobID deadline fuel (n + 1)

/-- Source: `client.go` ConvertBlocking -/
def convertBlocking (fuel : Nat) (filePath target preset opts : String) (notify : Bool) :
    OnClient (Except ToolError ConvertResult) :=
  ((c.createJob host filePath target preset opts).mapError ToolError.failed).andThen fun jobID =>
  ask .now >>= fun start =>
  if c.pollInterval ≤ 0 then .ret (.error .panicked)
  else c.poll host notify jobID (start + c.convertTimeout) fuel 0

end Client

/-! ## The tools -/

/-- Source: `tools.go` ConvertFileInput -/
structure ConvertFileInput where
  path : String
  targetFormat : String
  preset : String
  opts : Opts

/-- What a tool is called with. -/
inductive ToolCall
  /-- With a progress token or without one. -/
  | convertFile (input : ConvertFileInput) (progressToken : Bool)
  | getJobStatus (jobID : String)
  | downloadResult (jobID filename : String)
  | listSupportedFormats
  | listPresets (includeInactive : Bool)

/-- What a tool returns. -/
inductive ToolOutput
  | converted (jobID presignedURL localPath targetFormat expiryNote : String)
  | status (job : JobStatus)
  | downloaded (localPath presignedURL expiryNote : String)
  | formats (response : FormatsResponse)
  | presets (list : List Preset)

/-- Source: `tools.go` remoteExpiryNote -/
def remoteExpiryNote : String :=
  "the presigned URL is short-lived; download it promptly, or call download_result with the job_id " ++
    "for a fresh URL"

namespace Client

variable (host : ClientHost) (c : Client)

/-- Source: `path/filepath` Abs -/
def absPath (raw : String) : Except GoError String :=
  if UnixPath.rooted raw.toList then .ok (UnixPath.clean raw)
  else host.getwd.map fun wd => UnixPath.join [wd, raw]

/-- Source: `tools.go` sanitizeInputPath -/
def sanitizeInputPath (raw : String) : OnClient (Except GoError String) :=
  if raw = "" then .ret (.error (.new "path is required"))
  else
    (orWrap ("resolve path " ++ goQuote raw) (.ret (absPath host raw))).andThen fun abs =>
    let abs := UnixPath.clean abs
    (orWrap ("path " ++ goQuote raw) (ask (.stat abs))).andThen fun isRegular =>
    if isRegular then .ret (.ok abs)
    else .ret (.error (.new ("path " ++ goQuote raw ++ " is not a regular file")))

/-- Source: `tools.go` convertFileHandler -/
def convertFile (fuel : Nat) (input : ConvertFileInput) (progressToken : Bool) :
    OnClient (Except ToolError ToolOutput) :=
  ((sanitizeInputPath host input.path).mapError ToolError.failed).andThen fun path =>
  let rawOpts := if input.opts = [] then "" else marshalMap host.codec input.opts
  (c.convertBlocking host fuel path input.targetFormat input.preset rawOpts progressToken).andThen
    fun r => .ret (.ok (.converted r.jobID r.downloadURL r.localPath input.targetFormat
    (if c.resultMode = .resultRemote then remoteExpiryNote else "")))

/-- The result under the name that the agent asked for, if something safe is left of that name and the
file can be renamed.

Source: `tools.go` downloadResultHandler -/
def renamed (filename localPath : String) : OnClient String :=
  let name := sanitizeBasename filename
  let target := UnixPath.join [c.outputDir, name]
  if filename ≠ "" ∧ name ≠ "" ∧ target ≠ localPath then
    ask (.rename localPath target) >>= fun
      | .ok () => .ret target
      | .error _ => .ret localPath
  else .ret localPath

/-- Source: `tools.go` downloadResultHandler -/
def downloadResult (jobID filename : String) : OnClient (Except GoError ToolOutput) :=
  (c.getJob host jobID).andThen fun job =>
  if job.status ≠ "done" then
    .ret (.error (.new ("job " ++ jobID ++ " is " ++ job.status ++
      ", not done -- use get_job_status to check on it")))
  else if job.downloadURL = "" then
    .ret (.error (.new ("job " ++ jobID ++ " is done but has no download URL")))
  else if c.resultMode = .resultRemote then .ret (.ok (.downloaded "" job.downloadURL remoteExpiryNote))
  else
    (c.download host jobID job.downloadURL).andThen fun localPath =>
    c.renamed filename localPath >>= fun localPath =>
    .ret (.ok (.downloaded localPath job.downloadURL ""))

/-- A tool that returns what is decoded, as it is. -/
def returning {α : Type} (output : α → ToolOutput) (p : OnClient (Except GoError α)) :
    OnClient (Except ToolError ToolOutput) :=
  (p.mapError ToolError.failed).andThen fun a => .ret (.ok (output a))

/-- The handlers of the five tools.

Source: `mcpserver.go` NewServer -/
def tool (fuel : Nat) : ToolCall → OnClient (Except ToolError ToolOutput)
  | .convertFile input progressToken => c.convertFile host fuel input progressToken
  | .getJobStatus jobID => returning .status (c.getJob host jobID)
  | .downloadResult jobID filename => returning id (c.downloadResult host jobID filename)
  | .listSupportedFormats => returning .formats (c.listFormats host)
  | .listPresets includeInactive => returning .presets (c.listPresets host includeInactive)

end Client

/-- A request to the HTTP endpoint: the tool is called with the key of the caller. The stdio server is
the case in which that is the key of the configuration.

Source: `cmd/mcp-http/main.go` newHandler -/
def serve (host : ClientHost) (base : Config) (key : String) (fuel : Nat) (t : ToolCall) :
    OnClient (Except ToolError ToolOutput) :=
  ((newClientForKey base key).mapError ToolError.failed).andThen fun c => c.tool host fuel t

/-! ## Confinement -/

/-- Where a result may be stored: under a name of its own in the output directory. If the URL of the
result has no safe base name the name is made from the job id, as it is, and then an id with a slash in
it, which no UUID has, may lead out of the directory. -/
inductive LocalPath (host : ClientHost) (outputDir : String) : String → Prop
  | plain (name : String) (hname : UnixPath.Plain name.toList) :
      LocalPath host outputDir (UnixPath.join [outputDir, name])
  | fallback (jobID url path : String) (hslash : '/' ∈ jobID.toList)
      (hurl : host.urlPath url = .ok path) (hnothing : sanitizeBasename path = "") :
      LocalPath host outputDir (UnixPath.join [outputDir, jobID ++ "-result"])

/-- The file that the agent has asked to convert. -/
def InputPath (host : ClientHost) (t : ToolCall) (path : String) : Prop :=
  ∃ input progressToken abs, t = .convertFile input progressToken ∧
    Client.absPath host input.path = .ok abs ∧ path = UnixPath.clean abs

/-- What a tool may do for a caller. The requests are those that it hands to `http.Client.Do`. -/
def Permits (host : ClientHost) (base : Config) (key : String) (t : ToolCall) : ClientCall → Prop
  | .mkdirAll path => base.resultMode ≠ .resultRemote ∧ path = base.outputDir
  | .stat path | .openFile path | .readFile path => InputPath host t path
  | .send req =>
      req.authorization = some ("ApiKey " ++ key) ∧
          (Strings.trimRight base.baseURL "/" ++ "/v1/").toList <+: req.url.toList ∨
        req.authorization = none ∧ req.method = "GET" ∧ req.form = [] ∧
          base.resultMode ≠ .resultRemote
  | .createFile path | .copy path _ =>
      base.resultMode ≠ .resultRemote ∧ LocalPath host base.outputDir path
  | .rename oldPath newPath => base.resultMode ≠ .resultRemote ∧
      LocalPath host base.outputDir oldPath ∧ LocalPath host base.outputDir newPath
  | .now | .tick | .notifyProgress .. => True

/-- What is left of a base name that is safe is a name of its own. -/
theorem sanitizeBasename_plain {rawPath : String} (h : sanitizeBasename rawPath ≠ "") :
    UnixPath.Plain (sanitizeBasename rawPath).toList := by
  unfold sanitizeBasename at h ⊢
  dsimp only at h ⊢
  split at h
  · exact absurd rfl h
  · split at h
    · exact absurd rfl h
    · rename_i hdots hsafe
      rw [if_neg hdots, if_neg hsafe]
      obtain ⟨hne, hrest⟩ := not_or.mp hsafe
      obtain ⟨hslash, -⟩ := not_or.mp hrest
      -- the first character that is left is no dot
      have hhead : (Strings.trimLeft (pathBase rawPath) ".").toList.head? ≠ some '.' := by
        rw [Strings.trimLeft, String.toList_ofList]
        intro hd
        have hnot := List.head?_dropWhile_not (fun c => decide (c ∈ ".".toList))
          (pathBase rawPath).toList
        rw [hd] at hnot
        exact Bool.noConfusion hnot
      refine ⟨hslash, fun hnil => hne (String.toList_inj.mp hnil), fun hd => ?_, fun hd => ?_⟩
      · rw [hd] at hhead
        exact hhead rfl
      · rw [hd] at hhead
        exact hhead rfl

/-- A name made from a job id without a slash is a name of its own. -/
theorem fallback_plain {jobID : String} (h : '/' ∉ jobID.toList) :
    UnixPath.Plain (jobID ++ "-result").toList := by
  have hlength : "-result".toList.length = 7 := by decide
  rw [String.toList_append]
  apply UnixPath.Plain.of_length
  · simpa using h
  · rw [List.length_append]
    omega

/-- The local name of a result is safe, or there was nothing safe to make it of. -/
theorem localPath_join {host : ClientHost} {outputDir jobID url path : String}
    (hurl : host.urlPath url = .ok path) :
    LocalPath host outputDir (UnixPath.join [outputDir, localName jobID path]) := by
  unfold localName
  dsimp only
  split
  · rename_i hnothing
    by_cases hslash : '/' ∈ jobID.toList
    · exact .fallback jobID url path hslash hurl hnothing
    · exact .plain _ (fallback_plain hslash)
  · rename_i hsafe
    exact .plain _ (sanitizeBasename_plain hsafe)

section Confinement

variable {host : ClientHost} {base : Config} {key : String} {t : ToolCall}

/-- The client that is made for a caller. -/
def clientFor (base : Config) (key : String) : Client :=
  ⟨Strings.trimRight base.baseURL "/", key, base.outputDir, base.convertTimeout, base.pollInterval,
    base.resultMode⟩

/-- A request to the API is permitted under its base URL. -/
theorem request_permits {α : Type} {action method url : String} {form : List Part} {status : Nat}
    {decode : Bytes → Except GoError α}
    (hurl : ((clientFor base key).baseURL ++ "/v1/").toList <+: url.toList) :
    ((clientFor base key).request host action method url form status decode).Calls
      (Permits host base key t) := by
  unfold Client.request
  split
  · trivial
  · refine Calls.andThen (Calls.mapError (Calls.perform (.inl ⟨rfl, hurl⟩))) fun resp => ?_
    split <;> trivial

/-- A path of the API is under it. -/
theorem under_api {b path : String} (h : "/v1/".toList <+: path.toList) :
    (b ++ "/v1/").toList <+: (b ++ path).toList := by
  rw [String.toList_append, String.toList_append]
  exact List.prefix_append_right_inj _ |>.mpr h

/-- So is what follows that path. -/
theorem under_api_append {b path rest : String} (h : "/v1/".toList <+: path.toList) :
    (b ++ "/v1/").toList <+: (b ++ path ++ rest).toList := by
  rw [String.append_assoc]
  refine under_api ?_
  rw [String.toList_append]
  exact h.trans (List.prefix_append _ _)

/-- CreateJob is permitted for the file that was asked for. -/
theorem createJob_permits {filePath target preset opts : String} (hin : InputPath host t filePath) :
    ((clientFor base key).createJob host filePath target preset opts).Calls
      (Permits host base key t) := by
  refine Calls.andThen (Calls.mapError (Calls.perform hin)) fun _ => ?_
  refine Calls.andThen (Calls.mapError (Calls.perform hin)) fun content => ?_
  exact request_permits (under_api (by decide))

/-- GetJob is permitted. -/
theorem getJob_permits {jobID : String} :
    ((clientFor base key).getJob host jobID).Calls (Permits host base key t) :=
  request_permits (under_api_append (by decide))

/-- Download is permitted in local mode. -/
theorem download_permits {jobID url : String} (hmode : base.resultMode ≠ .resultRemote) :
    ((clientFor base key).download host jobID url).Calls (Permits host base key t) := by
  unfold Client.download
  split
  · trivial
  refine Calls.andThen (Calls.mapError (Calls.perform (.inr ⟨rfl, rfl, rfl, hmode⟩))) fun resp => ?_
  split
  · trivial
  rcases hpath : host.urlPath url with err | path
  · trivial
  have hlocal : LocalPath host base.outputDir (UnixPath.join [base.outputDir, localName jobID path]) :=
    localPath_join hpath
  have hcreate : Permits host base key t (.createFile _) := ⟨hmode, hlocal⟩
  have hcopy : Permits host base key t (.copy _ resp.body) := ⟨hmode, hlocal⟩
  refine ⟨hcreate, fun r => ?_⟩
  rcases r with err | _
  · trivial
  refine ⟨hcopy, fun r => ?_⟩
  rcases r with err | _ <;> trivial

/-- A download returns where it has stored the result. -/
theorem download_localPath {c : Client} {jobID url : String} :
    (c.download host jobID url).Always fun _ r => ∀ p, r = .ok p → LocalPath host c.outputDir p := by
  unfold Client.download
  split
  · exact fun p hp => by cases hp
  intro r
  rcases r with err | resp
  · exact fun p hp => by cases hp
  show Prog.Always (if resp.statusCode ≠ 200 then _ else _) _
  split
  · exact fun p hp => by cases hp
  rcases hpath : host.urlPath url with err | path
  · exact fun p hp => by cases hp
  intro r
  rcases r with err | _
  · exact fun p hp => by cases hp
  intro r
  rcases r with err | _
  · exact fun p hp => by cases hp
  · intro p hp
    obtain rfl := Except.ok.inj hp
    exact localPath_join hpath

/-- The polling loop is permitted. -/
theorem poll_permits {notify : Bool} {jobID : String} {deadline : Int} (fuel n : Nat) :
    ((clientFor base key).poll host notify jobID deadline fuel n).Calls (Permits host base key t) := by
  induction fuel generalizing n with
  | zero => trivial
  | succ fuel ih =>
    refine Calls.andThen (Calls.mapError getJob_permits) fun job => ?_
    refine Calls.bind ?_ fun _ => ?_
    · split
      · exact Calls.perform trivial
      · trivial
    split
    · split
      · trivial
      · rename_i hmode
        exact Calls.andThen (Calls.mapError (download_permits hmode)) fun _ => trivial
    split
    · trivial
    refine Calls.bind (Calls.perform trivial) fun time => ?_
    split
    · trivial
    · exact Calls.andThen (Calls.mapError (Calls.perform trivial)) fun _ => ih (n + 1)

/-- Checking the path of the input is permitted. -/
theorem sanitizeInputPath_permits {input : ConvertFileInput} {progressToken : Bool} :
    (Client.sanitizeInputPath host input.path).Calls
      (Permits host base key (.convertFile input progressToken)) := by
  unfold Client.sanitizeInputPath
  split
  · trivial
  rcases habs : Client.absPath host input.path with err | abs
  · trivial
  have hstat : Permits host base key (.convertFile input progressToken) (.stat (UnixPath.clean abs)) :=
    ⟨input, progressToken, abs, rfl, habs, rfl⟩
  refine ⟨hstat, fun r => ?_⟩
  rcases r with err | _ | _ <;> trivial

/-- What passes the check of the path is the path that was asked for. -/
theorem sanitizeInputPath_input {input : ConvertFileInput} (progressToken : Bool) :
    (Client.sanitizeInputPath host input.path).Always fun _ r =>
      ∀ p, r = .ok p → InputPath host (.convertFile input progressToken) p := by
  unfold Client.sanitizeInputPath
  split
  · exact fun p hp => by cases hp
  rcases habs : Client.absPath host input.path with err | abs
  · exact fun p hp => by cases hp
  intro r
  rcases r with err | _ | _
  · exact fun p hp => by cases hp
  · exact fun p hp => by cases hp
  · intro p hp
    exact ⟨input, progressToken, abs, rfl, habs, (Except.ok.inj hp).symm⟩

/-- The tool convert_file is permitted. -/
theorem convertFile_permits {fuel : Nat} {input : ConvertFileInput} {progressToken : Bool} :
    ((clientFor base key).convertFile host fuel input progressToken).Calls
      (Permits host base key (.convertFile input progressToken)) := by
  refine Calls.andThen_of (Calls.mapError sanitizeInputPath_permits)
    (sanitizeInputPath_input progressToken).mapError_ok fun path hin => ?_
  refine Calls.andThen (Calls.andThen (Calls.mapError (createJob_permits hin)) fun jobID => ?_) fun _ =>
    trivial
  refine Calls.bind (Calls.perform trivial) fun start => ?_
  split
  · trivial
  · exact poll_permits fuel 0

/-- The tool download_result is permitted. -/
theorem downloadResult_permits {jobID filename : String} :
    ((clientFor base key).downloadResult host jobID filename).Calls (Permits host base key t) := by
  refine Calls.andThen getJob_permits fun job => ?_
  split
  · trivial
  split
  · trivial
  split
  · trivial
  rename_i hmode
  refine Calls.andThen_of (download_permits hmode) download_localPath fun localPath hlocal => ?_
  refine Calls.bind ?_ fun _ => trivial
  unfold Client.renamed
  dsimp only
  split
  · rename_i hrename
    have hto : Permits host base key t (.rename localPath _) :=
      ⟨hmode, hlocal, .plain _ (sanitizeBasename_plain hrename.2.1)⟩
    refine ⟨hto, fun r => ?_⟩
    rcases r with err | _ <;> trivial
  · trivial

/-- Making a client for the caller is permitted. -/
theorem newClientForKey_permits : (newClientForKey base key).Calls (Permits host base key t) := by
  unfold newClientForKey newClient
  dsimp only
  split
  · rename_i hmode
    have hmkdir : Permits host base key t (.mkdirAll base.outputDir) := ⟨hmode, rfl⟩
    refine ⟨hmkdir, fun r => ?_⟩
    rcases r with err | _ <;> trivial
  · trivial

/-- What it makes is the client of the caller. -/
theorem newClientForKey_client :
    (newClientForKey base key).Always fun _ r => ∀ c, r = .ok c → c = clientFor base key := by
  unfold newClientForKey newClient
  dsimp only
  split
  · intro r
    rcases r with err | _
    · exact fun c hc => by cases hc
    · exact fun c hc => (Except.ok.inj hc).symm
  · exact fun c hc => (Except.ok.inj hc).symm

/-- **A caller's tools keep to themselves.** Whatever a tool is answered, the requests that it makes
with the key of the caller are requests to the API, only the file that was asked for is read, and files
are made in local mode only, where `LocalPath` says. -/
theorem serve_confined (host : ClientHost) (base : Config) (key : String) (fuel : Nat) (t : ToolCall) :
    (serve host base key fuel t).Calls (Permits host base key t) := by
  refine Calls.andThen_of (K := fun c => c = clientFor base key) (Calls.mapError ?_)
    (Always.mapError_ok ?_) fun c hc => ?_
  · exact newClientForKey_permits
  · exact newClientForKey_client
  · subst hc
    rcases t with ⟨input, progressToken⟩ | jobID | ⟨jobID, filename⟩ | _ | all
    · exact convertFile_permits
    · exact Calls.andThen (Calls.mapError getJob_permits) fun _ => trivial
    · exact Calls.andThen (Calls.mapError downloadResult_permits) fun _ => trivial
    · exact Calls.andThen (Calls.mapError (request_permits (under_api (by decide)))) fun _ => trivial
    · refine Calls.andThen (Calls.mapError (request_permits ?_)) fun _ => trivial
      exact under_api_append (by decide)

end Confinement

end OctoConv.Mcp
