import OctoConv.Api.Options
import OctoConv.Mcp.Client

/-!
# The conversation of a conversion

What convert_file says to the API and hears from it. The run of the tool is a list of calls with their
answers, whatever the answers are; only the ticker is taken for what it is: it does not tick early.

Source: `internal/mcpserver/client.go` ConvertBlocking.

## Main results

* `poll_round` — the loop is a round, and the rest of the loop unless the round has a result.
* `convert_returns` — the loop ends within as many polls as fit into the timeout.
* `convert_result` — what a result stands for: one upload, the job that it made, the status that was its
  last and the only one that was done, and in local mode a file with the bytes of the download.
-/

namespace OctoConv.Mcp

open Conc Prog

/-! ## Traces -/

/-- A call with its answer. -/
abbrev Spoken := Prog.Event ClientCall ClientCall.Ans

/-- A trace of the client. -/
abbrev Speech := List Spoken

/-- The request for the status of a job. -/
def Client.statusRequest (c : Client) (jobID : String) : HttpRequest :=
  ⟨"GET", c.baseURL ++ "/v1/jobs/" ++ jobID, some ("ApiKey " ++ c.apiKey), []⟩

/-- The request for a result. -/
def resultRequest (url : String) : HttpRequest := ⟨"GET", url, none, []⟩

/-- A request that carries a key. -/
def Spoken.isStatus : Spoken → Bool
  | ⟨.send req, _⟩ => req.method = "GET" && req.authorization.isSome
  | _ => false

/-- A tick of the ticker. -/
def Spoken.isTick : Spoken → Bool
  | ⟨.tick, .ok ()⟩ => true
  | _ => false

/-- How often the ticker has ticked. -/
def ticks (tr : Speech) : Nat := tr.countP Spoken.isTick

/-- The clock is read after so many ticks of a ticker that was made at this time, at the earliest when
they are due. -/
def Punctual (interval start : Int) (before : Nat) (tr : Speech) : Prop :=
  ∀ mid post t, tr = mid ++ ⟨.now, t⟩ :: post → start + interval * (before + ticks mid) ≤ t

variable {host : ClientHost} {c : Client}

/-- What a request says and returns. -/
theorem request_always {α : Type} {action method url : String} {form : List Part} {status : Nat}
    {decode : Bytes → Except GoError α} :
    (c.request host action method url form status decode).Always fun tr r =>
      (∃ a resp, r = .ok a ∧
        tr = [⟨.send ⟨method, url, some ("ApiKey " ++ c.apiKey), form⟩, .ok resp⟩] ∧
        resp.statusCode = status ∧ decode resp.body = .ok a) ∨
      ∃ err, r = .error err ∧
        (tr = [] ∨ ∃ x, tr = [⟨.send ⟨method, url, some ("ApiKey " ++ c.apiKey), form⟩, x⟩]) := by
  unfold Client.request
  split
  · exact .inr ⟨_, rfl, .inl rfl⟩
  intro r
  rcases r with err | resp
  · exact .inr ⟨_, rfl, .inr ⟨_, rfl⟩⟩
  show Prog.Always (if resp.statusCode ≠ status then _ else _) _
  split
  · exact .inr ⟨_, rfl, .inr ⟨_, rfl⟩⟩
  · rename_i hstatus
    rcases hdec : decode resp.body with err | a
    · exact .inr ⟨_, rfl, .inr ⟨_, rfl⟩⟩
    · exact .inl ⟨a, resp, rfl, rfl, not_not.mp hstatus, hdec⟩

/-- A download sends one request, without a key. -/
theorem download_keyless {jobID url : String} :
    (c.download host jobID url).Calls fun call =>
      ∀ req, call = .send req → req = resultRequest url := by
  unfold Client.download
  split
  · trivial
  refine Calls.andThen (Calls.mapError (Calls.perform fun req hreq => ?_)) fun resp => ?_
  · exact (ClientCall.send.inj hreq).symm
  split
  · trivial
  refine Calls.andThen trivial fun path => ?_
  refine Calls.andThen (Calls.mapError (Calls.perform nofun)) fun _ => ?_
  exact Calls.andThen (Calls.mapError (Calls.perform nofun)) fun _ => trivial

/-- The request that creates a job. -/
def Client.upload (c : Client) (filePath target preset opts : String) (content : Bytes) : HttpRequest :=
  ⟨"POST", c.baseURL ++ "/v1/jobs", some ("ApiKey " ++ c.apiKey),
    .file "file" (pathBase filePath) content :: Client.fields target preset opts⟩

/-- How a successful conversion begins. -/
def uploadSpeech (c : Client) (filePath target preset opts : String) (content : Bytes)
    (resp : Response) : Speech :=
  [⟨.openFile filePath, .ok ()⟩, ⟨.readFile filePath, .ok content⟩,
    ⟨.send (c.upload filePath target preset opts content), .ok resp⟩]

/-! ## Making runs -/

/-- A request that is answered as it should be. -/
theorem request_runs {α : Type} {action method url : String} {form : List Part} {status : Nat}
    {decode : Bytes → Except GoError α} {resp : Response} {a : α}
    (hnew : host.newRequest method url = none) (hstatus : resp.statusCode = status)
    (hdec : decode resp.body = .ok a) :
    (c.request host action method url form status decode).Runs
      [⟨.send ⟨method, url, some ("ApiKey " ++ c.apiKey), form⟩, .ok resp⟩] (.ok a) := by
  unfold Client.request
  rw [hnew]
  apply Runs.call
  show Prog.Runs (if resp.statusCode ≠ status then _ else _) [] _
  rw [if_neg (not_not.mpr hstatus), hdec]
  exact .ret _

section Poll

variable {jobID : String} {resp : Response} {job : JobStatus} {deadline t : Int} {fuel n : Nat}
  {tr : Speech} {r : Except ToolError ConvertResult}

/-- A status request that is answered with 200 returns the job that is decoded. -/
theorem getJob_runs (hnew : host.newRequest "GET" (c.statusRequest jobID).url = none)
    (hstatus : resp.statusCode = 200) (hdec : host.decodeJob resp.body = .ok job) :
    ((c.getJob host jobID).mapError ToolError.failed).Runs [⟨.send (c.statusRequest jobID), .ok resp⟩]
      (.ok job) :=
  Runs.mapError (request_runs hnew hstatus hdec)

/-- The job is done, and the client fetches the result. -/
theorem poll_runs_stored {tr' : Speech} {localPath : String}
    (hjob : ((c.getJob host jobID).mapError ToolError.failed).Runs tr (.ok job))
    (hdone : job.status = "done") (hmode : c.resultMode ≠ .resultRemote)
    (hdownload : (c.download host jobID job.downloadURL).Runs tr' (.ok localPath)) :
    (c.poll host false jobID deadline (fuel + 1) n).Runs (tr ++ tr')
      (.ok ⟨jobID, job.downloadURL, localPath⟩) := by
  apply hjob.andThen
  show Prog.Runs (if job.status = "done" then _ else _) _ _
  rw [if_pos hdone, if_neg hmode, ← List.append_nil tr']
  exact hdownload.mapError.andThen (.ret _)

/-- The deadline is over. -/
theorem poll_runs_late (hjob : ((c.getJob host jobID).mapError ToolError.failed).Runs tr (.ok job))
    (hdone : job.status ≠ "done") (hfailed : job.status ≠ "failed") (ht : deadline ≤ t) :
    (c.poll host false jobID deadline (fuel + 1) n).Runs (tr ++ [⟨.now, t⟩])
      (.error (.timeout jobID)) := by
  apply hjob.andThen
  show Prog.Runs (if job.status = "done" then _ else _) _ _
  rw [if_neg hdone, if_neg hfailed]
  apply Runs.call
  show Prog.Runs (if ¬ t < deadline then _ else _) [] _
  rw [if_pos (Int.not_lt.mpr ht)]
  exact .ret _

/-- The job is neither done nor failed, and there is time for another poll. -/
theorem poll_runs_wait {tr' : Speech}
    (hjob : ((c.getJob host jobID).mapError ToolError.failed).Runs tr (.ok job))
    (hdone : job.status ≠ "done") (hfailed : job.status ≠ "failed") (ht : t < deadline)
    (hrest : (c.poll host false jobID deadline fuel (n + 1)).Runs tr' r) :
    (c.poll host false jobID deadline (fuel + 1) n).Runs
      (tr ++ ⟨.now, t⟩ :: ⟨.tick, .ok ()⟩ :: tr') r := by
  apply hjob.andThen
  show Prog.Runs (if job.status = "done" then _ else _) _ _
  rw [if_neg hdone, if_neg hfailed]
  apply Runs.call
  show Prog.Runs (if ¬ t < deadline then _ else _) _ _
  rw [if_neg (not_not.mpr ht)]
  exact .call hrest

end Poll

/-- The upload is accepted, and the loop begins. -/
theorem convert_runs {fuel : Nat} {filePath target preset opts jobID : String} {content : Bytes}
    {resp : Response} {start : Int} {tr : Speech} {r : Except ToolError ConvertResult}
    (hnew : host.newRequest "POST" (c.baseURL ++ "/v1/jobs") = none) (hstatus : resp.statusCode = 202)
    (hdec : host.decodeJobID resp.body = .ok jobID) (hint : 0 < c.pollInterval)
    (hrest : (c.poll host false jobID (start + c.convertTimeout) fuel 0).Runs tr r) :
    (c.convertBlocking host fuel filePath target preset opts false).Runs
      (uploadSpeech c filePath target preset opts content resp ++ ⟨.now, start⟩ :: tr) r := by
  have hupload : (c.createJob host filePath target preset opts).Runs
      (uploadSpeech c filePath target preset opts content resp) (.ok jobID) :=
    .call (.call (request_runs hnew hstatus hdec))
  apply (hupload.mapError).andThen
  apply Runs.call
  show Prog.Runs (if c.pollInterval ≤ 0 then _ else _) _ _
  rw [if_neg (Int.not_le.mpr hint)]
  exact hrest

/-! ## An example -/

/-- The answer to an upload. -/
def exampleAccepted : Response :=
  ⟨202, Bytes.ascii "\x7b\"job_id\":\"7\",\"status\":\"queued\"\x7d"⟩

/-- The answer while the job is converted, and what is decoded from it. -/
def exampleActive : Response :=
  ⟨200, Bytes.ascii "\x7b\"job_id\":\"7\",\"status\":\"active\"\x7d"⟩

def activeJob : JobStatus := ⟨"7", "active", [], "", "", ""⟩

/-- The answer when it is done, and what is decoded from it. -/
def exampleDone : Response :=
  ⟨200, Bytes.ascii
    "\x7b\"job_id\":\"7\",\"status\":\"done\",\"download_url\":\"https://s3/7/out.pdf\"\x7d"⟩

def doneJob : JobStatus := ⟨"7", "done", [], "https://s3/7/out.pdf", "", ""⟩

def decodeExampleJobID (b : Bytes) : Except GoError String :=
  if b = exampleAccepted.body then .ok "7" else .error (.new "unexpected end of JSON input")

def decodeExampleJob (b : Bytes) : Except GoError JobStatus :=
  if b = exampleActive.body then .ok activeJob
  else if b = exampleDone.body then .ok doneJob
  else .error (.new "unexpected end of JSON input")

/-- A host that reads these answers. -/
def pollingHost : ClientHost where
  newRequest _ _ := none
  urlPath _ := .ok "/7/out.pdf"
  string b := String.ofList (b.map fun c => Char.ofNat c.toNat)
  errorField _ := none
  decodeJobID := decodeExampleJobID
  decodeJob := decodeExampleJob
  decodeFormats _ := .error (.new "unexpected end of JSON input")
  decodePresets _ := .error (.new "unexpected end of JSON input")
  getwd := .ok "/root"
  codec := Api.exampleCodec

/-- A client that polls every two seconds, for three seconds. -/
def pollingClient : Client := ⟨"https://api", "key", "/out", 3000000000, 2000000000, .resultRemote⟩

/-- The host reads the answer to the upload. -/
theorem pollingHost_accepted : pollingHost.decodeJobID exampleAccepted.body = .ok "7" := by
  have hdec : decodeExampleJobID exampleAccepted.body = .ok "7" := if_pos rfl
  exact hdec

/-- Any client reads an active job from this host. -/
theorem pollingHost_active (c : Client) :
    ((c.getJob pollingHost "7").mapError ToolError.failed).Runs
      [⟨.send (c.statusRequest "7"), .ok exampleActive⟩] (.ok activeJob) := by
  have hdec : decodeExampleJob exampleActive.body = .ok activeJob := if_pos rfl
  exact getJob_runs rfl rfl hdec

/-- Any client reads the finished job from this host. -/
theorem pollingHost_done (c : Client) :
    ((c.getJob pollingHost "7").mapError ToolError.failed).Runs
      [⟨.send (c.statusRequest "7"), .ok exampleDone⟩] (.ok doneJob) := by
  have hne : exampleDone.body ≠ exampleActive.body := by decide
  have hdec : decodeExampleJob exampleDone.body = .ok doneJob := (if_neg hne).trans (if_pos rfl)
  exact getJob_runs rfl rfl hdec

/-! ## The end of the loop -/

/-- Ticks add up along a conversation. -/
theorem ticks_append {tr tr' : Speech} : ticks (tr ++ tr') = ticks tr + ticks tr' := List.countP_append

/-- The rest of a punctual conversation is punctual, behind the ticks that are over. -/
theorem Punctual.suffix {interval start : Int} {before : Nat} (tr : Speech) {tr' : Speech}
    (h : Punctual interval start before (tr ++ tr')) :
    Punctual interval start (before + ticks tr) tr' := by
  intro mid post t heq
  have hdue := h (tr ++ mid) post t (by rw [heq, List.append_assoc])
  rw [ticks_append] at hdue
  push_cast at hdue ⊢
  rwa [Int.add_assoc]

/-- How many statuses have been asked for. -/
def statuses (tr : Speech) : Nat := tr.countP Spoken.isStatus

/-- Status requests add up along a conversation. -/
theorem statuses_append {tr tr' : Speech} : statuses (tr ++ tr') = statuses tr + statuses tr' :=
  List.countP_append

section Counting

variable {tr : Speech} {jobID status : String} {n : Nat} {t : Int}

@[simp] theorem statuses_nil : statuses [] = 0 := rfl

@[simp] theorem ticks_nil : ticks [] = 0 := rfl

/-- A status request counts as one. -/
@[simp] theorem statuses_request {x : Except GoError Response} :
    statuses (⟨.send (c.statusRequest jobID), x⟩ :: tr) = statuses tr + 1 := by
  simp [statuses, Spoken.isStatus, Client.statusRequest]

/-- A request is no tick. -/
@[simp] theorem ticks_request {req : HttpRequest} {x : Except GoError Response} :
    ticks (⟨.send req, x⟩ :: tr) = ticks tr := by
  simp [ticks, Spoken.isTick]

@[simp] theorem statuses_notify :
    statuses (⟨.notifyProgress status n, ()⟩ :: tr) = statuses tr := by
  simp [statuses, Spoken.isStatus]

@[simp] theorem ticks_notify : ticks (⟨.notifyProgress status n, ()⟩ :: tr) = ticks tr := by
  simp [ticks, Spoken.isTick]

@[simp] theorem statuses_now : statuses (⟨.now, t⟩ :: tr) = statuses tr := by
  simp [statuses, Spoken.isStatus]

@[simp] theorem ticks_now : ticks (⟨.now, t⟩ :: tr) = ticks tr := by
  simp [ticks, Spoken.isTick]

@[simp] theorem statuses_tick {r : Except GoError Unit} :
    statuses (⟨.tick, r⟩ :: tr) = statuses tr := by
  simp [statuses, Spoken.isStatus]

/-- A tick counts as one. -/
@[simp] theorem ticks_tick : ticks (⟨.tick, .ok ()⟩ :: tr) = ticks tr + 1 :=
  List.countP_cons_of_pos rfl

end Counting

section Clock

variable {interval start t : Int} {before : Nat} {x : Spoken} {tr : Speech}

/-- A conversation without a word is punctual. -/
theorem Punctual.nil : Punctual interval start before [] := by
  intro mid post t heq
  cases mid <;> cases heq

/-- A word other than a reading of the clock may stand before a punctual conversation. -/
theorem Punctual.cons (hx : x.1 ≠ .now) (h : Punctual interval start (before + ticks [x]) tr) :
    Punctual interval start before (x :: tr) := by
  intro mid post t heq
  rcases mid with _ | ⟨y, mid⟩
  · exact absurd (congrArg Sigma.fst (List.cons.inj heq).1) hx
  · obtain ⟨rfl, htail⟩ := List.cons.inj heq
    have hdue := h mid post t htail
    have hsum : ticks ([x] ++ mid) = ticks [x] + ticks mid := ticks_append
    rw [List.singleton_append] at hsum
    rw [hsum]
    push_cast at hdue ⊢
    rwa [← Int.add_assoc]

/-- A reading of the clock may, if it does not come before its tick. -/
theorem Punctual.now (ht : start + interval * before ≤ t) (h : Punctual interval start before tr) :
    Punctual interval start before (⟨.now, t⟩ :: tr) := by
  intro mid post t' heq
  rcases mid with _ | ⟨y, mid⟩
  · obtain rfl : t = t' := Event.inj (List.cons.inj heq).1
    simpa using ht
  · obtain ⟨rfl, htail⟩ := List.cons.inj heq
    simpa using h mid post t' htail

end Clock

/-- From here on the loop ends within so many polls. -/
def EndsWithin (interval timeout start : Int) (n before : Nat) (tr : Speech)
    (r : Except ToolError ConvertResult) : Prop :=
  Punctual interval start before tr → timeout ≤ n * interval → before ≤ n →
    r ≠ .error .polling ∧ statuses tr + before ≤ n + 1

/-- A loop that ends in this round, after one status request at most, ends in time. -/
theorem EndsWithin.of_one {interval timeout start : Int} {n before : Nat} {tr : Speech}
    {r : Except ToolError ConvertResult} (hr : r ≠ .error .polling) (htr : statuses tr ≤ 1) :
    EndsWithin interval timeout start n before tr r := fun _ _ hbefore => ⟨hr, by omega⟩

/-- One poll, and its tick, before the others. -/
theorem EndsWithin.poll {interval timeout start t : Int} {n before : Nat} {tr' : Speech}
    {r : Except ToolError ConvertResult} (tr : Speech)
    (h : EndsWithin interval timeout start n (before + 1) tr' r)
    (hint : 0 < interval) (ht : t < start + timeout) (htr : statuses tr = 1 ∧ ticks tr = 0) :
    EndsWithin interval timeout start n before (tr ++ ⟨.now, t⟩ :: ⟨.tick, .ok ()⟩ :: tr') r := by
  intro hp htimeout _
  -- the clock is before the deadline, so another tick is due before it
  have hdue := hp tr _ t rfl
  rw [htr.2, Nat.cast_zero, Int.add_zero] at hdue
  have hlt : (before : Int) < n := by
    have hcomm := Int.mul_comm n interval
    have hmul : interval * before < interval * n := by omega
    exact Int.lt_of_mul_lt_mul_left hmul (Int.le_of_lt hint)
  have hrest : Punctual interval start (before + 1) tr' := by
    have hsuffix : Punctual interval start
        (before + ticks (tr ++ [⟨.now, t⟩, ⟨.tick, .ok ()⟩])) tr' :=
      Punctual.suffix _ (by simpa using hp)
    simpa [ticks_append, htr.2] using hsuffix
  obtain ⟨hr, hcount⟩ := h hrest htimeout (by omega)
  refine ⟨hr, ?_⟩
  simp only [statuses_append, statuses_now, statuses_tick, htr.1]
  omega

/-- A status request is one request at most; it returns what was decoded from an answer with 200. -/
theorem getJob_always {jobID : String} :
    ((c.getJob host jobID).mapError ToolError.failed).Always fun tr r =>
      (∃ job resp, r = .ok job ∧ tr = [⟨.send (c.statusRequest jobID), .ok resp⟩] ∧
        resp.statusCode = 200 ∧ host.decodeJob resp.body = .ok job) ∨
      ∃ err, r = .error (.failed err) ∧ (tr = [] ∨ ∃ x, tr = [⟨.send (c.statusRequest jobID), x⟩]) := by
  refine request_always.mapError _ fun tr r h => ?_
  rcases h with ⟨job, resp, rfl, htr, hstatus, hdec⟩ | ⟨err, rfl, htr⟩
  · exact .inl ⟨job, resp, rfl, htr, hstatus, hdec⟩
  · exact .inr ⟨err, rfl, htr⟩

/-- The progress is reported or not. -/
theorem notify_always {notify : Bool} {status : String} {j : Nat} :
    (if notify then ask (.notifyProgress status j) else .ret () : OnClient Unit).Always fun tr _ =>
      tr = [] ∨ tr = [⟨.notifyProgress status j, ()⟩] := by
  split
  · exact fun _ => .inr rfl
  · exact .inl rfl

/-- A download asks for no status, and fails as such. -/
theorem statuses_download {jobID url : String} :
    ((c.download host jobID url).mapError ToolError.failed).Always fun tr r =>
      statuses tr = 0 ∧ ∀ err, r = .error err → ∃ e, err = .failed e := by
  refine (download_keyless.always).mapError _ fun tr r htr => ⟨?_, ?_⟩
  · refine List.countP_eq_zero.mpr ?_
    rintro ⟨call, ans⟩ hx
    have hkey := htr _ hx
    rcases call with _ | _ | _ | _ | req | _ | _ | _ | _ | _ | _
    case send =>
      rw [hkey req rfl]
      exact Bool.false_ne_true
    all_goals exact Bool.false_ne_true
  · intro err hr
    rcases r with e | p
    · exact ⟨e, (Except.error.inj hr).symm⟩
    · cases hr

/-- What a successful download says. -/
def downloadSpeech (url localPath : String) (resp : Response) : Speech :=
  [⟨.send (resultRequest url), .ok resp⟩, ⟨.createFile localPath, .ok ()⟩,
    ⟨.copy localPath resp.body, .ok ()⟩]

/-- A download that is answered as it should be. -/
theorem download_runs {jobID url path : String} {resp : Response}
    (hnew : host.newRequest "GET" url = none) (hstatus : resp.statusCode = 200)
    (hpath : host.urlPath url = .ok path) :
    (c.download host jobID url).Runs
      (downloadSpeech url (UnixPath.join [c.outputDir, localName jobID path]) resp)
      (.ok (UnixPath.join [c.outputDir, localName jobID path])) := by
  unfold Client.download
  rw [hnew]
  apply Runs.call
  show Prog.Runs (if resp.statusCode ≠ 200 then _ else _) _ _
  rw [if_neg (not_not.mpr hstatus), hpath]
  exact .call (.call (.ret _))

/-- What a download has said when it returns a path. -/
theorem download_said {jobID url : String} :
    (c.download host jobID url).Always fun tr r => ∀ localPath, r = .ok localPath →
      ∃ resp path, tr = downloadSpeech url localPath resp ∧ resp.statusCode = 200 ∧
        host.urlPath url = .ok path ∧
        localPath = UnixPath.join [c.outputDir, localName jobID path] := by
  unfold Client.download
  split
  · exact fun p hp => by cases hp
  intro r
  rcases r with err | resp
  · exact fun p hp => by cases hp
  show Prog.Always (if resp.statusCode ≠ 200 then _ else _) _
  split
  · exact fun p hp => by cases hp
  rename_i hstatus
  rcases hpath : host.urlPath url with err | path
  · exact fun p hp => by cases hp
  intro r
  rcases r with err | _
  · exact fun p hp => by cases hp
  intro r
  rcases r with err | _
  · exact fun p hp => by cases hp
  · intro p hp
    obtain rfl := Except.ok.inj hp
    exact ⟨resp, path, rfl, not_not.mp hstatus, rfl, rfl⟩

/-! ## A round of the loop -/

/-- A round has heard of the job: its status, and the progress that was told. -/
def Heard (host : ClientHost) (c : Client) (jobID : String) (job : JobStatus) (tr : Speech) : Prop :=
  ∃ resp progress, tr = ⟨.send (c.statusRequest jobID), .ok resp⟩ :: progress ∧ resp.statusCode = 200 ∧
    host.decodeJob resp.body = .ok job ∧
    (progress = [] ∨ ∃ n, progress = [⟨.notifyProgress job.status n, ()⟩])

/-- A download that has succeeded. -/
def Downloaded (host : ClientHost) (c : Client) (jobID url localPath : String) (tr : Speech) : Prop :=
  ∃ resp path, tr = downloadSpeech url localPath resp ∧ resp.statusCode = 200 ∧
    host.urlPath url = .ok path ∧ localPath = UnixPath.join [c.outputDir, localName jobID path]

/-- A round of the loop, with its result if it is the last. -/
inductive Round (host : ClientHost) (c : Client) (jobID : String) (deadline : Int) :
    Speech → Option (Except ToolError ConvertResult) → Prop
  | unheard {tr : Speech} {err : GoError}
      (htr : tr = [] ∨ ∃ x, tr = [⟨.send (c.statusRequest jobID), x⟩]) :
      Round host c jobID deadline tr (some (.error (.failed err)))
  | remote {job : JobStatus} {tr : Speech} (h : Heard host c jobID job tr) (hdone : job.status = "done")
      (hmode : c.resultMode = .resultRemote) :
      Round host c jobID deadline tr (some (.ok ⟨jobID, job.downloadURL, ""⟩))
  | stored {job : JobStatus} {tr tr' : Speech} {localPath : String} (h : Heard host c jobID job tr)
      (hdone : job.status = "done") (hmode : c.resultMode ≠ .resultRemote)
      (hsaid : Downloaded host c jobID job.downloadURL localPath tr') :
      Round host c jobID deadline (tr ++ tr') (some (.ok ⟨jobID, job.downloadURL, localPath⟩))
  | unstored {job : JobStatus} {tr tr' : Speech} {err : GoError} (h : Heard host c jobID job tr)
      (hnone : statuses tr' = 0) :
      Round host c jobID deadline (tr ++ tr') (some (.error (.failed err)))
  | failed {job : JobStatus} {tr : Speech} {err : GoError} (h : Heard host c jobID job tr) :
      Round host c jobID deadline tr (some (.error (.failed err)))
  | late {job : JobStatus} {tr : Speech} {t : Int} (h : Heard host c jobID job tr) (ht : deadline ≤ t) :
      Round host c jobID deadline (tr ++ [⟨.now, t⟩]) (some (.error (.timeout jobID)))
  | unticked {job : JobStatus} {tr : Speech} {t : Int} {err : GoError} (h : Heard host c jobID job tr) :
      Round host c jobID deadline (tr ++ [⟨.now, t⟩, ⟨.tick, .error err⟩])
        (some (.error (.failed err)))
  | ticked {job : JobStatus} {tr : Speech} {t : Int} (h : Heard host c jobID job tr)
      (hdone : job.status ≠ "done") (hfailed : job.status ≠ "failed") (ht : t < deadline) :
      Round host c jobID deadline (tr ++ [⟨.now, t⟩, ⟨.tick, .ok ()⟩]) none

/-- The loop is a round, and the rest of the loop if the round has no result. -/
theorem poll_round {notify : Bool} {jobID : String} {deadline : Int} {fuel n : Nat}
    {Q : Speech → Except ToolError ConvertResult → Prop}
    (hends : ∀ tr r, Round host c jobID deadline tr (some r) → Q tr r)
    (hnext : ∀ tr, Round host c jobID deadline tr none →
      (c.poll host notify jobID deadline fuel (n + 1)).Always fun tr' r => Q (tr ++ tr') r) :
    (c.poll host notify jobID deadline (fuel + 1) n).Always Q := by
  refine getJob_always.andThen ?_ ?_
  · rintro tr err (⟨job, resp, hr, -⟩ | ⟨e, hr, htr⟩)
    · cases hr
    · obtain rfl := Except.error.inj hr
      exact hends _ _ (.unheard htr)
  rintro tr job (⟨job', resp, hr, rfl, hstatus, hdec⟩ | ⟨e, hr, -⟩)
  swap
  · cases hr
  obtain rfl := Except.ok.inj hr
  refine notify_always.bind fun tr' _ htr' => ?_
  have hheard : Heard host c jobID job (⟨.send (c.statusRequest jobID), .ok resp⟩ :: tr') :=
    ⟨resp, tr', rfl, hstatus, hdec, htr'.imp_right fun h => ⟨_, h⟩⟩
  split
  · rename_i hdone
    split
    · rename_i hmode
      have hlast := hends _ _ (.remote hheard hdone hmode)
      simpa using hlast
    · rename_i hmode
      refine ((download_said.mapError_ok).and statuses_download).andThen ?_ ?_
      · rintro tr₂ err ⟨-, hnone, herr⟩
        obtain ⟨e, rfl⟩ := herr err rfl
        have hlast := hends _ (.error (.failed e)) (.unstored hheard hnone)
        simpa using hlast
      · rintro tr₂ localPath ⟨hsaid, -⟩
        have hlast := hends _ _ (.stored hheard hdone hmode (hsaid localPath rfl))
        simpa using hlast
  rename_i hdone
  split
  · show Q ([_] ++ (tr' ++ [])) _
    rw [List.append_nil]
    exact hends _ _ (.failed hheard)
  rename_i hfailed
  intro t
  show Prog.Always (if ¬ t < deadline then _ else _) _
  split
  · rename_i ht
    have hlast := hends _ _ (.late hheard (Int.not_lt.mp ht))
    simpa using hlast
  rename_i ht
  intro r
  rcases r with err | ⟨⟩
  · have hlast := hends _ (.error (.failed err)) (.unticked (t := t) hheard)
    show Q ([_] ++ (tr' ++ [⟨.now, t⟩, ⟨.tick, .error err⟩])) _
    simpa using hlast
  · have hrest := hnext _ (.ticked hheard hdone hfailed (not_not.mp ht))
    show Prog.Always (c.poll host notify jobID deadline fuel (n + 1)) _
    simpa using hrest

/-- A round asks for one status, and the ticker does not tick in it before it is over. -/
theorem Heard.counts {jobID : String} {job : JobStatus} {tr : Speech} (h : Heard host c jobID job tr) :
    statuses tr = 1 ∧ ticks tr = 0 := by
  obtain ⟨resp, progress, rfl, -, -, rfl | ⟨n, rfl⟩⟩ := h <;> simp

section Round

variable {jobID : String} {deadline : Int} {tr : Speech} {r : Except ToolError ConvertResult}

/-- A round that ends the loop does not end it because the fuel has run out. -/
theorem Round.not_polling (h : Round host c jobID deadline tr (some r)) : r ≠ .error .polling := by
  cases h <;> simp

/-- A round that ends the loop has asked for the status once at most. -/
theorem Round.statuses_le (h : Round host c jobID deadline tr (some r)) : statuses tr ≤ 1 := by
  cases h with
  | unheard htr => rcases htr with rfl | ⟨x, rfl⟩ <;> simp
  | remote h | failed h => exact Nat.le_of_eq h.counts.1
  | stored h _ _ hsaid =>
    obtain ⟨resp, path, rfl, -⟩ := hsaid
    rw [statuses_append, h.counts.1]
    simp [downloadSpeech, statuses, Spoken.isStatus, resultRequest]
  | unstored h hnone => rw [statuses_append, h.counts.1, hnone]
  | late h | unticked h =>
    rw [statuses_append, h.counts.1]
    simp

end Round

/-! ## The loop -/

/-- The loop ends in time, from whatever round it is entered. -/
theorem poll_endsWithin (hint : 0 < c.pollInterval) {notify : Bool} {jobID : String} {n : Nat}
    (start : Int) (fuel j k : Nat) (hfuel : n < k + fuel) :
    (c.poll host notify jobID (start + c.convertTimeout) fuel j).Always
      (EndsWithin c.pollInterval c.convertTimeout start n k) := by
  induction fuel generalizing j k with
  | zero => exact fun _ _ hk => absurd hk (by omega)
  | succ fuel ih =>
    refine poll_round (fun tr r h => ?_) fun tr h => ?_
    · exact .of_one h.not_polling h.statuses_le
    · refine (ih (j + 1) (k + 1) (by omega)).mono fun tr' r hrest => ?_
      cases h with
      | ticked hheard _ _ ht =>
        have hone := EndsWithin.poll _ hrest hint ht hheard.counts
        simpa using hone

/-- The clock has been read at the deadline or behind it. -/
def Late (deadline : Int) (tr : Speech) : Prop :=
  ∃ mid post t, tr = mid ++ ⟨.now, t⟩ :: post ∧ deadline ≤ t

/-- What was said before does not matter for a late end. -/
theorem Late.append {deadline : Int} (tr : Speech) {tr' : Speech} (h : Late deadline tr') :
    Late deadline (tr ++ tr') := by
  obtain ⟨mid, post, t, rfl, ht⟩ := h
  exact ⟨tr ++ mid, post, t, (List.append_assoc ..).symm, ht⟩

/-- The loop times out at the deadline or behind it. -/
theorem poll_late {notify : Bool} {jobID : String} {deadline : Int} (fuel j : Nat) :
    (c.poll host notify jobID deadline fuel j).Always fun tr r =>
      ∀ id, r = .error (.timeout id) → id = jobID ∧ Late deadline tr := by
  induction fuel generalizing j with
  | zero => exact fun id hid => by cases hid
  | succ fuel ih =>
    refine poll_round (fun tr r h id hid => ?_) fun tr _ => ?_
    · cases h with
      | late hheard ht =>
        obtain rfl := ToolError.timeout.inj (Except.error.inj hid)
        exact ⟨rfl, _, [], _, rfl, ht⟩
      | _ => cases hid
    · refine (ih (j + 1)).mono fun tr' r h id hid => ?_
      obtain ⟨hid', hlate⟩ := h id hid
      exact ⟨hid', hlate.append tr⟩

/-- The clock of a run of the tool: the first reading is before the ticker is made, and it does not tick
early. -/
def OnTime (interval : Int) (tr : Speech) : Prop :=
  ∀ pre post start, tr = pre ++ ⟨.now, start⟩ :: post → (∀ x ∈ pre, x.1 ≠ .now) →
    Punctual interval start 0 post

/-- A word other than a reading of the clock does not start the count of the ticks. -/
theorem OnTime.cons {interval : Int} {x : Spoken} {tr : Speech} (hx : x.1 ≠ .now)
    (h : OnTime interval tr) : OnTime interval (x :: tr) := by
  intro pre post start heq hpre
  rcases pre with _ | ⟨y, pre⟩
  · exact absurd (congrArg Sigma.fst (List.cons.inj heq).1) hx
  · exact h pre post start (List.cons.inj heq).2 fun y hy => hpre y (List.mem_cons_of_mem _ hy)

/-- The first reading of the clock does. -/
theorem OnTime.now {interval start : Int} {tr : Speech} (h : Punctual interval start 0 tr) :
    OnTime interval (⟨.now, start⟩ :: tr) := by
  intro pre post start' heq hpre
  rcases pre with _ | ⟨y, pre⟩
  · obtain ⟨hx, rfl⟩ := List.cons.inj heq
    obtain rfl : start = start' := Event.inj hx
    exact h
  · obtain ⟨rfl, -⟩ := List.cons.inj heq
    exact absurd rfl (hpre _ List.mem_cons_self)

/-- An upload does not look at the clock, and asks for no status. -/
theorem createJob_calls {filePath target preset opts : String} :
    (c.createJob host filePath target preset opts).Calls fun call =>
      call ≠ .now ∧ ∀ req, call = .send req → req.method = "POST" := by
  refine Calls.andThen (Calls.mapError (Calls.perform ⟨nofun, nofun⟩)) fun _ => ?_
  refine Calls.andThen (Calls.mapError (Calls.perform ⟨nofun, nofun⟩)) fun content => ?_
  unfold Client.request
  split
  · trivial
  refine Calls.andThen (Calls.mapError (Calls.perform ⟨nofun, fun req hreq => ?_⟩)) fun resp => ?_
  · rw [← ClientCall.send.inj hreq]
  · split <;> trivial

/-- An upload asks for no status and does not read the clock. -/
theorem createJob_always {filePath target preset opts : String} :
    ((c.createJob host filePath target preset opts).mapError ToolError.failed).Always fun tr r =>
      statuses tr = 0 ∧ (∀ x ∈ tr, x.1 ≠ .now) ∧ ∀ err, r = .error err → ∃ e, err = .failed e := by
  refine (createJob_calls.always).mapError _ fun tr r htr => ⟨?_, fun x hx => (htr x hx).1, ?_⟩
  · refine List.countP_eq_zero.mpr ?_
    rintro ⟨call, ans⟩ hx
    have hpost := (htr _ hx).2
    rcases call with _ | _ | _ | _ | req | _ | _ | _ | _ | _ | _
    case send =>
      simp [Spoken.isStatus, hpost req rfl]
    all_goals exact Bool.false_ne_true
  · intro err hr
    rcases r with e | p
    · exact ⟨e, (Except.error.inj hr).symm⟩
    · cases hr

/-- What is said of a run of the tool whose ticker does not tick early. -/
def Returns (c : Client) (n : Nat) (tr : Speech) (r : Except ToolError ConvertResult) : Prop :=
  r ≠ .error .polling ∧ statuses tr ≤ n + 1 ∧
    ∀ id, r = .error (.timeout id) → ∃ start pre post, tr = pre ++ ⟨.now, start⟩ :: post ∧
      Late (start + c.convertTimeout) post

/-- A conversion that fits into its fuel returns, if the ticker does not tick early. -/
theorem convert_always {fuel n : Nat} {filePath target preset opts : String} {notify : Bool}
    (hn : c.convertTimeout ≤ n * c.pollInterval) (hfuel : n < fuel) :
    (c.convertBlocking host fuel filePath target preset opts notify).Always fun tr r =>
      OnTime c.pollInterval tr → Returns c n tr r := by
  refine createJob_always.andThen ?_ ?_
  · rintro tr err ⟨hnone, -, herr⟩ -
    obtain ⟨e, rfl⟩ := herr err rfl
    refine ⟨by simp, by omega, fun id hid => ?_⟩
    cases Except.error.inj hid
  rintro tr jobID ⟨hnone, hclock, -⟩ start
  show Prog.Always (if c.pollInterval ≤ 0 then _ else _) _
  split
  · intro _
    refine ⟨by simp, by simp [statuses_append, hnone], fun id hid => ?_⟩
    cases Except.error.inj hid
  · rename_i hint
    refine ((poll_endsWithin (n := n) (Int.not_le.mp hint) start fuel 0 0 (by omega)).and
      (poll_late fuel 0)).mono ?_
    rintro tr' r ⟨hends, hlate⟩ htime
    obtain ⟨hr, hcount⟩ := hends (htime tr tr' start rfl hclock) hn (Nat.zero_le n)
    refine ⟨hr, by simpa [statuses_append, hnone] using hcount, fun id hid => ?_⟩
    exact ⟨start, tr, tr', rfl, (hlate id hid).2⟩

/-- **A conversion does not poll forever.** With a ticker that does not tick early, the loop ends within
as many polls as fit into the timeout, and one more; and it never times out early. -/
theorem convert_returns {fuel n : Nat} {filePath target preset opts : String} {notify : Bool}
    {tr : Speech} {r : Except ToolError ConvertResult}
    (h : (c.convertBlocking host fuel filePath target preset opts notify).Runs tr r)
    (htime : OnTime c.pollInterval tr) (hn : c.convertTimeout ≤ n * c.pollInterval) (hfuel : n < fuel) :
    Returns c n tr r :=
  always_iff.mp (convert_always hn hfuel) tr r h htime

/-- A conversion that takes longer than the client waits. -/
def lateSpeech : Speech :=
  uploadSpeech pollingClient "/tmp/a.png" "pdf" "" "" [] exampleAccepted ++
    ⟨.now, 0⟩ :: ([⟨.send (pollingClient.statusRequest "7"), .ok exampleActive⟩] ++
      ⟨.now, 1000000000⟩ :: ⟨.tick, .ok ()⟩ ::
        ([⟨.send (pollingClient.statusRequest "7"), .ok exampleActive⟩] ++ [⟨.now, 3000000000⟩]))

/-- The conversation is one of the client, and ends with a timeout. -/
theorem lateSpeech_runs :
    (pollingClient.convertBlocking pollingHost 3 "/tmp/a.png" "pdf" "" "" false).Runs lateSpeech
      (.error (.timeout "7")) := by
  have hlate : (pollingClient.poll pollingHost false "7" (0 + pollingClient.convertTimeout) 2 1).Runs
      ([⟨.send (pollingClient.statusRequest "7"), .ok exampleActive⟩] ++ [⟨.now, 3000000000⟩])
      (.error (.timeout "7")) :=
    poll_runs_late (pollingHost_active _) (by decide) (by decide) (by decide)
  exact convert_runs rfl rfl pollingHost_accepted (by decide)
    (poll_runs_wait (pollingHost_active _) (by decide) (by decide) (by decide) hlate)

/-- The ticker of this conversation does not tick early. -/
theorem lateSpeech_onTime : OnTime pollingClient.pollInterval lateSpeech := by
  -- three calls of the upload, and then the clock that starts the ticker
  apply OnTime.cons (by simp)
  apply OnTime.cons (by simp)
  apply OnTime.cons (by simp)
  apply OnTime.now
  apply Punctual.cons (by simp)
  apply Punctual.now (by decide)
  apply Punctual.cons (by simp)
  apply Punctual.cons (by simp)
  exact Punctual.now (by decide) Punctual.nil

/-- Two polls fit into the timeout, and the job is not done by then. -/
theorem convert_returns_timeout : Returns pollingClient 2 lateSpeech (.error (.timeout "7")) :=
  convert_returns lateSpeech_runs lateSpeech_onTime (by decide) (by decide)

/-! ## What a result stands for -/

/-- The result behind the last status: its URL, and in local mode a file with the bytes that were
downloaded. -/
def Delivered (host : ClientHost) (c : Client) (jobID : String) (tr : Speech) (res : ConvertResult) :
    Prop :=
  if c.resultMode = .resultRemote then res.localPath = "" ∧ tr = []
  else ∃ resp path, tr = downloadSpeech res.downloadURL res.localPath resp ∧ resp.statusCode = 200 ∧
    host.urlPath res.downloadURL = .ok path ∧
    res.localPath = UnixPath.join [c.outputDir, localName jobID path]

/-- What is said while the job is neither done nor failed. -/
inductive Waiting (host : ClientHost) (c : Client) (jobID : String) : Spoken → Prop
  | status (resp : Response) (job : JobStatus) (hdec : host.decodeJob resp.body = .ok job)
      (hdone : job.status ≠ "done") (hfailed : job.status ≠ "failed") :
      Waiting host c jobID ⟨.send (c.statusRequest jobID), .ok resp⟩
  | progress (status : String) (n : Nat) : Waiting host c jobID ⟨.notifyProgress status n, ()⟩
  | now (t : Int) : Waiting host c jobID ⟨.now, t⟩
  | tick : Waiting host c jobID ⟨.tick, .ok ()⟩

/-- What the loop has heard when it has a result. -/
structure Polled (host : ClientHost) (c : Client) (jobID : String) (tr : Speech) (res : ConvertResult) :
    Prop where
  same : res.jobID = jobID
  /-- The last status, and what comes before it, of it and behind it. -/
  done : ∃ before resp job progress after,
    tr = before ++ ⟨.send (c.statusRequest jobID), .ok resp⟩ :: (progress ++ after) ∧
      (∀ x ∈ before, Waiting host c jobID x) ∧ resp.statusCode = 200 ∧
      host.decodeJob resp.body = .ok job ∧ job.status = "done" ∧ job.downloadURL = res.downloadURL ∧
      (∀ x ∈ progress, ∃ n, x = ⟨.notifyProgress "done" n, ()⟩) ∧ Delivered host c jobID after res

section Polled

variable {jobID : String} {job : JobStatus} {tr tr' : Speech} {res : ConvertResult}

/-- The last round of a loop with a result. -/
theorem Heard.polled {localPath : String} (h : Heard host c jobID job tr) (hdone : job.status = "done")
    (hdelivered : Delivered host c jobID tr' ⟨jobID, job.downloadURL, localPath⟩) :
    Polled host c jobID (tr ++ tr') ⟨jobID, job.downloadURL, localPath⟩ := by
  obtain ⟨resp, progress, rfl, hstatus, hdec, htold⟩ := h
  refine ⟨rfl, [], resp, job, progress, tr', by simp, ?_, hstatus, hdec, hdone, rfl, ?_, hdelivered⟩
  · exact fun x hx => absurd hx List.not_mem_nil
  · intro x hx
    rcases htold with rfl | ⟨n, rfl⟩
    · exact absurd hx List.not_mem_nil
    · rw [List.mem_singleton.mp hx, hdone]
      exact ⟨n, rfl⟩

/-- A round that is not the last. -/
theorem Heard.waiting {t : Int} (h : Heard host c jobID job tr) (hdone : job.status ≠ "done")
    (hfailed : job.status ≠ "failed") :
    ∀ x ∈ tr ++ [⟨.now, t⟩, ⟨.tick, .ok ()⟩], Waiting host c jobID x := by
  obtain ⟨resp, progress, rfl, -, hdec, htold⟩ := h
  intro x hx
  simp only [List.cons_append, List.mem_cons, List.mem_append, List.not_mem_nil, or_false] at hx
  rcases hx with rfl | hx | rfl | rfl
  · exact .status resp job hdec hdone hfailed
  · rcases htold with rfl | ⟨n, rfl⟩
    · exact absurd hx List.not_mem_nil
    · rw [List.mem_singleton.mp hx]
      exact .progress job.status n
  · exact .now t
  · exact .tick

/-- What has been said before does not change the end. -/
theorem Polled.behind (h : Polled host c jobID tr' res) (htr : ∀ x ∈ tr, Waiting host c jobID x) :
    Polled host c jobID (tr ++ tr') res := by
  obtain ⟨hsame, before, resp, job, progress, after, rfl, hwaiting, hrest⟩ := h
  refine ⟨hsame, tr ++ before, resp, job, progress, after, (List.append_assoc ..).symm, ?_, hrest⟩
  intro x hx
  exact (List.mem_append.mp hx).elim (htr x) (hwaiting x)

end Polled

/-- A loop that returns a result has polled up to it. -/
theorem poll_polled {notify : Bool} {jobID : String} {deadline : Int} (fuel j : Nat) :
    (c.poll host notify jobID deadline fuel j).Always fun tr r =>
      ∀ res, r = .ok res → Polled host c jobID tr res := by
  induction fuel generalizing j with
  | zero => exact fun res hres => by cases hres
  | succ fuel ih =>
    refine poll_round (fun tr r h res hres => ?_) fun tr h => ?_
    · cases h with
      | @remote job _ hheard hdone hmode =>
        obtain rfl := Except.ok.inj hres
        have hdelivered : Delivered host c jobID [] ⟨jobID, job.downloadURL, ""⟩ := by
          rw [Delivered, if_pos hmode]
          exact ⟨rfl, rfl⟩
        simpa using hheard.polled hdone hdelivered
      | stored hheard hdone hmode hsaid =>
        obtain rfl := Except.ok.inj hres
        exact hheard.polled hdone ((if_neg hmode).mpr hsaid)
      | _ => cases hres
    · refine (ih (j + 1)).mono fun tr' r hrest res hres => ?_
      cases h with
      | ticked hheard hdone hfailed _ => exact (hrest res hres).behind (hheard.waiting hdone hfailed)

/-- An upload that returns a job id is one POST, which was accepted. -/
theorem createJob_said {filePath target preset opts : String} :
    (c.createJob host filePath target preset opts).Always fun tr r => ∀ jobID, r = .ok jobID →
      ∃ content resp, tr = uploadSpeech c filePath target preset opts content resp ∧
        resp.statusCode = 202 ∧ host.decodeJobID resp.body = .ok jobID := by
  intro r
  rcases r with err | _
  · exact fun p hp => by cases hp
  intro r
  rcases r with err | content
  · exact fun p hp => by cases hp
  refine request_always.mono ?_
  rintro tr r (⟨a, resp, rfl, rfl, hstatus, hdec⟩ | ⟨err, rfl, -⟩) jobID hr
  · obtain rfl := Except.ok.inj hr
    exact ⟨content, resp, rfl, hstatus, hdec⟩
  · cases hr

/-- **What a result stands for.** A conversion with a result has uploaded the file once, with what the
agent asked for, has asked for the status of the job that this made and of no other, and has heard that
it is done once, at the end; the URL of the result is the one that came with that, and in local mode the
file at the local path has been given the bytes that were downloaded from there. -/
theorem convert_result {fuel : Nat} {filePath target preset opts : String} {notify : Bool} {tr : Speech}
    {res : ConvertResult}
    (h : (c.convertBlocking host fuel filePath target preset opts notify).Runs tr (.ok res)) :
    ∃ content resp start tr', tr = uploadSpeech c filePath target preset opts content resp ++
        ⟨.now, start⟩ :: tr' ∧
      resp.statusCode = 202 ∧ host.decodeJobID resp.body = .ok res.jobID ∧
      Polled host c res.jobID tr' res := by
  have hall : (c.convertBlocking host fuel filePath target preset opts notify).Always fun tr r =>
      ∀ res, r = .ok res → ∃ content resp start tr',
        tr = uploadSpeech c filePath target preset opts content resp ++ ⟨.now, start⟩ :: tr' ∧
        resp.statusCode = 202 ∧ host.decodeJobID resp.body = .ok res.jobID ∧
        Polled host c res.jobID tr' res := by
    refine createJob_said.mapError_ok.andThen (fun _ _ _ res hres => by cases hres) ?_
    intro tr jobID hsaid start
    obtain ⟨content, resp, rfl, hstatus, hdec⟩ := hsaid jobID rfl
    show Prog.Always (if c.pollInterval ≤ 0 then _ else _) _
    split
    · exact fun res hres => by cases hres
    refine (poll_polled fuel 0).mono fun tr' r hpolled res hres => ?_
    have hp := hpolled res hres
    obtain rfl := hp.same
    exact ⟨content, resp, start, tr', rfl, hstatus, hdec, hp⟩
  exact always_iff.mp hall tr _ h res rfl

/-- A client that fetches the results itself. -/
def storingClient : Client := { pollingClient with resultMode := .resultLocal }

/-- The answer to the download. -/
def exampleResult : Response := ⟨200, Bytes.ascii "%PDF-1.7"⟩

/-- A conversion that is done at the second poll, and its download. -/
def storedSpeech : Speech :=
  uploadSpeech storingClient "/tmp/a.png" "pdf" "" "" [] exampleAccepted ++
    ⟨.now, 0⟩ :: ([⟨.send (storingClient.statusRequest "7"), .ok exampleActive⟩] ++
      ⟨.now, 1000000000⟩ :: ⟨.tick, .ok ()⟩ ::
        ([⟨.send (storingClient.statusRequest "7"), .ok exampleDone⟩] ++
          downloadSpeech "https://s3/7/out.pdf" "/out/out.pdf" exampleResult))

/-- The conversation is one of the client, and stores the result. -/
theorem storedSpeech_runs :
    (storingClient.convertBlocking pollingHost 2 "/tmp/a.png" "pdf" "" "" false).Runs storedSpeech
      (.ok ⟨"7", "https://s3/7/out.pdf", "/out/out.pdf"⟩) := by
  have hpath :
      UnixPath.join [storingClient.outputDir, localName "7" "/7/out.pdf"] = "/out/out.pdf" := by
    decide +kernel
  have hdownload : (storingClient.download pollingHost "7" doneJob.downloadURL).Runs
      (downloadSpeech "https://s3/7/out.pdf" "/out/out.pdf" exampleResult) (.ok "/out/out.pdf") := by
    rw [← hpath]
    exact download_runs rfl rfl rfl
  exact convert_runs rfl rfl pollingHost_accepted (by decide)
    (poll_runs_wait (pollingHost_active _) (by decide) (by decide) (by decide)
      (poll_runs_stored (pollingHost_done _) rfl (by decide) hdownload))

/-- The upload, a poll that finds the job active, one that finds it done, and the download. -/
theorem convert_result_stored :
    ∃ content resp start tr', storedSpeech =
        uploadSpeech storingClient "/tmp/a.png" "pdf" "" "" content resp ++ ⟨.now, start⟩ :: tr' ∧
      resp.statusCode = 202 ∧ pollingHost.decodeJobID resp.body = .ok "7" ∧
      Polled pollingHost storingClient "7" tr' ⟨"7", "https://s3/7/out.pdf", "/out/out.pdf"⟩ :=
  convert_result storedSpeech_runs

end OctoConv.Mcp
