import OctoConv.Worker.Terminal
import OctoConv.World

/-!
# The task handlers of the workers

Five convert handlers and the webhook handler, as programs over the shared world. The convert
handlers have one body; they differ in how they check the stored options, which errors they take
for terminal and which code they report.

The payload of a task is its job id, so the parse of the payload cannot fail here. Metrics and
logs are left out.

Source: `internal/worker/worker.go`, `internal/webhook/deliver.go`, `internal/storage/storage.go`.
-/

namespace OctoConv

open Conc

/-- What a process is configured with, and the pure functions of other packages it calls. -/
structure Env where
  /-- The queue client. -/
  client : Client
  /-- `Registry.Lookup` finds a converter for the two formats. -/
  lookup : String → String → Bool
  /-- The error of the engine's `*OptsFromMap` on the stored options, if it fails. -/
  optsError : Engine → Opts → Option GoError
  /-- `convert.MIMEType` -/
  mimeType : String → String
  audioMaxDuration : Int
  presignTTL : Int
  /-- RECONCILER_QUEUED_STALE_AFTER -/
  queuedStaleAfter : Int
  /-- RECONCILER_ACTIVE_STALE_AFTER -/
  activeStaleAfter : Int
  /-- RECONCILER_MAX_RECOVERIES -/
  maxRecoveries : Int

/-- The configuration of a deployment that sets none of the variables.

Source: `cmd/webhook-worker/main.go`, `cmd/audio-worker/main.go` main -/
def Env.default (lookup : String → String → Bool) (optsError : Engine → Opts → Option GoError)
    (mimeType : String → String) : Env where
  client := Client.default
  lookup := lookup
  optsError := optsError
  mimeType := mimeType
  audioMaxDuration := 240 * minute
  presignTTL := 360 * minute
  queuedStaleAfter := 90 * second
  activeStaleAfter := 15 * minute
  maxRecoveries := 3

namespace Worker

/-- One call to the shared world. -/
def ask (c : Call) : P c.Result := Prog.perform c

/-- One step on the host, with the context that its error is wrapped in. -/
def host (context : String) (step : HostStep) : P (Except GoError Unit) :=
  (ask (.host step)).mapError (·.wrap context)

/-! ## Converting -/

/-- Source: `worker.go` inputKey -/
def inputKey (jobID : UUID) : P (Except GoError Input) :=
  (ask (.inputs jobID)).andThen fun
    | [] => .ret (.error (GoError.new ("job " ++ jobID.text ++ " has no inputs")))
    | input :: _ => .ret (.ok input)

/-- Source: `storage.go` Download, `worker.go` downloadTo -/
def downloadTo (key path : String) : P (Except GoError Unit) :=
  (host ("download " ++ goQuote key) (.getObject key)).andThen fun _ =>
  (host ("stat " ++ goQuote key) (.statObject key)).andThen fun _ =>
  (host ("create " ++ path) (.createFile path)).andThen fun _ =>
  host "write input" (.copyObject key path)

/-- The error of the guard is returned as it is; the one of the converter is wrapped.

Source: `worker.go` enforceAudioGuardBeforeConvert, process -/
def guardedConvert (env : Env) (job : Job) (inPath outPath : String) :
    P (Except GoError Unit) :=
  let convert := host "convert"
    (.convert job.sourceFormat job.targetFormat inPath outPath job.opts)
  if job.engine = .audio then
    (ask (.host (.enforceMaxDuration inPath env.audioMaxDuration))).andThen fun _ => convert
  else convert

/-- Source: `worker.go` uploadFrom, `storage.go` Upload -/
def uploadFrom (key path contentType : String) : P (Except GoError Int) :=
  (host "open output" (.openFile path)).andThen fun _ =>
  ((ask (.statFile path)).mapError (·.wrap "stat output")).andThen fun size =>
  ((ask (.putObject key size contentType)).mapError (·.wrap ("upload " ++ goQuote key))).andThen
    fun _ => .ret (.ok size)

/-- The name of the converted file.

Source: `worker.go` process -/
def outName (job : Job) : String := "out." ++ job.targetFormat

/-- The object key of the converted file.

Source: `worker.go` process -/
def outKey (job : Job) : String := outputKey job.id 0 (outName job)

/-- The row that records the converted file.

Source: `worker.go` process -/
def outputRow (env : Env) (job : Job) (size : Int) : Output where
  ordinal := 0
  objectKey := outKey job
  filename := outName job
  format := job.targetFormat
  sizeBytes := size
  contentType := env.mimeType job.targetFormat

/-- The last steps of an attempt, once the converted file is there. -/
def store (env : Env) (job : Job) (outPath : String) : P (Except GoError Unit) :=
  (uploadFrom (outKey job) outPath (env.mimeType job.targetFormat)).andThen fun size =>
  (ask (.addOutput job.id (outputRow env job size))).andThen fun _ =>
  ask (.write job.id .markDone)

/-- One conversion attempt. The paths are relative to the temporary directory of the attempt.

Source: `worker.go` process -/
def process (env : Env) (job : Job) : P (Except GoError Unit) :=
  (inputKey job.id).andThen fun input =>
  if env.lookup job.sourceFormat job.targetFormat then
    (host "mkdtemp" (.mkdirTemp ("octoconv-" ++ job.id.text ++ "-"))).andThen fun _ =>
    (downloadTo input.objectKey ("in." ++ job.sourceFormat)).andThen fun _ =>
    (guardedConvert env job ("in." ++ job.sourceFormat) (outName job)).andThen fun _ =>
    store env job (outName job)
  else
    .ret (.error (GoError.new
      ("no converter for " ++ job.sourceFormat ++ " -> " ++ job.targetFormat)))

/-! ## The convert handlers -/

/-- What the convert handlers differ in. -/
structure ConvertClass where
  /-- The error of the strict re-parse of the stored options; image has none. -/
  optsError : Opts → Option GoError
  isTerminal : GoError → Bool
  /-- The code and the message of a terminal failure. -/
  failureCode : GoError → String × String

/-- The webhook of a job that has just ended, best effort. -/
def notify (env : Env) (job : Job) (jobID : UUID) : P Unit :=
  if job.callbackURL ≠ "" then do
    let _ ← ask (.enqueue (env.client.webhookTask jobID))
    .ret ()
  else .ret ()

/-- Mark the job failed and, once that is committed, send its webhook; the task is not retried. -/
def giveUp (env : Env) (job : Job) (jobID : UUID) (code message : String) (detail : Detail)
    (err : GoError) : P (Option GoError) := do
  match ← ask (.write jobID (.markFailed code message (some detail))) with
  | .ok () =>
      notify env job jobID
      .ret (some err)
  | .error _ => .ret (some err)

/-- What a handler does with the outcome of `process`. -/
def conclude (env : Env) (cls : ConvertClass) (job : Job) (jobID : UUID) :
    Except GoError Unit → P (Option GoError)
  | .error err =>
      if cls.isTerminal err then
        giveUp env job jobID (cls.failureCode err).1 (cls.failureCode err).2
          [("engine_stderr", err.text)] (GoError.skipRetry err.text)
      else .ret (some err)
  | .ok () => do
      notify env job jobID
      .ret none

/-- The body of the five convert handlers; `none` is a nil error. -/
def handleConvert (env : Env) (cls : ConvertClass) (jobID : UUID) : P (Option GoError) := do
  match ← ask (.get jobID) with
  | .error err => .ret (some (err.wrap ("load job " ++ jobID.text)))
  | .ok job =>
      match cls.optsError job.opts with
      | some err =>
          giveUp env job jobID "invalid_options" "stored conversion options are invalid"
            [("opts_error", err.text)] (GoError.skipRetry ("opts: " ++ err.text))
      | none =>
          match ← ask (.write jobID .markActive) with
          | .error err => .ret (some (GoError.skipRetry ("mark active: " ++ err.text)))
          | .ok () =>
              let r ← process env job
              conclude env cls job jobID r

/-- Source: `worker.go` HandleImageConvert -/
def handleImageConvert (env : Env) (jobID : UUID) : P (Option GoError) :=
  handleConvert env ⟨fun _ => none, isTerminal, engineError⟩ jobID

/-- Source: `worker.go` HandleDocumentConvert -/
def handleDocumentConvert (env : Env) (jobID : UUID) : P (Option GoError) :=
  handleConvert env ⟨env.optsError .document, isDocumentTerminal, engineError⟩ jobID

/-- Source: `worker.go` HandleHTMLConvert -/
def handleHTMLConvert (env : Env) (jobID : UUID) : P (Option GoError) :=
  handleConvert env ⟨env.optsError .html, isHTMLTerminal, engineError⟩ jobID

/-- Source: `worker.go` HandleAudioConvert -/
def handleAudioConvert (env : Env) (jobID : UUID) : P (Option GoError) :=
  handleConvert env ⟨env.optsError .audio, isAudioTerminal, audioFailureCode⟩ jobID

/-- Source: `worker.go` HandleAVConvert -/
def handleAVConvert (env : Env) (jobID : UUID) : P (Option GoError) :=
  handleConvert env ⟨env.optsError .av, isAVTerminal, avFailureCode⟩ jobID

/-! ## The webhook handler -/

/-- POST a body: the status code, 0 if there was no reply, and the error of anything but 2xx.

Source: `deliver.go` Deliver -/
def deliver (url : String) (body : WebhookBody) : P (Int × Option GoError) := do
  match ← ask (.post url body) with
  | .error err => .ret (0, some (err.wrap ("webhook delivery to " ++ goQuote url)))
  | .ok code =>
      if 200 ≤ code ∧ code < 300 then .ret (code, none)
      else .ret (code, some (GoError.new
        ("webhook delivery to " ++ goQuote url ++ ": status " ++ toString code)))

/-- The body of a job's webhook: the download URL of a done job, the error of a failed one.

Source: `worker.go` HandleWebhookDeliver -/
def webhookBody (env : Env) (job : Job) (jobID : UUID) : P (Except GoError WebhookBody) :=
  if job.status = .done then
    ((ask (.outputs job.id)).mapError (·.wrap ("load outputs for job " ++ jobID.text))).andThen
      fun
      | [] => .ret (.error (GoError.new ("job " ++ jobID.text ++ " has no outputs")))
      | out :: _ =>
          ((ask (.presign out.objectKey env.presignTTL)).mapError fun err =>
            (err.wrap ("presign " ++ goQuote out.objectKey)).wrap
              ("presign output for job " ++ jobID.text)).andThen fun url =>
          .ret (.ok ⟨job.id, job.status, some url, none, none⟩)
  else if job.status = .failed then
    .ret (.ok ⟨job.id, job.status, none, job.errorCode.filter (· ≠ ""),
      job.errorMessage.filter (· ≠ "")⟩)
  else .ret (.ok ⟨job.id, job.status, none, none, none⟩)

/-- Record an attempt, given its status code and its error; a last attempt that failed is flagged.

Source: `worker.go` HandleWebhookDeliver -/
def record (job : Job) (jobID : UUID) (retryCount maxRetry : Nat) (sent : Int × Option GoError) :
    P (Option GoError) := do
  let statusCode := if 0 < sent.1 then some sent.1 else none
  let recorded ← ask
    (.recordAttempt jobID job.callbackURL (retryCount + 1) statusCode sent.2.isNone)
  match sent.2 with
  | none => .ret none
  | some err =>
      match recorded with
      | .error _ => .ret (some err)
      | .ok deliveryID =>
          if maxRetry ≤ retryCount then do
            let _ ← ask (.markDeadLetter deliveryID)
            .ret (some err)
          else .ret (some err)

/-- Send the webhook and record the attempt. -/
def attempt (job : Job) (jobID : UUID) (retryCount maxRetry : Nat) (body : WebhookBody) :
    P (Option GoError) := do
  let sent ← deliver job.callbackURL body
  record job jobID retryCount maxRetry sent

/-- One webhook attempt; `retryCount` and `maxRetry` are asynq's, from the context.

Source: `worker.go` HandleWebhookDeliver -/
def handleWebhookDeliver (env : Env) (jobID : UUID) (retryCount maxRetry : Nat) :
    P (Option GoError) := do
  match ← ask (.get jobID) with
  | .error err => .ret (some (err.wrap ("load job " ++ jobID.text)))
  | .ok job =>
      if job.callbackURL = "" then .ret (some (GoError.skipRetry "no callback_url"))
      else
        match ← webhookBody env job jobID with
        | .error err => .ret (some err)
        | .ok body => attempt job jobID retryCount maxRetry body

/-- The handler of a task type, as the workers register it. -/
def handle (env : Env) (i : TaskInfo) : P (Option GoError) :=
  match i.task.typename with
  | .imageConvert => handleImageConvert env i.task.jobID
  | .documentConvert => handleDocumentConvert env i.task.jobID
  | .htmlConvert => handleHTMLConvert env i.task.jobID
  | .audioConvert => handleAudioConvert env i.task.jobID
  | .avConvert => handleAVConvert env i.task.jobID
  | .webhookDeliver => handleWebhookDeliver env i.task.jobID i.retried i.task.maxRetry

/-- The check of the stored options that a convert handler makes. -/
def optsErrorOf (env : Env) : TaskType → Opts → Option GoError
  | .documentConvert => env.optsError .document
  | .htmlConvert => env.optsError .html
  | .audioConvert => env.optsError .audio
  | .avConvert => env.optsError .av
  | _ => fun _ => none

/-- A convert task is handled by `handleConvert`, with the options check of its type. -/
theorem handle_convert (env : Env) {i : TaskInfo} (htype : i.task.typename.isConvert = true) :
    ∃ cls : ConvertClass, cls.optsError = optsErrorOf env i.task.typename ∧
      handle env i = handleConvert env cls i.task.jobID := by
  unfold handle
  rcases hty : i.task.typename
  · exact ⟨_, rfl, rfl⟩
  · rw [hty] at htype
    cases htype
  · exact ⟨_, rfl, rfl⟩
  · exact ⟨_, rfl, rfl⟩
  · exact ⟨_, rfl, rfl⟩
  · exact ⟨_, rfl, rfl⟩

/-! ## What the parts of a handler call -/

variable {Q : Call → Prop} {env : Env} {job : Job} {jobID : UUID}

/-- A single call makes that call. -/
theorem ask_calls {c : Call} (h : Q c) : (ask c).Calls Q := Prog.Calls.perform h

/-- A step of the host is one call. -/
theorem host_calls (hQ : ∀ st, Q (.host st)) (context : String) (st : HostStep) :
    (host context st).Calls Q := (ask_calls (hQ st)).mapError

/-- Looking up the input is one call. -/
theorem inputKey_calls (h : Q (.inputs jobID)) : (inputKey jobID).Calls Q := by
  refine (ask_calls h).andThen fun l => ?_
  cases l <;> trivial

/-- A download is made of steps of the host. -/
theorem downloadTo_calls (hQ : ∀ st, Q (.host st)) (key path : String) :
    (downloadTo key path).Calls Q :=
  (host_calls hQ _ _).andThen fun _ => (host_calls hQ _ _).andThen fun _ =>
    (host_calls hQ _ _).andThen fun _ => host_calls hQ _ _

/-- So is the guarded conversion. -/
theorem guardedConvert_calls (hQ : ∀ st, Q (.host st)) (inPath outPath : String) :
    (guardedConvert env job inPath outPath).Calls Q := by
  unfold guardedConvert
  split
  · exact (ask_calls (hQ _)).andThen fun _ => host_calls hQ _ _
  · exact host_calls hQ _ _

/-- A notification enqueues the webhook. -/
theorem notify_calls (h : Q (.enqueue (env.client.webhookTask jobID))) :
    (notify env job jobID).Calls Q := by
  unfold notify
  split
  · exact (ask_calls h).bind fun _ => trivial
  · trivial

/-- Giving up writes the failure and notifies. -/
theorem giveUp_calls {code message : String} {detail : Detail} {err : GoError}
    (hw : Q (.write jobID (.markFailed code message (some detail))))
    (hn : Q (.enqueue (env.client.webhookTask jobID))) :
    (giveUp env job jobID code message detail err).Calls Q := by
  refine (ask_calls hw).bind fun r => ?_
  cases r with
  | ok _ => exact (notify_calls hn).bind fun _ => trivial
  | error _ => trivial

/-- The end of an attempt does so, or does nothing. -/
theorem conclude_calls {cls : ConvertClass}
    (hw : ∀ code message detail, Q (.write jobID (.markFailed code message (some detail))))
    (hn : Q (.enqueue (env.client.webhookTask jobID))) (r : Except GoError Unit) :
    (conclude env cls job jobID r).Calls Q := by
  cases r with
  | error err =>
      by_cases ht : cls.isTerminal err = true
      · rw [conclude, if_pos ht]
        exact giveUp_calls (hw _ _ _) hn
      · rw [conclude, if_neg ht]
        trivial
  | ok _ => exact (notify_calls hn).bind fun _ => trivial

/-- A delivery is one POST. -/
theorem deliver_calls {url : String} {body : WebhookBody} (h : Q (.post url body)) :
    (deliver url body).Calls Q := by
  refine (ask_calls h).bind fun r => ?_
  cases r with
  | error _ => trivial
  | ok code =>
      show Prog.Calls Q (if 200 ≤ code ∧ code < 300 then _ else _)
      split <;> trivial

/-- Recording an attempt writes its row, and a dead letter at most. -/
theorem record_calls {retryCount maxRetry : Nat} {sent : Int × Option GoError}
    (hrec : ∀ code b, Q (.recordAttempt jobID job.callbackURL (retryCount + 1) code b))
    (hdead : ∀ n, Q (.markDeadLetter n)) :
    (record job jobID retryCount maxRetry sent).Calls Q := by
  obtain ⟨code, derr⟩ := sent
  refine (ask_calls (hrec _ _)).bind fun r => ?_
  rcases derr with _ | err
  · trivial
  · rcases r with _ | n
    · trivial
    · show Prog.Calls Q (if maxRetry ≤ retryCount then _ else _)
      split
      · exact (ask_calls (hdead n)).bind fun _ => trivial
      · trivial

/-- An attempt posts and records. -/
theorem attempt_calls {retryCount maxRetry : Nat} {body : WebhookBody}
    (hpost : Q (.post job.callbackURL body))
    (hrec : ∀ code b, Q (.recordAttempt jobID job.callbackURL (retryCount + 1) code b))
    (hdead : ∀ n, Q (.markDeadLetter n)) :
    (attempt job jobID retryCount maxRetry body).Calls Q :=
  (deliver_calls hpost).bind fun _ => record_calls hrec hdead

/-- The calls of a convert handler. -/
inductive ConvertCall (env : Env) : Call → Prop
  | get (id : UUID) : ConvertCall env (.get id)
  | markActive (id : UUID) : ConvertCall env (.write id .markActive)
  | inputs (id : UUID) : ConvertCall env (.inputs id)
  | host (step : HostStep) : ConvertCall env (.host step)
  | statFile (path : String) : ConvertCall env (.statFile path)
  | putObject (key : String) (size : Int) (contentType : String) :
      ConvertCall env (.putObject key size contentType)
  | addOutput (id : UUID) (out : Output) : ConvertCall env (.addOutput id out)
  | markDone (id : UUID) : ConvertCall env (.write id .markDone)
  | markFailed (id : UUID) (code message : String) (detail : Option Detail) :
      ConvertCall env (.write id (.markFailed code message detail))
  | webhook (id : UUID) : ConvertCall env (.enqueue (env.client.webhookTask id))

/-- Processing makes the calls of a conversion. -/
theorem process_calls (env : Env) (job : Job) : (process env job).Calls (ConvertCall env) := by
  refine (inputKey_calls (.inputs job.id)).andThen fun input => ?_
  split
  · refine (host_calls .host _ _).andThen fun _ => ?_
    refine (downloadTo_calls .host _ _).andThen fun _ => ?_
    refine (guardedConvert_calls .host _ _).andThen fun _ => ?_
    refine Prog.Calls.andThen ?_ fun size => ?_
    · refine (host_calls .host _ _).andThen fun _ => ?_
      refine Prog.Calls.andThen ((ask_calls (.statFile _)).mapError) fun _ => ?_
      exact Prog.Calls.andThen ((ask_calls (.putObject _ _ _)).mapError) fun _ => trivial
    · exact (ask_calls (.addOutput _ _)).andThen fun _ => ask_calls (.markDone _)
  · trivial

/-- **What a convert handler calls.** -/
theorem handleConvert_calls (env : Env) (cls : ConvertClass) (jobID : UUID) :
    (handleConvert env cls jobID).Calls (ConvertCall env) := by
  refine (ask_calls (.get jobID)).bind fun r => ?_
  rcases r with _ | job
  · trivial
  · show Prog.Calls _ (match cls.optsError job.opts with | some err => _ | none => _)
    split
    · exact giveUp_calls (.markFailed _ _ _ _) (.webhook _)
    · refine (ask_calls (.markActive jobID)).bind fun r => ?_
      rcases r with _ | _
      · trivial
      · exact (process_calls env job).bind
          (conclude_calls (fun _ _ _ => .markFailed _ _ _ _) (.webhook _))

/-- The calls of the webhook handler. -/
inductive DeliverCall : Call → Prop
  | get (id : UUID) : DeliverCall (.get id)
  | outputs (id : UUID) : DeliverCall (.outputs id)
  | presign (key : String) (ttl : Int) : DeliverCall (.presign key ttl)
  | post (url : String) (body : WebhookBody) : DeliverCall (.post url body)
  | recordAttempt (id : UUID) (url : String) (attempt : Nat) (code : Option Int) (b : Bool) :
      DeliverCall (.recordAttempt id url attempt code b)
  | markDeadLetter (n : Nat) : DeliverCall (.markDeadLetter n)

/-- The body is made from the outputs and a presigned URL. -/
theorem webhookBody_calls (h : Q (.outputs job.id))
    (hp : ∀ key, Q (.presign key env.presignTTL)) : (webhookBody env job jobID).Calls Q := by
  unfold webhookBody
  split
  · refine Prog.Calls.andThen ((ask_calls h).mapError) fun l => ?_
    rcases l with _ | ⟨out, l⟩
    · trivial
    · exact Prog.Calls.andThen ((ask_calls (hp _)).mapError) fun _ => trivial
  · split <;> trivial

/-- **What the webhook handler calls.** -/
theorem handleWebhookDeliver_calls (env : Env) (jobID : UUID) (retryCount maxRetry : Nat) :
    (handleWebhookDeliver env jobID retryCount maxRetry).Calls DeliverCall := by
  refine (ask_calls (.get jobID)).bind fun r => ?_
  rcases r with _ | job
  · trivial
  · show Prog.Calls _ (if job.callbackURL = "" then _ else _)
    split
    · trivial
    · refine (webhookBody_calls (.outputs _) (.presign · _)).bind fun r => ?_
      rcases r with _ | body
      · trivial
      · exact attempt_calls (.post _ _) (fun _ _ => .recordAttempt _ _ _ _ _) (.markDeadLetter ·)

/-- **What the handler of a task calls.** -/
theorem handle_calls (env : Env) (i : TaskInfo) :
    (handle env i).Calls fun c =>
      if i.task.typename.isConvert = true then ConvertCall env c else DeliverCall c := by
  unfold handle
  rcases htype : i.task.typename <;>
    simp only [TaskType.isConvert, ne_eq, reduceCtorEq, not_false_eq_true, decide_true, if_true,
      not_true_eq_false, decide_false, Bool.false_eq_true, if_false]
  · exact handleConvert_calls _ _ _
  · exact handleWebhookDeliver_calls _ _ _ _
  · exact handleConvert_calls _ _ _
  · exact handleConvert_calls _ _ _
  · exact handleConvert_calls _ _ _
  · exact handleConvert_calls _ _ _

end Worker

end OctoConv
