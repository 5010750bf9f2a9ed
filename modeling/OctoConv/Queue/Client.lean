import OctoConv.Jobs.Model
import Mathlib.Algebra.Group.Int.Defs
import Mathlib.Algebra.Group.Nat.Defs

/-!
# Tasks and the queue client

The task that each enqueue method of `queue.Client` builds: its type, its queue, its payload (only
the job id), its retry budget and the lifetime of its unique lock. That lifetime is derived from
the retry budget, the bound of one attempt and the backoff schedule of the engine class; the five
engine classes share the shape of the derivation. Their lifetimes are whole numbers without a bound
here; the lifetime of webhook tasks is cut to 64 bits, like every `time.Duration`.

Source: `internal/queue/queue.go`, `internal/queue/client.go`.

## Main results

* `Client.convertTask_jobID`, `Client.convertTask_isConvert` — what the task of an engine class carries.
-/

namespace OctoConv

/-- A task type. -/
inductive TaskType
  | imageConvert | webhookDeliver | documentConvert | htmlConvert | audioConvert | avConvert
deriving DecidableEq, Repr

/-- The type carries a conversion. -/
def TaskType.isConvert (t : TaskType) : Bool := t ≠ .webhookDeliver

/-- A queue. -/
inductive QueueName
  | image | webhook | document | html | audio | av
deriving DecidableEq, Repr

/-- A task as it is enqueued. -/
structure Task where
  typename : TaskType
  /-- The payload. -/
  jobID : UUID
  queue : QueueName
  /-- `asynq.MaxRetry`, which counts a negative budget as 0. -/
  maxRetry : Nat
  /-- `asynq.Unique` -/
  uniqueTTL : Int
deriving DecidableEq, Repr

/-! ## Retry schedules and lock lifetimes -/

/-- The delay before retry `n`: the schedule, clamped at both ends. -/
def retryDelay (schedule : List Int) (n : Int) : Int :=
  schedule.getD (min n.toNat (schedule.length - 1)) 0

/-- The total backoff of `maxRetry` retries. -/
def backoffSum (schedule : List Int) (maxRetry : Int) : Int :=
  (List.range maxRetry.toNat).foldl (fun sum i => sum + retryDelay schedule (Int.ofNat i)) 0

/-- Source: `queue.go` uniqueTTLSafetyMargin -/
def uniqueTTLSafetyMargin : Int := 2 * minute

/-- The lifetime of a unique lock: every attempt at its bound, every backoff, and a margin. -/
def uniqueTTL (schedule : List Int) (maxRetry : Int) (engineTimeout : Int) : Int :=
  (maxRetry + 1) * engineTimeout + backoffSum schedule maxRetry + uniqueTTLSafetyMargin

/-- Source: `queue.go` imageRetrySchedule -/
def imageRetrySchedule : List Int := [2 * second, 5 * second, 15 * second]

/-- Source: `queue.go` documentRetrySchedule -/
def documentRetrySchedule : List Int := [5 * second, 15 * second, 30 * second]

/-- Source: `queue.go` htmlRetrySchedule -/
def htmlRetrySchedule : List Int := [5 * second, 15 * second, 30 * second]

/-- Source: `queue.go` audioRetrySchedule -/
def audioRetrySchedule : List Int := [5 * second, 15 * second, 30 * second]

/-- Source: `queue.go` avRetrySchedule -/
def avRetrySchedule : List Int := [30 * second, 2 * minute]

/-- Source: `queue.go` webhookRetrySchedule -/
def webhookRetrySchedule : List Int :=
  [30 * second, 1 * minute, 2 * minute, 4 * minute, 8 * minute, 15 * minute]

/-- Source: `queue.go` ImageUniqueTTL -/
def imageUniqueTTL (maxRetry : Int) (engineTimeout : Int) : Int :=
  uniqueTTL imageRetrySchedule maxRetry engineTimeout

/-- Source: `queue.go` DocumentUniqueTTL -/
def documentUniqueTTL (maxRetry : Int) (engineTimeout : Int) : Int :=
  uniqueTTL documentRetrySchedule maxRetry engineTimeout

/-- Source: `queue.go` HTMLUniqueTTL -/
def htmlUniqueTTL (maxRetry : Int) (engineTimeout : Int) : Int :=
  uniqueTTL htmlRetrySchedule maxRetry engineTimeout

/-- Source: `queue.go` AudioUniqueTTL -/
def audioUniqueTTL (maxRetry : Int) (engineTimeout : Int) : Int :=
  uniqueTTL audioRetrySchedule maxRetry engineTimeout

/-- Source: `queue.go` AVUniqueTTL -/
def avUniqueTTL (maxRetry : Int) (engineTimeout : Int) : Int :=
  uniqueTTL avRetrySchedule maxRetry engineTimeout

/-- Source: `queue.go` webhookMaxRetry -/
def webhookMaxRetry : Int := 6

/-- Source: `queue.go` webhookPerAttemptTimeout -/
def webhookPerAttemptTimeout : Int := 10 * second

/-- A delay of the webhook schedule with the largest jitter, 25%, in whole nanoseconds.

Source: `queue.go` webhookJitterCeiling -/
def webhookJitterCeiling (d : Int) : Int := d * 5 / 4

/-- The largest backoff of `maxRetry` retries of a webhook; the sum is a `time.Duration`, which wraps
around at 64 bits.

Source: `queue.go` webhookBackoffSum -/
def webhookBackoffSum (maxRetry : Int) : Int :=
  (List.range maxRetry.toNat).foldl (fun sum i =>
    let idx := if i ≥ webhookRetrySchedule.length then webhookRetrySchedule.length - 1 else i
    (sum + webhookJitterCeiling (webhookRetrySchedule.getD idx 0)).bmod (2 ^ 64)) 0

/-- Each operation is one on 64 bits.

Source: `queue.go` WebhookUniqueTTL -/
def webhookUniqueTTL (maxRetry : Int) (perAttemptTimeout : Int) : Int :=
  let attempts := ((maxRetry + 1).bmod (2 ^ 64) * perAttemptTimeout).bmod (2 ^ 64)
  ((attempts + webhookBackoffSum maxRetry).bmod (2 ^ 64) + uniqueTTLSafetyMargin).bmod (2 ^ 64)

example : imageUniqueTTL 4 (120 * second) = 757 * second := by decide

/-! ## The client -/

/-- The configuration of a client.

Source: `client.go` Client -/
structure Client where
  imageMaxRetry : Int
  imageUniqueTTL : Int
  webhookUniqueTTL : Int
  documentMaxRetry : Int
  documentUniqueTTL : Int
  htmlMaxRetry : Int
  htmlUniqueTTL : Int
  audioMaxRetry : Int
  audioUniqueTTL : Int
  avMaxRetry : Int
  avUniqueTTL : Int
deriving DecidableEq, Repr

/-- The client of a process whose environment sets none of the variables.

Source: `client.go` NewClient -/
def Client.default : Client where
  imageMaxRetry := 4
  imageUniqueTTL := OctoConv.imageUniqueTTL 4 (120 * second)
  webhookUniqueTTL := OctoConv.webhookUniqueTTL webhookMaxRetry webhookPerAttemptTimeout
  documentMaxRetry := 3
  documentUniqueTTL := OctoConv.documentUniqueTTL 3 (300 * second)
  htmlMaxRetry := 3
  htmlUniqueTTL := OctoConv.htmlUniqueTTL 3 (60 * second)
  audioMaxRetry := 3
  audioUniqueTTL := OctoConv.audioUniqueTTL 3 (600 * second)
  avMaxRetry := 2
  avUniqueTTL := OctoConv.avUniqueTTL 2 (600 * second)

/-- Source: `queue.go` NewImageConvertTask -/
def newImageConvertTask (jobID : UUID) (maxRetry : Int) (uniqueTTL : Int) : Task :=
  ⟨.imageConvert, jobID, .image, maxRetry.toNat, uniqueTTL⟩

/-- Source: `queue.go` NewDocumentConvertTask -/
def newDocumentConvertTask (jobID : UUID) (maxRetry : Int) (uniqueTTL : Int) : Task :=
  ⟨.documentConvert, jobID, .document, maxRetry.toNat, uniqueTTL⟩

/-- Source: `queue.go` NewHTMLConvertTask -/
def newHTMLConvertTask (jobID : UUID) (maxRetry : Int) (uniqueTTL : Int) : Task :=
  ⟨.htmlConvert, jobID, .html, maxRetry.toNat, uniqueTTL⟩

/-- Source: `queue.go` NewAudioConvertTask -/
def newAudioConvertTask (jobID : UUID) (maxRetry : Int) (uniqueTTL : Int) : Task :=
  ⟨.audioConvert, jobID, .audio, maxRetry.toNat, uniqueTTL⟩

/-- Source: `queue.go` NewAVConvertTask -/
def newAVConvertTask (jobID : UUID) (maxRetry : Int) (uniqueTTL : Int) : Task :=
  ⟨.avConvert, jobID, .av, maxRetry.toNat, uniqueTTL⟩

/-- Source: `queue.go` NewWebhookDeliverTask -/
def newWebhookDeliverTask (jobID : UUID) (uniqueTTL : Int) : Task :=
  ⟨.webhookDeliver, jobID, .webhook, webhookMaxRetry.toNat, uniqueTTL⟩

/-- The convert task of an engine class: the switch of the API and of the sweeper, whose default
branch is `none`.

Source: `internal/api/handlers.go` handleCreateJob, `internal/reconciler/reconciler.go` sweep,
`client.go` EnqueueImageConvert … EnqueueAVConvert -/
def Client.convertTask (c : Client) (engine : Engine) (jobID : UUID) : Option Task :=
  match engine with
  | .image => some (newImageConvertTask jobID c.imageMaxRetry c.imageUniqueTTL)
  | .document => some (newDocumentConvertTask jobID c.documentMaxRetry c.documentUniqueTTL)
  | .html => some (newHTMLConvertTask jobID c.htmlMaxRetry c.htmlUniqueTTL)
  | .audio => some (newAudioConvertTask jobID c.audioMaxRetry c.audioUniqueTTL)
  | .av => some (newAVConvertTask jobID c.avMaxRetry c.avUniqueTTL)
  | .cad | .archive | .probe => none

/-- The webhook task of a job.

Source: `client.go` EnqueueWebhookDeliver -/
def Client.webhookTask (c : Client) (jobID : UUID) : Task :=
  newWebhookDeliverTask jobID c.webhookUniqueTTL

variable {c : Client} {engine : Engine} {jobID : UUID} {t : Task}

/-- The task of a job is about that job. -/
theorem Client.convertTask_jobID (h : c.convertTask engine jobID = some t) : t.jobID = jobID := by
  cases engine <;> cases h <;> rfl

/-- It is a conversion. -/
theorem Client.convertTask_isConvert (h : c.convertTask engine jobID = some t) :
    t.typename.isConvert = true := by
  cases engine <;> cases h <;> rfl

end OctoConv
