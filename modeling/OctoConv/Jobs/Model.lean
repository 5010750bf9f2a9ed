import OctoConv.Base.Errors
import OctoConv.Base.Keys
import OctoConv.Base.Time
import OctoConv.Lib.Table

/-!
# The rows of Postgres

The tables that the job pipeline reads and writes: `jobs`, `job_inputs`, `job_outputs`,
`job_events` and `webhook_deliveries`. Columns that no modelled query reads are left out.

Source: `internal/jobs/jobs.go`, `internal/db/migrations/0001_init.sql` and its successors.
-/

namespace OctoConv

/-- A job status (the CHECK constraint of `jobs.status`). -/
inductive Status
  | awaitingUpload | queued | active | done | failed | canceled
deriving DecidableEq, Repr

namespace Status

/-- The text of a status.

Source: `jobs.go` StatusAwaitingUpload … StatusCanceled -/
def text : Status → String
  | awaitingUpload => "awaiting_upload"
  | queued => "queued"
  | active => "active"
  | done => "done"
  | failed => "failed"
  | canceled => "canceled"

/-- The two statuses that a job can end in. -/
def terminal (s : Status) : Bool := s = done || s = failed

/-- A job is finished if it is done or failed. -/
@[simp] theorem terminal_iff {s : Status} : s.terminal = true ↔ s = done ∨ s = failed := by
  simp [terminal]

end Status

/-- An engine class (the CHECK constraint of `jobs.engine`). -/
inductive Engine
  | image | document | html | audio | av | cad | archive | probe
deriving DecidableEq, Repr

/-- A value of `any` as `encoding/json` decodes it. -/
inductive Json
  | null
  | bool (b : Bool)
  | number (n : Rat)
  | string (s : String)
  | array (l : List Json)
  | object (m : List (String × Json))

/-- `map[string]any` -/
abbrev Opts := List (String × Json)

/-- A row of the jobs table. The nullable columns that Create always writes are plain; Get reads
the others through `deref`. -/
structure Job where
  id : UUID
  clientID : UUID
  operation : String
  engine : Engine
  status : Status
  sourceFormat : String
  targetFormat : String
  presetName : Option String
  presetVersion : Option Int
  /-- Empty when the client gave none. -/
  callbackURL : String
  opts : Opts
  attempts : Nat
  errorCode : Option String
  errorMessage : Option String
  createdAt : Int
  startedAt : Option Int
  finishedAt : Option Int

/-- A row of the job_inputs table, without its job id. -/
structure Input where
  ordinal : Int
  objectKey : String
  filename : String
  format : String
  sizeBytes : Int
  contentType : String
deriving DecidableEq, Repr

/-- A row of the job_outputs table, without its job id. -/
structure Output where
  ordinal : Int
  objectKey : String
  filename : String
  format : String
  sizeBytes : Int
  contentType : String
deriving DecidableEq, Repr

/-- The payload of `job_events.detail`: a flat object of strings. -/
abbrev Detail := List (String × String)

/-- A row of the job_events table. -/
structure Event where
  jobID : UUID
  /-- NULL for the event that Create writes. -/
  fromStatus : Option Status
  toStatus : Status
  detail : Option Detail
deriving DecidableEq, Repr

/-- `detail->>'action'` -/
def Event.action (e : Event) : Option String := e.detail.bind (·.lookup "action")

/-- A row of the webhook_deliveries table; its id is its place in the table. -/
structure Delivery where
  jobID : UUID
  url : String
  attempt : Nat
  statusCode : Option Int
  delivered : Bool
  deadLetter : Bool
deriving DecidableEq, Repr

/-- A convert job to create, and its single input.

Source: `repo.go` CreateParams -/
structure CreateParams where
  id : UUID
  clientID : UUID
  operation : String
  engine : Engine
  sourceFormat : String
  targetFormat : String
  callbackURL : String
  opts : Opts
  presetName : String
  presetVersion : Int
  input : Input

/-- What FindStale returns of a job.

Source: `repo.go` StaleJob -/
structure StaleJob where
  id : UUID
  status : Status
  engine : Engine
deriving DecidableEq, Repr

/-- What FindWebhookGaps returns of a job.

Source: `repo.go` WebhookGapJob -/
structure WebhookGapJob where
  id : UUID
  status : Status
deriving DecidableEq, Repr

/-- The database. -/
structure DB where
  jobs : Conc.Table Job Job.id
  inputs : List (UUID × Input)
  outputs : List (UUID × Output)
  /-- The events with their ids, in id order. -/
  events : List (Nat × Event)
  /-- The next id of the identity column of job_events. -/
  eventSeq : Nat
  deliveries : List Delivery

namespace DB

/-- The database after the migrations. -/
def empty : DB := ⟨Conc.Table.empty Job.id, [], [], [], 0, []⟩

/-- The row of a job. -/
def job? (db : DB) (id : UUID) : Option Job := db.jobs.find? id

/-- The events of a job, in id order. -/
def eventsOf (db : DB) (id : UUID) : List Event :=
  (db.events.map Prod.snd).filter (·.jobID = id)

/-- The inputs of a job, in insertion order. -/
def inputsOf (db : DB) (id : UUID) : List Input :=
  (db.inputs.filter (·.1 = id)).map Prod.snd

/-- The outputs of a job, in insertion order. -/
def outputsOf (db : DB) (id : UUID) : List Output :=
  (db.outputs.filter (·.1 = id)).map Prod.snd

/-- The deliveries of a job, in insertion order. -/
def deliveriesOf (db : DB) (id : UUID) : List Delivery := db.deliveries.filter (·.jobID = id)

end DB

end OctoConv
