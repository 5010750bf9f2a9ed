import OctoConv.Jobs.Lifecycle

/-!
# The jobs repository

Each method of `jobs.Repo` is one transaction (or one statement) of Postgres. Here a method is the
function from the database that the transaction sees to its answer and the database it commits;
`Jobs.Transactions` splits the transactions into their statements.

The four status changes share `transition`. A `Transition` is what one of them passes to it.

Source: `internal/jobs/repo.go`, `internal/webhook/repo.go`.

## Main results

* `transition_cases` — what a transition can do: reject an unknown job or a status that is not
  allowed, or change the row and append the event.
* `Write.rowStep` — each of the four transitions is a move of the life of a job.
* `mem_findStale`, `mem_findWebhookGaps` — which jobs the two scans return.
-/

namespace OctoConv

open Conc Lifecycle

/-- The error of a job that does not exist.

Source: `repo.go` ErrNotFound -/
def errNotFound : GoError := ⟨"job not found", [.notFound]⟩

/-! ## Status changes -/

/-- The arguments of `transition`, with its UPDATE statement at the transaction's `now()`. -/
structure Transition where
  /-- The status that the event records. -/
  toStatus : Status
  /-- The statuses that the job may be in. -/
  allowedFrom : List Status
  /-- The payload of the event. -/
  detail : Option Detail
  /-- The UPDATE of the row. -/
  apply : Int → Job → Job
  /-- An UPDATE does not touch the primary key. -/
  apply_id : ∀ now j, (apply now j).id = j.id

/-- Source: `repo.go` MarkActive -/
def markActive : Transition where
  toStatus := .active
  allowedFrom := [.queued, .active]
  detail := none
  apply now j := { j with status := .active, startedAt := j.startedAt.or (some now),
                          attempts := j.attempts + 1 }
  apply_id _ _ := rfl

/-- Source: `repo.go` MarkDone -/
def markDone : Transition where
  toStatus := .done
  allowedFrom := [.active]
  detail := none
  apply now j := { j with status := .done, finishedAt := some now }
  apply_id _ _ := rfl

/-- Source: `repo.go` MarkFailed -/
def markFailed (code message : String) (detail : Option Detail) : Transition where
  toStatus := .failed
  allowedFrom := [.queued, .active]
  detail := detail
  apply now j := { j with status := .failed, finishedAt := some now, errorCode := some code,
                          errorMessage := some message }
  apply_id _ _ := rfl

/-- Source: `repo.go` RequeueStale -/
def requeueStale (reason : String) : Transition where
  toStatus := .queued
  allowedFrom := [.queued, .active]
  detail := some [("action", detailActionRecovery), ("reason", reason)]
  apply _ j := { j with status := .queued }
  apply_id _ _ := rfl

/-- A status change as its caller asks for it. -/
inductive Write
  | markActive
  | markDone
  | markFailed (code message : String) (detail : Option Detail)
  | requeueStale (reason : String)
deriving DecidableEq, Repr

/-- What the method passes to `transition`. -/
def Write.transition : Write → Transition
  | .markActive => OctoConv.markActive
  | .markDone => OctoConv.markDone
  | .markFailed code message detail => OctoConv.markFailed code message detail
  | .requeueStale reason => OctoConv.requeueStale reason

/-- Whether the change is a recovery. -/
def Write.isRequeue : Write → Bool
  | .requeueStale _ => true
  | _ => false

/-- The detail of a failure does not carry the recovery tag, as in every caller of MarkFailed. -/
def Write.Tagged : Write → Prop
  | .markFailed _ _ detail => (detail.bind (·.lookup "action")) ≠ some detailActionRecovery
  | _ => True

instance (w : Write) : Decidable w.Tagged := by
  cases w <;> unfold Write.Tagged <;> infer_instance

/-- The UPDATE of a method leaves the job in the status that its event records. -/
theorem Write.apply_status (w : Write) (now : Int) (j : Job) :
    (w.transition.apply now j).status = w.transition.toStatus := by
  cases w <;> rfl

/-- An allowed status change is a row step of the life of the job. -/
theorem Write.rowStep (w : Write) (now : Int) {j : Job}
    (h : j.status ∈ w.transition.allowedFrom) : RowStep j (w.transition.apply now j) := by
  cases w with
  | markActive => exact .activate j now (by simpa [transition, OctoConv.markActive] using h)
  | markDone => exact .finish j now (by simpa [transition, OctoConv.markDone] using h)
  | markFailed code message detail =>
      exact .fail j now code message (by simpa [transition, OctoConv.markFailed] using h)
  | requeueStale reason =>
      exact .requeue j (by simpa [transition, OctoConv.requeueStale] using h)

/-- A status change is allowed only for a job that is not finished. -/
theorem Write.not_terminal {w : Write} {st : Status} (h : st ∈ w.transition.allowedFrom) :
    st.terminal = false := by
  have hst : st = .queued ∨ st = .active := by
    cases w <;> simp [transition, OctoConv.markActive, OctoConv.markDone, OctoConv.markFailed,
      OctoConv.requeueStale] at h <;> simp [h]
  rcases hst with rfl | rfl <;> rfl

/-- The event of a status change carries the recovery tag iff it is a recovery. -/
theorem Write.action_iff (w : Write) (hw : w.Tagged) (id : UUID) (s : Option Status) :
    Event.action ⟨id, s, w.transition.toStatus, w.transition.detail⟩ = some detailActionRecovery ↔
      w.isRequeue = true := by
  cases w with
  | markActive => simp [Event.action, transition, OctoConv.markActive, isRequeue]
  | markDone => simp [Event.action, transition, OctoConv.markDone, isRequeue]
  | markFailed code message detail =>
      exact ⟨fun h => absurd h hw, fun h => Bool.noConfusion h⟩
  | requeueStale reason =>
      exact ⟨fun _ => rfl, fun _ => rfl⟩

/-- The error of a status that is not allowed. -/
def illegalTransition (source target : Status) (id : UUID) : GoError :=
  GoError.new ("illegal transition " ++ source.text ++ " -> " ++ target.text ++ " for job " ++ id.text)

namespace DB

/-- What the tables say of a job. -/
def view (db : DB) (id : UUID) : View := ⟨db.job? id, db.eventsOf id⟩

/-- INSERT INTO job_events: the next id of the sequence. -/
def addEvent (db : DB) (e : Event) : DB :=
  { db with events := db.events ++ [(db.eventSeq, e)], eventSeq := db.eventSeq + 1 }

/-- INSERT INTO jobs and job_inputs. -/
def withJob (db : DB) (jobs : Table Job Job.id) (jobID : UUID) (input : Input) : DB :=
  { db with jobs := jobs, inputs := db.inputs ++ [(jobID, input)] }

/-- UPDATE jobs … WHERE id. -/
def update (db : DB) (id : UUID) (f : Job → Job) (hf : ∀ j, (f j).id = j.id) : DB :=
  { db with jobs := db.jobs.modify id f hf }

/-- The guarded status change and the event, in one transaction.

Source: `repo.go` transition -/
def transition (now : Int) (id : UUID) (t : Transition) (db : DB) : Except GoError Unit × DB :=
  match db.job? id with
  | none => (.error errNotFound, db)
  | some j =>
      if j.status ∈ t.allowedFrom then
        (.ok (), (db.update id (t.apply now) (t.apply_id now)).addEvent
          ⟨id, some j.status, t.toStatus, t.detail⟩)
      else (.error (illegalTransition j.status t.toStatus id), db)

/-! ## The other methods -/

/-- The row that Create inserts. -/
def newJob (now : Int) (jobID : UUID) (p : CreateParams) : Job where
  id := jobID
  clientID := p.clientID
  operation := p.operation
  engine := p.engine
  status := .queued
  sourceFormat := p.sourceFormat
  targetFormat := p.targetFormat
  presetName := if p.presetName ≠ "" then some p.presetName else none
  presetVersion := if p.presetName ≠ "" then some p.presetVersion else none
  callbackURL := p.callbackURL
  opts := p.opts
  attempts := 0
  errorCode := none
  errorMessage := none
  createdAt := now
  startedAt := none
  finishedAt := none

/-- The id of the job that Create inserts; `newID` is what `uuid.New()` returns if the caller passes
no id. -/
def jobIDOf (newID : UUID) (p : CreateParams) : UUID := if p.id = 0 then newID else p.id

/-- A key that is taken violates the primary key.

Source: `repo.go` Create -/
def create (now : Int) (newID : UUID) (p : CreateParams) (db : DB) : Except GoError UUID × DB :=
  let jobID := jobIDOf newID p
  match db.jobs.insert? (newJob now jobID p) with
  | none => (.error (GoError.new "insert job: duplicate key value violates unique constraint"), db)
  | some jobs =>
      (.ok jobID, (db.withJob jobs jobID p.input).addEvent ⟨jobID, none, .queued, none⟩)

/-- Source: `repo.go` Get -/
def get (id : UUID) (db : DB) : Except GoError Job :=
  match db.job? id with
  | none => .error errNotFound
  | some j => .ok j

/-- `ORDER BY ordinal`; rows with equal ordinals may come in any order, and do so in insertion
order here.

Source: `repo.go` Inputs -/
def inputsByOrdinal (id : UUID) (db : DB) : List Input :=
  (db.inputsOf id).mergeSort fun a b => a.ordinal ≤ b.ordinal

/-- Source: `repo.go` Outputs -/
def outputsByOrdinal (id : UUID) (db : DB) : List Output :=
  (db.outputsOf id).mergeSort fun a b => a.ordinal ≤ b.ordinal

/-- Source: `repo.go` AddOutput -/
def addOutput (id : UUID) (o : Output) (db : DB) : DB :=
  { db with outputs := db.outputs ++ [(id, o)] }

/-- Source: `repo.go` RecoveryCount -/
def recoveryCount (id : UUID) (db : DB) : Nat := recoveries (db.eventsOf id)

/-- `now - d > t` for a nullable column. -/
def olderThan (now : Int) (d : Int) : Option Int → Bool
  | none => false
  | some t => t < now - d

/-- Source: `repo.go` FindStale -/
def findStale (now : Int) (queuedStaleAfter activeStaleAfter : Int) (db : DB) :
    List StaleJob :=
  (db.jobs.rows.filter fun j =>
    (j.status = .queued && olderThan now queuedStaleAfter (some j.createdAt)) ||
    (j.status = .active && olderThan now activeStaleAfter j.startedAt)).map
    fun j => ⟨j.id, j.status, j.engine⟩

/-- Source: `repo.go` FindWebhookGaps -/
def findWebhookGaps (now : Int) (activeStaleAfter : Int) (db : DB) : List WebhookGapJob :=
  (db.jobs.rows.filter fun j =>
    j.status.terminal && j.callbackURL ≠ "" && olderThan now activeStaleAfter j.finishedAt &&
    (db.deliveriesOf j.id).isEmpty).map fun j => ⟨j.id, j.status⟩

/-- The event that a recovered webhook gap leaves. -/
def gapEvent (id : UUID) (status : Status) : Event :=
  ⟨id, some status, status, some [("action", "webhook_gap_recovered")]⟩

/-- Source: `repo.go` RecordWebhookGapRecovered -/
def recordWebhookGapRecovered (id : UUID) (status : Status) (db : DB) : DB :=
  db.addEvent (gapEvent id status)

/-- The answer is the id of the new row.

Source: `webhook/repo.go` RecordAttempt -/
def recordAttempt (id : UUID) (url : String) (attempt : Nat) (statusCode : Option Int)
    (delivered : Bool) (db : DB) : Nat × DB :=
  (db.deliveries.length,
    { db with deliveries := db.deliveries ++ [⟨id, url, attempt, statusCode, delivered, false⟩] })

/-- Source: `webhook/repo.go` MarkDeadLetter -/
def markDeadLetter (deliveryID : Nat) (db : DB) : DB :=
  { db with deliveries := db.deliveries.modify deliveryID fun d => { d with deadLetter := true } }

/-! ## What the methods do -/

variable {db db' : DB} {id id' : UUID} {now : Int} {j : Job}

/-- What a transition can do. -/
theorem transition_cases {t : Transition} {r : Except GoError Unit}
    (h : db.transition now id t = (r, db')) :
    ((∃ e, r = .error e) ∧ db' = db ∧ ∀ j, db.job? id = some j → j.status ∉ t.allowedFrom) ∨
    (r = .ok () ∧ ∃ j, db.job? id = some j ∧ j.status ∈ t.allowedFrom ∧
      db' = (db.update id (t.apply now) (t.apply_id now)).addEvent
        ⟨id, some j.status, t.toStatus, t.detail⟩) := by
  unfold transition at h
  rcases hj : db.job? id with _ | j
  · rw [hj] at h
    obtain ⟨rfl, rfl⟩ := Prod.mk.inj h
    exact .inl ⟨⟨_, rfl⟩, rfl, fun j hj => nomatch hj⟩
  · simp only [hj] at h
    split at h
    · rename_i ha
      obtain ⟨rfl, rfl⟩ := Prod.mk.inj h
      exact .inr ⟨rfl, j, rfl, ha, rfl⟩
    · rename_i ha
      obtain ⟨rfl, rfl⟩ := Prod.mk.inj h
      exact .inl ⟨⟨_, rfl⟩, rfl, fun j' hj' => Option.some.inj hj' ▸ ha⟩

/-- A row is found under its own id. -/
theorem job?_id (h : db.job? id = some j) : j.id = id := Table.key_of_find? h

/-- Get answers with the row. -/
theorem get_ok_iff : db.get id = .ok j ↔ db.job? id = some j := by
  unfold get
  rcases db.job? id with _ | j' <;> simp

/-- The rows are those that are found. -/
theorem mem_jobs_iff : j ∈ db.jobs.rows ↔ db.job? j.id = some j := Table.mem_rows_iff

/-- An event changes no row. -/
@[simp] theorem job?_addEvent (e : Event) : (db.addEvent e).job? id = db.job? id := rfl

/-- The row that is updated. -/
@[simp] theorem job?_update_self {f : Job → Job} {hf : ∀ j, (f j).id = j.id} :
    (db.update id f hf).job? id = (db.job? id).map f :=
  Table.find?_modify_self hf

/-- The others stay as they are. -/
theorem job?_update_ne {f : Job → Job} {hf : ∀ j, (f j).id = j.id} (h : id' ≠ id) :
    (db.update id f hf).job? id' = db.job? id' :=
  Table.find?_modify_ne hf h

/-- The row of the job after a transition that went through. -/
theorem job?_transition {t : Transition} {j : Job} (hj : db.job? id = some j) (e : Event) :
    ((db.update id (t.apply now) (t.apply_id now)).addEvent e).job? id = some (t.apply now j) := by
  rw [job?_addEvent, job?_update_self, hj, Option.map_some]

/-- A new job has no events. -/
@[simp] theorem eventsOf_withJob {jobs : Table Job Job.id} {jobID : UUID} {input : Input} :
    (db.withJob jobs jobID input).eventsOf id = db.eventsOf id := rfl

/-- A new job is found, and the others as before. -/
theorem job?_withJob {jobs : Table Job Job.id} {jobID : UUID} {input : Input} {j : Job}
    (h : db.jobs.insert? j = some jobs) :
    (db.withJob jobs jobID input).job? id = if id = j.id then some j else db.job? id :=
  Table.find?_insert? h id

/-- An update changes no events. -/
@[simp] theorem eventsOf_update {f : Job → Job} {hf : ∀ j, (f j).id = j.id} :
    (db.update id f hf).eventsOf id' = db.eventsOf id' := rfl

/-- An event is the last of its job. -/
theorem eventsOf_addEvent_self {e : Event} (h : e.jobID = id) :
    (db.addEvent e).eventsOf id = db.eventsOf id ++ [e] := by
  simp [eventsOf, addEvent, h]

/-- And none of another. -/
theorem eventsOf_addEvent_ne {e : Event} (h : e.jobID ≠ id) :
    (db.addEvent e).eventsOf id = db.eventsOf id := by
  simp [eventsOf, addEvent, h]

/-- A job has ordered outputs iff it has outputs. -/
theorem outputsByOrdinal_eq_nil : db.outputsByOrdinal id = [] ↔ db.outputsOf id = [] := by
  rw [← List.length_eq_zero_iff, ← List.length_eq_zero_iff, outputsByOrdinal,
    List.length_mergeSort]

/-- A job of the first scan is in the table, unfinished. -/
theorem mem_findStale {q a : Int} {g : StaleJob} (h : g ∈ db.findStale now q a) :
    ∃ j, db.job? g.id = some j ∧ j.status = g.status ∧ j.engine = g.engine ∧
      (j.status = .queued ∨ j.status = .active) := by
  obtain ⟨j, hj, rfl⟩ := List.mem_map.mp h
  obtain ⟨hrow, hcond⟩ := List.mem_filter.mp hj
  refine ⟨j, mem_jobs_iff.mp hrow, rfl, rfl, ?_⟩
  simp only [Bool.or_eq_true, Bool.and_eq_true, decide_eq_true_eq] at hcond
  exact hcond.imp And.left And.left

/-- A job of the second scan is in the table, finished, and its webhook was never tried. -/
theorem mem_findWebhookGaps {a : Int} {g : WebhookGapJob}
    (h : g ∈ db.findWebhookGaps now a) :
    ∃ j, db.job? g.id = some j ∧ j.status = g.status ∧ j.status.terminal = true ∧
      j.callbackURL ≠ "" ∧ db.deliveriesOf g.id = [] := by
  obtain ⟨j, hj, rfl⟩ := List.mem_map.mp h
  obtain ⟨hrow, hcond⟩ := List.mem_filter.mp hj
  simp only [Bool.and_eq_true, decide_eq_true_eq, List.isEmpty_iff] at hcond
  exact ⟨j, mem_jobs_iff.mp hrow, rfl, hcond.1.1.1, by simpa using hcond.1.1.2, hcond.2⟩

end DB

end OctoConv
