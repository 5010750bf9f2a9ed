import OctoConv.Jobs.Repo
import OctoConv.Lib.Program
import OctoConv.Queue.Asynq

/-!
# The world that the processes share

Postgres, Redis, the object store, the clients' webhook endpoints and the clock. A `Call` is
anything a process asks of them (or of its own host: temporary files and the conversion engines);
each call is one atomic step. An `Obs` says how the outside world behaves during the call: whether
it fails before or after taking effect, in which order an unordered query returns its rows, what
the remote endpoint replies.

## Main results

* `exec_changes` — what one call can do to the world.
* `exec_ok` — a call that answers without an error has had its effect.
* `Changes.grows` — whatever is called, jobs stay and keep what they were created with, finished
  jobs do not change, and outputs, deliveries, objects and posts are only added.
-/

namespace OctoConv

open Conc

/-- The body of a webhook.

Source: `internal/worker/worker.go` HandleWebhookDeliver -/
structure WebhookBody where
  jobID : UUID
  status : Status
  downloadURL : Option String
  errorCode : Option String
  errorMessage : Option String
deriving DecidableEq, Repr

/-- A POST to a webhook endpoint, and the status that the sender got back. -/
structure Post where
  url : String
  body : WebhookBody
  reply : Option Int
deriving DecidableEq, Repr

/-- What the processes share. -/
structure World where
  now : Int
  db : DB
  asynq : Asynq
  /-- The keys that have been uploaded. -/
  objects : List String
  /-- The POSTs sent to webhook endpoints, oldest first. -/
  posts : List Post

/-- Nothing has happened yet. -/
def World.init (now : Int) : World := ⟨now, DB.empty, Asynq.empty, [], []⟩

/-- A step on the worker's own host. -/
inductive HostStep
  /-- `os.MkdirTemp` -/
  | mkdirTemp (pattern : String)
  /-- `minio.GetObject` -/
  | getObject (key : String)
  /-- `Object.Stat` -/
  | statObject (key : String)
  /-- `os.Create` -/
  | createFile (path : String)
  /-- `io.Copy` of the object into the file. -/
  | copyObject (key path : String)
  /-- `convert.EnforceMaxDuration` under its own short deadline. -/
  | enforceMaxDuration (path : String) (maxDuration : Int)
  /-- `Converter.Convert` of the converter for these two formats. -/
  | convert (source target inPath outPath : String) (opts : Opts)
  /-- `os.Open` -/
  | openFile (path : String)

/-- A call to something that the processes share, or to the host. -/
inductive Call
  | create (p : CreateParams)
  | get (id : UUID)
  | inputs (id : UUID)
  | outputs (id : UUID)
  /-- MarkActive, MarkDone, MarkFailed, RequeueStale. -/
  | write (id : UUID) (w : Write)
  | addOutput (id : UUID) (o : Output)
  | recoveryCount (id : UUID)
  | findStale (queuedStaleAfter activeStaleAfter : Int)
  | findWebhookGaps (activeStaleAfter : Int)
  | recordWebhookGapRecovered (id : UUID) (status : Status)
  | recordAttempt (id : UUID) (url : String) (attempt : Nat) (statusCode : Option Int)
      (delivered : Bool)
  | markDeadLetter (deliveryID : Nat)
  /-- `asynq.Client.EnqueueContext` -/
  | enqueue (t : Task)
  /-- `minio.PutObject` -/
  | putObject (key : String) (size : Int) (contentType : String)
  /-- `minio.PresignedGetObject` -/
  | presign (key : String) (ttl : Int)
  /-- `http.Client.Do` of a webhook -/
  | post (url : String) (body : WebhookBody)
  | host (step : HostStep)
  /-- `os.File.Stat`, for the size. -/
  | statFile (path : String)

/-- What a call answers when it succeeds. -/
abbrev Call.Answer : Call → Type
  | .create _ => UUID
  | .get _ => Job
  | .inputs _ => List Input
  | .outputs _ => List Output
  | .recoveryCount _ => Nat
  | .findStale _ _ => List StaleJob
  | .findWebhookGaps _ => List WebhookGapJob
  | .recordAttempt .. => Nat
  | .presign _ _ => String
  | .post _ _ => Int
  | .statFile _ => Int
  | _ => Unit

/-- What a call answers. -/
abbrev Call.Result (c : Call) : Type := Except GoError c.Answer

/-- How a call may fail. -/
inductive Fault
  | none
  /-- It fails and has no effect. -/
  | aborted (err : GoError)
  /-- It takes effect, but its caller is told that it failed. -/
  | lost (err : GoError)
deriving DecidableEq, Repr

/-- The behaviour of the outside world during one call. -/
structure Obs where
  fault : Fault := .none
  /-- What `uuid.New()` and `PresignedGetObject` return. -/
  newID : UUID := 0
  url : String := ""
  /-- The order in which a query without ORDER BY returns its rows, by job. -/
  order : List UUID := []
  /-- The HTTP status that a webhook endpoint replies. -/
  code : Int := 200
  /-- The size of a file. -/
  size : Int := 0

/-- The rows of an unordered query: in the given order if that is an order of them, else in table
order. -/
def arrange {α : Type} [DecidableEq α] (order : List UUID) (key : α → UUID) (rows : List α) :
    List α :=
  let arranged := order.filterMap fun id => rows.find? fun r => key r = id
  if arranged.Perm rows then arranged else rows

/-- An arrangement has the rows that were there. -/
theorem mem_arrange {α : Type} [DecidableEq α] {order : List UUID} {key : α → UUID}
    {rows : List α} {r : α} : r ∈ arrange order key rows ↔ r ∈ rows := by
  simp only [arrange]
  split
  · rename_i h
    exact h.mem_iff
  · rfl

/-- The effect of a call that reaches its destination. -/
def Call.effect (o : Obs) (w : World) : (c : Call) → c.Result × World
  | .create p =>
      let (r, db) := w.db.create w.now o.newID p
      (r, { w with db := db })
  | .get id => (w.db.get id, w)
  | .inputs id => (.ok (w.db.inputsByOrdinal id), w)
  | .outputs id => (.ok (w.db.outputsByOrdinal id), w)
  | .write id wr =>
      let (r, db) := w.db.transition w.now id wr.transition
      (r, { w with db := db })
  | .addOutput id out => (.ok (), { w with db := w.db.addOutput id out })
  | .recoveryCount id => (.ok (w.db.recoveryCount id), w)
  | .findStale q a => (.ok (arrange o.order StaleJob.id (w.db.findStale w.now q a)), w)
  | .findWebhookGaps a =>
      (.ok (arrange o.order WebhookGapJob.id (w.db.findWebhookGaps w.now a)), w)
  | .recordWebhookGapRecovered id status =>
      (.ok (), { w with db := w.db.recordWebhookGapRecovered id status })
  | .recordAttempt id url attempt code delivered =>
      let (n, db) := w.db.recordAttempt id url attempt code delivered
      (.ok n, { w with db := db })
  | .markDeadLetter n => (.ok (), { w with db := w.db.markDeadLetter n })
  | .enqueue t =>
      match w.asynq.enqueue w.now t with
      | .error err => (.error err, w)
      | .ok a => (.ok (), { w with asynq := a })
  | .putObject key _ _ => (.ok (), { w with objects := w.objects ++ [key] })
  | .presign _ _ => (.ok o.url, w)
  | .post url body => (.ok o.code, { w with posts := w.posts ++ [⟨url, body, some o.code⟩] })
  | .host _ => (.ok (), w)
  | .statFile _ => (.ok o.size, w)

/-- The world after a call that failed without effect. A POST without a reply was still sent. -/
def Call.aborted (w : World) : Call → World
  | .post url body => { w with posts := w.posts ++ [⟨url, body, none⟩] }
  | _ => w

/-- The world after a call that took effect and whose answer was lost. -/
def Call.lost (o : Obs) (w : World) : Call → World
  | .post url body => { w with posts := w.posts ++ [⟨url, body, none⟩] }
  | c => (c.effect o w).2

/-- One call. -/
def Call.exec (c : Call) (o : Obs) (w : World) : c.Result × World :=
  match o.fault with
  | .none => c.effect o w
  | .aborted err => (.error err, c.aborted w)
  | .lost err => (.error err, c.lost o w)

/-- The shared world as a machine. -/
def machine : Machine Call Call.Result Obs World := ⟨Call.exec⟩

/-- A program of one of the processes. -/
abbrev P (α : Type) : Type := Prog Call Call.Result α

/-! ## What a call can do -/

/-- What a call can do to the world. -/
inductive Changes (w : World) : Call → World → Prop
  | nothing (c : Call) : Changes w c w
  | create {p : CreateParams} {newID : UUID} {jobs : Table Job Job.id}
      (h : w.db.jobs.insert? (DB.newJob w.now (DB.jobIDOf newID p) p) = some jobs) :
      Changes w (.create p)
        { w with db := (w.db.withJob jobs (DB.jobIDOf newID p) p.input).addEvent
                    ⟨DB.jobIDOf newID p, none, .queued, none⟩ }
  | write {id : UUID} {wr : Write} {j : Job} (hj : w.db.job? id = some j)
      (ha : j.status ∈ wr.transition.allowedFrom) :
      Changes w (.write id wr)
        { w with db := (w.db.update id (wr.transition.apply w.now)
                    (wr.transition.apply_id w.now)).addEvent
                    ⟨id, some j.status, wr.transition.toStatus, wr.transition.detail⟩ }
  | addOutput (id : UUID) (out : Output) :
      Changes w (.addOutput id out) { w with db := w.db.addOutput id out }
  | gap (id : UUID) (status : Status) :
      Changes w (.recordWebhookGapRecovered id status)
        { w with db := w.db.recordWebhookGapRecovered id status }
  | recordAttempt (id : UUID) (url : String) (attempt : Nat) (code : Option Int)
      (delivered : Bool) :
      Changes w (.recordAttempt id url attempt code delivered)
        { w with db := (w.db.recordAttempt id url attempt code delivered).2 }
  | markDeadLetter (n : Nat) :
      Changes w (.markDeadLetter n) { w with db := w.db.markDeadLetter n }
  | enqueue {t : Task} {a : Asynq} (h : w.asynq.enqueue w.now t = .ok a) :
      Changes w (.enqueue t) { w with asynq := a }
  | putObject (key : String) (size : Int) (contentType : String) :
      Changes w (.putObject key size contentType) { w with objects := w.objects ++ [key] }
  | post (url : String) (body : WebhookBody) (reply : Option Int) :
      Changes w (.post url body) { w with posts := w.posts ++ [⟨url, body, reply⟩] }

variable {w w' : World} {o : Obs}

/-- The effect of a status change: it is rejected, or it changes the row and leaves an event. -/
theorem effect_write (id : UUID) (wr : Write) (o : Obs) (w : World) :
    ((∃ err, (Call.write id wr).effect o w = (.error err, w)) ∧
      ∀ j, w.db.job? id = some j → j.status ∉ wr.transition.allowedFrom) ∨
    ∃ j, w.db.job? id = some j ∧ j.status ∈ wr.transition.allowedFrom ∧
      (Call.write id wr).effect o w = (.ok (),
        { w with db := (w.db.update id (wr.transition.apply w.now)
                    (wr.transition.apply_id w.now)).addEvent
                    ⟨id, some j.status, wr.transition.toStatus, wr.transition.detail⟩ }) := by
  simp only [Call.effect]
  rcases h : w.db.transition w.now id wr.transition with ⟨r, db⟩
  rcases DB.transition_cases h with ⟨⟨err, rfl⟩, rfl, hnot⟩ | ⟨rfl, j, hj, ha, rfl⟩
  · exact .inl ⟨⟨err, rfl⟩, hnot⟩
  · exact .inr ⟨j, hj, ha, rfl⟩

/-- What a call changes when it has its effect. -/
theorem effect_changes (c : Call) (o : Obs) (w : World) : Changes w c (c.effect o w).2 := by
  cases c with
  | create p =>
      simp only [Call.effect, DB.create]
      rcases h : w.db.jobs.insert? (DB.newJob w.now (DB.jobIDOf o.newID p) p) with _ | jobs
      · exact .nothing _
      · exact .create h
  | write id wr =>
      rcases effect_write id wr o w with ⟨⟨err, heff⟩, -⟩ | ⟨j, hj, ha, heff⟩
      · rw [heff]
        exact .nothing _
      · rw [heff]
        exact .write hj ha
  | addOutput id out => exact .addOutput id out
  | recordWebhookGapRecovered id status => exact .gap id status
  | recordAttempt id url attempt code delivered => exact .recordAttempt id url attempt code delivered
  | markDeadLetter n => exact .markDeadLetter n
  | enqueue t =>
      simp only [Call.effect]
      rcases h : w.asynq.enqueue w.now t with err | a
      · exact .nothing _
      · exact .enqueue h
  | putObject key size contentType => exact .putObject key size contentType
  | post url body => exact .post url body _
  | get => exact .nothing _
  | inputs => exact .nothing _
  | outputs => exact .nothing _
  | recoveryCount => exact .nothing _
  | findStale => exact .nothing _
  | findWebhookGaps => exact .nothing _
  | presign => exact .nothing _
  | host => exact .nothing _
  | statFile => exact .nothing _

/-- **What one call can do to the world**, however the outside world behaves. -/
theorem exec_changes (c : Call) (o : Obs) (w : World) : Changes w c (c.exec o w).2 := by
  unfold Call.exec
  split
  · exact effect_changes c o w
  · show Changes w c (c.aborted w)
    cases c with
    | post url body => exact .post url body none
    | _ => exact .nothing _
  · show Changes w c (c.lost o w)
    cases c with
    | post url body => exact .post url body none
    | _ => exact effect_changes _ o w

/-- A call that answers without an error has had its effect. -/
theorem exec_ok {c : Call} {a : c.Answer} (h : (c.exec o w).1 = .ok a) :
    c.exec o w = c.effect o w := by
  unfold Call.exec at h ⊢
  split at h
  · rfl
  · cases h
  · cases h

/-- Get answers with the row. -/
theorem exec_get_ok {id : UUID} {j : Job} (h : ((Call.get id).exec o w).1 = .ok j) :
    w.db.job? id = some j := by
  rw [exec_ok h] at h
  exact DB.get_ok_iff.mp h

/-- A call leaves the clock alone. -/
theorem Changes.now {c : Call} (h : Changes w c w') : w'.now = w.now := by
  cases h <;> rfl

/-- Only an accepted enqueue changes the tasks. -/
theorem Changes.asynq {c : Call} (h : Changes w c w') :
    w'.asynq = w.asynq ∨ ∃ t, c = .enqueue t ∧ w.asynq.enqueue w.now t = .ok w'.asynq := by
  cases h with
  | enqueue h => exact .inr ⟨_, rfl, h⟩
  | nothing => exact .inl rfl
  | create => exact .inl rfl
  | write => exact .inl rfl
  | addOutput => exact .inl rfl
  | gap => exact .inl rfl
  | recordAttempt => exact .inl rfl
  | markDeadLetter => exact .inl rfl
  | putObject => exact .inl rfl
  | post => exact .inl rfl

/-- A call never changes a task that is there. -/
theorem Changes.task {c : Call} (h : Changes w c w') {k : Nat} {i : TaskInfo}
    (hi : w.asynq.tasks[k]? = some i) : w'.asynq.tasks[k]? = some i := by
  rcases h.asynq with heq | ⟨t, -, hen⟩
  · rw [heq, hi]
  · rw [(Asynq.enqueue_ok hen).2.2.1, List.getElem?_append_left (List.getElem?_eq_some_iff.mp hi).1,
      hi]

/-! ## What never changes -/

/-- `j'` is a later state of the job `j`. -/
structure Job.Later (j j' : Job) : Prop where
  id : j'.id = j.id
  clientID : j'.clientID = j.clientID
  engine : j'.engine = j.engine
  targetFormat : j'.targetFormat = j.targetFormat
  callbackURL : j'.callbackURL = j.callbackURL
  finished : j.status.terminal = true → j' = j

/-- A job is no earlier than itself. -/
theorem Job.Later.refl (j : Job) : j.Later j := ⟨rfl, rfl, rfl, rfl, rfl, fun _ => rfl⟩

/-- What is later than something later is later. -/
theorem Job.Later.trans {j j' j'' : Job} (h : j.Later j') (h' : j'.Later j'') : j.Later j'' :=
  ⟨h'.id.trans h.id, h'.clientID.trans h.clientID, h'.engine.trans h.engine,
    h'.targetFormat.trans h.targetFormat, h'.callbackURL.trans h.callbackURL, fun ht => by
      obtain rfl := h.finished ht
      exact h'.finished ht⟩

/-- An allowed status change makes a later state of the job. -/
theorem Write.later (wr : Write) (now : Int) {j : Job}
    (h : j.status ∈ wr.transition.allowedFrom) : j.Later (wr.transition.apply now j) := by
  have hnot := Write.not_terminal h
  cases wr <;> exact ⟨rfl, rfl, rfl, rfl, rfl, fun ht => absurd ht (by rw [hnot]; simp)⟩

/-- What every thread may rely on. -/
structure World.Grows (w w' : World) : Prop where
  job : ∀ id j, w.db.job? id = some j → ∃ j', w'.db.job? id = some j' ∧ j.Later j'
  outputs : ∀ id, w.db.outputsOf id ⊆ w'.db.outputsOf id
  objects : w.objects ⊆ w'.objects
  deliveries : ∀ d ∈ w.db.deliveries, ∃ d' ∈ w'.db.deliveries, d'.jobID = d.jobID ∧
    d'.delivered = d.delivered
  posts : w.posts ⊆ w'.posts

/-- The world has grown into itself. -/
theorem World.Grows.refl (w : World) : w.Grows w :=
  ⟨fun _ j h => ⟨j, h, .refl j⟩, fun _ => List.Subset.refl _, List.Subset.refl _,
    fun d h => ⟨d, h, rfl, rfl⟩, List.Subset.refl _⟩

/-- And twice. -/
theorem World.Grows.trans {w₁ w₂ w₃ : World} (h : w₁.Grows w₂) (h' : w₂.Grows w₃) :
    w₁.Grows w₃ := by
  refine ⟨fun id j hj => ?_, fun id => List.Subset.trans (h.outputs id) (h'.outputs id),
    List.Subset.trans h.objects h'.objects, fun d hd => ?_, List.Subset.trans h.posts h'.posts⟩
  · obtain ⟨j₂, hj₂, hl⟩ := h.job id j hj
    obtain ⟨j₃, hj₃, hl'⟩ := h'.job id j₂ hj₂
    exact ⟨j₃, hj₃, hl.trans hl'⟩
  · obtain ⟨d₂, hd₂, hid, hdel⟩ := h.deliveries d hd
    obtain ⟨d₃, hd₃, hid', hdel'⟩ := h'.deliveries d₂ hd₂
    exact ⟨d₃, hd₃, hid'.trans hid, hdel'.trans hdel⟩

/-- The clock and the tasks are not part of it. -/
theorem World.Grows.frame {w : World} (now : Int) (a : Asynq) :
    w.Grows { w with now := now, asynq := a } :=
  ⟨fun _ j h => ⟨j, h, .refl j⟩, fun _ => List.Subset.refl _, List.Subset.refl _,
    fun d h => ⟨d, h, rfl, rfl⟩, List.Subset.refl _⟩

/-- The row of a job after a call that changes the row of `id`. -/
theorem job?_write {db : DB} {id : UUID} {j : Job} (hj : db.job? id = some j) (wr : Write)
    (now : Int) (e : Event) (id' : UUID) :
    ((db.update id (wr.transition.apply now) (wr.transition.apply_id now)).addEvent e).job? id' =
      if id' = id then some (wr.transition.apply now j) else db.job? id' := by
  by_cases h : id' = id
  · subst h
    rw [DB.job?_transition hj, if_pos rfl]
  · rw [DB.job?_addEvent, DB.job?_update_ne h, if_neg h]

/-- The outputs of a job are its rows. -/
theorem mem_outputsOf {db : DB} {id : UUID} {out : Output} :
    out ∈ db.outputsOf id ↔ (id, out) ∈ db.outputs := by
  simp only [DB.outputsOf, List.mem_map, List.mem_filter, decide_eq_true_eq]
  constructor
  · rintro ⟨⟨id', out'⟩, ⟨h, rfl⟩, rfl⟩
    exact h
  · exact fun h => ⟨(id, out), ⟨h, rfl⟩, rfl⟩

/-- **Whatever is called, the world grows.** -/
theorem Changes.grows {c : Call} (h : Changes w c w') : w.Grows w' := by
  cases h with
  | nothing => exact .refl w
  | @create p newID jobs h =>
      refine ⟨fun id j hj => ⟨j, ?_, .refl j⟩, fun _ => List.Subset.refl _, List.Subset.refl _,
        fun d hd => ⟨d, hd, rfl, rfl⟩, List.Subset.refl _⟩
      show (w.db.withJob jobs (DB.jobIDOf newID p) p.input).job? id = some j
      rw [DB.job?_withJob h]
      have hne : id ≠ (DB.newJob w.now (DB.jobIDOf newID p) p).id := by
        intro hid
        have hfree := Table.insert?_isSome.mp (Option.isSome_of_eq_some h)
        rw [← hid] at hfree
        exact absurd (hfree.symm.trans hj) nofun
      rw [if_neg hne, hj]
  | @write id wr j hj ha =>
      refine ⟨fun id' j' hj' => ?_, fun _ => List.Subset.refl _, List.Subset.refl _,
        fun d hd => ⟨d, hd, rfl, rfl⟩, List.Subset.refl _⟩
      show ∃ j'', ((w.db.update id (wr.transition.apply w.now)
        (wr.transition.apply_id w.now)).addEvent _).job? id' = some j'' ∧ j'.Later j''
      rw [job?_write hj wr]
      by_cases hid : id' = id
      · subst hid
        obtain rfl := Option.some.inj (hj.symm.trans hj')
        exact ⟨_, if_pos rfl, wr.later w.now ha⟩
      · exact ⟨j', by rw [if_neg hid, hj'], .refl j'⟩
  | addOutput id out =>
      refine ⟨fun id j hj => ⟨j, hj, .refl j⟩, fun id' o ho => ?_, List.Subset.refl _,
        fun d hd => ⟨d, hd, rfl, rfl⟩, List.Subset.refl _⟩
      rw [mem_outputsOf] at ho ⊢
      exact List.mem_append_left _ ho
  | gap => exact ⟨fun id j hj => ⟨j, hj, .refl j⟩, fun _ => List.Subset.refl _,
      List.Subset.refl _, fun d hd => ⟨d, hd, rfl, rfl⟩, List.Subset.refl _⟩
  | recordAttempt =>
      exact ⟨fun id j hj => ⟨j, hj, .refl j⟩, fun _ => List.Subset.refl _, List.Subset.refl _,
        fun d hd => ⟨d, List.mem_append_left _ hd, rfl, rfl⟩, List.Subset.refl _⟩
  | markDeadLetter n =>
      refine ⟨fun id j hj => ⟨j, hj, .refl j⟩, fun _ => List.Subset.refl _, List.Subset.refl _,
        fun d hd => ?_, List.Subset.refl _⟩
      obtain ⟨i, hi, rfl⟩ := List.getElem_of_mem hd
      refine ⟨_, List.getElem_mem (l := (w.db.markDeadLetter n).deliveries) (n := i)
        (by simpa [DB.markDeadLetter] using hi), ?_⟩
      simp only [DB.markDeadLetter, List.getElem_modify]
      split <;> exact ⟨rfl, rfl⟩
  | enqueue => exact .frame _ _
  | putObject key =>
      exact ⟨fun id j hj => ⟨j, hj, .refl j⟩, fun _ => List.Subset.refl _,
        List.subset_append_left _ _, fun d hd => ⟨d, hd, rfl, rfl⟩, List.Subset.refl _⟩
  | post =>
      exact ⟨fun id j hj => ⟨j, hj, .refl j⟩, fun _ => List.Subset.refl _, List.Subset.refl _,
        fun d hd => ⟨d, hd, rfl, rfl⟩, List.subset_append_left _ _⟩

end OctoConv
