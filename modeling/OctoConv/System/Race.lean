import OctoConv.System.Model

/-!
# A recovery and the worker that it wakes

The sweep enqueues a stale job first and requeues its row second. Nothing keeps a worker from taking
the task in between, and RequeueStale accepts an active job, so the row may be set back under the
worker's hands. A `Race` is the recovery of one job and the handler of the task that it enqueues, one
call at a time in any order, with no call failing.

Source: `internal/reconciler/reconciler.go` sweep, `internal/worker/worker.go` process.

## Main results

* `handleConvert_follows` — what a convert handler does if nothing fails.
* `recovered_done_iff` — the handler ends with the job done, and the job stays active until then,
  exactly if no RequeueStale runs between its MarkActive and its MarkDone.
* `recovered_not_done` — a race in which one does.
-/

namespace OctoConv.Reconciler

open Conc Worker

/-! ## The race -/

/-- The recovery of a job, and the handler of the task that it has enqueued, once asynq has delivered
it. -/
structure Race where
  world : World
  sweep : P Unit
  handler : Option (P (Option GoError))
  /-- The handler has called MarkActive. -/
  began : Bool
  /-- The handler has called MarkDone. -/
  ended : Bool

/-- What happens next; a call is observed like this. -/
inductive Move
  | tick (d : Nat)
  | sweep (o : Obs)
  /-- asynq delivers the task. -/
  | deliver
  | handler (o : Obs)

namespace Race

/-- The recovery is about to begin. -/
def init (env : Env) (j : StaleJob) (w : World) : Race := ⟨w, recover env j, none, false, false⟩

/-- The call is a MarkActive. -/
def isMarkActive : Call → Bool
  | .write _ .markActive => true
  | _ => false

/-- The call is a MarkDone. -/
def isMarkDone : Call → Bool
  | .write _ .markDone => true
  | _ => false

/-- One move; `n` is the number of the task that the recovery enqueues. No call fails. -/
def step (env : Env) (n : Nat) (x : Race) : Move → Option Race
  | .tick d => some { x with world := { x.world with now := x.world.now + d } }
  | .sweep o =>
      match x.sweep with
      | .call c k =>
          if o.fault = .none then
            some { x with world := (c.exec o x.world).2, sweep := k (c.exec o x.world).1 }
          else none
      | .ret _ => none
  | .deliver =>
      match x.handler, x.world.asynq.tasks[n]? with
      | none, some i =>
          if i.state = .pending then
            some { x with
              world := { x.world with
                asynq := x.world.asynq.modify n fun i => { i with state := .active } }
              handler := some (handle env i) }
          else none
      | _, _ => none
  | .handler o =>
      match x.handler with
      | some (.call c k) =>
          if o.fault = .none then
            some { x with
              world := (c.exec o x.world).2
              handler := some (k (c.exec o x.world).1)
              began := x.began || isMarkActive c
              ended := x.ended || isMarkDone c }
          else none
      | _ => none

/-- The handler is between its MarkActive and its MarkDone. -/
def Between (x : Race) : Prop := x.began = true ∧ x.ended = false

instance (x : Race) : Decidable x.Between := by
  unfold Between
  infer_instance

/-- The status of the job. -/
def status (x : Race) (id : UUID) : Option Status := (x.world.db.job? id).map Job.status

/-- The job is active while the handler is between its MarkActive and its MarkDone. -/
def KeepsActive (x : Race) (id : UUID) : Prop := x.Between → x.status id = some .active

/-- The move is a RequeueStale of the job. -/
def Requeues (x : Race) (id : UUID) : Move → Prop
  | .sweep _ => match x.sweep with
    | .call (.write id' (.requeueStale _)) _ => id' = id
    | _ => False
  | _ => False

instance (x : Race) (id : UUID) (m : Move) : Decidable (x.Requeues id m) := by
  unfold Requeues
  split
  · split <;> infer_instance
  · infer_instance

/-- What the handler has returned. -/
def returned (x : Race) : Option (Option GoError) :=
  match x.handler with
  | some (.ret err) => some err
  | _ => none

/-- The sweep requeues where it is about to write so. -/
theorem requeues_sweep {x : Race} {id : UUID} {o : Obs} :
    x.Requeues id (.sweep o) ↔ ∃ reason k, x.sweep = .call (.write id (.requeueStale reason)) k := by
  constructor
  · intro h
    simp only [Requeues] at h
    split at h
    · rename_i hsweep
      subst h
      exact ⟨_, _, hsweep⟩
    · exact h.elim
  · rintro ⟨reason, k, hsweep⟩
    simp only [Requeues, hsweep]

/-- A handler that has returned is at its end. -/
theorem handler_of_returned {x : Race} {err : Option GoError} (h : x.returned = some err) :
    x.handler = some (.ret err) := by
  unfold returned at h
  split at h
  · rename_i hx
    rw [hx, Option.some.inj h]
  · cases h

end Race

/-- Nothing about the job itself keeps a worker from converting it: its engine has a queue, its
options are valid, its formats have a converter, and it has an input. -/
structure Convertible (env : Env) (engine : Engine) (w : World) (job : Job) : Prop where
  opts : ∃ t, env.client.convertTask engine job.id = some t ∧
    optsErrorOf env t.typename job.opts = none
  lookup : env.lookup job.sourceFormat job.targetFormat = true
  inputs : w.db.inputsByOrdinal job.id ≠ []

/-! ## What a convert handler does if nothing fails -/

/-- How far a convert handler is. -/
inductive Phase
  | fresh
  /-- It has loaded the job. -/
  | loaded
  /-- It has marked the job active. -/
  | converting
  /-- It has marked the job done. -/
  | finished
  /-- Some call has not answered as it should. -/
  | failed
deriving DecidableEq, Repr

/-- The calls of `process` before MarkDone. -/
inductive Quiet (id : UUID) : Call → Prop
  | inputs : Quiet id (.inputs id)
  | host (st : HostStep) : Quiet id (.host st)
  | statFile (path : String) : Quiet id (.statFile path)
  | putObject (key : String) (size : Int) (contentType : String) :
      Quiet id (.putObject key size contentType)
  | addOutput (out : Output) : Quiet id (.addOutput id out)

/-- The steps of a convert handler of the job. -/
def convertMonitor (env : Env) (optsError : Opts → Option GoError) (id : UUID) :
    Monitor Call Call.Result Phase where
  Allows
    | .fresh, c => c = .get id
    | .loaded, c => c = .write id .markActive
    | .converting, c => Quiet id c ∨ c = .write id .markDone
    | .finished, c => ∃ t, c = .enqueue t
    | .failed, _ => True
  next
    | .fresh, .get _, .ok job =>
        if job.id = id ∧ optsError job.opts = none ∧
            env.lookup job.sourceFormat job.targetFormat = true then .loaded else .failed
    | .loaded, .write _ .markActive, .ok _ => .converting
    | .converting, .inputs _, .ok (_ :: _) => .converting
    | .converting, .host _, .ok _ => .converting
    | .converting, .statFile _, .ok _ => .converting
    | .converting, .putObject .., .ok _ => .converting
    | .converting, .addOutput .., .ok _ => .converting
    | .converting, .write _ .markDone, .ok _ => .finished
    | .finished, _, _ => .finished
    | _, _, _ => .failed

/-- A handler returns nil once the job is done; if nothing fails it does not return before. -/
def Returned (err : Option GoError) : Phase → Prop
  | .finished => err = none
  | .failed => True
  | _ => False

variable {env : Env} {optsError : Opts → Option GoError} {id : UUID} {α β : Type}

/-- After a failure everything is allowed. -/
theorem follows_failed {Q : α → Phase → Prop} (hQ : ∀ a, Q a .failed) (p : P α) :
    Follows (convertMonitor env optsError id) Q p .failed := by
  induction p with
  | ret a => exact hQ a
  | call c k ih => exact ⟨trivial, fun r => ih r⟩

/-- A part of `process` before MarkDone: it has a result unless something fails. -/
def Goes : Except GoError α → Phase → Prop
  | .ok _, g => g = .converting
  | .error _, g => g = .failed

/-- What a result of the whole of `process` says: the job is done unless something failed. -/
def Ended : Except GoError Unit → Phase → Prop
  | .ok _, g => g = .finished ∨ g = .failed
  | .error _, g => g = .failed

/-- A quiet call of the conversion goes on. -/
theorem ask_goes {c : Call} (hc : Quiet id c) (hans : ∀ x, c ≠ .inputs x) :
    Follows (convertMonitor env optsError id) Goes (ask c) .converting := by
  refine ⟨.inl hc, fun r => ?_⟩
  rcases r with err | a
  · cases hc <;> rfl
  · cases hc with
    | inputs => exact absurd rfl (hans id)
    | host => rfl
    | statFile => rfl
    | putObject => rfl
    | addOutput => rfl

/-- A changed error goes on. -/
theorem mapError_goes {f : GoError → GoError} {p : P (Except GoError α)}
    (hp : Follows (convertMonitor env optsError id) Goes p .converting) :
    Follows (convertMonitor env optsError id) Goes (p.mapError f) .converting := by
  refine hp.bind_of fun r g hg => ?_
  rcases r with err | a
  · exact hg
  · exact hg

/-- Go on if nothing has failed. -/
theorem andThen_of {p : P (Except GoError α)} {f : α → P (Except GoError β)}
    {Q : Except GoError β → Phase → Prop}
    (hp : Follows (convertMonitor env optsError id) Goes p .converting)
    (hQ : ∀ err, Q (.error err) .failed)
    (hf : ∀ a, Follows (convertMonitor env optsError id) Q (f a) .converting) :
    Follows (convertMonitor env optsError id) Q (p.andThen f) .converting := by
  refine hp.bind_of fun r g hg => ?_
  rcases r with err | a
  · obtain rfl : g = .failed := hg
    exact hQ err
  · obtain rfl : g = .converting := hg
    exact hf a

/-- A call of the host goes on. -/
theorem host_goes (context : String) (st : HostStep) :
    Follows (convertMonitor env optsError id) Goes (host context st) .converting :=
  mapError_goes (ask_goes (.host st) nofun)

/-- A download goes on. -/
theorem downloadTo_goes (key path : String) :
    Follows (convertMonitor env optsError id) Goes (downloadTo key path) .converting := by
  have herr : ∀ err, Goes (.error err : Except GoError Unit) .failed := fun _ => rfl
  refine andThen_of (host_goes _ _) herr fun _ => ?_
  refine andThen_of (host_goes _ _) herr fun _ => ?_
  exact andThen_of (host_goes _ _) herr fun _ => host_goes _ _

/-- The guarded conversion goes on. -/
theorem guardedConvert_goes (job : Job) (inPath outPath : String) :
    Follows (convertMonitor env optsError id) Goes (guardedConvert env job inPath outPath)
      .converting := by
  unfold guardedConvert
  split
  · exact andThen_of (ask_goes (.host _) nofun) (fun _ => rfl) fun _ => host_goes _ _
  · exact host_goes _ _

/-- An upload goes on. -/
theorem uploadFrom_goes (key path contentType : String) :
    Follows (convertMonitor env optsError id) Goes (uploadFrom key path contentType)
      .converting := by
  have herr : ∀ err, Goes (.error err : Except GoError Int) .failed := fun _ => rfl
  refine andThen_of (host_goes _ _) herr fun _ => ?_
  refine andThen_of (mapError_goes (ask_goes (.statFile _) nofun)) herr fun size => ?_
  exact andThen_of (mapError_goes (ask_goes (.putObject _ _ _) nofun)) herr fun _ => rfl

/-- **`process` ends with its MarkDone** unless something fails. -/
theorem process_follows {job : Job} (hid : job.id = id)
    (hlookup : env.lookup job.sourceFormat job.targetFormat = true) :
    Follows (convertMonitor env optsError id) Ended (process env job) .converting := by
  have herr : ∀ err, Ended (.error err) .failed := fun _ => rfl
  have hinput : Follows (convertMonitor env optsError id) Goes (Worker.inputKey job.id)
      .converting := by
    subst hid
    refine ⟨.inl .inputs, fun r => ?_⟩
    rcases r with _ | ⟨_ | ⟨input, rest⟩⟩
    · rfl
    · rfl
    · rfl
  refine andThen_of hinput herr fun input => ?_
  rw [if_pos hlookup]
  refine andThen_of (host_goes _ _) herr fun _ => ?_
  refine andThen_of (downloadTo_goes _ _) herr fun _ => ?_
  refine andThen_of (guardedConvert_goes _ _ _) herr fun _ => ?_
  refine andThen_of (uploadFrom_goes _ _ _) herr fun size => ?_
  subst hid
  refine andThen_of (ask_goes (.addOutput _) nofun) herr fun _ => ⟨.inr rfl, fun r => ?_⟩
  rcases r with err | _
  · rfl
  · exact .inl rfl

/-- **A convert handler** loads the job, marks it active, converts it and marks it done, and then
returns nil, unless something fails. -/
theorem handleConvert_follows (env : Env) (cls : ConvertClass) (id : UUID) :
    Follows (convertMonitor env cls.optsError id) Returned (handleConvert env cls id) .fresh := by
  have hfailed : ∀ p : P (Option GoError),
      Follows (convertMonitor env cls.optsError id) Returned p .failed :=
    fun p => follows_failed (fun _ => trivial) p
  refine ⟨rfl, fun r => ?_⟩
  rcases r with err | job
  · exact hfailed _
  · show Follows _ _ _ (if job.id = id ∧ cls.optsError job.opts = none ∧
      env.lookup job.sourceFormat job.targetFormat = true then Phase.loaded else .failed)
    split
    · rename_i hjob
      obtain ⟨hid, hopts, hlookup⟩ := hjob
      simp only [Prog.bind, hopts]
      refine ⟨rfl, fun r => ?_⟩
      rcases r with err | _
      · exact hfailed _
      · refine (process_follows hid hlookup).bind_of fun r g hg => ?_
        rcases r with err | _
        · obtain rfl : g = .failed := hg
          exact hfailed _
        · rcases hg with rfl | rfl
          · show Follows _ _ (notify env job id >>= fun _ => .ret none) _
            unfold notify
            split
            · exact ⟨⟨_, rfl⟩, fun _ => rfl⟩
            · exact rfl
          · exact hfailed _
    · exact hfailed _

/-! ## The invariant of the race -/

/-- How far the handler is fits the status of the job. -/
def PhaseOk : Phase → Status → Bool → Bool → Prop
  | .fresh, st, began, ended => (st = .queued ∨ st = .active) ∧ began = false ∧ ended = false
  | .loaded, st, began, ended => (st = .queued ∨ st = .active) ∧ began = false ∧ ended = false
  | .converting, st, began, ended => st = .active ∧ began = true ∧ ended = false
  | .finished, st, _, ended => st = .done ∧ ended = true
  | .failed, _, _, _ => False

/-- The row of the job, with the handler that far. -/
structure RowOk (env : Env) (task : Task) (g : Phase) (began ended : Bool) (db : DB) (job : Job) :
    Prop where
  row : db.job? task.jobID = some job
  opts : optsErrorOf env task.typename job.opts = none
  lookup : env.lookup job.sourceFormat job.targetFormat = true
  inputs : db.inputsByOrdinal task.jobID ≠ []
  phase : PhaseOk g job.status began ended

/-- The task with number `n`, once there is one, is the recovery's. -/
structure TasksOk (task : Task) (n : Nat) (delivered : Prop) (tasks : List TaskInfo) : Prop where
  length : n ≤ tasks.length
  queued : ∀ i, tasks[n]? = some i → i.task = task
  delivered : delivered → n < tasks.length

/-- What holds throughout a race in which no RequeueStale comes in between. -/
structure RaceOk (env : Env) (task : Task) (n : Nat) (x : Race) : Prop where
  sweep : x.sweep.Calls fun c => c = .enqueue task ∨
    ∃ reason, c = .write task.jobID (.requeueStale reason)
  tasks : TasksOk task n (x.handler ≠ none) x.world.asynq.tasks
  handler : ∃ g job, RowOk env task g x.began x.ended x.world.db job ∧
    (x.handler = none → g = .fresh) ∧
    ∀ p, x.handler = some p →
      Follows (convertMonitor env (optsErrorOf env task.typename) task.jobID) Returned p g

variable {task : Task} {n : Nat} {x x' : Race} {g : Phase} {began ended : Bool} {db : DB} {job : Job}
  {w : World} {o : Obs}

/-- The job is active while the handler is between its MarkActive and its MarkDone. -/
theorem RaceOk.keepsActive (h : RaceOk env task n x) : x.KeepsActive task.jobID := by
  rintro ⟨hbegan, hended⟩
  obtain ⟨g, job, hrow, -, -⟩ := h.handler
  have hphase := hrow.phase
  rw [hbegan, hended] at hphase
  rw [Race.status, hrow.row, Option.map_some]
  rcases g
  · exact absurd hphase.2.1 (by simp)
  · exact absurd hphase.2.1 (by simp)
  · rw [hphase.1]
  · exact absurd hphase.2 (by simp)
  · exact hphase.elim

/-- A RequeueStale that is not in between leaves the phase fitting. -/
theorem RowOk.requeue (h : RowOk env task g began ended w.db job)
    (hbetween : ¬ (began = true ∧ ended = false)) (reason : String) (o : Obs) :
    ∃ job', RowOk env task g began ended
      ((Call.write task.jobID (.requeueStale reason)).effect o w).2.db job' := by
  rcases effect_write task.jobID (.requeueStale reason) o w with ⟨⟨err, heff⟩, -⟩ |
    ⟨j, hj, hopen, heff⟩
  · rw [heff]
    exact ⟨job, h⟩
  · obtain rfl := Option.some.inj (h.row.symm.trans hj)
    rw [heff]
    refine ⟨_, DB.job?_transition hj _, h.opts, h.lookup, h.inputs, ?_⟩
    have hphase := h.phase
    rcases g
    · exact ⟨.inl rfl, hphase.2⟩
    · exact ⟨.inl rfl, hphase.2⟩
    · exact absurd hphase.2 hbetween
    · rw [hphase.1] at hopen
      simp [Write.transition, requeueStale] at hopen
    · exact hphase

/-- An enqueue touches no table and appends a task, if any. -/
theorem effect_enqueue (t : Task) (o : Obs) (w : World) :
    ((Call.enqueue t).effect o w).2.db = w.db ∧
    (((Call.enqueue t).effect o w).2.asynq.tasks = w.asynq.tasks ∨
      ((Call.enqueue t).effect o w).2.asynq.tasks = w.asynq.tasks ++ [⟨t, .pending, 0, w.now⟩]) := by
  simp only [Call.effect]
  rcases h : w.asynq.enqueue w.now t with err | a
  · exact ⟨rfl, .inl rfl⟩
  · exact ⟨rfl, .inr (Asynq.enqueue_ok h).2.2.1⟩

/-- The recovery's enqueue, and everybody's once its task is there. -/
theorem TasksOk.append {delivered : Prop} {l : List TaskInfo} (h : TasksOk task n delivered l)
    {i : TaskInfo} (hi : i.task = task ∨ n < l.length) : TasksOk task n delivered (l ++ [i]) := by
  refine ⟨by simpa using Nat.le_succ_of_le h.length, fun i' hi' => ?_, fun hd => ?_⟩
  · by_cases hn : n < l.length
    · rw [List.getElem?_append_left hn] at hi'
      exact h.queued i' hi'
    · have heq : n = l.length := by have := h.length; omega
      rw [heq, List.getElem?_concat_length] at hi'
      obtain rfl := Option.some.inj hi'
      exact hi.resolve_right hn
  · have hlt := h.delivered hd
    simp only [List.length_append, List.length_cons, List.length_nil]
    omega

/-- A task that is enqueued late, or is the handler's own, keeps the tasks in order. -/
theorem TasksOk.enqueue {delivered : Prop} (h : TasksOk task n delivered w.asynq.tasks) {t : Task}
    (ht : t = task ∨ n < w.asynq.tasks.length) :
    TasksOk task n delivered ((Call.enqueue t).effect o w).2.asynq.tasks := by
  rcases (effect_enqueue t o w).2 with heq | heq
  · rwa [heq]
  · rw [heq]
    exact h.append ht

/-- A call that is no enqueue leaves the tasks. -/
theorem effect_tasks {c : Call} (hc : ∀ t, c ≠ .enqueue t) : (c.effect o w).2.asynq = w.asynq := by
  rcases (effect_changes c o w).asynq with heq | ⟨t, ht, -⟩
  · exact heq
  · exact absurd ht (hc t)

/-- A call that does not fail has its effect. -/
theorem exec_of_fault {c : Call} (hf : o.fault = .none) : c.exec o w = c.effect o w := by
  rw [Call.exec, hf]

/-- A call of the recovery. -/
theorem RaceOk.sweep_step (h : RaceOk env task n x) {c : Call} {k : c.Result → P Unit}
    (hsweep : x.sweep = .call c k)
    (hsafe : ¬ (x.Requeues task.jobID (.sweep o) ∧ x.Between)) :
    RaceOk env task n
      { x with world := (c.effect o x.world).2, sweep := k (c.effect o x.world).1 } := by
  have hcalls := h.sweep
  rw [hsweep] at hcalls
  obtain ⟨g, job, hrow, hfresh, hfollows⟩ := h.handler
  rcases hcalls.1 with rfl | ⟨reason, rfl⟩
  · refine ⟨hcalls.2 _, h.tasks.enqueue (.inl rfl), g, job, ?_, hfresh, hfollows⟩
    show RowOk env task g x.began x.ended ((Call.enqueue task).effect o x.world).2.db job
    rwa [(effect_enqueue task o x.world).1]
  · have hbetween : ¬ (x.began = true ∧ x.ended = false) :=
      fun hb => hsafe ⟨Race.requeues_sweep.mpr ⟨reason, k, hsweep⟩, hb⟩
    obtain ⟨job', hrow'⟩ := hrow.requeue hbetween reason o
    refine ⟨hcalls.2 _, ?_, g, job', hrow', hfresh, hfollows⟩
    have hasynq : ((Call.write task.jobID (.requeueStale reason)).effect o x.world).2.asynq =
        x.world.asynq := effect_tasks nofun
    simpa only [hasynq] using h.tasks

/-- A quiet call answers, and touches neither the row of the job nor its inputs. -/
theorem quiet_effect {id : UUID} {c : Call} (hc : Quiet id c) (o : Obs) (w : World) :
    (∃ a, (c.effect o w).1 = .ok a) ∧ (c.effect o w).2.db.job? id = w.db.job? id ∧
      (c.effect o w).2.db.inputsByOrdinal id = w.db.inputsByOrdinal id := by
  cases hc
  · exact ⟨⟨_, rfl⟩, rfl, rfl⟩
  · exact ⟨⟨_, rfl⟩, rfl, rfl⟩
  · exact ⟨⟨_, rfl⟩, rfl, rfl⟩
  · exact ⟨⟨_, rfl⟩, rfl, rfl⟩
  · exact ⟨⟨_, rfl⟩, rfl, rfl⟩

/-- A quiet call leads on. -/
theorem quiet_next {optsError : Opts → Option GoError} {id : UUID} {c : Call} (hc : Quiet id c)
    (o : Obs) (w : World) (hins : w.db.inputsByOrdinal id ≠ []) :
    (convertMonitor env optsError id).next .converting c (c.effect o w).1 = .converting := by
  cases hc
  · obtain ⟨input, rest, hin⟩ := List.exists_cons_of_ne_nil hins
    simp only [Call.effect, hin]
    rfl
  · rfl
  · rfl
  · rfl
  · rfl

/-- **A call of the handler** leads from phase to phase. -/
theorem RowOk.handler_step (h : RowOk env task g began ended w.db job) {c : Call}
    (hc : (convertMonitor env (optsErrorOf env task.typename) task.jobID).Allows g c) (o : Obs) :
    ∃ job', RowOk env task
      ((convertMonitor env (optsErrorOf env task.typename) task.jobID).next g c (c.effect o w).1)
      (began || Race.isMarkActive c) (ended || Race.isMarkDone c) (c.effect o w).2.db job' := by
  have hphase := h.phase
  rcases g
  · obtain rfl : c = .get task.jobID := hc
    have hget : ((Call.get task.jobID).effect o w).1 = .ok job := DB.get_ok_iff.mpr h.row
    have hnext : (convertMonitor env (optsErrorOf env task.typename) task.jobID).next .fresh
        (.get task.jobID) (.ok job) = .loaded := if_pos ⟨DB.job?_id h.row, h.opts, h.lookup⟩
    rw [hget, hnext]
    exact ⟨job, h.row, h.opts, h.lookup, h.inputs, by simpa [PhaseOk, Race.isMarkActive,
      Race.isMarkDone] using hphase⟩
  · obtain rfl : c = .write task.jobID .markActive := hc
    rcases effect_write task.jobID .markActive o w with ⟨-, hnot⟩ | ⟨j, hj, -, heff⟩
    · refine absurd ?_ (hnot job h.row)
      simpa [Write.transition, markActive] using hphase.1
    · obtain rfl := Option.some.inj (h.row.symm.trans hj)
      rw [heff]
      refine ⟨_, DB.job?_transition hj _, h.opts, h.lookup, h.inputs, rfl, ?_, ?_⟩
      · simp [Race.isMarkActive]
      · simp [Race.isMarkDone, hphase.2.2]
  · rcases hc with hc | rfl
    · obtain ⟨-, hrow, hins⟩ := quiet_effect hc o w
      rw [quiet_next hc o w h.inputs]
      have hmarks : Race.isMarkActive c = false ∧ Race.isMarkDone c = false := by
        cases hc <;> exact ⟨rfl, rfl⟩
      refine ⟨job, hrow.trans h.row, h.opts, h.lookup, hins ▸ h.inputs, ?_⟩
      rw [hmarks.1, hmarks.2, Bool.or_false, Bool.or_false]
      exact hphase
    · rcases effect_write task.jobID .markDone o w with ⟨-, hnot⟩ | ⟨j, hj, -, heff⟩
      · refine absurd ?_ (hnot job h.row)
        simpa [Write.transition, markDone] using hphase.1
      · obtain rfl := Option.some.inj (h.row.symm.trans hj)
        rw [heff]
        exact ⟨_, DB.job?_transition hj _, h.opts, h.lookup, h.inputs, rfl, Bool.or_true _⟩
  · obtain ⟨t, rfl⟩ : ∃ t, c = .enqueue t := hc
    refine ⟨job, ?_, h.opts, h.lookup, ?_, hphase.1, ?_⟩
    · rw [(effect_enqueue t o w).1]
      exact h.row
    · rw [(effect_enqueue t o w).1]
      exact h.inputs
    · rw [hphase.2, Bool.true_or]
  · exact hphase.elim

/-- **A move of the race** keeps the invariant, unless it is a RequeueStale in between. -/
theorem RaceOk.step {m : Move} (htask : task.typename.isConvert = true) (h : RaceOk env task n x)
    (hsafe : ¬ (x.Requeues task.jobID m ∧ x.Between)) (hstep : x.step env n m = some x') :
    RaceOk env task n x' := by
  cases m with
  | tick d =>
      obtain rfl := Option.some.inj hstep
      obtain ⟨g, job, hrow, hrest⟩ := h.handler
      exact ⟨h.sweep, h.tasks, g, job, ⟨hrow.row, hrow.opts, hrow.lookup, hrow.inputs, hrow.phase⟩,
        hrest⟩
  | sweep o =>
      simp only [Race.step] at hstep
      split at hstep
      · rename_i c k hsweep
        split at hstep
        · rename_i hf
          obtain rfl := Option.some.inj hstep
          rw [exec_of_fault hf]
          exact h.sweep_step hsweep hsafe
        · cases hstep
      · cases hstep
  | deliver =>
      simp only [Race.step] at hstep
      split at hstep
      · rename_i i hnone hi
        split at hstep
        · obtain rfl := Option.some.inj hstep
          obtain ⟨g, job, hrow, hfresh, -⟩ := h.handler
          obtain rfl := hfresh hnone
          obtain rfl := h.tasks.queued i hi
          obtain ⟨cls, hopts, hhandle⟩ := handle_convert env htask
          have hlt : n < x.world.asynq.tasks.length := (List.getElem?_eq_some_iff.mp hi).1
          refine ⟨h.sweep, ⟨?_, fun i' hi' => ?_, fun _ => ?_⟩, .fresh, job, hrow, fun _ => rfl, ?_⟩
          · simpa [Asynq.modify] using h.tasks.length
          · simp only [Asynq.modify, List.getElem?_modify, hi, if_true, Option.map_eq_map,
              Option.map_some, Option.some.injEq] at hi'
            rw [← hi']
          · simpa [Asynq.modify] using hlt
          · intro p hp
            obtain rfl := Option.some.inj hp
            rw [hhandle, ← hopts]
            exact handleConvert_follows env cls _
        · cases hstep
      · cases hstep
  | handler o =>
      simp only [Race.step] at hstep
      split at hstep
      · rename_i c k hhandler
        split at hstep
        · rename_i hf
          obtain rfl := Option.some.inj hstep
          obtain ⟨g, job, hrow, -, hfollows⟩ := h.handler
          obtain ⟨hallow, hnext⟩ := hfollows _ hhandler
          obtain ⟨job', hrow'⟩ := hrow.handler_step hallow o
          rw [exec_of_fault hf]
          have hlt : n < x.world.asynq.tasks.length := h.tasks.delivered (by simp [hhandler])
          have htasks : TasksOk task n (some (k (c.effect o x.world).1) ≠ none)
              x.world.asynq.tasks := ⟨h.tasks.length, h.tasks.queued, fun _ => hlt⟩
          refine ⟨h.sweep, ?_, _, job', hrow', fun hn => absurd hn (by simp), ?_⟩
          · by_cases hc : ∃ t, c = .enqueue t
            · obtain ⟨t, rfl⟩ := hc
              exact htasks.enqueue (.inr hlt)
            · have hasynq : (c.effect o x.world).2.asynq = x.world.asynq :=
                effect_tasks fun t ht => hc ⟨t, ht⟩
              simpa only [hasynq] using htasks
          · intro p hp
            obtain rfl := Option.some.inj hp
            exact hnext _
        · cases hstep
      · cases hstep

/-! ## The result -/

/-- The recovery as it begins. -/
theorem raceOk_init {j : StaleJob} (hjob : w.db.job? j.id = some job)
    (hstale : job.status = .queued ∨ job.status = .active)
    (htask : env.client.convertTask j.engine j.id = some task)
    (hopts : optsErrorOf env task.typename job.opts = none)
    (hlookup : env.lookup job.sourceFormat job.targetFormat = true)
    (hinputs : w.db.inputsByOrdinal job.id ≠ []) :
    RaceOk env task w.asynq.tasks.length (Race.init env j w) := by
  have hid := Client.convertTask_jobID htask
  have hjid := DB.job?_id hjob
  refine ⟨?_, ⟨Nat.le_refl _, ?_, nofun⟩, .fresh, job, ⟨?_, hopts, hlookup, ?_, hstale, rfl, rfl⟩,
    fun _ => rfl, nofun⟩
  · show Prog.Calls _ (recover env j)
    unfold recover
    rw [htask]
    refine (ask_calls (.inl rfl)).bind fun r => ?_
    rcases r with err | _
    · trivial
    · refine (ask_calls (.inr ⟨_, by rw [hid]⟩)).bind fun r => ?_
      rcases r with err | _
      · exact (ask_calls (.inr ⟨_, by rw [hid]⟩)).bind fun _ => trivial
      · trivial
  · intro i hi
    simp [Race.init] at hi
  · rw [hid]
    exact hjob
  · rw [hid, ← hjid]
    exact hinputs

/-- A RequeueStale in between sets an active job back, and leaves the handler in between. -/
theorem taken_back {j : StaleJob} {m : Move} (hreq : x.Requeues j.id m) (hbetween : x.Between)
    (hactive : x.status j.id = some .active) (hstep : x.step env n m = some x') :
    x'.Between ∧ x'.status j.id = some .queued := by
  cases m with
  | sweep o =>
      obtain ⟨reason, k, hsweep⟩ := Race.requeues_sweep.mp hreq
      simp only [Race.step, hsweep] at hstep
      split at hstep
      · rename_i hf
        obtain rfl := Option.some.inj hstep
        obtain ⟨job, hjob, hst⟩ := Option.map_eq_some_iff.mp hactive
        refine ⟨hbetween, ?_⟩
        rw [exec_of_fault hf]
        rcases effect_write j.id (.requeueStale reason) o x.world with ⟨-, hnot⟩ | ⟨job', _, -, heff⟩
        · exact absurd (by simp [hst, Write.transition, requeueStale]) (hnot job hjob)
        · rw [Race.status, heff, DB.job?_transition (by assumption), Option.map_some]
          rfl
      · cases hstep
  | tick d => exact hreq.elim
  | deliver => exact hreq.elim
  | handler o => exact hreq.elim

/-- **A recovery race ends well**, with the job done by the one attempt of its handler and active all
the way from its MarkActive, **exactly if no RequeueStale comes in between.** -/
theorem recovered_done_iff {j : StaleJob} (hjob : w.db.job? j.id = some job)
    (hstale : job.status = .queued ∨ job.status = .active)
    (hconv : Convertible env j.engine w job) {tr : List (Race × Move)} {err : Option GoError}
    (h : Exec (Race.step env w.asynq.tasks.length) (Race.init env j w) tr x)
    (hret : x.returned = some err) :
    (err = none ∧ x.status j.id = some .done ∧ ∀ y ∈ tr, y.1.KeepsActive j.id) ↔
      ∀ y ∈ tr, ¬ (y.1.Requeues j.id y.2 ∧ y.1.Between) := by
  have hjid := DB.job?_id hjob
  obtain ⟨task, htask, hopts⟩ := hconv.opts
  rw [hjid] at htask
  have hid : task.jobID = j.id := Client.convertTask_jobID htask
  constructor
  · rintro ⟨-, hdone, hkeeps⟩ y hy ⟨hreq, hbetween⟩
    obtain ⟨u, hu⟩ := h.step_of_mem hy
    obtain ⟨hbetween', hqueued⟩ := taken_back hreq hbetween (hkeeps y hy hbetween) hu
    rcases h.next_of_mem hy hu with rfl | ⟨z, hz, rfl⟩
    · rw [hdone] at hqueued
      cases hqueued
    · rw [hkeeps z hz hbetween'] at hqueued
      cases hqueued
  · intro hsafe
    have hinit := raceOk_init hjob hstale htask hopts hconv.lookup hconv.inputs
    have hconvert := Client.convertTask_isConvert htask
    rw [← hid] at hsafe ⊢
    obtain ⟨hall, hend⟩ := h.invariant
      (P := fun x m => ¬ (x.Requeues task.jobID m ∧ x.Between))
      (fun s m t hI hP hstep => hI.step hconvert hP hstep) hinit hsafe
    obtain ⟨g, job', hrow, -, hfollows⟩ := hend.handler
    have hreturned : Returned err g := hfollows _ (Race.handler_of_returned hret)
    have hphase := hrow.phase
    rcases g
    · exact hreturned.elim
    · exact hreturned.elim
    · exact hreturned.elim
    · refine ⟨hreturned, ?_, fun y hy => (hall y hy).keepsActive⟩
      rw [Race.status, hrow.row, Option.map_some, hphase.1]
    · exact hphase.elim

/-! ## Examples -/

/-- The example job, stale because its enqueue was lost. -/
def exampleStale : StaleJob := ⟨7, .queued, .image⟩

/-- Its row. -/
def exampleRow : Job := DB.newJob 0 7 System.exampleJob

/-- The row of the example is in the table. -/
theorem exampleRow_created : System.createdWorld.db.job? exampleStale.id = some exampleRow := rfl

/-- It can be converted. -/
theorem exampleRow_convertible :
    Convertible System.exampleEnv exampleStale.engine System.createdWorld exampleRow :=
  ⟨⟨_, rfl, rfl⟩, rfl, by decide +kernel⟩

/-- RequeueStale comes before the delivery. -/
def requeuedFirst : List Move :=
  [.sweep {}, .sweep {}, .deliver] ++ List.replicate 15 (.handler {})

/-- RequeueStale comes right after MarkActive. -/
def requeuedLate : List Move :=
  [.sweep {}, .deliver, .handler {}, .handler {}, .sweep {}] ++ List.replicate 12 (.handler {})

/-- Each step of the first race can be taken. -/
theorem requeuedFirst_enabled :
    (trace (Race.step System.exampleEnv 0)
      (Race.init System.exampleEnv exampleStale System.createdWorld) requeuedFirst).isSome = true := by
  decide +kernel

/-- Each step of the second race can be taken. -/
theorem requeuedLate_enabled :
    (trace (Race.step System.exampleEnv 0)
      (Race.init System.exampleEnv exampleStale System.createdWorld) requeuedLate).isSome = true := by
  decide +kernel

/-- In the first of these races the job is done and was never taken back. -/
theorem recovered_done_iff_requeuedFirst :
    let x := runOf (Race.step System.exampleEnv 0)
      (Race.init System.exampleEnv exampleStale System.createdWorld) requeuedFirst
      requeuedFirst_enabled
    x.2.status 7 = some .done ∧ ∀ y ∈ x.1, y.1.KeepsActive 7 := by
  intro x
  have hret : (runOf (Race.step System.exampleEnv 0)
      (Race.init System.exampleEnv exampleStale System.createdWorld) requeuedFirst
      requeuedFirst_enabled).2.returned = some none := by decide +kernel
  have h := recovered_done_iff exampleRow_created (.inl rfl) exampleRow_convertible
    (exec_runOf requeuedFirst_enabled) hret
  exact (h.mpr (by decide +kernel)).2

/-- **In the second the conversion is lost**: the job is queued, and the attempt has failed. -/
theorem recovered_not_done :
    ¬ ∀ (env : Env) (j : StaleJob) (w : World) (job : Job), w.db.job? j.id = some job →
      (job.status = .queued ∨ job.status = .active) → Convertible env j.engine w job →
      ∀ (tr : List (Race × Move)) (x : Race) (err : Option GoError),
        Exec (Race.step env w.asynq.tasks.length) (Race.init env j w) tr x →
        x.returned = some err →
        err = none ∧ x.status j.id = some .done ∧ ∀ y ∈ tr, y.1.KeepsActive j.id := by
  intro h
  have hsome : (runOf (Race.step System.exampleEnv 0)
      (Race.init System.exampleEnv exampleStale System.createdWorld) requeuedLate
      requeuedLate_enabled).2.returned.isSome = true := by decide +kernel
  obtain ⟨err, herr⟩ := Option.isSome_iff_exists.mp hsome
  have hx := h System.exampleEnv exampleStale System.createdWorld exampleRow exampleRow_created
    (.inl rfl) exampleRow_convertible _ _ err (exec_runOf requeuedLate_enabled) herr
  exact absurd hx.2.1 (by decide +kernel)

end OctoConv.Reconciler
