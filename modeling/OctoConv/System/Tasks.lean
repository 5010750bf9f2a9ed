import OctoConv.System.Unfinished

/-!
# The convert tasks of a job

A job should have at most one convert task that may still be executed. The only guard is the
unique lock of the task, which starts at its enqueue and is not refreshed; a task that waits
longer than the lock lives no longer has a guard. And the sweep's branch for jobs at the recovery
cap does not ask for the lock at all.

## Main results

* `tasks_alone_iff` — in a run no job ever has two unfinished convert tasks, no two handlers of one
  job run at a time and no job with an unfinished task is recovered, iff no task ever outlives its
  lock up to the next accepted enqueue.
* `exhausted_idle_iff` — in a run a job is failed at the recovery cap only without a live convert
  task, iff the lock that the other branch of the sweep relies on is free, or an archived task's.
-/

namespace OctoConv.System

open Conc Worker

/-- A worker thread executes a convert task of the job. -/
def Converting (s : System) (id : UUID) (tid : Nat) : Prop :=
  ∃ k ∈ s.working tid, ∃ i ∈ s.world.asynq.tasks[k]?,
    i.task.typename.isConvert = true ∧ i.task.jobID = id

instance (s : System) (id : UUID) (tid : Nat) : Decidable (Converting s id tid) :=
  inferInstanceAs (Decidable (∃ k ∈ s.working tid, _))

/-- Thread `tid` calls RequeueStale for the job. -/
def Requeues (s : System) (a : Act) (tid : Nat) (id : UUID) : Prop :=
  ∃ o, a = .call tid o ∧ s.requeuing tid = some id

/-- No job has two unfinished convert tasks, or two handlers at work. -/
structure TasksAlone (s : System) : Prop where
  task : OneTask true s
  handler : ∀ id tid tid', Converting s id tid → Converting s id tid' → tid = tid'

/-- A sweep requeues a job only after it has had a task of the job accepted, at a moment when the
job had no unfinished one. -/
def RecoveriesNeeded (tr : List (System × Act)) : Prop :=
  ∀ pre x post tid id, tr = pre ++ x :: post → Requeues x.1 x.2 tid id →
    ∃ y ∈ pre, ∃ t, Accepts y.1 y.2 tid t ∧ t.typename.isConvert = true ∧ t.jobID = id ∧
      ∀ k, ¬ Unfinished true y.1 id k

variable {env : Env} {s s' : System} {a : Act} {tid : Nat} {t : Task} {id : UUID}

/-- One task per job means one handler per job. -/
theorem tasksAlone_of_task (hwf : Wf s)
    (hone : OneTask true s) : TasksAlone s := by
  refine ⟨hone, ?_⟩
  rintro id tid tid' ⟨k, hw, i, hi, hic, hid⟩ ⟨k', hw', i', hi', hic', hid'⟩
  obtain ⟨p, ht⟩ := thread_of_working hw
  obtain ⟨p', ht'⟩ := thread_of_working hw'
  have hbusy : ∀ tid k p i, s.thread? tid = some ⟨.worker k, p⟩ →
      s.world.asynq.tasks[k]? = some i → i.unfinished = true := by
    intro tid k p i ht hi
    obtain ⟨i₀, hi₀, hact⟩ := hwf.threads.busy tid k p ht
    obtain rfl := Option.some.inj (hi.symm.trans hi₀)
    rw [TaskInfo.unfinished, hact]
    rfl
  have hk : k = k' := hone id k k' ⟨i, hi, hic, hid, hbusy tid k p i ht hi⟩
    ⟨i', hi', hic', hid', hbusy tid' k' p' i' ht' hi'⟩
  subst hk
  exact hwf.threads.alone tid tid' k p p' ht ht'

/-! ## Recoveries -/

/-- What the sweep keeps with itself: it requeues only jobs that it has enqueued a task for. -/
def requeueMonitor : Monitor Call Call.Result (List Task) where
  Allows g c :=
    match c with
    | .write id (.requeueStale _) => ∃ t ∈ g, t.typename.isConvert = true ∧ t.jobID = id
    | _ => True
  next g c r :=
    match c, r with
    | .enqueue t, .ok () => t :: g
    | _, _ => g

/-- Only an accepted enqueue is remembered. -/
theorem requeueMonitor_next (g : List Task) (c : Call) (r : c.Result) :
    requeueMonitor.next g c r = g ∨
      ∃ t, c = .enqueue t ∧ requeueMonitor.next g c r = t :: g ∧ ∃ a, r = .ok a := by
  dsimp only [requeueMonitor]
  split
  · exact .inr ⟨_, rfl, rfl, _, rfl⟩
  · exact .inl rfl

/-- A call that is not a requeue. -/
def NotRequeue (c : Call) : Prop := ∀ id reason, c ≠ .write id (.requeueStale reason)

/-- A call that requeues nothing is neutral. -/
theorem NotRequeue.neutral {c : Call} (h : NotRequeue c) :
    Neutral requeueMonitor (fun _ => True) c := by
  intro g _
  refine ⟨?_, fun _ => trivial⟩
  dsimp only [requeueMonitor]
  split
  · exact absurd rfl (h _ _)
  · trivial

/-- A job is requeued after its task was enqueued. -/
theorem requeue_follows {j : StaleJob} {t : Task} {g : List Task} (ht : t ∈ g)
    (hc : t.typename.isConvert = true) (hid : t.jobID = j.id) :
    Follows requeueMonitor (fun _ _ => True) (Reconciler.requeue j) g := by
  refine ⟨⟨t, ht, hc, hid⟩, fun r => ?_⟩
  rcases r with _ | _
  · exact ⟨⟨t, ht, hc, hid⟩, fun _ => trivial⟩
  · trivial

/-- Recovering a job follows the rule. -/
theorem recover_follows (env : Env) (j : StaleJob) (g : List Task) :
    Follows requeueMonitor (fun _ _ => True) (Reconciler.recover env j) g := by
  unfold Reconciler.recover
  split
  · trivial
  · rename_i t ht
    refine ⟨trivial, fun r => ?_⟩
    rcases r with _ | _
    · trivial
    · exact requeue_follows List.mem_cons_self (Client.convertTask_isConvert ht)
        (Client.convertTask_jobID ht)

/-- Failing one does. -/
theorem exhaust_follows (env : Env) (j : StaleJob) (g : List Task) :
    Follows requeueMonitor (fun _ _ => True) (Reconciler.exhaust env j) g := by
  refine ⟨trivial, fun job => ⟨trivial, fun _ => ?_⟩⟩
  rcases job with _ | job
  · trivial
  · refine Follows.of_calls (K := fun _ => True) (notify_calls ?_) trivial
    exact NotRequeue.neutral nofun

/-- Treating a job of the first scan does. -/
theorem sweepStale_follows (env : Env) (j : StaleJob) (g : List Task) :
    Follows requeueMonitor (fun _ _ => True) (Reconciler.sweepStale env j) g := by
  refine ⟨trivial, fun r => ?_⟩
  rcases r with _ | n
  · trivial
  · show Follows _ _ (if env.maxRecoveries ≤ n then _ else _) _
    split
    · exact exhaust_follows env j g
    · exact recover_follows env j g

/-- The second scan does. -/
theorem sweepGaps_follows (env : Env) (g : List Task) :
    Follows requeueMonitor (fun _ _ => True) (Reconciler.sweepGaps env) g := by
  have hgap : ∀ (j : WebhookGapJob) (g : List Task),
      Follows requeueMonitor (fun _ _ => True) (Reconciler.sweepGap env j) g := by
    intro j g
    refine ⟨trivial, fun r => ?_⟩
    rcases r with _ | _
    · trivial
    · exact ⟨trivial, fun _ => trivial⟩
  refine ⟨trivial, fun r => ?_⟩
  rcases r with _ | gaps
  · trivial
  · exact Follows.forM_of (fun j _ g _ => hgap j g) trivial

/-- The whole sweep does. -/
theorem sweep_follows (env : Env) (g : List Task) :
    Follows requeueMonitor (fun _ _ => True) (Reconciler.sweep env) g := by
  refine ⟨trivial, fun r => ?_⟩
  rcases r with _ | stale
  · trivial
  · show Follows _ _ (stale.forM (Reconciler.sweepStale env) >>= fun _ =>
      Reconciler.sweepGaps env) _
    refine Follows.bind_of (K := fun _ _ => True) ?_ fun _ g _ => ?_
    · exact Follows.forM_of (fun j _ g _ => sweepStale_follows env j g) trivial
    · exact sweepGaps_follows env g

/-- Every thread starts out with nothing enqueued. -/
theorem fresh_follows {th : Thread} (h : Fresh env s a th) :
    Follows requeueMonitor (fun _ _ => True) th.prog [] := by
  have hcalls : ∀ {p : P Outcome}, p.Calls NotRequeue →
      Follows requeueMonitor (fun _ _ => True) p [] := fun hp =>
    Follows.of_calls (K := fun _ => True) (hp.mono fun _ => NotRequeue.neutral) trivial
  have hapi : ∀ c, Api.ApiCall env c → NotRequeue c := by
    rintro c hc id reason rfl
    cases hc
  cases h with
  | submit p => exact hcalls (((Api.submit_calls env p).mono hapi).bind fun _ => trivial)
  | query clientID id =>
      exact hcalls (((Api.handleGetJob_calls env clientID id).mono hapi).bind fun _ => trivial)
  | sweep => exact Follows.bind_of (sweep_follows env []) fun _ _ _ => trivial
  | @start k i hi hst =>
      refine hcalls (((handle_calls env i).mono ?_).bind fun _ => trivial)
      rintro c hc id reason rfl
      split at hc <;> cases hc

/-- Every task that a thread has got accepted was accepted at some step of the run. -/
def EnqueuedIn (done : List (System × Act)) (tid : Nat) (_ : Role) (g : List Task) : Prop :=
  ∀ t ∈ g, ∃ x ∈ done, Accepts x.1 x.2 tid t

/-- **A sweep recovers only a job for which it has had a task accepted.** -/
theorem accepted_of_requeues {now : Int} {tr : List (System × Act)}
    (h : Exec (System.step env) (System.init now) tr s) {pre post : List (System × Act)}
    {x : System × Act} (htr : tr = pre ++ x :: post) (hx : Requeues x.1 x.2 tid id) :
    ∃ y ∈ pre, ∃ t, Accepts y.1 y.2 tid t ∧ t.typename.isConvert = true ∧ t.jobID = id := by
  have hrun := h.history
    (I := fun done s => Monitored requeueMonitor (fun _ _ => True) (EnqueuedIn done) s)
    (fun done s a s' hs hstep => ?_) monitored_init
  · obtain ⟨o, -, hreq⟩ := hx
    obtain ⟨role, reason, k, hth⟩ := thread_of_requeuing hreq
    obtain ⟨g, ⟨⟨t, htg, htc, hid⟩, -⟩, hg⟩ := hrun.1 pre x post htr tid _ hth
    obtain ⟨y, hy, hacc⟩ := hg t htg
    exact ⟨y, hy, t, hacc, htc, hid⟩
  · have hold : ∀ tid g role, EnqueuedIn done tid role g →
        EnqueuedIn (done ++ [(s, a)]) tid role g := by
      intro tid g role hg t ht
      obtain ⟨x, hx, hacc⟩ := hg t ht
      exact ⟨x, List.mem_append_left _ hx, hacc⟩
    apply hs.step hstep
    · intro th hth
      exact ⟨[], fresh_follows hth, fun t ht => absurd ht List.not_mem_nil⟩
    · exact fun tid th g _ _ _ _ hg => hold tid g th.role hg
    · rintro tid o role c k g rfl hth - hg t ht
      rcases requeueMonitor_next g c (c.exec o s.world).1 with heq | ⟨t', rfl, heq, b, hok⟩
      · exact hold tid g role hg t (heq ▸ ht)
      · rw [heq] at ht
        rcases List.mem_cons.mp ht with rfl | ht
        · refine ⟨_, List.mem_append_right _ (List.mem_singleton_self _), ?_⟩
          exact accepts_of_exec_ok hth hok
        · exact hold tid g role hg t ht

/-! ## The convert tasks of a run -/

/-- **One task, one handler and no needless recovery per job, exactly as long as tasks are within
their TTL** whenever a further one is accepted. -/
theorem tasks_alone_iff {now : Int} {tr : List (System × Act)}
    (h : Exec (System.step env) (System.init now) tr s) :
    ((∀ x ∈ tr, TasksAlone x.1) ∧ TasksAlone s ∧ RecoveriesNeeded tr) ↔
      ∀ x ∈ tr, WithinTTL true x.1 x.2 := by
  have hcontract := contract_run False h False.elim
  rw [← oneTask_iff h]
  constructor
  · rintro ⟨halone, hlast, -⟩
    exact ⟨fun x hx => (halone x hx).task, hlast.task⟩
  · rintro ⟨hone, hlast⟩
    refine ⟨fun x hx => ?_, ?_, ?_⟩
    · exact tasksAlone_of_task (hcontract.1 x hx).1 (hone x hx)
    · exact tasksAlone_of_task hcontract.2.1 hlast
    · intro pre x post tid id htr hreq
      obtain ⟨y, hy, t, hacc, htc, rfl⟩ := accepted_of_requeues h htr hreq
      have hy' : y ∈ tr := htr ▸ List.mem_append_left _ hy
      have hs := hcontract.1 y hy'
      have hP := (oneTask_iff h).mp ⟨hone, hlast⟩ y hy'
      exact ⟨y, hy, t, hacc, htc, rfl, not_unfinished_of_accepts hs.1 hs.2 hacc htc hP⟩

/-- Each of the actions can be taken. -/
theorem exampleActs_enabled :
    (trace (System.step exampleEnv) (System.init 0) exampleActs).isSome = true := by
  decide +kernel

/-- In the example run the job has one task, and one handler. -/
theorem tasks_alone_iff_exampleRun :
    let x := runOf (System.step exampleEnv) (System.init 0) exampleActs exampleActs_enabled
    (∀ y ∈ x.1, TasksAlone y.1) ∧ TasksAlone x.2 ∧ RecoveriesNeeded x.1 := by
  intro x
  apply (tasks_alone_iff (exec_runOf exampleActs_enabled)).mpr
  have htasks : ∀ y ∈ x.1, ∀ i ∈ y.1.world.asynq.tasks,
      y.1.world.now - i.enqueuedAt < i.task.uniqueTTL := by
    decide +kernel
  exact fun y hy => withinTTL_of_tasks (htasks y hy)

/-- A job waits in its queue for as long as its lock lives; the sweep enqueues it again and is about
to requeue it. -/
def backloggedActs : List Act :=
  [.submit exampleJob, .call 0 {}, .call 0 {}, .finish 0, .tick 757000000000, .sweep, .call 1 {},
    .call 1 {}, .call 1 {}]

/-- Each of the actions can be taken, with a task in the queue. -/
theorem backloggedActs_enabled :
    (trace (System.step exampleEnv) (System.init 0) backloggedActs).isSome = true := by
  decide +kernel

/-- Two workers take the two tasks. -/
def twoWorkersActs : List Act := backloggedActs ++ [.start 0, .start 1]

/-- Each of the actions can be taken, with two workers. -/
theorem twoWorkersActs_enabled :
    (trace (System.step exampleEnv) (System.init 0) twoWorkersActs).isSome = true := by
  decide +kernel

/-- **A task that waits longer than its lock lives gets a double**, two handlers convert the job, and
the job has been recovered although it was only waiting. -/
theorem two_tasks_of_one_job :
    (¬ ∀ (env : Env) (now : Int) (tr : List (System × Act)) (s : System),
      Exec (System.step env) (System.init now) tr s →
      ∀ id k k', Unfinished true s id k → Unfinished true s id k' → k = k') ∧
    (¬ ∀ (env : Env) (now : Int) (tr : List (System × Act)) (s : System),
      Exec (System.step env) (System.init now) tr s →
      ∀ id tid tid', Converting s id tid → Converting s id tid' → tid = tid') ∧
    ¬ ∀ (env : Env) (now : Int) (tr : List (System × Act)) (s : System),
      Exec (System.step env) (System.init now) tr s → RecoveriesNeeded tr := by
  refine ⟨fun h => ?_, fun h => ?_, fun h => ?_⟩
  · have hk := h exampleEnv 0 _ _ (exec_runOf backloggedActs_enabled) 7 0 1 (by decide +kernel)
      (by decide +kernel)
    cases hk
  · have hk := h exampleEnv 0 _ _ (exec_runOf twoWorkersActs_enabled) 7 2 3 (by decide +kernel)
      (by decide +kernel)
    cases hk
  · have hrun := exec_runOf backloggedActs_enabled
    have hstep : (System.step exampleEnv (runOf (System.step exampleEnv) (System.init 0)
        backloggedActs backloggedActs_enabled).2 (.call 1 {})).isSome = true := by
      decide +kernel
    -- whenever the sweep calls, the first task is unfinished
    have hold : ∀ y ∈ (runOf (System.step exampleEnv) (System.init 0) backloggedActs
        backloggedActs_enabled).1, ∀ c ∈ y.2.call?, c.1 = 1 → Unfinished true y.1 7 0 := by
      decide +kernel
    obtain ⟨y, hy, t, ⟨o, b, ha, -⟩, -, -, hno⟩ :=
      h exampleEnv 0 _ _ (hrun.snoc (Option.some_get hstep).symm) _ _ [] 1 7 rfl
        ⟨{}, rfl, by decide +kernel⟩
    have hy := hold y hy
    rw [ha] at hy
    exact hno 0 (hy (1, o) rfl rfl)

/-! ## The branch at the recovery cap -/

/-- The step fails the job with the code of the recovery cap. -/
def Exhausts (s s' : System) (id : UUID) : Prop :=
  (∃ j ∈ s.world.db.job? id, j.status ≠ .failed) ∧
    ∃ j ∈ s'.world.db.job? id, j.status = .failed ∧ j.errorCode = some Reconciler.exhaustedCode

instance (s s' : System) (id : UUID) : Decidable (Exhausts s s' id) :=
  inferInstanceAs (Decidable (_ ∧ _))

/-- Task number `k` is a convert task of the job that may still be executed, and its unique lock has
not expired. -/
def Live (s : System) (id : UUID) (k : Nat) : Prop :=
  ∃ i ∈ s.world.asynq.tasks[k]?, i.task.typename.isConvert = true ∧ i.task.jobID = id ∧
    i.unfinished = true ∧ s.world.now < i.expires

instance (s : System) (id : UUID) (k : Nat) : Decidable (Live s id k) :=
  inferInstanceAs (Decidable (∃ i ∈ s.world.asynq.tasks[k]?, _))

/-- The enqueue that recovers a job below the cap would not hit the lock of an unfinished task: the
unique lock of the job's convert task is free, or has expired, or its task has been given up. -/
def LockIdle (env : Env) (s : System) (id : UUID) : Prop :=
  ∀ j ∈ s.world.db.job? id, ∀ t ∈ env.client.convertTask j.engine id,
    ∀ l ∈ s.world.asynq.locks t.key, s.world.now < l.expires →
      ∀ i ∈ s.world.asynq.tasks[l.holder]?, i.unfinished = false

instance (env : Env) (s : System) (id : UUID) : Decidable (LockIdle env s id) :=
  inferInstanceAs (Decidable (∀ j ∈ s.world.db.job? id, _))

/-- In a state of a run, the lock is idle iff no convert task of the job is live. -/
theorem lockIdle_iff (hwf : Wf s) (hs : Holds (contract env False) Returns s) (id : UUID) :
    LockIdle env s id ↔ ∀ k, ¬ Live s id k := by
  constructor
  · rintro hidle k ⟨i, hi, hic, hid, hu, hlt⟩
    obtain ⟨j, hj, hconv⟩ := (hs.inv.tasks i (List.mem_of_getElem? hi)).convert hic
    rw [hid] at hj hconv
    have hfin := hidle j hj i.task hconv _ (hwf.locks.held k i hi hu hlt) hlt i hi
    rw [hu] at hfin
    cases hfin
  · intro hno j hj t hconv l hl hlt i hi
    obtain ⟨i', hi', hkey, hexp, -⟩ := hwf.locks.owned t.key l hl
    obtain rfl := Option.some.inj (hi'.symm.trans hi)
    by_contra hu
    have htype : i'.task.typename = t.typename := congrArg UniqueKey.typename hkey
    have hjob : i'.task.jobID = t.jobID := congrArg UniqueKey.payload hkey
    refine hno l.holder ⟨i', hi, ?_, ?_, by simpa using hu, by omega⟩
    · rw [htype, Client.convertTask_isConvert hconv]
    · rw [hjob, Client.convertTask_jobID hconv]

/-- **A job is failed at the recovery cap only without a live convert task, exactly as long as the
lock of that task is idle** whenever a job is failed so. -/
theorem exhausted_idle_iff {now : Int} {tr : List (System × Act)}
    (h : Exec (System.step env) (System.init now) tr s) :
    (∀ x ∈ tr, ∀ s' id, System.step env x.1 x.2 = some s' → Exhausts x.1 s' id →
      ∀ k, ¬ Live x.1 id k) ↔
    ∀ x ∈ tr, ∀ s' id, System.step env x.1 x.2 = some s' → Exhausts x.1 s' id →
      LockIdle env x.1 id := by
  have hcontract := contract_run False h False.elim
  have hiff : ∀ x ∈ tr, ∀ id, LockIdle env x.1 id ↔ ∀ k, ¬ Live x.1 id k := by
    intro x hx id
    exact lockIdle_iff (hcontract.1 x hx).1 (hcontract.1 x hx).2 id
  constructor
  · intro hno x hx s' id hstep hex
    exact (hiff x hx id).mpr (hno x hx s' id hstep hex)
  · intro hidle x hx s' id hstep hex
    exact (hiff x hx id).mp (hidle x hx s' id hstep hex)

/-- The fourth sweep fails the job once the lock of its last task has expired. -/
def expiredActs : List Act := cappedActs ++ [.tick 757000000000, .call 4 {}]

/-- Each of the actions can be taken, up to the lock that has expired. -/
theorem expiredActs_enabled :
    (trace (System.step exampleEnv) (System.init 0) expiredActs).isSome = true := by
  decide +kernel

/-- In that run the job ends exhausted, without a live convert task. -/
theorem exhausted_idle_iff_expired :
    let x := runOf (System.step exampleEnv) (System.init 0) expiredActs expiredActs_enabled
    (∃ y ∈ x.1, Exhausts y.1 x.2 7) ∧
      ∀ y ∈ x.1, ∀ s' id, System.step exampleEnv y.1 y.2 = some s' → Exhausts y.1 s' id →
        ∀ k, ¬ Live y.1 id k := by
  intro x
  refine ⟨by decide +kernel, ?_⟩
  apply (exhausted_idle_iff (exec_runOf expiredActs_enabled)).mpr
  have hrows : ∀ y ∈ x.1, ∀ j ∈ y.1.world.db.jobs.rows, j.id = 7 := by
    decide +kernel
  have hidle : ∀ y ∈ x.1, ∀ s' ∈ System.step exampleEnv y.1 y.2, Exhausts y.1 s' 7 →
      LockIdle exampleEnv y.1 7 := by
    decide +kernel
  intro y hy s' id hstep hex
  obtain ⟨j, hj, -⟩ := hex.1
  obtain rfl : id = 7 := by
    rw [← DB.job?_id hj, hrows y hy j (Table.mem_of_find? hj)]
  exact hidle y hy s' hstep hex

/-- Each of the actions can be taken, up to the recovery cap. -/
theorem cappedActs_enabled :
    (trace (System.step exampleEnv) (System.init 0) cappedActs).isSome = true := by
  decide +kernel

/-- That run: its trace and its last state. -/
def cappedRun : List (System × Act) × System :=
  runOf (System.step exampleEnv) (System.init 0) cappedActs cappedActs_enabled

/-- So can the call of the sweep behind them. -/
theorem cappedRun_step : (System.step exampleEnv cappedRun.2 (.call 4 {})).isSome = true := by
  decide +kernel

/-- **At the cap a job is failed while the task of its last recovery waits in the queue.** -/
theorem exhausted_while_live :
    ¬ ∀ (env : Env) (now : Int) (tr : List (System × Act)) (s : System),
      Exec (System.step env) (System.init now) tr s → ∀ x ∈ tr, ∀ s' id,
        System.step env x.1 x.2 = some s' → Exhausts x.1 s' id → ∀ k, ¬ Live x.1 id k := by
  intro h
  have hstep := (Option.some_get cappedRun_step).symm
  have hrun : Exec (System.step exampleEnv) (System.init 0) cappedRun.1 cappedRun.2 :=
    exec_runOf cappedActs_enabled
  have hmem := List.mem_append_right cappedRun.1 (List.mem_singleton_self (cappedRun.2, Act.call 4 {}))
  have hex : Exhausts cappedRun.2 ((System.step exampleEnv cappedRun.2 (.call 4 {})).get
      cappedRun_step) 7 := by
    decide +kernel
  exact h exampleEnv 0 _ _ (hrun.snoc hstep) _ hmem _ 7 hstep hex 3 (by decide +kernel)

end OctoConv.System
