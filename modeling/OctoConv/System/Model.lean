import OctoConv.Api.Jobs
import OctoConv.Lib.Monitor
import OctoConv.Lib.RelyGuarantee
import OctoConv.Lib.Run
import OctoConv.Lib.Slots
import OctoConv.Reconciler.Sweep

/-!
# The running system

API requests, worker attempts and sweeps run as threads over the shared world, one call at a time
in any order; any of them can crash between two calls, and every call can fail. asynq hands a
pending task to a worker at any moment, decides what becomes of it when its handler returns, and
takes it back when its worker has died. Delays are not modelled: a retry or a lease expiry can come
at any time, so every timing of the real system is among the runs.

## Main results

* `threadsOk_step` — an executing worker thread has its task to itself.
* `locksOk_step` — locks and tasks belong together in every reachable state.
* `Sound.step` — the rely–guarantee rule for runs: what every call owes to the other threads,
  and what starting and ending threads owes, carries every thread's safety through a step.
-/

namespace OctoConv

open Conc Worker

/-- What a thread runs on behalf of. -/
inductive Role
  /-- A worker that executes the task with this number. -/
  | worker (task : Nat)
  | sweeper
  | api
deriving DecidableEq, Repr

/-- What a thread has returned. -/
inductive Outcome
  | handled (err : Option GoError)
  | swept
  | created (r : Api.Created)
  | answered (a : Api.JobAnswer)

/-- A thread: its role and what it has left to do. -/
structure Thread where
  role : Role
  prog : P Outcome

/-- The world and the threads; the number of an ended thread is not used again. -/
structure System where
  world : World
  threads : List (Option Thread)

/-- What happens next. -/
inductive Act
  | tick (d : Nat)
  /-- A create request has stored its upload and is about to record the job. -/
  | submit (p : CreateParams)
  /-- A status request. -/
  | query (clientID id : UUID)
  /-- A tick of a sweeper. -/
  | sweep
  /-- A worker takes a pending task. -/
  | start (k : Nat)
  /-- A thread performs its next call, and the outside world behaves like this. -/
  | call (tid : Nat) (o : Obs)
  /-- A thread that has returned ends. -/
  | finish (tid : Nat)
  /-- The process of a thread dies. -/
  | crash (tid : Nat)
  /-- The lease of a task whose worker died expires. -/
  | recover (k : Nat)
  /-- A task's retry delay is over. -/
  | due (k : Nat)

/-- The thread that calls, and what it observes. -/
def Act.call? : Act → Option (Nat × Obs)
  | .call tid o => some (tid, o)
  | _ => none

/-- The thread whose process dies. -/
def Act.crash? : Act → Option Nat
  | .crash tid => some tid
  | _ => none

namespace System

/-- Nothing has happened yet. -/
def init (now : Int) : System := ⟨World.init now, []⟩

/-- The thread with number `tid`. -/
def thread? (s : System) (tid : Nat) : Option Thread := slot? s.threads tid

/-- The number of the task that a thread executes. -/
def working (s : System) (tid : Nat) : Option Nat :=
  match s.thread? tid with
  | some ⟨.worker k, _⟩ => some k
  | _ => none

/-- A thread that works on a task is one of a worker. -/
theorem thread_of_working {s : System} {tid k : Nat} (h : s.working tid = some k) :
    ∃ p, s.thread? tid = some ⟨.worker k, p⟩ := by
  unfold working at h
  split at h
  · rename_i k' p ht
    obtain rfl := Option.some.inj h
    exact ⟨p, ht⟩
  · cases h

/-- The task that a thread is about to enqueue. -/
def enqueuing (s : System) (tid : Nat) : Option Task :=
  match s.thread? tid with
  | some ⟨_, .call (.enqueue t) _⟩ => some t
  | _ => none

/-- A thread that enqueues a task is at that call. -/
theorem thread_of_enqueuing {s : System} {tid : Nat} {t : Task} (h : s.enqueuing tid = some t) :
    ∃ role k, s.thread? tid = some ⟨role, .call (.enqueue t) k⟩ := by
  unfold enqueuing at h
  split at h
  · rename_i role t' k ht
    obtain rfl := Option.some.inj h
    exact ⟨role, k, ht⟩
  · cases h

/-- The job that a thread is about to requeue. -/
def requeuing (s : System) (tid : Nat) : Option UUID :=
  match s.thread? tid with
  | some ⟨_, .call (.write id (.requeueStale _)) _⟩ => some id
  | _ => none

/-- A thread that requeues a job is at that write. -/
theorem thread_of_requeuing {s : System} {tid : Nat} {id : UUID} (h : s.requeuing tid = some id) :
    ∃ role reason k, s.thread? tid = some ⟨role, .call (.write id (.requeueStale reason)) k⟩ := by
  unfold requeuing at h
  split at h
  · rename_i role id' reason k ht
    obtain rfl := Option.some.inj h
    exact ⟨role, reason, k, ht⟩
  · cases h

/-- Start a thread. -/
def spawn (s : System) (role : Role) (prog : P Outcome) : System :=
  { s with threads := s.threads ++ [some ⟨role, prog⟩] }

/-- Change the tasks. -/
def withAsynq (s : System) (a : Asynq) : System := { s with world := { s.world with asynq := a } }

/-- End a thread. -/
def remove (s : System) (tid : Nat) : System := { s with threads := s.threads.set tid none }

/-- The program of an attempt at a task. -/
def attemptProg (env : Env) (i : TaskInfo) : P Outcome := do
  let err ← handle env i
  .ret (.handled err)

/-- The program of a tick of the sweeper. -/
def sweepProg (env : Env) : P Outcome := do
  Reconciler.sweep env
  .ret .swept

/-- The program of a create request. -/
def submitProg (env : Env) (p : CreateParams) : P Outcome := do
  let r ← Api.submit env p
  .ret (.created r)

/-- The program of a status request. -/
def queryProg (env : Env) (clientID id : UUID) : P Outcome := do
  let a ← Api.handleGetJob env clientID id
  .ret (.answered a)

/-- What asynq does with a task whose handler has returned this. -/
def settle (a : Asynq) (k : Nat) : Option GoError → Asynq
  | none => a.complete k
  | some err => a.modify k (TaskInfo.fail (err.is .skipRetry))

/-- One step of the system. -/
def step (env : Env) (s : System) : Act → Option System
  | .tick d => some { s with world := { s.world with now := s.world.now + d } }
  | .submit p => some (s.spawn .api (submitProg env p))
  | .query clientID id => some (s.spawn .api (queryProg env clientID id))
  | .sweep => some (s.spawn .sweeper (sweepProg env))
  | .start k =>
      match s.world.asynq.tasks[k]? with
      | none => none
      | some i =>
          if i.state = .pending then
            some ((s.withAsynq (s.world.asynq.modify k fun i => { i with state := .active })).spawn
              (.worker k) (attemptProg env i))
          else none
  | .call tid o =>
      match s.thread? tid with
      | some ⟨role, .call c k⟩ =>
          some ⟨(c.exec o s.world).2,
            s.threads.set tid (some ⟨role, k (c.exec o s.world).1⟩)⟩
      | _ => none
  | .finish tid =>
      match s.thread? tid with
      | some ⟨.worker k, .ret (.handled err)⟩ =>
          some ((s.withAsynq (settle s.world.asynq k err)).remove tid)
      | some ⟨.worker _, _⟩ => none
      | some ⟨_, .ret _⟩ => some (s.remove tid)
      | _ => none
  | .crash tid =>
      match s.thread? tid with
      | some ⟨.worker k, _⟩ =>
          some ((s.withAsynq (s.world.asynq.modify k fun i =>
            { i with state := .orphaned })).remove tid)
      | some _ => some (s.remove tid)
      | none => none
  | .recover k =>
      match s.world.asynq.tasks[k]? with
      | none => none
      | some i =>
          if i.state = .orphaned then
            some (s.withAsynq (s.world.asynq.modify k (TaskInfo.fail false)))
          else none
  | .due k =>
      match s.world.asynq.tasks[k]? with
      | none => none
      | some i =>
          if i.state = .retry then
            some (s.withAsynq (s.world.asynq.modify k fun i => { i with state := .pending }))
          else none

/-! ## What a step can do -/

variable {env : Env} {s s' : System} {tid : Nat} {o : Obs}

/-- How a step that is not a call changes the tasks. -/
inductive TaskStep (s : System) : Act → Asynq → Prop
  | start {k : Nat} {i : TaskInfo} (hi : s.world.asynq.tasks[k]? = some i)
      (hst : i.state = .pending) :
      TaskStep s (.start k) (s.world.asynq.modify k fun i => { i with state := .active })
  | settle {tid k : Nat} {err : Option GoError}
      (ht : s.thread? tid = some ⟨.worker k, .ret (.handled err)⟩) :
      TaskStep s (.finish tid) (System.settle s.world.asynq k err)
  | orphan {tid k : Nat} {p : P Outcome} (ht : s.thread? tid = some ⟨.worker k, p⟩) :
      TaskStep s (.crash tid) (s.world.asynq.modify k fun i => { i with state := .orphaned })
  | recover {k : Nat} {i : TaskInfo} (hi : s.world.asynq.tasks[k]? = some i)
      (hst : i.state = .orphaned) :
      TaskStep s (.recover k) (s.world.asynq.modify k (TaskInfo.fail false))
  | due {k : Nat} {i : TaskInfo} (hi : s.world.asynq.tasks[k]? = some i) (hst : i.state = .retry) :
      TaskStep s (.due k) (s.world.asynq.modify k fun i => { i with state := .pending })

/-- A fresh thread. -/
inductive Fresh (env : Env) (s : System) : Act → Thread → Prop
  | submit (p : CreateParams) : Fresh env s (.submit p) ⟨.api, submitProg env p⟩
  | query (clientID id : UUID) : Fresh env s (.query clientID id) ⟨.api, queryProg env clientID id⟩
  | sweep : Fresh env s .sweep ⟨.sweeper, sweepProg env⟩
  | start {k : Nat} {i : TaskInfo} (hi : s.world.asynq.tasks[k]? = some i)
      (hst : i.state = .pending) : Fresh env s (.start k) ⟨.worker k, attemptProg env i⟩

/-- **What a step can do.** A call changes the world and one thread; the other steps change the
clock or the tasks, and start or end a thread. -/
inductive Steps (env : Env) (s : System) : Act → System → Prop
  | tick (d : Nat) :
      Steps env s (.tick d) { s with world := { s.world with now := s.world.now + d } }
  | spawn {a : Act} {th : Thread} (hth : Fresh env s a th) (hw : ∀ k, a ≠ .start k) :
      Steps env s a (s.spawn th.role th.prog)
  | start {k : Nat} {th : Thread} {a' : Asynq} (hth : Fresh env s (.start k) th)
      (ha : TaskStep s (.start k) a') :
      Steps env s (.start k) ((s.withAsynq a').spawn th.role th.prog)
  | call {tid : Nat} {o : Obs} {role : Role} {c : Call} {k : c.Result → P Outcome}
      (ht : s.thread? tid = some ⟨role, .call c k⟩) :
      Steps env s (.call tid o)
        ⟨(c.exec o s.world).2, s.threads.set tid (some ⟨role, k (c.exec o s.world).1⟩)⟩
  | ends {a : Act} {tid : Nat} {th : Thread} (ht : s.thread? tid = some th)
      (ha : a = .finish tid ∨ a = .crash tid) (hrole : ∀ k, th.role ≠ .worker k) :
      Steps env s a (s.remove tid)
  | endsWorker {a : Act} {a' : Asynq} {tid k : Nat} {p : P Outcome}
      (ht : s.thread? tid = some ⟨.worker k, p⟩) (ha : a = .finish tid ∨ a = .crash tid)
      (hta : TaskStep s a a') : Steps env s a ((s.withAsynq a').remove tid)
  | task {a : Act} {a' : Asynq} (ha : (∃ k, a = .recover k) ∨ ∃ k, a = .due k)
      (hta : TaskStep s a a') : Steps env s a (s.withAsynq a')

/-- What one step of the system can do. -/
theorem steps_of_step {a : Act} (h : step env s a = some s') : Steps env s a s' := by
  cases a with
  | tick d =>
      obtain rfl := Option.some.inj h
      exact .tick d
  | submit p =>
      obtain rfl := Option.some.inj h
      exact .spawn (.submit p) nofun
  | query clientID id =>
      obtain rfl := Option.some.inj h
      exact .spawn (.query clientID id) nofun
  | sweep =>
      obtain rfl := Option.some.inj h
      exact .spawn .sweep nofun
  | start k =>
      simp only [step] at h
      rcases hi : s.world.asynq.tasks[k]? with _ | i
      · simp [hi] at h
      · simp only [hi] at h
        split at h
        · rename_i hst
          obtain rfl := Option.some.inj h
          exact .start (.start hi hst) (.start hi hst)
        · cases h
  | call tid o =>
      simp only [step] at h
      split at h
      · rename_i ht
        obtain rfl := Option.some.inj h
        exact .call ht
      · cases h
  | finish tid =>
      simp only [step] at h
      split at h
      · rename_i ht
        obtain rfl := Option.some.inj h
        exact .endsWorker ht (.inl rfl) (.settle ht)
      · cases h
      · rename_i ht
        obtain rfl := Option.some.inj h
        exact .ends ht (.inl rfl) (by simp_all)
      · cases h
  | crash tid =>
      simp only [step] at h
      split at h
      · rename_i ht
        obtain rfl := Option.some.inj h
        exact .endsWorker ht (.inr rfl) (.orphan ht)
      · rename_i th hne ht
        obtain rfl := Option.some.inj h
        refine .ends ht (.inr rfl) fun k hk => hne k th.prog ?_
        rw [← hk]
      · cases h
  | recover k =>
      simp only [step] at h
      rcases hi : s.world.asynq.tasks[k]? with _ | i
      · simp [hi] at h
      · simp only [hi] at h
        split at h
        · rename_i hst
          obtain rfl := Option.some.inj h
          exact .task (.inl ⟨k, rfl⟩) (.recover hi hst)
        · cases h
  | due k =>
      simp only [step] at h
      rcases hi : s.world.asynq.tasks[k]? with _ | i
      · simp [hi] at h
      · simp only [hi] at h
        split at h
        · rename_i hst
          obtain rfl := Option.some.inj h
          exact .task (.inr ⟨k, rfl⟩) (.due hi hst)
        · cases h

/-- The world after a call is what the call leaves. -/
theorem world_of_call {role : Role} {c : Call} {k : c.Result → P Outcome}
    (h : step env s (.call tid o) = some s') (ht : s.thread? tid = some ⟨role, .call c k⟩) :
    s'.world = (c.exec o s.world).2 := by
  simp only [step, ht] at h
  rw [← Option.some.inj h]

/-- Whatever happens, the world grows. -/
theorem step_grows {a : Act} (h : step env s a = some s') : s.world.Grows s'.world := by
  cases steps_of_step h with
  | tick d => exact .frame _ _
  | spawn => exact .refl _
  | start => exact .frame _ _
  | call => exact (exec_changes _ _ _).grows
  | ends => exact .refl _
  | endsWorker => exact .frame _ _
  | task => exact .frame _ _

/-- Only a POST adds to the posts; its reply is what the sender is answered. -/
theorem step_posts {a : Act} (h : step env s a = some s') :
    s'.world.posts = s.world.posts ∨
      ∃ tid o role url body k reply, a = .call tid o ∧
        s.thread? tid = some ⟨role, .call (.post url body) k⟩ ∧
        s'.world.posts = s.world.posts ++ [⟨url, body, reply⟩] ∧
        s'.world.asynq = s.world.asynq ∧
        ∀ code, reply = some code ↔ ((Call.post url body).exec o s.world).1 = .ok code := by
  cases steps_of_step h with
  | @call tid o role c k hth =>
      by_cases hpost : ∃ url body, c = .post url body
      · obtain ⟨url, body, rfl⟩ := hpost
        refine .inr ⟨tid, o, role, url, body, k, ?_⟩
        rcases hf : o.fault with _ | err | err
        · refine ⟨some o.code, rfl, hth, ?_⟩
          simp [Call.exec, hf, Call.effect]
        · refine ⟨none, rfl, hth, ?_⟩
          simp [Call.exec, hf, Call.aborted]
        · refine ⟨none, rfl, hth, ?_⟩
          simp [Call.exec, hf, Call.lost]
      · refine .inl ?_
        show (c.exec o s.world).2.posts = s.world.posts
        generalize hw : (c.exec o s.world).2 = w
        have hch := exec_changes c o s.world
        rw [hw] at hch
        cases hch with
        | post url body reply => exact absurd ⟨url, body, rfl⟩ hpost
        | _ => rfl
  | tick d => exact .inl rfl
  | spawn => exact .inl rfl
  | start => exact .inl rfl
  | ends => exact .inl rfl
  | endsWorker => exact .inl rfl
  | task => exact .inl rfl

/-! ## Workers and their tasks -/

/-- Every worker thread executes a task that is active, and has it to itself. -/
structure ThreadsOk (s : System) : Prop where
  busy : ∀ tid k p, s.thread? tid = some ⟨.worker k, p⟩ →
    ∃ i, s.world.asynq.tasks[k]? = some i ∧ i.state = .active
  alone : ∀ tid tid' k p p', s.thread? tid = some ⟨.worker k, p⟩ →
    s.thread? tid' = some ⟨.worker k, p'⟩ → tid = tid'

/-- At the start there is no thread. -/
theorem threadsOk_init (now : Int) : ThreadsOk (init now) :=
  ⟨fun tid k p h => by simp [thread?, init] at h, fun tid tid' k p p' h => by
    simp [thread?, init] at h⟩

/-- Changing one task leaves the others. -/
theorem tasks_modify {a : Asynq} {k : Nat} {f : TaskInfo → TaskInfo} (k' : Nat) :
    (a.modify k f).tasks[k']? = if k' = k then (a.tasks[k']?).map f else a.tasks[k']? := by
  simp only [Asynq.modify, List.getElem?_modify]
  by_cases h : k' = k
  · simp [h]
  · simp [h, Ne.symm h]

/-- A task that fails is the task that it was. -/
theorem fail_task (b : Bool) (i : TaskInfo) :
    (TaskInfo.fail b i).task = i.task ∧ (TaskInfo.fail b i).enqueuedAt = i.enqueuedAt := by
  unfold TaskInfo.fail
  split <;> exact ⟨rfl, rfl⟩

/-- Whose task a task step changes. -/
inductive TaskStep.Of (s : System) (k : Nat) : Act → Prop
  | start {i : TaskInfo} (hi : s.world.asynq.tasks[k]? = some i) (hst : i.state = .pending) :
      Of s k (.start k)
  | ends {a : Act} {tid : Nat} {p : P Outcome} (ht : s.thread? tid = some ⟨.worker k, p⟩)
      (ha : a = .finish tid ∨ a = .crash tid) : Of s k a
  | idle {a : Act} {i : TaskInfo} (hi : s.world.asynq.tasks[k]? = some i)
      (hst : i.state = .orphaned ∨ i.state = .retry) : Of s k a

/-- A task step changes the state of one task. -/
theorem TaskStep.tasks {a : Act} {a' : Asynq} (h : TaskStep s a a') :
    ∃ k f, TaskStep.Of s k a ∧
      (∀ i, (f i).task = i.task ∧ (f i).enqueuedAt = i.enqueuedAt) ∧
      ∀ k', a'.tasks[k']? =
        if k' = k then (s.world.asynq.tasks[k']?).map f else s.world.asynq.tasks[k']? := by
  cases h with
  | @start k i hi hst =>
      refine ⟨k, _, .start hi hst, ?_, tasks_modify⟩
      exact fun i => ⟨rfl, rfl⟩
  | @settle tid k err ht =>
      cases err with
      | none =>
          refine ⟨k, fun i => { i with state := .completed }, .ends ht (.inl rfl), ?_, ?_⟩
          · exact fun i => ⟨rfl, rfl⟩
          · exact tasks_modify (a := s.world.asynq)
      | some err => exact ⟨k, _, .ends ht (.inl rfl), fail_task _, tasks_modify⟩
  | @orphan tid k p ht =>
      refine ⟨k, _, .ends ht (.inr rfl), ?_, tasks_modify⟩
      exact fun i => ⟨rfl, rfl⟩
  | @recover k i hi hst => exact ⟨k, _, .idle hi (.inl hst), fail_task _, tasks_modify⟩
  | @due k i hi hst =>
      refine ⟨k, _, .idle hi (.inr hst), ?_, tasks_modify⟩
      exact fun i => ⟨rfl, rfl⟩

/-- A task never changes what it is. -/
theorem step_task {a : Act} (h : step env s a = some s') {k : Nat} {i : TaskInfo}
    (hi : s.world.asynq.tasks[k]? = some i) :
    ∃ i', s'.world.asynq.tasks[k]? = some i' ∧ i'.task = i.task := by
  have htask : ∀ b a', TaskStep s b a' → ∃ i', a'.tasks[k]? = some i' ∧ i'.task = i.task := by
    intro b a' hta
    obtain ⟨k₀, f, -, hf, htasks⟩ := hta.tasks
    rw [htasks, hi]
    split
    · exact ⟨f i, rfl, (hf i).1⟩
    · exact ⟨i, rfl, rfl⟩
  cases steps_of_step h with
  | tick d => exact ⟨i, hi, rfl⟩
  | spawn => exact ⟨i, hi, rfl⟩
  | start _ hta => exact htask _ _ hta
  | call => exact ⟨i, (exec_changes _ _ _).task hi, rfl⟩
  | ends => exact ⟨i, hi, rfl⟩
  | endsWorker _ _ hta => exact htask _ _ hta
  | task _ hta => exact htask _ _ hta

/-- Every step keeps worker threads and tasks matched. -/
theorem threadsOk_step {a : Act} (hs : ThreadsOk s) (h : step env s a = some s') :
    ThreadsOk s' := by
  cases steps_of_step h with
  | tick d => exact ⟨hs.busy, hs.alone⟩
  | @spawn _ th hth hw =>
      have hrole : ∀ k, th.role ≠ .worker k := by
        cases hth with
        | start hi hst => exact absurd rfl (hw _)
        | submit => nofun
        | query => nofun
        | sweep => nofun
      have hold : ∀ tid k p, slot? (s.threads ++ [some ⟨th.role, th.prog⟩]) tid =
          some ⟨.worker k, p⟩ → s.thread? tid = some ⟨.worker k, p⟩ := by
        intro tid k p ht
        rcases slot?_append_cases ht with ht | ⟨-, heq⟩
        · exact ht
        · exact absurd (congrArg Thread.role heq).symm (hrole k)
      exact ⟨fun tid k p ht => hs.busy tid k p (hold tid k p ht),
        fun tid tid' k p p' ht ht' => hs.alone tid tid' k p p' (hold tid k p ht) (hold tid' k p' ht')⟩
  | @start k th a' hth ha =>
      obtain ⟨i, hi, hst, hrole⟩ : ∃ i, s.world.asynq.tasks[k]? = some i ∧ i.state = .pending ∧
          th.role = .worker k := by
        cases hth with
        | start hi hst => exact ⟨_, hi, hst, rfl⟩
      have hfree : ∀ tid p, s.thread? tid ≠ some ⟨.worker k, p⟩ := by
        intro tid p ht
        obtain ⟨i', hi', hact⟩ := hs.busy tid k p ht
        rw [hi] at hi'
        obtain rfl := Option.some.inj hi'
        rw [hst] at hact
        cases hact
      have hnew : a'.tasks[k]? = some { i with state := .active } := by
        cases ha with
        | start => rw [tasks_modify, if_pos rfl, hi, Option.map_some]
      have hother : ∀ k', k' ≠ k → a'.tasks[k']? = s.world.asynq.tasks[k']? := by
        intro k' hk
        cases ha with
        | start => rw [tasks_modify, if_neg hk]
      refine ⟨fun tid k' p ht => ?_, fun tid tid' k' p p' ht ht' => ?_⟩
      · rcases slot?_append_cases ht with ht | ⟨-, heq⟩
        · have hne : k' ≠ k := fun e => hfree tid p (e ▸ ht)
          show ∃ i, a'.tasks[k']? = some i ∧ i.state = .active
          rw [hother k' hne]
          exact hs.busy tid k' p ht
        · have hk : k' = k := by
            have := congrArg Thread.role heq
            rw [hrole] at this
            exact Role.worker.inj this
          subst hk
          exact ⟨_, hnew, rfl⟩
      · have hk : ∀ tid k' p, slot? (s.threads ++ [some ⟨th.role, th.prog⟩]) tid =
            some ⟨.worker k', p⟩ → (s.thread? tid = some ⟨.worker k', p⟩ ∧ k' ≠ k) ∨
              (tid = s.threads.length ∧ k' = k) := by
          intro tid k' p ht
          rcases slot?_append_cases ht with ht | ⟨htid, heq⟩
          · exact .inl ⟨ht, fun e => hfree tid p (e ▸ ht)⟩
          · have := congrArg Thread.role heq
            rw [hrole] at this
            exact .inr ⟨htid, Role.worker.inj this⟩
        rcases hk tid k' p ht with ⟨ht, hne⟩ | ⟨htid, hke⟩ <;>
          rcases hk tid' k' p' ht' with ⟨ht', hne'⟩ | ⟨htid', hke'⟩
        · exact hs.alone tid tid' k' p p' ht ht'
        · exact absurd hke' hne
        · exact absurd hke hne'
        · rw [htid, htid']
  | @call tid o role c k ht =>
      have hold : ∀ tid' k' p, slot? (s.threads.set tid
          (some ⟨role, k (c.exec o s.world).1⟩)) tid' = some ⟨.worker k', p⟩ →
          ∃ p, s.thread? tid' = some ⟨.worker k', p⟩ := by
        intro tid' k' p ht'
        rw [slot?_set ht] at ht'
        split at ht'
        · rename_i heq
          have := congrArg Thread.role (Option.some.inj ht')
          simp only at this
          subst heq
          exact ⟨_, this ▸ ht⟩
        · exact ⟨p, ht'⟩
      refine ⟨fun tid' k' p ht' => ?_, fun tid₁ tid₂ k' p p' h₁ h₂ => ?_⟩
      · obtain ⟨p, hp⟩ := hold tid' k' p ht'
        obtain ⟨i, hi, hact⟩ := hs.busy tid' k' p hp
        exact ⟨i, (exec_changes c o s.world).task hi, hact⟩
      · obtain ⟨_, h₁⟩ := hold tid₁ k' p h₁
        obtain ⟨_, h₂⟩ := hold tid₂ k' p' h₂
        exact hs.alone tid₁ tid₂ k' _ _ h₁ h₂
  | @ends a tid th ht ha hrole =>
      exact ⟨fun tid' k p ht' => hs.busy tid' k p (slot?_clear ht ht').1,
        fun tid₁ tid₂ k p p' h₁ h₂ =>
          hs.alone tid₁ tid₂ k p p' (slot?_clear ht h₁).1 (slot?_clear ht h₂).1⟩
  | @endsWorker a a' tid k p ht ha hta =>
      refine ⟨fun tid' k' p' ht' => ?_, fun tid₁ tid₂ k p p' h₁ h₂ =>
          hs.alone tid₁ tid₂ k p p' (slot?_clear ht h₁).1 (slot?_clear ht h₂).1⟩
      obtain ⟨hold, hne⟩ := slot?_clear ht ht'
      obtain ⟨i, hi, hact⟩ := hs.busy tid' k' p' hold
      obtain ⟨k₀, f, hof, -, htasks⟩ := hta.tasks
      refine ⟨i, ?_, hact⟩
      show a'.tasks[k']? = some i
      rw [htasks, if_neg, hi]
      rintro rfl
      cases hof with
      | start => rcases ha with ha | ha <;> cases ha
      | @ends _ tid₀ _ ht₀ ha₀ =>
          have htid : tid = tid₀ := by
            rcases ha with rfl | rfl <;> rcases ha₀ with ha₀ | ha₀ <;> cases ha₀ <;> rfl
          subst htid
          exact hne (hs.alone _ _ _ _ _ hold ht₀)
      | idle hi₀ hst₀ =>
          rw [hi] at hi₀
          obtain rfl := Option.some.inj hi₀
          rcases hst₀ with hst₀ | hst₀ <;> rw [hact] at hst₀ <;> cases hst₀
  | @task a a' ha hta =>
      refine ⟨fun tid' k' p' ht' => ?_, hs.alone⟩
      obtain ⟨i, hi, hact⟩ := hs.busy tid' k' p' ht'
      obtain ⟨k₀, f, hof, -, htasks⟩ := hta.tasks
      refine ⟨i, ?_, hact⟩
      show a'.tasks[k']? = some i
      rw [htasks, if_neg, hi]
      rintro rfl
      cases hof with
      | start => rcases ha with ⟨_, ha⟩ | ⟨_, ha⟩ <;> cases ha
      | ends ht₀ ha₀ =>
          rcases ha with ⟨_, rfl⟩ | ⟨_, rfl⟩ <;> rcases ha₀ with ha₀ | ha₀ <;> cases ha₀
      | idle hi₀ hst₀ =>
          rw [hi] at hi₀
          obtain rfl := Option.some.inj hi₀
          rcases hst₀ with hst₀ | hst₀ <;> rw [hact] at hst₀ <;> cases hst₀

/-- **A worker thread keeps its task until it ends**: nobody else touches it. -/
theorem working_step {a : Act} (hs : ThreadsOk s) (h : step env s a = some s') {tid k : Nat}
    (hw : s.working tid = some k) (ha : a ≠ .finish tid) (ha' : a ≠ .crash tid) :
    s'.working tid = some k ∧ s'.world.asynq.tasks[k]? = s.world.asynq.tasks[k]? := by
  obtain ⟨p, hp⟩ := thread_of_working hw
  obtain ⟨i, hi, hact⟩ := hs.busy tid k p hp
  have hw' : ∀ s' : System, (∃ p, s'.thread? tid = some ⟨.worker k, p⟩) →
      s'.working tid = some k := by
    rintro s' ⟨p, hp⟩
    rw [working, hp]
  have htask : ∀ b a', TaskStep s b a' → b ≠ .finish tid → b ≠ .crash tid →
      a'.tasks[k]? = s.world.asynq.tasks[k]? := by
    intro b a' hta hb hb'
    obtain ⟨k₀, f, hof, -, htasks⟩ := hta.tasks
    rw [htasks, if_neg]
    rintro rfl
    cases hof with
    | start hi₀ hst =>
        obtain rfl := Option.some.inj (hi.symm.trans hi₀)
        rw [hact] at hst
        cases hst
    | ends ht₀ ha₀ =>
        obtain rfl := hs.alone _ _ _ _ _ hp ht₀
        rcases ha₀ with rfl | rfl
        · exact hb rfl
        · exact hb' rfl
    | idle hi₀ hst =>
        obtain rfl := Option.some.inj (hi.symm.trans hi₀)
        rcases hst with hst | hst <;> rw [hact] at hst <;> cases hst
  have hnew : ∀ th : Thread, slot? (s.threads ++ [some th]) tid = some ⟨.worker k, p⟩ := by
    intro th
    rw [slot?_append, if_neg (Nat.ne_of_lt (slot?_lt hp))]
    exact hp
  cases steps_of_step h with
  | tick d => exact ⟨hw, rfl⟩
  | spawn => exact ⟨hw' _ ⟨p, hnew _⟩, rfl⟩
  | start _ hta => exact ⟨hw' _ ⟨p, hnew _⟩, htask _ _ hta ha ha'⟩
  | @call tid₀ o role c k₀ hth =>
      refine ⟨hw' _ ?_, ?_⟩
      · simp only [thread?, slot?_set hth]
        by_cases hne : tid = tid₀
        · subst hne
          obtain rfl := congrArg Thread.role (Option.some.inj (hth.symm.trans hp))
          exact ⟨_, if_pos rfl⟩
        · exact ⟨p, by rw [if_neg hne]; exact hp⟩
      · rw [hi]
        exact (exec_changes c o s.world).task hi
  | @ends a tid₀ th hth ha₀ hrole =>
      have hne : tid ≠ tid₀ := by
        rintro rfl
        obtain rfl := Option.some.inj (hth.symm.trans hp)
        exact hrole k rfl
      refine ⟨hw' _ ⟨p, ?_⟩, rfl⟩
      rw [thread?, remove, slot?_set hth, if_neg hne]
      exact hp
  | @endsWorker a a' tid₀ k₀ p₀ hth ha₀ hta =>
      have hne : tid ≠ tid₀ := by
        rintro rfl
        rcases ha₀ with rfl | rfl
        · exact ha rfl
        · exact ha' rfl
      refine ⟨hw' _ ⟨p, ?_⟩, htask _ _ hta ha ha'⟩
      simp only [thread?, remove, withAsynq, slot?_set hth, if_neg hne]
      exact hp
  | task _ hta => exact ⟨hw, htask _ _ hta ha ha'⟩

/-! ## Locks -/

/-- asynq changes only tasks that are not finished. -/
theorem TaskStep.Of.unfinished {k : Nat} {a : Act} (h : TaskStep.Of s k a) (hs : ThreadsOk s)
    {i : TaskInfo} (hi : s.world.asynq.tasks[k]? = some i) : i.unfinished = true := by
  obtain ⟨i', hi', hu⟩ : ∃ i', s.world.asynq.tasks[k]? = some i' ∧ i'.unfinished = true := by
    cases h with
    | start hi' hst => exact ⟨_, hi', by rw [TaskInfo.unfinished, hst]; rfl⟩
    | ends ht _ =>
        obtain ⟨i', hi', hact⟩ := hs.busy _ _ _ ht
        exact ⟨i', hi', by rw [TaskInfo.unfinished, hact]; rfl⟩
    | idle hi' hst =>
        refine ⟨_, hi', ?_⟩
        rcases hst with hst | hst <;> rw [TaskInfo.unfinished, hst] <;> rfl
  rw [hi] at hi'
  rw [Option.some.inj hi', hu]

/-- A task that is unfinished after a task step was so before. -/
theorem TaskStep.unfinished {a : Act} {a' : Asynq} (h : TaskStep s a a') (hs : ThreadsOk s)
    {k : Nat} {i : TaskInfo} (hi : a'.tasks[k]? = some i) (hu : i.unfinished = true) :
    ∃ i₀, s.world.asynq.tasks[k]? = some i₀ ∧ i₀.unfinished = true ∧ i₀.task = i.task ∧
      i₀.expires = i.expires := by
  obtain ⟨k₀, f, hof, hf, htasks⟩ := h.tasks
  rw [htasks] at hi
  split at hi
  · rename_i hk
    obtain ⟨i₀, hi₀, rfl⟩ := Option.map_eq_some_iff.mp hi
    refine ⟨i₀, hi₀, hof.unfinished hs (hk ▸ hi₀), (hf i₀).1.symm, ?_⟩
    rw [TaskInfo.expires, TaskInfo.expires, (hf i₀).1, (hf i₀).2]
  · exact ⟨i, hi, hu, rfl, rfl⟩

/-- A task step on a task that is unfinished keeps locks and tasks together. -/
theorem TaskStep.locksOk {a : Act} {a' : Asynq} (h : TaskStep s a a') (hs : ThreadsOk s)
    {now : Int} (hl : s.world.asynq.LocksOk now) : a'.LocksOk now := by
  have hfail : ∀ b i, (TaskInfo.fail b i).state = .completed → i.state = .completed := by
    intro b i hc
    unfold TaskInfo.fail at hc
    split at hc <;> cases hc
  cases h with
  | start hi hst =>
      refine hl.modify (fun i => ⟨rfl, rfl⟩) ?_ (fun i hc => nomatch hc)
      intro i hi' _
      exact (TaskStep.Of.start hi hst).unfinished hs hi'
  | @settle tid k err ht =>
      cases err with
      | none => exact hl.complete
      | some err =>
          apply hl.modify (fail_task _) _ (hfail _)
          intro i hi _
          exact (TaskStep.Of.ends ht (.inl rfl)).unfinished hs hi
  | @orphan tid k p ht =>
      refine hl.modify (fun i => ⟨rfl, rfl⟩) ?_ (fun i hc => nomatch hc)
      intro i hi _
      exact (TaskStep.Of.ends ht (.inr rfl)).unfinished hs hi
  | @recover k i hi hst =>
      apply hl.modify (fail_task _) _ (hfail _)
      intro i hi' _
      exact (TaskStep.Of.idle (a := .recover k) hi (.inl hst)).unfinished hs hi'
  | @due k i hi hst =>
      refine hl.modify (fun i => ⟨rfl, rfl⟩) ?_ (fun i hc => nomatch hc)
      intro i hi' _
      exact (TaskStep.Of.idle (a := .due k) hi (.inr hst)).unfinished hs hi'

/-- Every step keeps locks and tasks together. -/
theorem locksOk_step {a : Act} (hs : ThreadsOk s) (hl : s.world.asynq.LocksOk s.world.now)
    (h : step env s a = some s') : s'.world.asynq.LocksOk s'.world.now := by
  cases steps_of_step h with
  | tick d =>
      apply hl.tick
      show s.world.now ≤ s.world.now + (d : Int)
      omega
  | spawn => exact hl
  | start _ ha => exact ha.locksOk hs hl
  | @call tid o role c k ht =>
      have hch := exec_changes c o s.world
      show ((c.exec o s.world).2).asynq.LocksOk ((c.exec o s.world).2).now
      rw [hch.now]
      rcases hch.asynq with heq | ⟨t, -, hen⟩
      · rw [heq]
        exact hl
      · exact hl.enqueue hen
  | ends => exact hl
  | endsWorker _ _ hta => exact hta.locksOk hs hl
  | task _ hta => exact hta.locksOk hs hl

/-! ## The rely–guarantee rule for runs -/

/-- The state is within the invariant, and every thread is safe. -/
structure Holds (S : Spec Call Call.Result World) (Q : Role → Outcome → World → Prop)
    (s : System) : Prop where
  inv : S.Inv s.world
  safe : ∀ tid th, s.thread? tid = some th → Safe S (Q th.role) th.prog s.world

/-- What has to be shown about a specification of the calls: that steps meeting `P` respect it. -/
structure Sound (env : Env) (S : Spec Call Call.Result World) (Q : Role → Outcome → World → Prop)
    (P : System → Act → Prop) : Prop where
  /-- A call does what the specification says of it. -/
  call : ∀ s tid o role c k, P s (.call tid o) → s.thread? tid = some ⟨role, .call c k⟩ →
    S.Exec c s.world (c.exec o s.world).1 (c.exec o s.world).2
  /-- The clock is something that threads rely on. -/
  tick : ∀ w d, S.Inv w → S.Rely w { w with now := w.now + (d : Int) } ∧
    S.Inv { w with now := w.now + (d : Int) }
  /-- So is what asynq does. -/
  tasks : ∀ s a a', Holds S Q s → ThreadsOk s → P s a → TaskStep s a a' →
    S.Rely s.world { s.world with asynq := a' } ∧ S.Inv { s.world with asynq := a' }
  /-- A thread starts out safe. -/
  fresh : ∀ s a th, S.Inv s.world → P s a → Fresh env s a th →
    Safe S (Q th.role) th.prog s.world

variable {S : Spec Call Call.Result World} {Q : Role → Outcome → World → Prop}
  {P : System → Act → Prop}

/-- Threads that are safe stay safe when the world makes a step that they rely on. -/
theorem Holds.rely (hs : Holds S Q s) {w : World} (hr : S.Rely s.world w) (hi : S.Inv w) :
    Holds S Q { s with world := w } :=
  ⟨hi, fun tid th ht => (hs.safe tid th ht).stable hr⟩

/-- A thread can be started that is safe. -/
theorem Holds.spawn (hs : Holds S Q s) {role : Role} {p : OctoConv.P Outcome}
    (hp : Safe S (Q role) p s.world) : Holds S Q (s.spawn role p) := by
  refine ⟨hs.inv, fun tid th ht => ?_⟩
  rcases slot?_append_cases ht with ht | ⟨-, rfl⟩
  · exact hs.safe tid th ht
  · exact hp

/-- A thread can be removed. -/
theorem Holds.remove (hs : Holds S Q s) {th : Thread} (ht : s.thread? tid = some th) :
    Holds S Q (s.remove tid) :=
  ⟨hs.inv, fun tid' th' ht' => hs.safe tid' th' (slot?_clear ht ht').1⟩

/-- **Every step that meets the condition keeps every thread safe.** -/
theorem Sound.step {a : Act} (hS : Sound env S Q P) (hs : Holds S Q s) (ht : ThreadsOk s)
    (hP : P s a) (h : System.step env s a = some s') : Holds S Q s' := by
  cases steps_of_step h with
  | tick d =>
      have htick := hS.tick s.world d hs.inv
      exact hs.rely htick.1 htick.2
  | @spawn a th hth _ => exact hs.spawn (hS.fresh s _ th hs.inv hP hth)
  | @start k th a' hth ha =>
      have htasks := hS.tasks s _ a' hs ht hP ha
      exact (hs.rely htasks.1 htasks.2).spawn ((hS.fresh s _ th hs.inv hP hth).stable htasks.1)
  | @call tid o role c k hth =>
      have hexec := hS.call s tid o role c k hP hth
      obtain ⟨hr, hi, hk⟩ := (hs.safe tid _ hth).step hs.inv hexec
      refine ⟨hi, fun tid' th' ht' => ?_⟩
      have ht' : slot? (s.threads.set tid _) tid' = some th' := ht'
      rw [slot?_set hth] at ht'
      split at ht'
      · obtain rfl := Option.some.inj ht'
        exact hk
      · exact (hs.safe tid' th' ht').stable hr
  | ends hth _ _ => exact hs.remove hth
  | @endsWorker a a' tid k p hth ha hta =>
      have htasks := hS.tasks s _ a' hs ht hP hta
      exact (hs.rely htasks.1 htasks.2).remove hth
  | @task a a' ha hta =>
      have htasks := hS.tasks s _ a' hs ht hP hta
      exact hs.rely htasks.1 htasks.2

/-- **A thread that promises more than its role** keeps its promise through every step. -/
theorem Sound.keeps {L : Outcome → World → Prop} {a : Act} (hS : Sound env S Q P) (hs : Holds S Q s)
    (ht : ThreadsOk s) (hP : P s a) (h : System.step env s a = some s') (htid : tid < s.threads.length)
    (hsafe : ∀ th, s.thread? tid = some th → Safe S L th.prog s.world) {th : Thread}
    (hth : s'.thread? tid = some th) : Safe S L th.prog s'.world := by
  have hspawned : ∀ {u : System} {th₀ : Thread}, u.threads = s.threads →
      (u.spawn th₀.role th₀.prog).thread? tid = some th → s.thread? tid = some th := by
    intro u th₀ hu ht
    rw [thread?, spawn, hu] at ht
    rcases slot?_append_cases ht with ht | ⟨heq, -⟩
    · exact ht
    · exact absurd heq (Nat.ne_of_lt htid)
  cases steps_of_step h with
  | tick d => exact (hsafe th hth).stable (hS.tick s.world d hs.inv).1
  | spawn => exact hsafe th (hspawned rfl hth)
  | @start k th₀ a' _ ha =>
      exact (hsafe th (hspawned rfl hth)).stable (hS.tasks s _ a' hs ht hP ha).1
  | @call tid' o role c k ht₀ =>
      have hexec := hS.call s tid' o role c k hP ht₀
      rw [thread?, slot?_set ht₀] at hth
      split at hth
      · rename_i heq
        subst heq
        obtain rfl := Option.some.inj hth
        exact ((hsafe _ ht₀).step hs.inv hexec).2.2
      · exact (hsafe th hth).stable ((hs.safe tid' _ ht₀).step hs.inv hexec).1
  | ends ht₀ => exact hsafe th (slot?_clear ht₀ hth).1
  | @endsWorker a a' tid' k p ht₀ _ hta =>
      exact (hsafe th (slot?_clear ht₀ hth).1).stable (hS.tasks s _ a' hs ht hP hta).1
  | @task a a' _ hta => exact (hsafe th hth).stable (hS.tasks s _ a' hs ht hP hta).1

/-- What is kept whatever is specified: threads, tasks and locks belong together. -/
structure Wf (s : System) : Prop where
  threads : ThreadsOk s
  locks : s.world.asynq.LocksOk s.world.now

/-- The start is well formed. -/
theorem wf_init (now : Int) : Wf (init now) :=
  ⟨threadsOk_init now, Asynq.LocksOk.empty now⟩

/-- Every step keeps a state well formed. -/
theorem wf_step {a : Act} (hs : Wf s) (h : System.step env s a = some s') : Wf s' :=
  ⟨threadsOk_step hs.threads h, locksOk_step hs.threads hs.locks h⟩

/-- **The run rule.** In a run whose steps all meet the condition, every state is well formed,
within the invariant, and all its threads are safe. -/
theorem Sound.run (hS : Sound env S Q P) {tr : List (System × Act)}
    (h : Exec (System.step env) s tr s') (hwf : Wf s) (hs : Holds S Q s)
    (hP : ∀ x ∈ tr, P x.1 x.2) :
    (∀ x ∈ tr, Wf x.1 ∧ Holds S Q x.1) ∧ Wf s' ∧ Holds S Q s' :=
  h.invariant (I := fun s => Wf s ∧ Holds S Q s) (P := P) (fun _ _ _ hi hP hstep =>
    ⟨wf_step hi.1 hstep, hS.step hi.2 hi.1.threads hP hstep⟩) ⟨hwf, hs⟩ hP

/-- At the start every thread keeps its promise. -/
theorem holds_init {now : Int} (h : S.Inv (World.init now)) : Holds S Q (init now) :=
  ⟨h, fun tid th ht => by simp [thread?, init] at ht⟩

/-! ## The monitor rule for runs -/

variable {G : Type} {M : Monitor Call Call.Result G} {R : Outcome → G → Prop}
  {K K' : Nat → Role → G → Prop}

/-- Every thread follows the monitor, in a ghost state that fits the thread. -/
def Monitored (M : Monitor Call Call.Result G) (R : Outcome → G → Prop)
    (K : Nat → Role → G → Prop) (s : System) : Prop :=
  ∀ tid th, s.thread? tid = some th → ∃ g, Follows M R th.prog g ∧ K tid th.role g

/-- **Every step keeps every thread with its monitor**, if what fits a thread survives the steps of
the others, and its own calls lead to something that fits. -/
theorem Monitored.step {a : Act} (hs : Monitored M R K s) (h : System.step env s a = some s')
    (hfresh : ∀ th, Fresh env s a th →
      ∃ g, Follows M R th.prog g ∧ K' s.threads.length th.role g)
    (hother : ∀ tid th g, (∀ o, a ≠ .call tid o) → s'.thread? tid = some th →
      s.thread? tid = some th → Follows M R th.prog g → K tid th.role g → K' tid th.role g)
    (hcall : ∀ tid o role c k g, a = .call tid o → s.thread? tid = some ⟨role, .call c k⟩ →
      M.Allows g c → K tid role g → K' tid role (M.next g c (c.exec o s.world).1)) :
    Monitored M R K' s' := by
  have hkeep : ∀ tid th, (∀ o, a ≠ .call tid o) → s'.thread? tid = some th →
      s.thread? tid = some th → ∃ g, Follows M R th.prog g ∧ K' tid th.role g := by
    intro tid th hne ht' ht
    obtain ⟨g, hp, hg⟩ := hs tid th ht
    exact ⟨g, hp, hother tid th g hne ht' ht hp hg⟩
  intro tid th ht
  cases steps_of_step h with
  | tick d => exact hkeep tid th nofun ht ht
  | @spawn a th₀ hth _ =>
      rcases slot?_append_cases ht with hold | ⟨rfl, rfl⟩
      · refine hkeep tid th ?_ ht hold
        rintro o rfl
        cases hth
      · exact hfresh th₀ hth
  | @start k th₀ a' hth _ =>
      rcases slot?_append_cases ht with hold | ⟨rfl, rfl⟩
      · exact hkeep tid th nofun ht hold
      · exact hfresh th₀ hth
  | @call tid₀ o role c k hth =>
      have ht₀ : slot? (s.threads.set tid₀ _) tid = some th := ht
      rw [slot?_set hth] at ht₀
      split at ht₀
      · rename_i heq
        subst heq
        obtain rfl := Option.some.inj ht₀
        obtain ⟨g, ⟨hallow, hp⟩, hg⟩ := hs tid _ hth
        exact ⟨_, hp _, hcall tid o role c k g rfl hth hallow hg⟩
      · rename_i hne
        refine hkeep tid th ?_ ht ht₀
        rintro _ heq
        exact hne (Act.call.inj heq).1.symm
  | ends hth ha _ =>
      refine hkeep tid th ?_ ht (slot?_clear hth ht).1
      rintro o rfl
      rcases ha with ha | ha <;> cases ha
  | endsWorker hth ha _ =>
      refine hkeep tid th ?_ ht (slot?_clear hth ht).1
      rintro o rfl
      rcases ha with ha | ha <;> cases ha
  | task ha _ =>
      refine hkeep tid th ?_ ht ht
      rintro o rfl
      rcases ha with ⟨_, ha⟩ | ⟨_, ha⟩ <;> cases ha

/-- At the start every thread follows its monitor. -/
theorem monitored_init {now : Int} : Monitored M R K (init now) :=
  fun tid th ht => by simp [thread?, init] at ht

/-! ## An example -/

/-- The default configuration, with a converter for everything. -/
def exampleEnv : Env := Env.default (fun _ _ => true) (fun _ _ => none) fun _ => "image/webp"

/-- A job with a webhook. -/
def exampleJob : CreateParams :=
  ⟨7, 3, "convert", .image, "png", "webp", "https://example.org/hook", [], "", 0,
    ⟨0, "uploads/7/0-a.png", "a.png", "png", 4, "image/png"⟩⟩

/-- The world in which the job has been created and not enqueued. -/
def createdWorld : World :=
  (machine.run (fun _ => some {}) (ask (.create exampleJob)) (World.init 0)).2

/-- The world in which it is done, and its webhook enqueued. -/
def doneWorld : World :=
  (machine.run (fun _ => some {}) (handleImageConvert exampleEnv 7) createdWorld).2

/-- The job is created and enqueued, and a worker converts it; the worker's thread is number 1. -/
def exampleActs : List Act :=
  [.submit exampleJob, .call 0 {}, .call 0 {}, .finish 0, .start 0] ++
    List.replicate 15 (.call 1 {}) ++ [.finish 1]

/-- The job waits in its queue and is recovered three times, whenever its lock has expired, by the
sweeps of the threads 1 to 3. -/
def recoveredActs : List Act :=
  [.submit exampleJob, .call 0 {}, .call 0 {}, .finish 0] ++
  .tick 757000000000 :: (.sweep :: List.replicate 5 (.call 1 {})) ++
  .tick 757000000000 :: (.sweep :: List.replicate 5 (.call 2 {})) ++
  .tick 757000000000 :: (.sweep :: List.replicate 5 (.call 3 {}))

/-- A fourth sweep finds the job at the recovery cap and is about to fail it. -/
def cappedActs : List Act := recoveredActs ++ [.sweep, .call 4 {}, .call 4 {}, .call 4 {}]

end System

end OctoConv
