import OctoConv.System.Unfinished

/-!
# Nothing is dated in the future

The scans of the sweep compare dates in the rows with the clock. In every reachable state the dates are
there and lie in the past, so whatever is left alone becomes stale with time.

## Main results

* `dated_run` — the dates of a run.
* `lock_expires` — a unique lock lasts for the lifetime of the task that would take it, at most.
-/

namespace OctoConv.System

open Conc Worker

/-- The dates of a job. -/
structure JobDated (now : Int) (j : Job) : Prop where
  created : j.createdAt ≤ now
  started : ∀ t ∈ j.startedAt, t ≤ now
  active : j.status = .active → j.startedAt.isSome = true
  finished : ∀ t ∈ j.finishedAt, t ≤ now
  terminal : j.status.terminal = true → j.finishedAt.isSome = true

/-- Jobs and tasks carry their dates, and none lies in the future. -/
structure Dated (w : World) : Prop where
  job : ∀ id j, w.db.job? id = some j → JobDated w.now j
  task : ∀ i ∈ w.asynq.tasks, i.enqueuedAt ≤ w.now

variable {env : Env} {s s' : System}

/-- Nothing is dated later than the start. -/
theorem dated_init (now : Int) : Dated (World.init now) :=
  ⟨fun id j h => by simp [World.init, DB.empty, DB.job?] at h,
    fun i h => by simp [World.init, Asynq.empty] at h⟩

/-- A job that is dated stays so while time passes. -/
theorem JobDated.later {now now' : Int} {j : Job} (h : JobDated now j) (hle : now ≤ now') :
    JobDated now' j where
  created := by
    have := h.created
    omega
  started t ht := by
    have := h.started t ht
    omega
  active := h.active
  finished t ht := by
    have := h.finished t ht
    omega
  terminal := h.terminal

/-- A status change writes the present date. -/
theorem JobDated.write {now : Int} {j : Job} (h : JobDated now j) (wr : Write) :
    JobDated now (wr.transition.apply now j) := by
  rcases wr with _ | _ | ⟨code, message, detail⟩ | reason
  · refine ⟨h.created, fun t ht => ?_, fun _ => ?_, h.finished, Bool.noConfusion⟩
    · rcases hst : j.startedAt with _ | t'
      · simp only [Write.transition, markActive, hst, Option.none_or, Option.mem_some_iff] at ht
        omega
      · simp only [Write.transition, markActive, hst, Option.some_or, Option.mem_some_iff] at ht
        exact h.started t (by rw [hst, ht]; rfl)
    · rcases hst : j.startedAt with _ | t'
      · simp [Write.transition, markActive, hst]
      · simp [Write.transition, markActive, hst]
  · refine ⟨h.created, h.started, Status.noConfusion, fun t ht => ?_, fun _ => rfl⟩
    obtain rfl := Option.mem_some_iff.mp ht
    exact Int.le_refl _
  · refine ⟨h.created, h.started, Status.noConfusion, fun t ht => ?_, fun _ => rfl⟩
    obtain rfl := Option.mem_some_iff.mp ht
    exact Int.le_refl _
  · exact ⟨h.created, h.started, Status.noConfusion, h.finished, Bool.noConfusion⟩

/-- Every call keeps the dates. -/
theorem Dated.call {w w' : World} {c : Call} (h : Dated w) (hch : Changes w c w') : Dated w' := by
  have hnow := hch.now
  refine ⟨fun id j hj => ?_, fun i hi => ?_⟩
  · rw [hnow]
    cases hch with
    | @create p newID jobs hins =>
      change (w.db.withJob jobs (DB.jobIDOf newID p) p.input).job? id = some j at hj
      rw [DB.job?_withJob hins] at hj
      split at hj
      · obtain rfl := Option.some.inj hj
        exact ⟨Int.le_refl _, nofun, nofun, nofun, nofun⟩
      · exact h.job id j hj
    | @write id' wr j' hj' _ =>
      change DB.job? (DB.addEvent _ _) id = some j at hj
      rw [job?_write hj'] at hj
      split at hj
      · obtain rfl := Option.some.inj hj
        exact (h.job id' j' hj').write wr
      · exact h.job id j hj
    | nothing => exact h.job id j hj
    | addOutput => exact h.job id j hj
    | gap => exact h.job id j hj
    | recordAttempt => exact h.job id j hj
    | markDeadLetter => exact h.job id j hj
    | enqueue => exact h.job id j hj
    | putObject => exact h.job id j hj
    | post => exact h.job id j hj
  · rw [hnow]
    rcases hch.asynq with heq | ⟨t, -, hen⟩
    · exact h.task i (heq ▸ hi)
    · rw [(Asynq.enqueue_ok hen).2.2.1] at hi
      rcases List.mem_append.mp hi with hi | hi
      · exact h.task i hi
      · rw [List.mem_singleton.mp hi]

/-- So does every step of the queue. -/
theorem Dated.tasks {a : Act} {a' : Asynq} (h : Dated s.world) (hta : TaskStep s a a') :
    Dated { s.world with asynq := a' } := by
  refine ⟨h.job, fun i hi => ?_⟩
  obtain ⟨k, f, -, hf, htasks⟩ := hta.tasks
  obtain ⟨k', hk'⟩ := List.getElem?_of_mem hi
  change a'.tasks[k']? = some i at hk'
  rw [htasks] at hk'
  split at hk'
  · obtain ⟨i', hi', rfl⟩ := Option.map_eq_some_iff.mp hk'
    rw [(hf i').2]
    exact h.task i' (List.mem_of_getElem? hi')
  · exact h.task i (List.mem_of_getElem? hk')

/-- So does the clock. -/
theorem Dated.tick {w : World} (h : Dated w) (d : Nat) : Dated { w with now := w.now + (d : Int) } := by
  have hle : w.now ≤ w.now + (d : Int) := by omega
  refine ⟨fun id j hj => (h.job id j hj).later hle, fun i hi => ?_⟩
  have := h.task i hi
  show i.enqueuedAt ≤ w.now + (d : Int)
  omega

/-- So does every step of the system. -/
theorem dated_step {a : Act} (h : Dated s.world) (hstep : step env s a = some s') :
    Dated s'.world := by
  cases steps_of_step hstep with
  | tick d => exact h.tick d
  | spawn => exact h
  | start _ hta => exact h.tasks hta
  | call => exact h.call (exec_changes _ _ _)
  | ends => exact h
  | endsWorker _ _ hta => exact h.tasks hta
  | task _ hta => exact h.tasks hta

/-- What holds in every state that a run can reach. -/
structure Sane (env : Env) (s : System) : Prop where
  wf : Wf s
  ok : Holds (contract env False) Returns s
  dated : Dated s.world

/-- **The dates of a run.** -/
theorem dated_run {now : Int} {tr : List (System × Act)}
    (h : Exec (System.step env) (System.init now) tr s) : Sane env s := by
  obtain ⟨-, hwf, hok⟩ := contract_run False h False.elim
  have hdated := h.invariant (I := fun s => Dated s.world) (P := fun _ _ => True)
    (fun s a s' hs _ hstep => dated_step hs hstep) (dated_init now) fun _ _ => trivial
  exact ⟨hwf, hok, hdated.2⟩

/-- A sane state stays so in a run. -/
theorem Sane.run {tr : List (System × Act)} (hs : Sane env s) (h : Exec (System.step env) s tr s') :
    Sane env s' := by
  obtain ⟨-, hwf, hok⟩ := (contract_sound env False).run h hs.wf hs.ok fun _ _ hfalse => hfalse.elim
  have hdated := h.invariant (I := fun s => Dated s.world) (P := fun _ _ => True)
    (fun s a s' hs _ hstep => dated_step hs hstep) hs.dated fun _ _ => trivial
  exact ⟨hwf, hok, hdated.2⟩

/-- **A lock lasts for the lifetime of the task that would take it**, counted from now, at most. -/
theorem lock_expires (hs : Sane env s) {t : Task} (ht : TaskOk env False s.world t) {l : Lock}
    (hl : s.world.asynq.locks t.key = some l) : l.expires ≤ s.world.now + t.uniqueTTL := by
  obtain ⟨i, hi, hkey, hexp, -⟩ := hs.wf.locks.owned t.key l hl
  have hmem := List.mem_of_getElem? hi
  have htype : i.task.typename = t.typename := congrArg UniqueKey.typename hkey
  have hjob : i.task.jobID = t.jobID := congrArg UniqueKey.payload hkey
  have htask : i.task = t := task_unique hs.ok hmem
    (show i.task.typename.isConvert = t.typename.isConvert by rw [htype]) ht rfl hjob
  have hdate := hs.dated.task i hmem
  rw [← hexp, TaskInfo.expires, htask]
  omega

end OctoConv.System
