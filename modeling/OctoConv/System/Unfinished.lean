import OctoConv.System.Contract

/-!
# The unfinished tasks of a job

A job should have at most one task of each kind, a convert task and a webhook task, that may still
be executed. The only guard is the unique lock of the task, which starts at its enqueue and is not
refreshed; a task that waits longer than its lock lives no longer has a guard.

## Main result

* `oneTask_iff` — in a run no job ever has two unfinished tasks of a kind iff no task outlives its
  lock up to the next accepted enqueue.
-/

namespace OctoConv.System

open Conc Worker

/-- Task number `k` is a task of the job, a convert task or not, that may still be executed. -/
def Unfinished (convert : Bool) (s : System) (id : UUID) (k : Nat) : Prop :=
  ∃ i ∈ s.world.asynq.tasks[k]?, i.task.typename.isConvert = convert ∧
    i.task.jobID = id ∧ i.unfinished = true

instance (convert : Bool) (s : System) (id : UUID) (k : Nat) :
    Decidable (Unfinished convert s id k) :=
  inferInstanceAs (Decidable (∃ i ∈ s.world.asynq.tasks[k]?, _))

/-- Thread `tid` enqueues `t`, and Redis accepts it. -/
def Accepts (s : System) (a : Act) (tid : Nat) (t : Task) : Prop :=
  ∃ o b, a = .call tid o ∧ s.enqueuing tid = some t ∧ (∀ err, o.fault ≠ .aborted err) ∧
    s.world.asynq.enqueue s.world.now t = .ok b

/-- When a task of a job is accepted, the unfinished ones of its kind that the job already has were
enqueued less than their TTL ago. -/
def WithinTTL (convert : Bool) (s : System) (a : Act) : Prop :=
  ∀ tid t, Accepts s a tid t → t.typename.isConvert = convert →
    ∀ (k : Nat) i, s.world.asynq.tasks[k]? = some i → i.task.typename.isConvert = convert →
      i.task.jobID = t.jobID → i.unfinished = true → s.world.now - i.enqueuedAt < i.task.uniqueTTL

variable {env : Env} {s s' : System} {a : Act} {tid : Nat} {t : Task} {id : UUID}

/-! ## Accepted enqueues -/

/-- The tasks of one kind of one job are all the same task: its convert task is determined by the
engine in its row. -/
theorem task_unique {convert : Bool} {i : TaskInfo} (hs : Holds (contract env False) Returns s)
    (hi : i ∈ s.world.asynq.tasks) (hic : i.task.typename.isConvert = convert)
    (ht : TaskOk env False s.world t) (htc : t.typename.isConvert = convert)
    (hid : i.task.jobID = t.jobID) : i.task = t := by
  have hiok := hs.inv.tasks i hi
  cases convert with
  | true =>
      obtain ⟨j, hj, hconv⟩ := hiok.convert hic
      obtain ⟨j', hj', hconv'⟩ := ht.convert htc
      rw [hid] at hj hconv
      obtain rfl := Option.some.inj (hj.symm.trans hj')
      exact Option.some.inj (hconv.symm.trans hconv')
  | false => rw [hiok.webhook hic, ht.webhook htc, hid]

/-- A task that is accepted may be enqueued. -/
theorem accepts_taskOk (hs : Holds (contract env False) Returns s) (ha : Accepts s a tid t) :
    TaskOk env False s.world t := by
  obtain ⟨o, b, -, ht, -, -⟩ := ha
  obtain ⟨role, k, hth⟩ := thread_of_enqueuing ht
  exact (hs.safe tid _ hth).pre hs.inv

/-- While the tasks are within their TTL, a task is accepted only for a job that has no unfinished
one of its kind. -/
theorem not_unfinished_of_accepts {convert : Bool} (hwf : Wf s)
    (hs : Holds (contract env False) Returns s) (ha : Accepts s a tid t)
    (htc : t.typename.isConvert = convert) (hP : WithinTTL convert s a) (k : Nat) :
    ¬ Unfinished convert s t.jobID k := by
  rintro ⟨i, hi, hic, hid, hu⟩
  have hlt := hP tid t ha htc k i hi hic hid hu
  have htask := task_unique hs (List.mem_of_getElem? hi) hic (accepts_taskOk hs ha) htc hid
  have hlive : s.world.now < i.expires := by
    unfold TaskInfo.expires
    omega
  have hheld := hwf.locks.held k i hi hu hlive
  obtain ⟨o, b, -, -, -, hen⟩ := ha
  have hfree := (Asynq.enqueue_ok hen).2.1
  rw [htask] at hheld
  rw [Asynq.locked_iff.mpr ⟨_, hheld, hlive⟩] at hfree
  cases hfree

/-- An enqueue that answers without an error was accepted. -/
theorem accepts_of_exec_ok {o : Obs} {role : Role} {k : (Call.enqueue t).Result → P Outcome} {b : Unit}
    (hth : s.thread? tid = some ⟨role, .call (.enqueue t) k⟩)
    (h : ((Call.enqueue t).exec o s.world).1 = .ok b) : Accepts s (.call tid o) tid t := by
  have henq : s.enqueuing tid = some t := by
    rw [enqueuing, hth]
  have hfault : ∀ err, o.fault ≠ .aborted err := by
    intro err hf
    rw [Call.exec, hf] at h
    cases h
  rw [exec_ok h] at h
  simp only [Call.effect] at h
  rcases hen : s.world.asynq.enqueue s.world.now t with err | b
  · rw [hen] at h
    cases h
  · exact ⟨o, b, rfl, henq, hfault, hen⟩

/-- If tasks are always within their TTL, they are so whenever one is accepted. -/
theorem withinTTL_of_tasks {convert : Bool} (h : ∀ i ∈ s.world.asynq.tasks,
    s.world.now - i.enqueuedAt < i.task.uniqueTTL) : WithinTTL convert s a :=
  fun _ _ _ _ _ i hi _ _ _ => h i (List.mem_of_getElem? hi)

/-- What an accepted enqueue leaves. -/
theorem step_of_accepts (ha : Accepts s a tid t) (h : step env s a = some s') :
    s'.world.asynq.tasks = s.world.asynq.tasks ++ [⟨t, .pending, 0, s.world.now⟩] := by
  obtain ⟨o, b, rfl, ht, hfault, hen⟩ := ha
  obtain ⟨role, k, hth⟩ := thread_of_enqueuing ht
  simp only [step, hth, Option.some.injEq] at h
  subst h
  have heffect : ((Call.enqueue t).effect o s.world).2.asynq = b := by
    simp only [Call.effect, hen]
  rw [← (Asynq.enqueue_ok hen).2.2.1, ← heffect]
  rcases hf : o.fault with _ | err | err
  · simp only [Call.exec, hf]
  · exact absurd hf (hfault err)
  · simp only [Call.exec, hf, Call.lost]

/-- A step that is not an accepted enqueue adds no task. -/
theorem step_tasks (convert : Bool) (hwf : Wf s) (h : step env s a = some s') :
    (∃ tid t, Accepts s a tid t) ∨
      ∀ id k, Unfinished convert s' id k → Unfinished convert s id k := by
  have hframe : ∀ a', TaskStep s a a' → ∀ id k, Unfinished convert (s.withAsynq a') id k →
      Unfinished convert s id k := by
    rintro a' hta id k ⟨i, hi, hic, hid, hu⟩
    obtain ⟨i₀, hi₀, hu₀, htask, -⟩ := hta.unfinished hwf.threads hi hu
    exact ⟨i₀, hi₀, htask ▸ hic, htask ▸ hid, hu₀⟩
  cases steps_of_step h with
  | tick d => exact .inr fun id k hu => hu
  | spawn => exact .inr fun id k hu => hu
  | start _ hta => exact .inr (hframe _ hta)
  | @call tid o role c k hth =>
      rcases (exec_changes c o s.world).asynq with heq | ⟨t, rfl, hen⟩
      · refine .inr fun id k hu => ?_
        unfold Unfinished at hu ⊢
        rwa [← heq]
      · by_cases hab : ∃ err, o.fault = .aborted err
        · obtain ⟨err, hf⟩ := hab
          refine .inr fun id k hu => ?_
          simp only [Call.exec, hf, Call.aborted] at hu
          exact hu
        · refine .inl ⟨tid, t, o, _, rfl, ?_, fun err hf => hab ⟨err, hf⟩, hen⟩
          rw [enqueuing, hth]
  | ends => exact .inr fun id k hu => hu
  | endsWorker _ _ hta => exact .inr (hframe _ hta)
  | task _ hta => exact .inr (hframe _ hta)

/-- The tasks of a job after a task was accepted: the old ones, and the new one. -/
theorem unfinished_of_accepts {convert : Bool} {k : Nat} (ha : Accepts s a tid t)
    (h : step env s a = some s') (hk : Unfinished convert s' id k) :
    Unfinished convert s id k ∨
      k = s.world.asynq.tasks.length ∧ t.typename.isConvert = convert ∧ t.jobID = id := by
  obtain ⟨i, hi, hic, hid, hu⟩ := hk
  rw [Option.mem_def, step_of_accepts ha h, List.getElem?_append] at hi
  split at hi
  · exact .inl ⟨i, hi, hic, hid, hu⟩
  · rename_i hlt
    have hlen := (List.getElem?_eq_some_iff.mp hi).1
    rw [List.length_singleton] at hlen
    have hk : k = s.world.asynq.tasks.length := by omega
    subst hk
    rw [Nat.sub_self] at hi
    obtain rfl := Option.some.inj hi
    exact .inr ⟨rfl, hic, hid⟩

/-- No job has two unfinished tasks of this kind. -/
def OneTask (convert : Bool) (s : System) : Prop :=
  ∀ id k k', Unfinished convert s id k → Unfinished convert s id k' → k = k'

/-- At the start no job has two tasks. -/
theorem oneTask_init (convert : Bool) (now : Int) : OneTask convert (init now) := by
  rintro id k k' ⟨i, hi, -⟩
  simp [init, World.init, Asynq.empty] at hi

/-- **A step within the TTL adds no second task.** -/
theorem oneTask_step {convert : Bool} (hwf : Wf s) (hs : Holds (contract env False) Returns s)
    (hone : OneTask convert s) (hP : WithinTTL convert s a) (h : step env s a = some s') :
    OneTask convert s' := by
  intro id k k' hk hk'
  rcases step_tasks convert hwf h with ⟨tid, t, ha⟩ | hold
  · have hno : t.typename.isConvert = convert → ∀ k, ¬ Unfinished convert s t.jobID k :=
      fun htc => not_unfinished_of_accepts hwf hs ha htc hP
    rcases unfinished_of_accepts ha h hk with hold | ⟨heq, htc, hid⟩ <;>
      rcases unfinished_of_accepts ha h hk' with hold' | ⟨heq', htc', hid'⟩
    · exact hone id k k' hold hold'
    · exact absurd (hid' ▸ hold) (hno htc' k)
    · exact absurd (hid ▸ hold') (hno htc k')
    · rw [heq, heq']
  · exact hone id k k' (hold id k hk) (hold id k' hk')

/-- **One task exactly as long as the tasks are within their TTL** whenever one is accepted. -/
theorem oneTask_iff {convert : Bool} {now : Int} {tr : List (System × Act)}
    (h : Exec (System.step env) (System.init now) tr s) :
    ((∀ x ∈ tr, OneTask convert x.1) ∧ OneTask convert s) ↔
      ∀ x ∈ tr, WithinTTL convert x.1 x.2 := by
  constructor
  · rintro ⟨halone, hlast⟩ x hx tid t hacc htc k i hi hic hid hu
    obtain ⟨s', hstep⟩ := h.step_of_mem hx
    have hone : OneTask convert s' := by
      rcases h.next_of_mem hx hstep with rfl | ⟨y, hy, rfl⟩
      · exact hlast
      · exact halone y hy
    -- the accepted task would be a second one
    have htasks := step_of_accepts hacc hstep
    have hlt := (List.getElem?_eq_some_iff.mp hi).1
    have hold : Unfinished convert s' t.jobID k := by
      refine ⟨i, ?_, hic, hid, hu⟩
      rw [Option.mem_def, htasks, List.getElem?_append_left hlt, hi]
    have hnew : Unfinished convert s' t.jobID x.1.world.asynq.tasks.length := by
      refine ⟨⟨t, .pending, 0, x.1.world.now⟩, ?_, htc, rfl, rfl⟩
      rw [Option.mem_def, htasks, List.getElem?_concat_length]
    have := hone _ _ _ hold hnew
    omega
  · intro hP
    have hrun := h.invariant (P := WithinTTL convert)
      (I := fun s => (Wf s ∧ Holds (contract env False) Returns s) ∧ OneTask convert s)
      (fun s a s' hI hP hstep => ?_)
      ⟨⟨wf_init now, holds_init (worldOk_init now)⟩, oneTask_init convert now⟩ hP
    · exact ⟨fun x hx => (hrun.1 x hx).2, hrun.2.2⟩
    · obtain ⟨⟨hwf, hs⟩, hone⟩ := hI
      refine ⟨⟨wf_step hwf hstep, ?_⟩, oneTask_step hwf hs hone hP hstep⟩
      exact (contract_sound env False).step hs hwf.threads False.elim hstep

end OctoConv.System
