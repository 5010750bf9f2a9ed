import OctoConv.Queue.Client

/-!
# What asynq does with tasks and locks

`asynq` is not part of the repository; this is its documented behaviour as far as the pipeline
relies on it. An enqueue takes the unique lock of its (queue, type, payload) for the task's TTL, or
is rejected while somebody's lock there is alive. A worker takes a pending task, and when its
handler returns the task is completed and its lock released, or retried, or archived with its
lock left to expire. A task whose worker died stays active until its lease expires and is then
retried or archived. Nothing refreshes a lock.

## Main results

* `Asynq.enqueue_ok` — an enqueue that is not rejected appends the task and takes the lock.
* `Asynq.LocksOk` — the invariant that ties locks to tasks: an unfinished task within its TTL
  holds the lock of its key.
-/

namespace OctoConv

/-- What a unique lock is taken on. -/
structure UniqueKey where
  queue : QueueName
  typename : TaskType
  payload : UUID
deriving DecidableEq, Repr

/-- The key of a task. -/
def Task.key (t : Task) : UniqueKey := ⟨t.queue, t.typename, t.jobID⟩

/-- The state of a task. -/
inductive TaskState
  /-- In its queue. -/
  | pending
  /-- Being executed. -/
  | active
  /-- Listed as active, but its worker is gone and its lease has not expired yet. -/
  | orphaned
  /-- Waiting for its next attempt. -/
  | retry
  /-- Given up. -/
  | archived
  /-- Handled successfully. -/
  | completed
deriving DecidableEq, Repr

/-- The task may still be executed. -/
def TaskState.unfinished : TaskState → Bool
  | .archived | .completed => false
  | _ => true

/-- A task in Redis. -/
structure TaskInfo where
  task : Task
  state : TaskState
  /-- How often it has been retried. -/
  retried : Nat
  enqueuedAt : Int
deriving DecidableEq, Repr

namespace TaskInfo

/-- The task may still be executed. -/
def unfinished (i : TaskInfo) : Bool := i.state.unfinished

/-- When the lock that the task took at its enqueue expires. -/
def expires (i : TaskInfo) : Int := i.enqueuedAt + i.task.uniqueTTL

/-- The task after a failed attempt: retried while there is budget, else archived. -/
def fail (skip : Bool) (i : TaskInfo) : TaskInfo :=
  if skip || i.task.maxRetry ≤ i.retried then { i with state := .archived }
  else { i with state := .retry, retried := i.retried + 1 }

end TaskInfo

/-- A unique lock. -/
structure Lock where
  /-- The number of the task that took it. -/
  holder : Nat
  expires : Int
deriving DecidableEq, Repr

/-- Redis as asynq uses it. A task's number is its place in the list. -/
structure Asynq where
  tasks : List TaskInfo
  locks : UniqueKey → Option Lock

namespace Asynq

/-- No tasks, no locks. -/
def empty : Asynq := ⟨[], fun _ => none⟩

/-- The lock of the key is alive. -/
def locked (a : Asynq) (now : Int) (k : UniqueKey) : Bool :=
  match a.locks k with
  | none => false
  | some l => now < l.expires

/-- `asynq.ErrDuplicateTask` -/
def errDuplicateTask : GoError := ⟨"task already exists", [.duplicateTask]⟩

/-- `Client.EnqueueContext` with `asynq.Unique`. -/
def enqueue (a : Asynq) (now : Int) (t : Task) : Except GoError Asynq :=
  if t.uniqueTTL < second then .error (GoError.new "Unique TTL cannot be less than 1s")
  else if a.locked now t.key then .error errDuplicateTask
  else .ok
    { tasks := a.tasks ++ [⟨t, .pending, 0, now⟩]
      locks := Function.update a.locks t.key (some ⟨a.tasks.length, now + t.uniqueTTL⟩) }

/-- Change the task with number `k`. -/
def modify (a : Asynq) (k : Nat) (f : TaskInfo → TaskInfo) : Asynq :=
  { a with tasks := a.tasks.modify k f }

/-- The handler returned nil: the task is done, and releases the lock if it still holds it. -/
def complete (a : Asynq) (k : Nat) : Asynq :=
  { tasks := a.tasks.modify k fun i => { i with state := .completed }
    locks := fun key => (a.locks key).filter fun l => l.holder ≠ k }

/-! ## What these do -/

variable {a a' : Asynq} {now : Int} {t : Task} {k : Nat} {i : TaskInfo}

/-- An enqueue that is accepted has found no lock alive; it appends the task and takes the lock. -/
theorem enqueue_ok (h : a.enqueue now t = .ok a') :
    second ≤ t.uniqueTTL ∧ a.locked now t.key = false ∧
    a'.tasks = a.tasks ++ [⟨t, .pending, 0, now⟩] ∧
    a'.locks = Function.update a.locks t.key (some ⟨a.tasks.length, now + t.uniqueTTL⟩) := by
  unfold enqueue at h
  split at h
  · cases h
  · rename_i httl
    split at h
    · cases h
    · rename_i hl
      obtain rfl := Except.ok.inj h
      exact ⟨by omega, by simpa using hl, rfl, rfl⟩

/-- A key is locked until its lock expires. -/
theorem locked_iff {key : UniqueKey} :
    a.locked now key = true ↔ ∃ l, a.locks key = some l ∧ now < l.expires := by
  unfold locked
  rcases a.locks key with _ | l
  · simp
  · simp

/-- Locks and tasks belong together. -/
structure LocksOk (a : Asynq) (now : Int) : Prop where
  /-- An unfinished task within its TTL holds the lock of its key. -/
  held : ∀ k i, a.tasks[k]? = some i → i.unfinished = true → now < i.expires →
    a.locks i.task.key = some ⟨k, i.expires⟩
  /-- A lock belongs to a task that was not completed. -/
  owned : ∀ key l, a.locks key = some l → ∃ i, a.tasks[l.holder]? = some i ∧
    i.task.key = key ∧ i.expires = l.expires ∧ i.state ≠ .completed

/-- Without locks all locks are in order. -/
theorem LocksOk.empty (now : Int) : LocksOk empty now :=
  ⟨fun k i h => by simp [Asynq.empty] at h, fun key l h => by simp [Asynq.empty] at h⟩

/-- Time only lets locks expire. -/
theorem LocksOk.tick (h : LocksOk a now) {now' : Int} (hle : now ≤ now') : LocksOk a now' :=
  ⟨fun k i hi hu hlt => h.held k i hi hu (by omega), h.owned⟩

/-- Enqueuing a task keeps them so. -/
theorem LocksOk.enqueue (h : LocksOk a now) (he : a.enqueue now t = .ok a') : LocksOk a' now := by
  obtain ⟨-, hfree, htasks, hlocks⟩ := enqueue_ok he
  have hfree' : ∀ l, a.locks t.key = some l → ¬ now < l.expires := by
    intro l hl hlt
    rw [locked_iff.mpr ⟨l, hl, hlt⟩] at hfree
    cases hfree
  refine ⟨fun k i hi hu hlt => ?_, fun key l hl => ?_⟩
  · rw [htasks] at hi
    rw [hlocks]
    by_cases hk : k < a.tasks.length
    · rw [List.getElem?_append_left hk] at hi
      have hheld := h.held k i hi hu hlt
      have hne : i.task.key ≠ t.key := fun e => hfree' _ (e ▸ hheld) hlt
      rw [Function.update_of_ne hne]
      exact hheld
    · rw [List.getElem?_append_right (by omega)] at hi
      obtain ⟨hk', rfl⟩ : k - a.tasks.length = 0 ∧ i = ⟨t, .pending, 0, now⟩ := by
        rcases hd : k - a.tasks.length with _ | d
        · exact ⟨rfl, by simpa [hd] using hi.symm⟩
        · simp [hd] at hi
      rw [Function.update_self]
      have : k = a.tasks.length := by omega
      rw [this]
      rfl
  · rw [hlocks] at hl
    rw [htasks]
    by_cases hkey : key = t.key
    · subst hkey
      rw [Function.update_self] at hl
      obtain rfl := Option.some.inj hl
      refine ⟨⟨t, .pending, 0, now⟩, by simp, rfl, rfl, by simp⟩
    · rw [Function.update_of_ne hkey] at hl
      obtain ⟨i, hi, hrest⟩ := h.owned key l hl
      refine ⟨i, ?_, hrest⟩
      rw [List.getElem?_append_left (List.getElem?_eq_some_iff.mp hi).1]
      exact hi

/-- A task after a change is the changed task or one that was there before. -/
theorem getElem?_modify_cases {l : List TaskInfo} {f : TaskInfo → TaskInfo} {k k' : Nat} {i : TaskInfo}
    (h : (l.modify k f)[k']? = some i) :
    ∃ j, l[k']? = some j ∧ (k = k' ∧ i = f j ∨ k ≠ k' ∧ i = j) := by
  rw [List.getElem?_modify] at h
  obtain ⟨j, hj, hi⟩ := Option.map_eq_some_iff.mp h
  refine ⟨j, hj, ?_⟩
  by_cases hk : k = k'
  · rw [if_pos hk] at hi
    exact .inl ⟨hk, hi.symm⟩
  · rw [if_neg hk] at hi
    exact .inr ⟨hk, hi.symm⟩

/-- A change of state that neither revives a task nor completes it. -/
theorem LocksOk.modify (h : LocksOk a now) {f : TaskInfo → TaskInfo}
    (htask : ∀ i, (f i).task = i.task ∧ (f i).enqueuedAt = i.enqueuedAt)
    (hrevive : ∀ i, a.tasks[k]? = some i → (f i).unfinished = true → i.unfinished = true)
    (hcomplete : ∀ i, (f i).state = .completed → i.state = .completed) :
    LocksOk (a.modify k f) now := by
  have hexp : ∀ i, (f i).expires = i.expires := fun i => by
    rw [TaskInfo.expires, TaskInfo.expires, (htask i).1, (htask i).2]
  refine ⟨fun k' i hi hu hlt => ?_, fun key l hl => ?_⟩
  · obtain ⟨j, hold, ⟨rfl, rfl⟩ | ⟨-, rfl⟩⟩ := getElem?_modify_cases hi
    · rw [(htask j).1, hexp]
      exact h.held k j hold (hrevive j hold hu) (hexp j ▸ hlt)
    · exact h.held k' _ hold hu hlt
  · obtain ⟨i, hi, hkey, he, hst⟩ := h.owned key l hl
    by_cases hk : k = l.holder
    · refine ⟨f i, ?_, by rw [Task.key, (htask i).1]; exact hkey, (hexp i).trans he,
        fun hc => hst (hcomplete i hc)⟩
      simp [Asynq.modify, hi, hk]
    · refine ⟨i, ?_, hkey, he, hst⟩
      simp [Asynq.modify, hi, hk]

/-- So does completing one. -/
theorem LocksOk.complete (h : LocksOk a now) : LocksOk (a.complete k) now := by
  refine ⟨fun k' i hi hu hlt => ?_, fun key l hl => ?_⟩
  · obtain ⟨j, hold, ⟨rfl, rfl⟩ | ⟨hk, rfl⟩⟩ := getElem?_modify_cases hi
    · cases hu
    · have hheld := h.held k' _ hold hu hlt
      simp [Asynq.complete, hheld, Ne.symm hk]
  · simp only [Asynq.complete, Option.filter_eq_some_iff, decide_eq_true_eq] at hl
    obtain ⟨i, hi, hrest⟩ := h.owned key l hl.1
    refine ⟨i, ?_, hrest⟩
    simp [Asynq.complete, hi, Ne.symm hl.2]

end Asynq

end OctoConv
