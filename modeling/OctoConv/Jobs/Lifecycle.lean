import OctoConv.Jobs.Model

/-!
# The life of one job

What the `jobs` row and the `job_events` rows of one job are for, without SQL: a job is created
queued, may be activated and requeued any number of times, and ends done or failed; every change
is logged. `View` is what the database says of one job, `Move` is one change of it, and
`Consistent` is the agreement between row and log that every move keeps.

## Main results

* `Move.consistent` — every move keeps the agreement.
* `Move.job_of_terminal` — a move from a terminal status leaves the row as it is.
* `Move.startedAt` — a start time that is set is never changed.
* `Move.recoveries` — the log counts exactly the requeue moves.
-/

namespace OctoConv.Lifecycle

/-- What the database says of one job. -/
structure View where
  /-- Its row. -/
  job : Option Job
  /-- Its events, in id order. -/
  log : List Event

/-- The tag that RequeueStale writes and RecoveryCount reads.

Source: `repo.go` detailActionRecovery -/
def detailActionRecovery : String := "reconciler_recovery"

/-- How many events carry the recovery tag. -/
def recoveries (log : List Event) : Nat :=
  log.countP fun e => e.action = some detailActionRecovery

/-- The change of the row in one transition. -/
inductive RowStep : Job → Job → Prop
  /-- A worker starts an attempt; only the first one sets the start time. -/
  | activate (j : Job) (now : Int) (h : j.status = .queued ∨ j.status = .active) :
      RowStep j { j with status := .active, startedAt := j.startedAt.or (some now),
                         attempts := j.attempts + 1 }
  /-- An attempt has succeeded. -/
  | finish (j : Job) (now : Int) (h : j.status = .active) :
      RowStep j { j with status := .done, finishedAt := some now }
  /-- The job is given up. -/
  | fail (j : Job) (now : Int) (code message : String)
      (h : j.status = .queued ∨ j.status = .active) :
      RowStep j { j with status := .failed, finishedAt := some now, errorCode := some code,
                         errorMessage := some message }
  /-- The job is put back into the queue. -/
  | requeue (j : Job) (h : j.status = .queued ∨ j.status = .active) :
      RowStep j { j with status := .queued }

/-- One logged change; the flag tells the requeues from the others. -/
inductive Move (id : UUID) : Bool → View → View → Prop
  /-- The job is created. -/
  | create (j : Job) (hid : j.id = id) (hstatus : j.status = .queued) (hstart : j.startedAt = none)
      (hfinish : j.finishedAt = none) (herr : j.errorCode = none) (hatt : j.attempts = 0) :
      Move id false ⟨none, []⟩ ⟨some j, [⟨id, none, .queued, none⟩]⟩
  /-- The row changes, and the event that says so is appended. -/
  | row {j j' : Job} {log : List Event} {d : Option Detail} (b : Bool) (h : RowStep j j')
      (hd : Event.action ⟨id, some j.status, j'.status, d⟩ = some detailActionRecovery ↔ b = true) :
      Move id b ⟨some j, log⟩ ⟨some j', log ++ [⟨id, some j.status, j'.status, d⟩]⟩
  /-- Something is noted about a finished job. -/
  | note {j : Job} {log : List Event} {d : Option Detail} (h : j.status.terminal = true)
      (hd : Event.action ⟨id, some j.status, j.status, d⟩ ≠ some detailActionRecovery) :
      Move id false ⟨some j, log⟩ ⟨some j, log ++ [⟨id, some j.status, j.status, d⟩]⟩

/-- The events link up: each starts from the status that the one before it reached. -/
def Chained : Option Status → List Event → Option Status → Prop
  | s, [], s' => s = s'
  | s, e :: log, s' => e.fromStatus = s ∧ Chained (some e.toStatus) log s'

/-- A log is continued by an event that begins where it ends. -/
theorem Chained.snoc {s s' : Option Status} {log : List Event} {e : Event}
    (h : Chained s log s') (he : e.fromStatus = s') : Chained s (log ++ [e]) (some e.toStatus) := by
  induction log generalizing s with
  | nil => exact ⟨he.trans h.symm, rfl⟩
  | cons f log ih => exact ⟨h.1, ih h.2⟩

/-- The row and the log of a job agree. -/
structure Agrees (j : Job) (log : List Event) : Prop where
  /-- The log starts with the creation. -/
  first : ∃ d rest, log = ⟨j.id, none, .queued, d⟩ :: rest
  /-- It links up, from no status to the current one. -/
  chained : Chained none log (some j.status)
  /-- The job is in one of the four statuses of the pipeline. -/
  status : j.status = .queued ∨ j.status = .active ∨ j.status = .done ∨ j.status = .failed
  /-- The finish time is set iff the job is finished. -/
  finished : j.finishedAt.isSome = true ↔ j.status = .done ∨ j.status = .failed
  /-- Only a failed job has an error code. -/
  error : j.errorCode.isSome = true → j.status = .failed
  /-- The start time is set iff the job was ever active. -/
  started : j.startedAt.isSome = true ↔ ∃ e ∈ log, e.toStatus = .active
  /-- The attempts are the activations. -/
  attempts : j.attempts = log.countP fun e => e.toStatus = .active

/-- The database is consistent about a job: it has a row and a log that agree, or neither. -/
def Consistent (v : View) : Prop :=
  match v.job with
  | none => v.log = []
  | some j => Agrees j v.log

/-- A job that may still change is queued or active. -/
theorem RowStep.source {j j' : Job} (h : RowStep j j') :
    j.status = .queued ∨ j.status = .active := by
  cases h with
  | activate _ h => exact h
  | finish _ h => exact .inr h
  | fail _ _ _ h => exact h
  | requeue h => exact h

/-- A row keeps its id. -/
theorem RowStep.id {j j' : Job} (h : RowStep j j') : j'.id = j.id := by
  cases h <;> rfl

/-- What a row step does to the columns that `Agrees` speaks about. -/
theorem RowStep.agrees {j j' : Job} {log : List Event} {d : Option Detail} (h : RowStep j j')
    (ha : Agrees j log) : Agrees j' (log ++ [⟨j.id, some j.status, j'.status, d⟩]) := by
  have hunfinished : j.finishedAt.isSome = false := by
    rw [Bool.eq_false_iff]
    intro hf
    rcases ha.finished.mp hf with hs | hs <;> rcases h.source with hq | hq <;>
      rw [hs] at hq <;> cases hq
  have hnoerror : j.errorCode.isSome = false := by
    rw [Bool.eq_false_iff]
    intro hf
    have hs := ha.error hf
    rcases h.source with hq | hq <;> rw [hs] at hq <;> cases hq
  have hchained := ha.chained.snoc (e := ⟨j.id, some j.status, j'.status, d⟩) rfl
  obtain ⟨d₀, rest, hfirst⟩ := ha.first
  have hfirst' : ∃ d' rest', log ++ [⟨j.id, some j.status, j'.status, d⟩] =
      ⟨j.id, none, .queued, d'⟩ :: rest' := ⟨d₀, rest ++ [_], by rw [hfirst, List.cons_append]⟩
  cases h with
  | activate now hs =>
      refine ⟨hfirst', hchained, by simp, by simp [hunfinished], by simp [hnoerror], ?_, ?_⟩
      · simp
      · simp [ha.attempts, List.countP_append]
  | finish now hs =>
      refine ⟨hfirst', hchained, by simp, by simp, by simp [hnoerror], ?_, ?_⟩
      · simpa using ha.started
      · simpa [List.countP_append] using ha.attempts
  | fail now code message hs =>
      refine ⟨hfirst', hchained, by simp, by simp, by simp, ?_, ?_⟩
      · simpa using ha.started
      · simpa [List.countP_append] using ha.attempts
  | requeue hs =>
      refine ⟨hfirst', hchained, by simp, by simp [hunfinished], by simp [hnoerror], ?_, ?_⟩
      · simpa using ha.started
      · simpa [List.countP_append] using ha.attempts

/-- A job finished for good cannot have been anything but finished when it is noted. -/
theorem Agrees.note {j : Job} {log : List Event} {d : Option Detail} (ha : Agrees j log)
    (h : j.status.terminal = true) : Agrees j (log ++ [⟨j.id, some j.status, j.status, d⟩]) := by
  obtain ⟨d₀, rest, hfirst⟩ := ha.first
  have hna : j.status ≠ .active := by
    intro hs
    rw [hs] at h
    exact absurd h (by decide)
  refine ⟨⟨d₀, rest ++ [_], by rw [hfirst, List.cons_append]⟩, ha.chained.snoc rfl, ha.status,
    ha.finished, ha.error, ?_, ?_⟩
  · simpa [hna] using ha.started
  · simpa [hna, List.countP_append] using ha.attempts

variable {id : UUID} {b : Bool} {v v' : View}

/-- **Every move keeps row and log in agreement.** -/
theorem Move.consistent (h : Move id b v v') (hid : ∀ j, v.job = some j → j.id = id)
    (hv : Consistent v) : Consistent v' := by
  cases h with
  | create j hj hstatus hstart hfinish herr hatt =>
      show Agrees j [⟨id, none, .queued, none⟩]
      refine ⟨⟨none, [], by rw [hj]⟩, ⟨rfl, by rw [hstatus]; rfl⟩, .inl hstatus, ?_, ?_, ?_, ?_⟩
      · simp [hfinish, hstatus]
      · simp [herr]
      · simp [hstart]
      · simp [hatt]
  | @row j j' log d b h hd =>
      obtain rfl := hid j rfl
      exact h.agrees hv
  | @note j log d h hd =>
      obtain rfl := hid j rfl
      exact Agrees.note hv h

/-- A finished job stays as it is. -/
theorem Move.job_of_terminal (h : Move id b v v') {j : Job} (hj : v.job = some j)
    (ht : j.status.terminal = true) : v'.job = some j := by
  cases h with
  | create => cases hj
  | row b h _ =>
      obtain rfl := Option.some.inj hj
      rcases h.source with hs | hs <;> rw [hs] at ht <;> exact absurd ht (by decide)
  | note h _ => exact hj

/-- A start time that is set stays. -/
theorem Move.startedAt (h : Move id b v v') {j : Job} {t : Int} (hj : v.job = some j)
    (hs : j.startedAt = some t) : ∃ j', v'.job = some j' ∧ j'.startedAt = some t := by
  cases h with
  | create => cases hj
  | row b h _ =>
      obtain rfl := Option.some.inj hj
      refine ⟨_, rfl, ?_⟩
      cases h <;> simp [hs]
  | note h _ => exact ⟨j, hj, hs⟩

/-- The log counts the requeues. -/
theorem Move.recoveries (h : Move id b v v') :
    recoveries v'.log = recoveries v.log + if b then 1 else 0 := by
  cases h with
  | create =>
      have : Event.action ⟨id, none, .queued, none⟩ ≠ some detailActionRecovery := by
        simp [Event.action]
      simp [Lifecycle.recoveries, this]
  | row b h hd =>
      simp only [Lifecycle.recoveries, List.countP_append, List.countP_singleton]
      cases b with
      | true => simp [hd.mpr rfl]
      | false => simp [show _ ≠ _ from fun e => Bool.noConfusion (hd.mp e)]
  | note h hd => simp [Lifecycle.recoveries, List.countP_append, hd]

end OctoConv.Lifecycle
