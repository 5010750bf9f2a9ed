import OctoConv.Lib.Solo
import OctoConv.System.Dates

/-!
# The sweep recovers what was left behind

Whatever has gone wrong in a run before, once every job is stale and every lock has had the time to
expire, one sweep that goes well finds each unfinished job and each missing webhook, and gives it a
task; and as recoveries are counted, a few such sweeps end every job, even if no worker ever runs again.
Only jobs of an engine without a queue get no task.

## Main results

* `round_handled` — what one wait and one sweep do for every job.
* `rounds_finish` — after as many of them as the recovery cap, and one more, every job is finished.
-/

namespace OctoConv.System

open Conc Worker Machine

/-- The outside world does not fail the call. -/
def Calm (o : Obs) : Prop := o.fault = .none

/-- The task is in its queue. -/
def Waiting (w : World) (t : Task) : Prop := ∃ i ∈ w.asynq.tasks, i.task = t ∧ i.state = .pending

/-- Nothing about the job has changed; other jobs may have got tasks. -/
structure Same (id : UUID) (w w' : World) : Prop where
  now : w'.now = w.now
  job : w'.db.job? id = w.db.job? id
  events : w'.db.eventsOf id = w.db.eventsOf id
  deliveries : w'.db.deliveriesOf id = w.db.deliveriesOf id
  locks : ∀ key, key.payload = id → w'.asynq.locks key = w.asynq.locks key
  tasks : w.asynq.tasks ⊆ w'.asynq.tasks

variable {env : Env} {w w' w'' : World} {id id' : UUID} {t : Task} {o : Obs}

/-- Nothing has changed. -/
theorem Same.refl (id : UUID) (w : World) : Same id w w :=
  ⟨rfl, rfl, rfl, rfl, fun _ _ => rfl, List.Subset.refl _⟩

/-- Nothing has changed twice. -/
theorem Same.trans (h : Same id w w') (h' : Same id w' w'') : Same id w w'' where
  now := h'.now.trans h.now
  job := h'.job.trans h.job
  events := h'.events.trans h.events
  deliveries := h'.deliveries.trans h.deliveries
  locks key hkey := (h'.locks key hkey).trans (h.locks key hkey)
  tasks := List.Subset.trans h.tasks h'.tasks

/-- The recoveries of the job are those it had. -/
theorem Same.recoveryCount (h : Same id w w') : w'.db.recoveryCount id = w.db.recoveryCount id := by
  rw [DB.recoveryCount, DB.recoveryCount, h.events]

/-- Its locks are held as before. -/
theorem Same.locked (h : Same id w w') {key : UniqueKey} (hkey : key.payload = id) :
    w'.asynq.locked w'.now key = w.asynq.locked w.now key := by
  rw [Asynq.locked, Asynq.locked, h.locks key hkey, h.now]

/-- A task keeps waiting while others come. -/
theorem Waiting.mono (h : Waiting w t) (hsub : w.asynq.tasks ⊆ w'.asynq.tasks) : Waiting w' t := by
  obtain ⟨i, hi, hrest⟩ := h
  exact ⟨i, hsub hi, hrest⟩

/-- A call that the outside world does not fail has its effect. -/
theorem calm_exec (h : Calm o) (c : Call) (w : World) : c.exec o w = c.effect o w := by
  rw [Call.exec, h]

/-! ## Single calls -/

/-- The rule for a query that does not fail. -/
theorem alone_query {α : Type} {c : Call} {f : c.Result → P α} {Q : α → World → Prop}
    (h : ∀ o, machine.Alone Calm (f (c.effect o w).1) (c.effect o w).2 Q) :
    machine.Alone Calm (ask c >>= f) w Q := by
  apply alone_call.mpr
  intro o ho
  show machine.Alone Calm (f (c.exec o w).1) (c.exec o w).2 Q
  rw [calm_exec ho]
  exact h o

/-- A call that can only be answered in one way. -/
theorem alone_ask {α : Type} {c : Call} {f : c.Result → P α} {Q : α → World → Prop} {r : c.Result}
    (heff : ∀ o, c.effect o w = (r, w')) (h : machine.Alone Calm (f r) w' Q) :
    machine.Alone Calm (ask c >>= f) w Q := by
  apply alone_query
  intro o
  rw [heff]
  exact h

/-- A call that changes nothing. -/
theorem alone_read {α : Type} {c : Call} {f : c.Result → P α} {Q : α → World → Prop} (r : c.Result)
    (heff : ∀ o, c.effect o w = (r, w)) (h : machine.Alone Calm (f r) w Q) :
    machine.Alone Calm (ask c >>= f) w Q :=
  alone_ask heff h

/-- The world with one more task in its queue. -/
def withTask (w : World) (t : Task) : World :=
  { w with asynq :=
    { tasks := w.asynq.tasks ++ [⟨t, .pending, 0, w.now⟩]
      locks := Function.update w.asynq.locks t.key
        (some ⟨w.asynq.tasks.length, w.now + t.uniqueTTL⟩) } }

/-- The lifetime is long enough, and nobody's lock is in the way. -/
structure Free (w : World) (t : Task) : Prop where
  ttl : second ≤ t.uniqueTTL
  unlocked : w.asynq.locked w.now t.key = false

/-- A task whose lock is free is enqueued. -/
theorem Free.enqueue (h : Free w t) (o : Obs) :
    (Call.enqueue t).effect o w = (.ok (), withTask w t) := by
  have httl := h.ttl
  have hen : w.asynq.enqueue w.now t = .ok (withTask w t).asynq := by
    rw [Asynq.enqueue, if_neg (by omega), if_neg (by rw [h.unlocked]; exact Bool.false_ne_true)]
    rfl
  simp only [Call.effect, hen]
  rfl

/-- A lock stays free while other jobs are treated. -/
theorem Same.free (h : Same t.jobID w w') (hf : Free w t) : Free w' t :=
  ⟨hf.ttl, (h.locked (show t.key.payload = t.jobID from rfl)).trans hf.unlocked⟩

/-- The task that was enqueued waits. -/
theorem waiting_withTask (w : World) (t : Task) : Waiting (withTask w t) t :=
  ⟨_, List.mem_append_right _ (List.mem_singleton_self _), rfl, rfl⟩

/-- Other jobs are left alone by it. -/
theorem same_withTask (hne : id ≠ t.jobID) : Same id w (withTask w t) := by
  refine ⟨rfl, rfl, rfl, rfl, fun key hkey => ?_, List.subset_append_left _ _⟩
  apply Function.update_of_ne
  rintro rfl
  exact hne hkey.symm

/-- The world after a status change that is allowed. -/
def written (w : World) (id : UUID) (wr : Write) (j : Job) : World :=
  { w with
    db := (w.db.update id (wr.transition.apply w.now) (wr.transition.apply_id w.now)).addEvent
      ⟨id, some j.status, wr.transition.toStatus, wr.transition.detail⟩ }

/-- A write that the job's status allows is made. -/
theorem effect_written (wr : Write) {j : Job} (hj : w.db.job? id = some j)
    (ha : j.status ∈ wr.transition.allowedFrom) (o : Obs) :
    (Call.write id wr).effect o w = (.ok (), written w id wr j) := by
  rcases effect_write id wr o w with ⟨-, hnot⟩ | ⟨j', hj', -, heff⟩
  · exact absurd ha (hnot j hj)
  · obtain rfl := Option.some.inj (hj.symm.trans hj')
    exact heff

/-- The row after the write. -/
theorem job_written (wr : Write) {j : Job} (hj : w.db.job? id = some j) :
    (written w id wr j).db.job? id = some (wr.transition.apply w.now j) :=
  DB.job?_transition hj _

/-- Other jobs are left alone by it. -/
theorem same_written {wr : Write} {j : Job} (hj : w.db.job? id = some j) (hne : id' ≠ id) :
    Same id' w (written w id wr j) := by
  refine ⟨rfl, ?_, ?_, rfl, fun _ _ => rfl, List.Subset.refl _⟩
  · exact (job?_write hj wr w.now _ id').trans (if_neg hne)
  · exact DB.eventsOf_addEvent_ne hne.symm

/-- A requeue is counted. -/
theorem recoveryCount_requeued {reason : String} {j : Job} :
    (written w id (.requeueStale reason) j).db.recoveryCount id = w.db.recoveryCount id + 1 := by
  have hevents : (written w id (.requeueStale reason) j).db.eventsOf id = w.db.eventsOf id ++
      [⟨id, some j.status, .queued, (Write.requeueStale reason).transition.detail⟩] :=
    DB.eventsOf_addEvent_self rfl
  rw [DB.recoveryCount, DB.recoveryCount, hevents, Lifecycle.recoveries, List.countP_append]
  rfl

/-! ## One job of the first scan -/

/-- Neither done nor failed. -/
def Open (j : Job) : Prop := j.status = .queued ∨ j.status = .active

/-- The statuses of the first scan. -/
theorem Open.mem {j : Job} (h : Open j) : j.status ∈ [Status.queued, .active] := by
  rcases h with h | h <;> rw [h] <;> decide

/-- What a sweep does about an unfinished job. -/
inductive Handled (env : Env) (w w' : World) (id : UUID) (j : Job) : Prop
  /-- At the recovery cap: the job has failed, and its webhook waits in its queue. -/
  | exhausted (hcap : env.maxRecoveries ≤ (w.db.recoveryCount id : Int)) {j' : Job}
      (hj : w'.db.job? id = some j') (hstatus : j'.status = .failed)
      (hcode : j'.errorCode = some Reconciler.exhaustedCode)
      (hwebhook : j.callbackURL ≠ "" → Waiting w' (env.client.webhookTask id))
  /-- Below it: a task of the job waits in the queue of its engine, and the recovery is counted. -/
  | recovered (hcap : (w.db.recoveryCount id : Int) < env.maxRecoveries) {t : Task}
      (ht : env.client.convertTask j.engine id = some t) (hwait : Waiting w' t) {j' : Job}
      (hj : w'.db.job? id = some j') (hstatus : j'.status = .queued) (hengine : j'.engine = j.engine)
      (hcount : w'.db.recoveryCount id = w.db.recoveryCount id + 1)
  /-- The engine has no queue; the job is left alone. -/
  | skipped (hcap : (w.db.recoveryCount id : Int) < env.maxRecoveries)
      (ht : env.client.convertTask j.engine id = none)

/-- The locks of the tasks that a sweep may enqueue for a job are free. -/
structure TasksFree (env : Env) (w : World) (id : UUID) : Prop where
  convert : ∀ j ∈ w.db.job? id, ∀ t ∈ env.client.convertTask j.engine id, Free w t
  webhook : Free w (env.client.webhookTask id)

/-- The tasks of a job stay free while others are treated. -/
theorem Same.tasksFree (h : Same id w w') (hf : TasksFree env w id) : TasksFree env w' id := by
  refine ⟨fun j hj t ht => ?_, Same.free h hf.webhook⟩
  have hid := Client.convertTask_jobID ht
  rw [h.job] at hj
  exact Same.free (hid ▸ h) (hf.convert j hj t ht)

/-- A job that was handled stays so while others are. -/
theorem Handled.after {j : Job} (h : Handled env w w' id j) (hs : Same id w' w'') :
    Handled env w w'' id j := by
  rcases h with ⟨hcap, hj, hstatus, hcode, hwebhook⟩ | ⟨hcap, ht, hwait, hj, hstatus, hengine, hcount⟩ |
    ⟨hcap, ht⟩
  · exact .exhausted hcap (hs.job.trans hj) hstatus hcode fun hurl => (hwebhook hurl).mono hs.tasks
  · exact .recovered hcap ht (hwait.mono hs.tasks) (hs.job.trans hj) hstatus hengine
      (hs.recoveryCount.trans hcount)
  · exact .skipped hcap ht

/-- What was done since a later moment was done since an earlier one. -/
theorem Handled.since {j : Job} (hs : Same id w w') (h : Handled env w' w'' id j) :
    Handled env w w'' id j := by
  have hn := hs.recoveryCount
  rcases h with ⟨hcap, hj, hstatus, hcode, hwebhook⟩ | ⟨hcap, ht, hwait, hj, hstatus, hengine, hcount⟩ |
    ⟨hcap, ht⟩
  · exact .exhausted (hn ▸ hcap) hj hstatus hcode hwebhook
  · exact .recovered (hn ▸ hcap) ht hwait hj hstatus hengine (hn ▸ hcount)
  · exact .skipped (hn ▸ hcap) ht

/-- A job at the cap is failed, and its webhook waits. -/
theorem exhaust_alone {g : StaleJob} {j : Job} (hj : w.db.job? g.id = some j) (hopen : Open j)
    (hfree : TasksFree env w g.id) (hcap : env.maxRecoveries ≤ (w.db.recoveryCount g.id : Int)) :
    machine.Alone Calm (Reconciler.exhaust env g) w fun _ w' =>
      Handled env w w' g.id j ∧ ∀ id ≠ g.id, Same id w w' := by
  have hothers : ∀ id ≠ g.id, Same id w (written w g.id Reconciler.exhaustedWrite j) :=
    fun id hne => same_written hj hne
  apply alone_read (.ok j) fun o => by rw [Call.effect, DB.get_ok_iff.mpr hj]
  apply alone_ask fun o => effect_written Reconciler.exhaustedWrite hj hopen.mem o
  by_cases hurl : j.callbackURL = ""
  · simp only [notify, if_neg (not_not_intro hurl)]
    refine alone_ret.mpr ⟨?_, hothers⟩
    exact .exhausted hcap (job_written Reconciler.exhaustedWrite hj) rfl rfl
      fun h => absurd hurl h
  · simp only [notify, if_pos hurl]
    have hfree' : Free (written w g.id Reconciler.exhaustedWrite j) (env.client.webhookTask g.id) :=
      ⟨hfree.webhook.ttl, hfree.webhook.unlocked⟩
    apply alone_ask hfree'.enqueue
    refine alone_ret.mpr ⟨.exhausted hcap (job_written Reconciler.exhaustedWrite hj) rfl rfl
      fun _ => waiting_withTask _ _, fun id hne => ?_⟩
    exact (hothers id hne).trans (same_withTask hne)

/-- A job below it is queued again and has a task, unless its engine has no queue. -/
theorem recover_alone {g : StaleJob} {j : Job} (hj : w.db.job? g.id = some j) (hopen : Open j)
    (hengine : j.engine = g.engine) (hfree : TasksFree env w g.id)
    (hcap : (w.db.recoveryCount g.id : Int) < env.maxRecoveries) :
    machine.Alone Calm (Reconciler.recover env g) w fun _ w' =>
      Handled env w w' g.id j ∧ ∀ id ≠ g.id, Same id w w' := by
  unfold Reconciler.recover
  rcases ht : env.client.convertTask g.engine g.id with _ | t
  · exact alone_ret.mpr ⟨.skipped hcap (hengine ▸ ht), fun id _ => Same.refl id w⟩
  · have htask : env.client.convertTask j.engine g.id = some t := hengine ▸ ht
    have hid : t.jobID = g.id := Client.convertTask_jobID ht
    have hjob : (withTask w t).db.job? g.id = some j := hj
    have hothers : ∀ id ≠ g.id, Same id w (withTask w t) := fun id hne => same_withTask (hid ▸ hne)
    apply alone_ask (hfree.convert j hj t htask).enqueue
    apply alone_ask fun o => effect_written
      (.requeueStale ("stale_" ++ g.status.text)) hjob hopen.mem o
    refine alone_ret.mpr ⟨?_, fun id hne => (hothers id hne).trans (same_written hjob hne)⟩
    apply Handled.recovered hcap htask _ (job_written _ hjob) rfl rfl recoveryCount_requeued
    exact waiting_withTask w t

/-- **One job of the first scan.** -/
theorem sweepStale_alone {g : StaleJob} {j : Job} (hj : w.db.job? g.id = some j) (hopen : Open j)
    (hengine : j.engine = g.engine) (hfree : TasksFree env w g.id) :
    machine.Alone Calm (Reconciler.sweepStale env g) w fun _ w' =>
      Handled env w w' g.id j ∧ ∀ id ≠ g.id, Same id w w' := by
  apply alone_read (.ok (w.db.recoveryCount g.id)) fun o => rfl
  show machine.Alone Calm (if env.maxRecoveries ≤ (w.db.recoveryCount g.id : Int) then _ else _) w _
  split
  · rename_i hcap
    exact exhaust_alone hj hopen hfree hcap
  · rename_i hcap
    exact recover_alone hj hopen hengine hfree (by omega)

/-! ## The scans -/

/-- An arrangement has no repetitions where the rows have none. -/
theorem nodup_arrange {α : Type} [DecidableEq α] {order : List UUID} {key : α → UUID} {rows : List α}
    (h : (rows.map key).Nodup) : ((arrange order key rows).map key).Nodup := by
  simp only [arrange]
  split
  · rename_i hperm
    exact (hperm.map key).nodup_iff.mpr h
  · exact h

/-- No job comes twice in the first scan. -/
theorem findStale_nodup (db : DB) (now q a : Int) : ((db.findStale now q a).map StaleJob.id).Nodup := by
  rw [DB.findStale, List.map_map]
  exact (List.filter_sublist.map Job.id).nodup db.jobs.nodup

/-- No job comes twice in the second scan. -/
theorem findWebhookGaps_nodup (db : DB) (now a : Int) :
    ((db.findWebhookGaps now a).map WebhookGapJob.id).Nodup := by
  rw [DB.findWebhookGaps, List.map_map]
  exact (List.filter_sublist.map Job.id).nodup db.jobs.nodup

/-- Elements with distinct keys are distinct, and their keys tell them apart. -/
theorem ne_of_key {α : Type} {key : α → UUID} {l : List α} (h : (l.map key).Nodup) {x y : α}
    (hx : x ∈ l) (hy : y ∈ l) (hne : y ≠ x) : key y ≠ key x := fun heq =>
  hne (List.inj_on_of_nodup_map h hy hx heq)

/-- The first scan, over the jobs that it has found. -/
theorem sweepStales_alone {stale : List StaleJob} (hnodup : (stale.map StaleJob.id).Nodup)
    (hstale : ∀ g ∈ stale, ∃ j, w.db.job? g.id = some j ∧ Open j ∧ j.engine = g.engine)
    (hfree : ∀ g ∈ stale, TasksFree env w g.id) :
    machine.Alone Calm (stale.forM (Reconciler.sweepStale env)) w fun _ w' =>
      (∀ id, (∀ g ∈ stale, g.id ≠ id) → Same id w w') ∧
        ∀ g ∈ stale, ∀ j, w.db.job? g.id = some j → Handled env w w' g.id j := by
  apply Alone.forM (fun g w' => Same g.id w w') hnodup.of_map
  · intro g hg u hI hsame
    obtain ⟨j, hj, hopen, hengine⟩ := hstale g hg
    apply (sweepStale_alone (hsame.job.trans hj) hopen hengine (hsame.tasksFree (hfree g hg))).mono
    rintro _ v ⟨hhandled, hothers⟩
    refine ⟨fun id hid => ?_, fun j' hj' => ?_, fun y hy hne => ?_⟩
    · exact (hI id hid).trans (hothers id (hid g hg).symm)
    · obtain rfl := Option.some.inj (hj.symm.trans hj')
      exact hhandled.since hsame
    · have hsame' := hothers y.id (ne_of_key hnodup hg hy hne)
      exact ⟨fun h => h.trans hsame', fun h j' hj' => (h j' hj').after hsame'⟩
  · exact fun id _ => Same.refl id w
  · exact fun g _ => Same.refl g.id w

/-- The rows of the jobs have not changed; there may be more tasks. -/
structure RowsKept (w w' : World) : Prop where
  job : ∀ id, w'.db.job? id = w.db.job? id
  tasks : w.asynq.tasks ⊆ w'.asynq.tasks

/-- A job of the second scan gets its webhook task, if the lock of that is free. -/
theorem sweepGap_alone (g : WebhookGapJob) (w : World) :
    machine.Alone Calm (Reconciler.sweepGap env g) w fun _ w' =>
      (Free w (env.client.webhookTask g.id) → Waiting w' (env.client.webhookTask g.id)) ∧
        (∀ id ≠ g.id, Same id w w') ∧ RowsKept w w' := by
  by_cases hfree : Free w (env.client.webhookTask g.id)
  · apply alone_ask hfree.enqueue
    apply alone_ask (r := .ok ()) fun o => rfl
    apply alone_ret.mpr
    refine ⟨fun _ => waiting_withTask w _, fun id hne => ?_, fun _ => rfl, List.subset_append_left _ _⟩
    apply (same_withTask (w := w) (t := env.client.webhookTask g.id) hne).trans
    exact ⟨rfl, rfl, DB.eventsOf_addEvent_ne hne.symm, rfl, fun _ _ => rfl, List.Subset.refl _⟩
  · rcases hen : w.asynq.enqueue w.now (env.client.webhookTask g.id) with err | a
    · apply alone_read (.error err) fun o => by simp only [Call.effect, hen]
      apply alone_ret.mpr
      exact ⟨fun h => absurd h hfree, fun id _ => Same.refl id w, fun _ => rfl, List.Subset.refl _⟩
    · obtain ⟨httl, hunlocked, -⟩ := Asynq.enqueue_ok hen
      exact absurd ⟨httl, hunlocked⟩ hfree

/-- The second scan, over the webhooks that it has found missing. -/
theorem sweepGapsFound_alone {gaps : List WebhookGapJob} (hnodup : (gaps.map WebhookGapJob.id).Nodup)
    (w : World) : machine.Alone Calm (gaps.forM (Reconciler.sweepGap env)) w fun _ w' =>
      ((∀ id, (∀ g ∈ gaps, g.id ≠ id) → Same id w w') ∧ RowsKept w w') ∧
        ∀ g ∈ gaps, Free w (env.client.webhookTask g.id) →
          Waiting w' (env.client.webhookTask g.id) := by
  apply Alone.forM (fun g w' => Same g.id w w') hnodup.of_map
  · intro g hg u hI hsame
    apply (sweepGap_alone g u).mono
    rintro _ v ⟨hwait, hothers, hrows⟩
    refine ⟨⟨fun id hid => ?_, fun id => ?_, ?_⟩, fun hfree => ?_, fun y hy hne => ?_⟩
    · exact (hI.1 id hid).trans (hothers id (hid g hg).symm)
    · exact (hrows.job id).trans (hI.2.job id)
    · exact List.Subset.trans hI.2.tasks hrows.tasks
    · exact hwait (Same.free hsame hfree)
    · have hsame' := hothers y.id (ne_of_key hnodup hg hy hne)
      exact ⟨fun h => h.trans hsame', fun h hfree => (h hfree).mono hrows.tasks⟩
  · exact ⟨fun id _ => Same.refl id w, fun _ => rfl, List.Subset.refl _⟩
  · exact fun g _ => Same.refl g.id w

/-! ## The whole sweep -/

/-- What a wait and a sweep do about a job. -/
structure Attended (env : Env) (w w' : World) (id : UUID) (j : Job) : Prop where
  /-- An unfinished job is handled. -/
  unfinished : Open j → Handled env w w' id j
  /-- A finished one is left as it is, and if its webhook was never tried, it waits in its queue. -/
  finished : j.status.terminal = true → w'.db.job? id = some j ∧
    (j.callbackURL ≠ "" → w.db.deliveriesOf id = [] → Waiting w' (env.client.webhookTask id))

/-- Everything in the world has been left alone for so long that the sweep minds it. -/
structure Overdue (env : Env) (w : World) : Prop where
  queued : ∀ id j, w.db.job? id = some j → j.createdAt < w.now - env.queuedStaleAfter
  active : ∀ id j, w.db.job? id = some j → j.status = .active →
    ∃ t, j.startedAt = some t ∧ t < w.now - env.activeStaleAfter
  terminal : ∀ id j, w.db.job? id = some j → j.status.terminal = true →
    ∃ t, j.finishedAt = some t ∧ t < w.now - env.activeStaleAfter
  free : ∀ id, (w.db.job? id).isSome = true → TasksFree env w id

/-- A job that is overdue and open is found by the first scan. -/
theorem Overdue.stale (h : Overdue env w) {id : UUID} {j : Job} (hj : w.db.job? id = some j)
    (hopen : Open j) : ⟨id, j.status, j.engine⟩ ∈
      w.db.findStale w.now env.queuedStaleAfter env.activeStaleAfter := by
  have hid := DB.job?_id hj
  refine List.mem_map.mpr ⟨j, List.mem_filter.mpr ⟨DB.mem_jobs_iff.mpr (hid ▸ hj), ?_⟩, by rw [hid]⟩
  rcases hopen with hq | ha
  · have hold := h.queued id j hj
    simp only [hq, DB.olderThan, hold, decide_true, Bool.and_self, Bool.true_or]
  · obtain ⟨t, ht, hold⟩ := h.active id j hj ha
    simp only [ha, ht, DB.olderThan, hold, decide_true, Bool.and_self, Bool.or_true]

/-- A job that is overdue and whose webhook was never tried is found by the second scan. -/
theorem Overdue.gap (h : Overdue env w) {id : UUID} {j : Job} (hj : w.db.job? id = some j)
    (ht : j.status.terminal = true) (hurl : j.callbackURL ≠ "") (hnone : w.db.deliveriesOf id = []) :
    ⟨id, j.status⟩ ∈ w.db.findWebhookGaps w.now env.activeStaleAfter := by
  have hid := DB.job?_id hj
  obtain ⟨t, hfin, hold⟩ := h.terminal id j hj ht
  refine List.mem_map.mpr ⟨j, List.mem_filter.mpr ⟨DB.mem_jobs_iff.mpr (hid ▸ hj), ?_⟩, by rw [hid]⟩
  simp only [ht, hid, hnone, hfin, hurl, DB.olderThan, hold, decide_true, List.isEmpty_nil,
    Bool.and_self,
    ne_eq, not_false_eq_true]

/-- **One sweep attends to everything that is overdue.** -/
theorem sweep_alone (h : Overdue env w) : machine.Alone Calm (Reconciler.sweep env) w fun _ w' =>
    ∀ id j, w.db.job? id = some j → Attended env w w' id j := by
  apply alone_query
  intro o
  simp only [Call.effect]
  generalize hstale : arrange o.order StaleJob.id
    (w.db.findStale w.now env.queuedStaleAfter env.activeStaleAfter) = stale
  have hmem : ∀ g, g ∈ stale ↔ g ∈ w.db.findStale w.now env.queuedStaleAfter env.activeStaleAfter := by
    intro g
    rw [← hstale, mem_arrange]
  have hnodup : (stale.map StaleJob.id).Nodup := hstale ▸ nodup_arrange (findStale_nodup _ _ _ _)
  have hjobs : ∀ g ∈ stale, ∃ j, w.db.job? g.id = some j ∧ Open j ∧ j.engine = g.engine := by
    intro g hg
    obtain ⟨j, hj, -, hengine, hopen⟩ := DB.mem_findStale ((hmem g).mp hg)
    exact ⟨j, hj, hopen, hengine⟩
  have hfree : ∀ g ∈ stale, TasksFree env w g.id := by
    intro g hg
    obtain ⟨j, hj, -⟩ := hjobs g hg
    exact h.free g.id (Option.isSome_of_eq_some hj)
  show machine.Alone Calm (stale.forM (Reconciler.sweepStale env) >>= fun _ =>
    Reconciler.sweepGaps env) w _
  apply (sweepStales_alone hnodup hjobs hfree).bind
  rintro _ u ⟨hsame, hhandled⟩
  apply alone_query
  intro o'
  simp only [Call.effect]
  generalize hgaps : arrange o'.order WebhookGapJob.id
    (u.db.findWebhookGaps u.now env.activeStaleAfter) = gaps
  have hmem' : ∀ g, g ∈ gaps ↔ g ∈ u.db.findWebhookGaps u.now env.activeStaleAfter := by
    intro g
    rw [← hgaps, mem_arrange]
  have hnodup' : (gaps.map WebhookGapJob.id).Nodup :=
    hgaps ▸ nodup_arrange (findWebhookGaps_nodup _ _ _)
  show machine.Alone Calm (gaps.forM (Reconciler.sweepGap env)) u _
  apply (sweepGapsFound_alone hnodup' u).mono
  rintro _ v ⟨⟨hsame', hrows⟩, hwaiting⟩ id j hj
  refine ⟨fun hopen => ?_, fun ht => ?_⟩
  · -- a recovered job is queued, so the second scan does not find it
    have hdone := hhandled _ ((hmem _).mpr (h.stale hj hopen)) j hj
    have hcases := hdone
    rcases hcases with ⟨hcap, hj', hstatus, hcode, hwebhook⟩ | ⟨-, -, -, hj', hstatus, -⟩ | ⟨hcap, ht⟩
    · exact .exhausted hcap ((hrows.job id).trans hj') hstatus hcode
        fun hurl => (hwebhook hurl).mono hrows.tasks
    · apply hdone.after
      apply hsame'
      rintro g hg rfl
      obtain ⟨j'', hj'', -, hterm, -⟩ := DB.mem_findWebhookGaps ((hmem' g).mp hg)
      obtain rfl := Option.some.inj (hj'.symm.trans hj'')
      rw [hstatus] at hterm
      cases hterm
    · exact .skipped hcap ht
  · -- the first scan passes a finished job over
    have hsameid : Same id w u := by
      apply hsame
      rintro g hg rfl
      obtain ⟨j', hj', hopen, -⟩ := hjobs g hg
      obtain rfl := Option.some.inj (hj.symm.trans hj')
      rcases hopen with hst | hst <;> rw [hst] at ht <;> cases ht
    refine ⟨(hrows.job id).trans (hsameid.job.trans hj), fun hurl hnone => ?_⟩
    have hgap : ⟨id, j.status⟩ ∈ gaps := by
      rw [hmem', hsameid.now]
      have hu := h.gap hj ht hurl hnone
      obtain ⟨j', hrow, heq⟩ := List.mem_map.mp hu
      obtain ⟨hrow, hcond⟩ := List.mem_filter.mp hrow
      obtain ⟨hid, -⟩ := WebhookGapJob.mk.inj heq
      have hjw := DB.mem_jobs_iff.mp hrow
      rw [hid] at hjw
      obtain rfl := Option.some.inj (hj.symm.trans hjw)
      refine List.mem_map.mpr ⟨j, List.mem_filter.mpr ⟨?_, ?_⟩, heq⟩
      · rw [DB.mem_jobs_iff, hid, hsameid.job, hj]
      · rw [hid] at hcond ⊢
        rw [hsameid.deliveries]
        exact hcond
    apply hwaiting _ hgap
    exact Same.free hsameid (h.free id (Option.isSome_of_eq_some hj)).webhook

/-! ## Waiting and sweeping -/

variable {s s' s'' : System} {d : Nat}

/-- A time after which everything is overdue that has been left alone, under lifetimes that asynq
accepts. -/
structure Patient (env : Env) (d : Nat) : Prop where
  queued : env.queuedStaleAfter < d
  active : env.activeStaleAfter < d
  convert : ∀ engine id t, env.client.convertTask engine id = some t →
    second ≤ t.uniqueTTL ∧ t.uniqueTTL ≤ d
  webhook : second ≤ env.client.webhookUniqueTTL ∧ env.client.webhookUniqueTTL ≤ d

/-- For so long nothing happens; then a sweep starts, makes its calls, none of which fails, and ends. -/
structure Round (env : Env) (d : Nat) (s : System) (tr : List (System × Act)) (s' : System) :
    Prop where
  run : Exec (System.step env) s tr s'
  acts : ∃ os : List Obs, (∀ o ∈ os, Calm o) ∧ tr.map Prod.snd =
    .tick d :: .sweep :: (os.map (Act.call s.threads.length) ++ [.finish s.threads.length])

/-- After a patient wait everything is overdue. -/
theorem overdue_of_wait (hs : Sane env s) (hd : Patient env d) :
    Overdue env { s.world with now := s.world.now + (d : Int) } := by
  have hq := hd.queued
  have ha := hd.active
  refine ⟨fun id j hj => ?_, fun id j hj hst => ?_, fun id j hj hst => ?_, fun id hid => ⟨?_, ?_⟩⟩
  · have := (hs.dated.job id j hj).created
    show j.createdAt < s.world.now + (d : Int) - _
    omega
  · obtain ⟨t, ht⟩ := Option.isSome_iff_exists.mp ((hs.dated.job id j hj).active hst)
    have := (hs.dated.job id j hj).started t ht
    refine ⟨t, ht, ?_⟩
    show t < s.world.now + (d : Int) - _
    omega
  · obtain ⟨t, ht⟩ := Option.isSome_iff_exists.mp ((hs.dated.job id j hj).terminal hst)
    have := (hs.dated.job id j hj).finished t ht
    refine ⟨t, ht, ?_⟩
    show t < s.world.now + (d : Int) - _
    omega
  · intro j hj t ht
    obtain ⟨hmin, hmax⟩ := hd.convert j.engine id t ht
    have hid := Client.convertTask_jobID ht
    have hok : TaskOk env False s.world t := by
      have hc := Client.convertTask_isConvert ht
      refine ⟨fun _ => ⟨j, hid ▸ hj, hid ▸ ht⟩, fun hw => ?_, fun _ hfalse => hfalse.elim⟩
      rw [hc] at hw
      cases hw
    refine ⟨hmin, Bool.eq_false_iff.mpr fun hlocked => ?_⟩
    obtain ⟨l, hl, hlt⟩ := Asynq.locked_iff.mp hlocked
    have := lock_expires hs hok hl
    change s.world.now + (d : Int) < l.expires at hlt
    omega
  · obtain ⟨hmin, hmax⟩ := hd.webhook
    have hok : TaskOk env False s.world (env.client.webhookTask id) :=
      ⟨nofun, fun _ => rfl, fun _ hfalse => hfalse.elim⟩
    refine ⟨hmin, Bool.eq_false_iff.mpr fun hlocked => ?_⟩
    obtain ⟨l, hl, hlt⟩ := Asynq.locked_iff.mp hlocked
    have := lock_expires hs hok hl
    change s.world.now + (d : Int) < l.expires at hlt
    change l.expires ≤ s.world.now + env.client.webhookUniqueTTL at this
    omega

/-- A thread that alone makes its calls runs its program. -/
theorem alone_calls {tid : Nat} {role : Role} {p : P Outcome} {Q : Outcome → World → Prop}
    {tr : List (System × Act)} {os : List Obs} (h : Exec (System.step env) s tr s')
    (hacts : tr.map Prod.snd = os.map (Act.call tid)) (hos : ∀ o ∈ os, Calm o)
    (ht : s.thread? tid = some ⟨role, p⟩) (hp : machine.Alone Calm p s.world Q) :
    ∃ p', s'.thread? tid = some ⟨role, p'⟩ ∧ machine.Alone Calm p' s'.world Q := by
  induction os generalizing s p tr with
  | nil =>
    obtain rfl := List.map_eq_nil_iff.mp hacts
    cases h
    exact ⟨p, ht, hp⟩
  | cons o os ih =>
    obtain ⟨u, tr', hstep, hrest, hacts'⟩ := h.first hacts
    rcases p with a | ⟨c, k⟩
    · simp [step, ht] at hstep
    · simp only [step, ht, Option.some.injEq] at hstep
      obtain rfl := hstep
      refine ih hrest hacts' (fun o' ho' => hos o' (List.mem_cons_of_mem _ ho')) ?_
        (alone_call.mp hp o (hos o List.mem_cons_self))
      rw [thread?, slot?_set ht, if_pos rfl]
      rfl

/-- **What one wait and one sweep do for every job.** -/
theorem Sane.attended (hs : Sane env s) (hd : Patient env d) {tr : List (System × Act)}
    (hr : Round env d s tr s') : Sane env s' ∧ ∀ id j, s.world.db.job? id = some j →
      Attended env s.world s'.world id j := by
  refine ⟨hs.run hr.run, ?_⟩
  obtain ⟨os, hos, hacts⟩ := hr.acts
  obtain ⟨s₁, tr₁, htick, hrun₁, hacts₁⟩ := hr.run.first hacts
  obtain ⟨s₂, tr₂, hsweep, hrun₂, hacts₂⟩ := hrun₁.first hacts₁
  obtain ⟨s₃, tr₃, hcalls, hacts₃, hfinish⟩ := hrun₂.last hacts₂
  obtain rfl := Option.some.inj htick
  obtain rfl := Option.some.inj hsweep
  have hthread : (spawn { s with world := { s.world with now := s.world.now + (d : Int) } } .sweeper
      (sweepProg env)).thread? s.threads.length = some ⟨.sweeper, sweepProg env⟩ := by
    rw [thread?, spawn, slot?_append, if_pos rfl]
  have hsweeps : machine.Alone Calm (sweepProg env) { s.world with now := s.world.now + (d : Int) }
      fun _ w' => ∀ id j, s.world.db.job? id = some j → Attended env s.world w' id j := by
    apply (sweep_alone (overdue_of_wait hs hd)).bind
    intro _ w' h
    apply alone_ret.mpr
    intro id j hj
    obtain ⟨hopen, hfin⟩ := h id j hj
    refine ⟨fun ho => ?_, hfin⟩
    rcases hopen ho with ⟨hcap, hj', hst, hcode, hurl⟩ | ⟨hcap, ht, hwait, hj', hst, heng, hcount⟩ |
      ⟨hcap, ht⟩
    · exact .exhausted hcap hj' hst hcode hurl
    · exact .recovered hcap ht hwait hj' hst heng hcount
    · exact .skipped hcap ht
  obtain ⟨p', ht', hp'⟩ := alone_calls hcalls hacts₃ hos hthread hsweeps
  rcases p' with a | ⟨c, k⟩
  · simp only [step, ht', Option.some.injEq] at hfinish
    obtain rfl := hfinish
    exact alone_ret.mp hp'
  · simp [step, ht'] at hfinish

/-- **Nothing is left behind.** From whatever state a run has reached: after a wait that is longer than
both stale thresholds and than the lifetime of every lock (of at least a second, as asynq demands), one
sweep that goes well puts a task of every job into its queue that is still to be converted, or fails the
job at the recovery cap, and enqueues every webhook that was never tried. Below the cap, a job whose
engine has no queue is left alone. -/
theorem round_handled {now : Int} {pre tr : List (System × Act)}
    (h : Exec (System.step env) (System.init now) pre s) (hd : Patient env d)
    (hr : Round env d s tr s') {id : UUID} {j : Job} (hj : s.world.db.job? id = some j) :
    Attended env s.world s'.world id j :=
  ((dated_run h).attended hd hr).2 id j hj

/-- A thread can always make its calls to the end, if nothing fails. -/
theorem exists_calls (env : Env) {tid : Nat} {role : Role} (p : P Outcome)
    (ht : s.thread? tid = some ⟨role, p⟩) :
    ∃ (tr : List (System × Act)) (s' : System) (os : List Obs) (a : Outcome),
      Exec (System.step env) s tr s' ∧ (∀ o ∈ os, Calm o) ∧
        tr.map Prod.snd = os.map (Act.call tid) ∧ s'.thread? tid = some ⟨role, .ret a⟩ := by
  induction p generalizing s with
  | ret a => exact ⟨[], s, [], a, .nil s, fun o ho => absurd ho List.not_mem_nil, rfl, ht⟩
  | call c k ih =>
    have hstep : step env s (.call tid {}) = some ⟨(c.exec {} s.world).2,
        s.threads.set tid (some ⟨role, k (c.exec {} s.world).1⟩)⟩ := by
      simp only [step, ht]
    obtain ⟨tr, s', os, a, hexec, hos, hacts, hret⟩ := ih (c.exec {} s.world).1
      (s := ⟨(c.exec {} s.world).2, s.threads.set tid (some ⟨role, k (c.exec {} s.world).1⟩)⟩)
      (by rw [thread?, slot?_set ht, if_pos rfl])
    refine ⟨_, s', {} :: os, a, .cons hstep hexec, fun o ho => ?_, ?_, hret⟩
    · rcases List.mem_cons.mp ho with rfl | ho
      · rfl
      · exact hos o ho
    · rw [List.map_cons, List.map_cons, hacts]

/-- In every state a round is possible. -/
theorem round_exists (env : Env) (d : Nat) (s : System) : ∃ tr s', Round env d s tr s' := by
  have hthread : (spawn { s with world := { s.world with now := s.world.now + (d : Int) } } .sweeper
      (sweepProg env)).thread? s.threads.length = some ⟨.sweeper, sweepProg env⟩ := by
    rw [thread?, spawn, slot?_append, if_pos rfl]
  obtain ⟨tr, s₁, os, a, hexec, hos, hacts, hret⟩ := exists_calls env (sweepProg env) hthread
  have hfinish : step env s₁ (.finish s.threads.length) = some (s₁.remove s.threads.length) := by
    simp only [step, hret]
  have htick : step env s (.tick d) =
      some { s with world := { s.world with now := s.world.now + (d : Int) } } := rfl
  refine ⟨_, _, .cons (a := .tick d) htick (.cons (a := .sweep) rfl (hexec.snoc hfinish)), os, hos, ?_⟩
  rw [List.map_cons, List.map_cons, List.map_append, hacts]
  rfl

/-- Ten hours are enough for the default configuration. -/
theorem patient_example : Patient exampleEnv 36000000000000 := by
  refine ⟨by decide, by decide, fun engine id t ht => ?_, by decide⟩
  rcases engine with _ | _ | _ | _ | _ | _ | _ | _
  all_goals try cases ht
  all_goals exact ⟨of_decide_eq_true rfl, of_decide_eq_true rfl⟩

/-- A create request that dies after it has recorded the job. -/
def strandedActs : List Act := [.submit exampleJob, .call 0 {}, .crash 0]

/-- Each of the actions can be taken. -/
theorem strandedActs_enabled :
    (trace (System.step exampleEnv) (System.init 0) strandedActs).isSome = true := by
  decide +kernel

/-- The state that it leaves. -/
def stranded : System :=
  (runOf (System.step exampleEnv) (System.init 0) strandedActs strandedActs_enabled).2

/-- They leave a queued job behind. -/
theorem stranded_job : ∃ j ∈ stranded.world.db.job? 7, j.status = .queued ∧ j.engine = .image := by
  decide +kernel

/-- The job of that request is handled. -/
theorem round_handled_stranded : ∃ tr s' j, Round exampleEnv 36000000000000 stranded tr s' ∧
    stranded.world.db.job? 7 = some j ∧
    Attended exampleEnv stranded.world s'.world 7 j := by
  obtain ⟨tr, s', hr⟩ := round_exists exampleEnv 36000000000000 stranded
  obtain ⟨j, hj, -⟩ := stranded_job
  exact ⟨tr, s', j, hr, hj, round_handled (exec_runOf strandedActs_enabled) patient_example hr hj⟩

/-! ## Several rounds -/

/-- So many rounds, one after another. -/
inductive Rounds (env : Env) (d : Nat) : Nat → System → System → Prop where
  | none (s : System) : Rounds env d 0 s s
  | more {n : Nat} {s t u : System} {tr : List (System × Act)} (h : Rounds env d n s t)
      (hr : Round env d t tr u) : Rounds env d (n + 1) s u

/-- The webhook of the job has been tried, or waits in its queue. -/
def Notified (env : Env) (w : World) (id : UUID) : Prop :=
  w.db.deliveriesOf id ≠ [] ∨ Waiting w (env.client.webhookTask id)

/-- A job after so many rounds: it is finished and its client is told, or it has been recovered each
time. -/
structure Progress (env : Env) (n : Nat) (j : Job) (id : UUID) (w : World) (j' : Job) : Prop where
  job : w.db.job? id = some j'
  later : j.Later j'
  finished : j'.status.terminal = true → 0 < n → j.callbackURL ≠ "" → Notified env w id
  unfinished : Open j' → n ≤ w.db.recoveryCount id ∧
    (0 < n → (w.db.recoveryCount id : Int) ≤ env.maxRecoveries)

/-- The world only grows in a run. -/
theorem run_grows {tr : List (System × Act)} (h : Exec (System.step env) s tr s') :
    s.world.Grows s'.world :=
  (h.invariant (I := fun t => s.world.Grows t.world) (P := fun _ _ => True)
    (fun _ _ _ hI _ hstep => hI.trans (step_grows hstep)) (.refl _) fun _ _ => trivial).2

/-- A delivery that was recorded stays so. -/
theorem deliveriesOf_grows (h : w.Grows w') (hne : w.db.deliveriesOf id ≠ []) :
    w'.db.deliveriesOf id ≠ [] := by
  obtain ⟨x, hx⟩ := List.exists_mem_of_ne_nil _ hne
  obtain ⟨hmem, hid⟩ := List.mem_filter.mp hx
  obtain ⟨x', hx', hid', -⟩ := h.deliveries x hmem
  refine List.ne_nil_of_mem (List.mem_filter.mpr ⟨hx', ?_⟩)
  rw [hid']
  exact hid

/-- One more round. -/
theorem Progress.round {n : Nat} {j j' : Job} {tr : List (System × Act)} (hs : Sane env s)
    (hd : Patient env d) (hr : Round env d s tr s') (hp : Progress env n j id s.world j')
    (hroute : env.client.convertTask j.engine id ≠ none) :
    ∃ j'', Progress env (n + 1) j id s'.world j'' := by
  have hgrows := run_grows hr.run
  have hattended := (hs.attended hd hr).2 id j' hp.job
  obtain ⟨j'', hj'', hlater⟩ := hgrows.job id j' hp.job
  have hurl : j'.callbackURL = j.callbackURL := hp.later.callbackURL
  refine ⟨j'', hj'', hp.later.trans hlater, fun ht _ hne => ?_, fun hopen => ?_⟩
  · rcases hs.ok.inv.status id j' hp.job with hq | ha | hterm
    · rcases hattended.unfinished (.inl hq) with ⟨-, -, -, -, hwebhook⟩ |
        ⟨-, -, -, hj, hst, -⟩ | ⟨-, hnone⟩
      · exact .inr (hwebhook (hurl ▸ hne))
      · obtain rfl := Option.some.inj (hj''.symm.trans hj)
        rw [hst] at ht
        cases ht
      · exact absurd (hp.later.engine ▸ hnone) hroute
    · rcases hattended.unfinished (.inr ha) with ⟨-, -, -, -, hwebhook⟩ |
        ⟨-, -, -, hj, hst, -⟩ | ⟨-, hnone⟩
      · exact .inr (hwebhook (hurl ▸ hne))
      · obtain rfl := Option.some.inj (hj''.symm.trans hj)
        rw [hst] at ht
        cases ht
      · exact absurd (hp.later.engine ▸ hnone) hroute
    · by_cases hnone : s.world.db.deliveriesOf id = []
      · exact .inr ((hattended.finished hterm).2 (hurl ▸ hne) hnone)
      · exact .inl (deliveriesOf_grows hgrows hnone)
  · have hopen' : Open j' := by
      rcases hs.ok.inv.status id j' hp.job with hq | ha | hterm
      · exact .inl hq
      · exact .inr ha
      · obtain rfl := hlater.finished hterm
        exact hopen
    rcases hattended.unfinished hopen' with ⟨-, hj, hst, -⟩ | ⟨hcap, -, -, -, -, -, hcount⟩ | ⟨-, hnone⟩
    · obtain rfl := Option.some.inj (hj''.symm.trans hj)
      rcases hopen with h | h <;> rw [hst] at h <;> cases h
    · have := (hp.unfinished hopen').1
      omega
    · exact absurd (hp.later.engine ▸ hnone) hroute

/-- **Every job ends.** From whatever state a run has reached, and even if no worker ever runs again:
after one more round than the recovery cap, every job whose engine has a queue is done or failed, and
the webhook of every client that wants one has been tried or waits in its queue. -/
theorem rounds_finish {now : Int} {pre : List (System × Act)} {n : Nat}
    (h : Exec (System.step env) (System.init now) pre s) (hd : Patient env d)
    (hr : Rounds env d n s s') (hpos : 0 < n) (hn : env.maxRecoveries < n) {id : UUID} {j : Job}
    (hj : s.world.db.job? id = some j) (hroute : env.client.convertTask j.engine id ≠ none) :
    ∃ j', s'.world.db.job? id = some j' ∧ j.Later j' ∧ j'.status.terminal = true ∧
      (j.callbackURL ≠ "" → Notified env s'.world id) := by
  have hprogress : Sane env s' ∧ ∃ j', Progress env n j id s'.world j' := by
    clear hn hpos
    induction hr with
    | none s =>
      refine ⟨dated_run h, j, hj, .refl j, fun _ h0 => absurd h0 (by omega), fun _ => ?_⟩
      exact ⟨Nat.zero_le _, fun h0 => absurd h0 (by omega)⟩
    | more _ hr ih =>
      obtain ⟨hsane, j', hp⟩ := ih h hj
      exact ⟨(hsane.attended hd hr).1, hp.round hsane hd hr hroute⟩
  obtain ⟨hsane, j', hp⟩ := hprogress
  have hterm : j'.status.terminal = true := by
    by_contra hno
    have hopen : Open j' := by
      rcases hsane.ok.inv.status id j' hp.job with hq | ha | ht
      · exact .inl hq
      · exact .inr ha
      · exact absurd ht hno
    have hbound := (hp.unfinished hopen).2 hpos
    have hcount := (hp.unfinished hopen).1
    omega
  exact ⟨j', hp.job, hp.later, hterm, hp.finished hterm hpos⟩

/-- There are as many rounds as one likes. -/
theorem rounds_exist (env : Env) (d n : Nat) (s : System) : ∃ s', Rounds env d n s s' := by
  induction n with
  | zero => exact ⟨s, .none s⟩
  | succ n ih =>
    obtain ⟨t, ht⟩ := ih
    obtain ⟨tr, u, hr⟩ := round_exists env d t
    exact ⟨u, .more ht hr⟩

/-- Four sweeps end the job of the request that died. -/
theorem rounds_finish_stranded : ∃ s' j', Rounds exampleEnv 36000000000000 4 stranded s' ∧
    s'.world.db.job? 7 = some j' ∧ j'.status.terminal = true := by
  obtain ⟨s', hr⟩ := rounds_exist exampleEnv 36000000000000 4 stranded
  obtain ⟨j, hj, -, hengine⟩ := stranded_job
  obtain ⟨j', hj', -, hterm, -⟩ := rounds_finish (exec_runOf strandedActs_enabled) patient_example hr
    (by decide) (by decide) hj (by rw [hengine]; exact nofun)
  exact ⟨s', j', hr, hj', hterm⟩

end OctoConv.System
