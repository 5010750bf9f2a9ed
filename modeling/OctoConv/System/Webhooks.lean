import OctoConv.System.Contract

/-!
# Webhooks of finished jobs

A webhook tells a client how its job ended, so it may be enqueued only once the end is committed.
Ten of the eleven places that enqueue one wait for the commit; the sweep's branch for jobs at the
recovery cap goes on whatever the status change answered.

## Main results

* `webhook_only_when_finished` — in a run where that status change is never lost on an unfinished
  job, webhooks are enqueued for finished jobs only, and their bodies say how the job ended.
* `webhook_of_queued_job` — in a run where it is, a webhook tells that the job is queued.
-/

namespace OctoConv.System

open Conc Worker

/-- Webhooks are about finished jobs. -/
structure WebhooksFinal (s : System) : Prop where
  /-- Whoever is about to enqueue a webhook finds its job done or failed. -/
  enqueue : ∀ tid t, s.enqueuing tid = some t → t.typename = .webhookDeliver →
    ∃ j, s.world.db.job? t.jobID = some j ∧ (j.status = .done ∨ j.status = .failed)
  /-- The body of a webhook that was sent says done or failed. -/
  body : ∀ p ∈ s.world.posts, p.body.status = .done ∨ p.body.status = .failed

variable {env : Env} {s : System}

/-- **In a careful run webhooks are about finished jobs.** -/
theorem webhook_only_when_finished {now : Int} {tr : List (System × Act)}
    (h : Exec (System.step env) (System.init now) tr s)
    (hcare : ∀ x ∈ tr, CarefulStep x.1 x.2) :
    (∀ x ∈ tr, WebhooksFinal x.1) ∧ WebhooksFinal s := by
  have hfinal : ∀ {s : System}, Holds (contract env True) Returns s → WebhooksFinal s := by
    intro s hs
    refine ⟨fun tid t ht htype => ?_, fun p hp => ?_⟩
    · obtain ⟨role, k, hth⟩ := thread_of_enqueuing ht
      have hpre : TaskOk env True s.world t := (hs.safe tid _ hth).pre hs.inv
      obtain ⟨j, hj, hterm⟩ := hpre.finished (by rw [htype]; rfl) trivial
      exact ⟨j, hj, Status.terminal_iff.mp hterm⟩
    · exact Status.terminal_iff.mp (hs.inv.posts trivial p hp)
  have hrun := contract_run True h fun _ => hcare
  exact ⟨fun x hx => hfinal (hrun.1 x hx).2, hfinal hrun.2.2⟩

/-- A step during which nothing fails is careful. -/
theorem carefulStep_of_faultless {a : Act} (h : ∀ tid o, a = .call tid o → o.fault = .none) :
    CarefulStep s a := by
  rintro tid o role c k rfl - id - ⟨err, hf⟩
  rw [h tid o rfl] at hf
  cases hf

/-- The fourth sweep fails the job and sends its webhook. -/
def exhaustedActs : List Act :=
  cappedActs ++ [.call 4 {}, .call 4 {}, .start 4, .call 5 {}, .call 5 {}]

/-- Each of the actions can be taken. -/
theorem exhaustedActs_enabled :
    (trace (System.step exampleEnv) (System.init 0) exhaustedActs).isSome = true := by
  decide +kernel

/-- In that run the webhook tells that the job has failed. -/
theorem webhook_only_when_finished_exhausted :
    let x := runOf (System.step exampleEnv) (System.init 0) exhaustedActs exhaustedActs_enabled
    x.2.world.posts.map (·.body.status) = [.failed] ∧ WebhooksFinal x.2 := by
  have hfaultless : ∀ a ∈ exhaustedActs, ∀ tid o, a = .call tid o → o.fault = .none := by
    have hall : ∀ a ∈ exhaustedActs, ∀ c ∈ a.call?, c.2.fault = .none := by decide +kernel
    rintro _ ha tid o rfl
    exact hall _ ha (tid, o) rfl
  have h := webhook_only_when_finished (exec_runOf exhaustedActs_enabled) fun x hx =>
    carefulStep_of_faultless (hfaultless x.2 (mem_runOf hx))
  exact ⟨by decide +kernel, h.2⟩

/-! ## The sweep that discards the error -/

/-- The fourth sweep fails to fail the job, and goes on to its webhook. -/
def uncommittedActs : List Act :=
  cappedActs ++ [.call 4 { fault := .aborted (GoError.new "connection reset") }]

/-- Each of the actions can be taken, up to the commit that fails. -/
theorem uncommittedActs_enabled :
    (trace (System.step exampleEnv) (System.init 0) uncommittedActs).isSome = true := by
  decide +kernel

/-- The webhook is enqueued and delivered. -/
def uncommittedDelivery : List Act :=
  uncommittedActs ++ [.call 4 {}, .start 4, .call 5 {}, .call 5 {}]

/-- Each of the actions can be taken, up to the delivery behind it. -/
theorem uncommittedDelivery_enabled :
    (trace (System.step exampleEnv) (System.init 0) uncommittedDelivery).isSome = true := by
  decide +kernel

/-- **Without care a webhook is enqueued for a queued job, and its body says so.** -/
theorem webhook_of_queued_job :
    (¬ ∀ (env : Env) (now : Int) (tr : List (System × Act)) (s : System),
      Exec (System.step env) (System.init now) tr s →
      ∀ tid t, s.enqueuing tid = some t → t.typename = .webhookDeliver →
        ∃ j, s.world.db.job? t.jobID = some j ∧ (j.status = .done ∨ j.status = .failed)) ∧
    ¬ ∀ (env : Env) (now : Int) (tr : List (System × Act)) (s : System),
      Exec (System.step env) (System.init now) tr s →
      ∀ p ∈ s.world.posts, p.body.status = .done ∨ p.body.status = .failed := by
  constructor
  · intro h
    obtain ⟨j, hj, hst⟩ := h exampleEnv 0 _ _ (exec_runOf uncommittedActs_enabled) 4
      (exampleEnv.client.webhookTask 7) (by decide +kernel) rfl
    have hq : ((runOf (System.step exampleEnv) (System.init 0) uncommittedActs
        uncommittedActs_enabled).2.world.db.job? 7).map Job.status = some .queued := by
      decide +kernel
    change DB.job? _ 7 = some j at hj
    rw [hj] at hq
    have hq := Option.some.inj hq
    rcases hst with hst | hst <;> rw [hst] at hq <;> cases hq
  · intro h
    have hall := h exampleEnv 0 _ _ (exec_runOf uncommittedDelivery_enabled)
    have hq : ∃ p ∈ (runOf (System.step exampleEnv) (System.init 0) uncommittedDelivery
        uncommittedDelivery_enabled).2.world.posts, p.body.status = .queued := by
      decide +kernel
    obtain ⟨p, hp, hq⟩ := hq
    rcases hall p hp with hst | hst <;> rw [hst] at hq <;> cases hq

end OctoConv.System
