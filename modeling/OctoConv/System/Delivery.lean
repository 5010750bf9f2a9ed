import OctoConv.System.Unfinished

/-!
# Webhooks are delivered once

Three places enqueue the webhook of a job: the handler that ended it, the sweep's branch for jobs at
the recovery cap, and the sweep's scan for lost webhooks. Two things keep them from delivering it
twice: the unique lock while a webhook task is unfinished, and the row of a successful attempt after
it. Both have gaps: the row may fail to be written, a task may outlive its lock, and a sweep may act
on what it read before the row was written.

## Main results

* `delivered_once` — in a run that stays clear of these gaps (`DeliverySafe`), no webhook is sent
  for a job after one was answered with a 2xx.
* `delivered_twice` — a run in which the row of the successful attempt is lost.
-/

namespace OctoConv

open Conc

/-- The endpoint answered with a 2xx. -/
def Post.Accepted (p : Post) : Prop := ∃ code ∈ p.reply, 200 ≤ code ∧ code < 300

instance (p : Post) : Decidable p.Accepted :=
  inferInstanceAs (Decidable (∃ code ∈ p.reply, _))

namespace System

open Worker

/-! ## One attempt at a webhook -/

/-- What an attempt at a webhook has seen so far. -/
inductive Stage
  /-- Nothing has been sent; the id in the row that was loaded. -/
  | unsent (loaded : Option UUID)
  /-- The endpoint did not answer with a 2xx. -/
  | rejected
  /-- It did; whether the attempt has been recorded. -/
  | accepted (recorded : Bool)

/-- What an attempt at the webhook of the job `id` may call. -/
def Stage.Allows (id : UUID) : Stage → Call → Prop
  | _, .get id' => id' = id
  | .unsent loaded, .post _ body => loaded = some body.jobID
  | _, .post _ _ => False
  | .accepted _, .recordAttempt id' _ _ _ delivered => id' = id ∧ delivered = true
  | _, _ => True

/-- What an attempt has seen after a call. -/
def Stage.next : Stage → (c : Call) → c.Result → Stage
  | .unsent _, .get _, .ok job => .unsent (some job.id)
  | .unsent _, .post _ _, .ok code =>
      if 200 ≤ code ∧ code < 300 then .accepted false else .rejected
  | .unsent _, .post _ _, .error _ => .rejected
  | .accepted _, .recordAttempt .., _ => .accepted true
  | stage, _, _ => stage

/-- Webhooks are sent by attempts at a webhook only, each once, and a successful one is recorded. -/
def deliverMonitor : Monitor Call Call.Result (Option (UUID × Stage)) where
  Allows
    | none, .post _ _ => False
    | none, _ => True
    | some (id, stage), c => stage.Allows id c
  next
    | none, _, _ => none
    | some (id, stage), c, r => some (id, stage.next c r)

/-- A successful attempt returns without an error, once it is recorded. -/
def Settled (out : Outcome) (g : Option (UUID × Stage)) : Prop :=
  ∀ id recorded, g = some (id, .accepted recorded) → recorded = true ∧ out = .handled none

/-- A call that is not a POST. -/
def NotPost (c : Call) : Prop := ∀ url body, c ≠ .post url body

/-- The call is a POST. -/
def isPost : Call → Bool
  | .post .. => true
  | _ => false

/-- A call that is no POST posts nothing. -/
theorem notPost_of_isPost {c : Call} (h : isPost c = false) : NotPost c := by
  rintro url body rfl
  cases h

/-- A thread that sends nothing follows the monitor. -/
theorem follows_none {p : P Outcome} (hp : p.Calls NotPost) :
    Follows deliverMonitor Settled p none := by
  have hneutral : ∀ c, NotPost c → Neutral deliverMonitor (· = none) c := by
    rintro c hc _ rfl
    refine ⟨?_, fun _ => rfl⟩
    dsimp only [deliverMonitor]
    split
    · exact hc _ _ rfl
    · trivial
    · contradiction
  refine (Follows.of_calls (K := (· = none)) (hp.mono hneutral) rfl).mono ?_
  rintro out _ rfl id recorded hg
  cases hg

/-- What the handler of an attempt returns. -/
def SettledErr (err : Option GoError) (g : Option (UUID × Stage)) : Prop :=
  ∀ id recorded, g = some (id, .accepted recorded) → recorded = true ∧ err = none

/-- Before anything was accepted every error is fine. -/
theorem settledErr_of_ne {err : Option GoError} {id : UUID} {stage : Stage}
    (h : ∀ recorded, stage ≠ .accepted recorded) : SettledErr err (some (id, stage)) := by
  rintro id' recorded heq
  exact absurd (Prod.mk.inj (Option.some.inj heq)).2 (h recorded)

/-- A delivery is one POST, accepted or not. -/
theorem deliver_follows (jobID : UUID) (url : String) (body : WebhookBody) :
    Follows deliverMonitor (fun sent g =>
        (sent.2 = none ∧ g = some (jobID, .accepted false)) ∨
          (sent.2 ≠ none ∧ g = some (jobID, .rejected)))
      (deliver url body) (some (jobID, .unsent (some body.jobID))) := by
  refine ⟨rfl, fun r => ?_⟩
  rcases r with err | code
  · exact .inr ⟨nofun, rfl⟩
  · show Follows _ _ (if 200 ≤ code ∧ code < 300 then _ else _)
      (some (jobID, if 200 ≤ code ∧ code < 300 then _ else _))
    split
    · exact .inl ⟨rfl, rfl⟩
    · exact .inr ⟨nofun, rfl⟩

/-- An attempt posts once, and reports an error unless the POST is settled. -/
theorem attempt_follows (job : Job) (jobID : UUID) (retryCount maxRetry : Nat)
    (body : WebhookBody) :
    Follows deliverMonitor SettledErr (attempt job jobID retryCount maxRetry body)
      (some (jobID, .unsent (some body.jobID))) := by
  refine Follows.bind_of (deliver_follows jobID job.callbackURL body) ?_
  rintro ⟨code, derr⟩ g (⟨hnone, rfl⟩ | ⟨hsome, rfl⟩)
  · obtain rfl : derr = none := hnone
    refine ⟨⟨rfl, rfl⟩, fun _ => ?_⟩
    rintro id recorded heq
    cases heq
    exact ⟨rfl, rfl⟩
  · rcases derr with _ | err
    · exact absurd rfl hsome
    · have hret : SettledErr (some err) (some (jobID, .rejected)) := settledErr_of_ne nofun
      refine ⟨trivial, fun r => ?_⟩
      rcases r with _ | deliveryID
      · exact hret
      · show Follows _ _ (if maxRetry ≤ retryCount then _ else _) (some (jobID, Stage.rejected))
        split
        · exact ⟨trivial, fun _ => hret⟩
        · exact hret

/-- The body is about the job, and nothing is posted for it. -/
theorem webhookBody_follows {env : Env} {job : Job} {jobID : UUID} {g : Option (UUID × Stage)}
    (hg : g = some (jobID, .unsent (some job.id))) :
    Follows deliverMonitor (fun r g => g = some (jobID, .unsent (some job.id)) ∧
      ∀ body, r = .ok body → body.jobID = job.id) (webhookBody env job jobID) g := by
  subst hg
  unfold webhookBody
  split
  · refine ⟨trivial, fun r => ?_⟩
    rcases r with _ | ⟨_ | ⟨out, l⟩⟩
    · exact ⟨rfl, nofun⟩
    · exact ⟨rfl, nofun⟩
    · refine ⟨trivial, fun r => ?_⟩
      rcases r with _ | url
      · exact ⟨rfl, nofun⟩
      · refine ⟨rfl, ?_⟩
        rintro body ⟨⟩
        rfl
  · split
    · refine ⟨rfl, ?_⟩
      rintro body ⟨⟩
      rfl
    · refine ⟨rfl, ?_⟩
      rintro body ⟨⟩
      rfl

/-- **An attempt at a webhook follows the monitor.** -/
theorem handleWebhookDeliver_follows (env : Env) (jobID : UUID) (retryCount maxRetry : Nat) :
    Follows deliverMonitor SettledErr (handleWebhookDeliver env jobID retryCount maxRetry)
      (some (jobID, .unsent none)) := by
  refine ⟨rfl, fun r => ?_⟩
  rcases r with err | job
  · exact settledErr_of_ne nofun
  · show Follows _ _ (if job.callbackURL = "" then _ else _) (some (jobID, Stage.unsent (some job.id)))
    split
    · exact settledErr_of_ne nofun
    · refine Follows.bind_of (webhookBody_follows rfl) ?_
      rintro r g ⟨rfl, hbody⟩
      rcases r with err | body
      · exact settledErr_of_ne nofun
      · rw [← hbody body rfl]
        exact attempt_follows job jobID retryCount maxRetry body

/-! ## The invariant -/

variable {env : Env} {s s' : System} {a : Act} {tid : Nat} {id : UUID}

/-- A webhook of the job was answered with a 2xx. -/
def AcceptedFor (s : System) (id : UUID) : Prop :=
  ∃ p ∈ s.world.posts, p.body.jobID = id ∧ p.Accepted

/-- A successful delivery of the job is recorded. -/
def Recorded (s : System) (id : UUID) : Prop :=
  ∃ d ∈ s.world.db.deliveries, d.jobID = id ∧ d.delivered = true

/-- The steps that stay clear of the gaps. -/
structure DeliverySafe (s : System) (a : Act) : Prop where
  /-- The row of a successful attempt is written. -/
  record : ∀ tid o role id url n code k, a = .call tid o →
    s.thread? tid = some ⟨role, .call (.recordAttempt id url n code true) k⟩ →
    ∀ err, o.fault ≠ .aborted err
  /-- A webhook that is accepted into the queue is not one that is recorded as delivered. -/
  enqueue : ∀ tid t, Accepts s a tid t → t.typename.isConvert = false → ¬ Recorded s t.jobID
  /-- The unfinished webhook tasks of its job are within their TTL. -/
  ttl : WithinTTL false s a
  /-- The worker does not die between the 2xx and the end of its task. -/
  crash : ∀ tid k i, a = .crash tid → s.working tid = some k →
    s.world.asynq.tasks[k]? = some i → i.task.typename.isConvert = false →
    ¬ AcceptedFor s i.task.jobID

/-- What an attempt has seen is true of the world. -/
def StageOk (s : System) (id : UUID) : Stage → Prop
  | .unsent loaded => (∀ x ∈ loaded, x = id) ∧ ¬ AcceptedFor s id
  | .rejected => ¬ AcceptedFor s id
  | .accepted recorded => recorded = true → Recorded s id

/-- The thread executes a webhook task of the job. -/
def Delivers (s : System) (role : Role) (id : UUID) : Prop :=
  ∃ k, role = .worker k ∧ ∃ i ∈ s.world.asynq.tasks[k]?, i.task.typename.isConvert = false ∧
    i.task.jobID = id

/-- The ghost state of a thread fits the task that it executes, and the world. -/
def Fits (s : System) (role : Role) : Option (UUID × Stage) → Prop
  | none => ∀ id, ¬ Delivers s role id
  | some (id, stage) => Delivers s role id ∧ StageOk s id stage

/-- While a job has a webhook that was answered with a 2xx, its webhook task is being executed or
the delivery is recorded. -/
structure DeliveryInv (s : System) : Prop where
  one : OneTask false s
  busy : ∀ id k, AcceptedFor s id → Unfinished false s id k → ∃ tid, s.working tid = some k
  kept : ∀ id, AcceptedFor s id → Recorded s id ∨ ∃ k, Unfinished false s id k
  threads : Monitored deliverMonitor Settled (fun _ => Fits s) s
  posts : s.world.posts.Pairwise fun p q => p.Accepted → q.body.jobID ≠ p.body.jobID

/-- A delivery that was recorded stays so. -/
theorem recorded_step (h : System.step env s a = some s') (hr : Recorded s id) :
    Recorded s' id := by
  obtain ⟨d, hd, hid, hdel⟩ := hr
  obtain ⟨d', hd', hid', hdel'⟩ := (step_grows h).deliveries d hd
  exact ⟨d', hd', hid'.trans hid, hdel'.trans hdel⟩

/-- Who executes an unfinished webhook task. -/
theorem delivers_iff (hwf : Wf s) {k : Nat} {p : P Outcome}
    (ht : s.thread? tid = some ⟨.worker k, p⟩) :
    Delivers s (.worker k) id ↔ Unfinished false s id k := by
  constructor
  · rintro ⟨k', hk, i, hi, hic, hid⟩
    obtain rfl := Role.worker.inj hk
    obtain ⟨i', hi', hact⟩ := hwf.threads.busy tid k p ht
    obtain rfl := Option.some.inj (hi.symm.trans hi')
    exact ⟨i, hi, hic, hid, by rw [TaskInfo.unfinished, hact]; rfl⟩
  · rintro ⟨i, hi, hic, hid, -⟩
    exact ⟨k, rfl, i, hi, hic, hid⟩

/-- The thread of a task whose job has had its 2xx is the one that got it. -/
theorem accepted_thread (hwf : Wf s) (hi : DeliveryInv s) {k : Nat} {p : P Outcome}
    (ht : s.thread? tid = some ⟨.worker k, p⟩) (hk : Unfinished false s id k)
    (hacc : AcceptedFor s id) :
    ∃ recorded, Follows deliverMonitor Settled p (some (id, .accepted recorded)) ∧
      (recorded = true → Recorded s id) := by
  have hdel := (delivers_iff hwf ht).mpr hk
  obtain ⟨g, hp, hg⟩ := hi.threads tid _ ht
  rcases g with _ | ⟨id', stage⟩
  · exact absurd hdel (hg id)
  · obtain ⟨⟨k', hk', i, hti, hic, rfl⟩, hstage⟩ := hg
    obtain rfl := Role.worker.inj hk'
    obtain ⟨i', hti', -, rfl, -⟩ := hk
    obtain rfl := Option.some.inj (hti.symm.trans hti')
    cases stage with
    | unsent loaded => exact absurd hacc hstage.2
    | rejected => exact absurd hacc hstage
    | accepted recorded => exact ⟨recorded, hp, hstage⟩

/-- Whoever is about to send a webhook executes the task of its job, which has had no 2xx. -/
theorem posting_thread (hwf : Wf s) (hi : DeliveryInv s) {role : Role} {url : String}
    {body : WebhookBody} {k : (Call.post url body).Result → P Outcome}
    (ht : s.thread? tid = some ⟨role, .call (.post url body) k⟩) :
    (∃ k, s.working tid = some k ∧ Unfinished false s body.jobID k) ∧
      ¬ AcceptedFor s body.jobID := by
  obtain ⟨g, hp, hg⟩ := hi.threads tid _ ht
  rcases g with _ | ⟨id, stage⟩
  · exact hp.1.elim
  · cases stage with
    | unsent loaded =>
        obtain ⟨hdel, hloaded, hno⟩ := hg
        obtain rfl : body.jobID = id := hloaded _ hp.1
        obtain ⟨k', rfl, hrest⟩ := hdel
        refine ⟨⟨k', ?_, (delivers_iff hwf ht).mp ⟨k', rfl, hrest⟩⟩, hno⟩
        rw [working, ht]
    | rejected => exact hp.1.elim
    | accepted recorded => exact hp.1.elim

/-! ## Every step keeps the invariant -/

/-- A job gets its 2xx from the thread that executes its webhook task. -/
theorem acceptedFor_new (hwf : Wf s) (hi : DeliveryInv s) (h : System.step env s a = some s')
    (hacc : AcceptedFor s' id) (hno : ¬ AcceptedFor s id) :
    ∃ tid o k, a = .call tid o ∧ s.working tid = some k ∧ Unfinished false s id k ∧
      Unfinished false s' id k := by
  obtain ⟨p, hp, hid, hcode⟩ := hacc
  rcases step_posts h with heq | ⟨tid, o, role, url, body, k, reply, ha, ht, heq, hasynq, -⟩
  · exact absurd ⟨p, heq ▸ hp, hid, hcode⟩ hno
  · rw [heq, List.mem_append, List.mem_singleton] at hp
    rcases hp with hp | rfl
    · exact absurd ⟨p, hp, hid, hcode⟩ hno
    · obtain rfl : body.jobID = id := hid
      obtain ⟨⟨k', hw, hk⟩, -⟩ := posting_thread hwf hi ht
      refine ⟨tid, o, k', ha, hw, hk, ?_⟩
      unfold Unfinished at hk ⊢
      rwa [hasynq]

/-- A handler that got its 2xx completes the task. -/
theorem finish_accepted (hwf : Wf s) (hi : DeliveryInv s) {k : Nat}
    (h : System.step env s (.finish tid) = some s') (hw : s.working tid = some k)
    (hk : Unfinished false s id k) (hacc : AcceptedFor s id) :
    Recorded s id ∧ ¬ Unfinished false s' id k := by
  obtain ⟨p, ht⟩ := thread_of_working hw
  obtain ⟨recorded, hp, hrec⟩ := accepted_thread hwf hi ht hk hacc
  simp only [step, ht] at h
  split at h
  · rename_i heq
    obtain ⟨hrole, rfl⟩ := Thread.mk.inj (Option.some.inj heq)
    obtain rfl := Role.worker.inj hrole
    obtain ⟨rfl, hnone⟩ := hp id recorded rfl
    obtain rfl := Outcome.handled.inj hnone
    obtain rfl := Option.some.inj h
    refine ⟨hrec rfl, ?_⟩
    rintro ⟨i, hti, -, -, hu⟩
    change ((settle s.world.asynq k none).tasks[k]?) = some i at hti
    rw [settle, Asynq.complete] at hti
    have hget := tasks_modify (a := s.world.asynq) (k := k)
      (f := fun i => { i with state := .completed }) k
    rw [if_pos rfl] at hget
    obtain ⟨i₀, -, rfl⟩ := Option.map_eq_some_iff.mp (hget.symm.trans hti)
    cases hu
  · cases h
  · rename_i hno heq
    exact absurd (Thread.mk.inj (Option.some.inj heq)).1.symm (hno k)
  · cases h

/-- An accepted POST that is not recorded has a worker that is at it. -/
theorem busy_step (hwf : Wf s) (hs : Holds (contract env False) Returns s) (hi : DeliveryInv s)
    (hP : DeliverySafe s a) (h : System.step env s a = some s') (id : UUID) (k : Nat)
    (hacc' : AcceptedFor s' id) (hk' : Unfinished false s' id k) :
    ∃ tid, s'.working tid = some k := by
  by_cases hacc : AcceptedFor s id
  · have hk : Unfinished false s id k := by
      rcases step_tasks false hwf h with ⟨tid, t, ha⟩ | hold
      · rcases unfinished_of_accepts ha h hk' with hk | ⟨-, htc, rfl⟩
        · exact hk
        · -- a webhook task accepted after the 2xx
          rcases hi.kept _ hacc with hrec | ⟨k₀, hk₀⟩
          · exact absurd hrec (hP.enqueue tid t ha htc)
          · exact absurd hk₀ (not_unfinished_of_accepts hwf hs ha htc hP.ttl k₀)
      · exact hold id k hk'
    obtain ⟨tid, hw⟩ := hi.busy id k hacc hk
    by_cases hfin : a = .finish tid
    · subst hfin
      exact absurd hk' (finish_accepted hwf hi h hw hk hacc).2
    · by_cases hcrash : a = .crash tid
      · obtain ⟨i, hti, hic, rfl, -⟩ := hk
        exact absurd hacc (hP.crash tid k i hcrash hw hti hic)
      · exact ⟨tid, (working_step hwf.threads h hw hfin hcrash).1⟩
  · obtain ⟨tid, o, k₀, rfl, hw, hk₀, hk₀'⟩ := acceptedFor_new hwf hi h hacc' hacc
    have hone := oneTask_step hwf hs hi.one hP.ttl h
    obtain rfl := hone id k k₀ hk' hk₀'
    exact ⟨tid, (working_step hwf.threads h hw nofun nofun).1⟩

/-- An accepted POST is recorded, or its worker will do so. -/
theorem kept_step (hwf : Wf s) (hi : DeliveryInv s) (hP : DeliverySafe s a)
    (h : System.step env s a = some s') (id : UUID) (hacc' : AcceptedFor s' id) :
    Recorded s' id ∨ ∃ k, Unfinished false s' id k := by
  by_cases hacc : AcceptedFor s id
  · rcases hi.kept id hacc with hrec | ⟨k, hk⟩
    · exact .inl (recorded_step h hrec)
    · obtain ⟨tid, hw⟩ := hi.busy id k hacc hk
      by_cases hfin : a = .finish tid
      · subst hfin
        exact .inl (recorded_step h (finish_accepted hwf hi h hw hk hacc).1)
      · by_cases hcrash : a = .crash tid
        · obtain ⟨i, hti, hic, rfl, -⟩ := hk
          exact absurd hacc (hP.crash tid k i hcrash hw hti hic)
        · refine .inr ⟨k, ?_⟩
          unfold Unfinished at hk ⊢
          rwa [(working_step hwf.threads h hw hfin hcrash).2]
  · obtain ⟨-, -, k, -, -, -, hk⟩ := acceptedFor_new hwf hi h hacc' hacc
    exact .inr ⟨k, hk⟩

/-- No job is posted about after it was accepted. -/
theorem posts_step (hwf : Wf s) (hi : DeliveryInv s) (h : System.step env s a = some s') :
    s'.world.posts.Pairwise fun p q => p.Accepted → q.body.jobID ≠ p.body.jobID := by
  rcases step_posts h with heq | ⟨tid, o, role, url, body, k, reply, -, ht, heq, -, -⟩
  · rw [heq]
    exact hi.posts
  · rw [heq, List.pairwise_append]
    refine ⟨hi.posts, List.pairwise_singleton _ _, ?_⟩
    intro p hp q hq hcode hid
    obtain rfl := List.mem_singleton.mp hq
    exact (posting_thread hwf hi ht).2 ⟨p, hp, hid.symm, hcode⟩

/-- Which task a thread executes does not change. -/
theorem delivers_step (hwf : Wf s) (h : System.step env s a = some s') {th : Thread}
    (ht : s.thread? tid = some th) : Delivers s' th.role id ↔ Delivers s th.role id := by
  obtain ⟨role, p⟩ := th
  constructor
  · rintro ⟨k, rfl, i', hi', hic, hid⟩
    obtain ⟨i, hi, -⟩ := hwf.threads.busy tid k p ht
    obtain ⟨i'', hi'', htask⟩ := step_task h hi
    obtain rfl := Option.some.inj (hi''.symm.trans hi')
    exact ⟨k, rfl, i, hi, htask ▸ hic, htask ▸ hid⟩
  · rintro ⟨k, rfl, i, hi, hic, hid⟩
    obtain ⟨i', hi', htask⟩ := step_task h hi
    exact ⟨k, rfl, i', hi', htask ▸ hic, htask ▸ hid⟩

/-- What a thread has seen stays true while the others make steps. -/
theorem fits_other (hwf : Wf s) (hi : DeliveryInv s) (h : System.step env s a = some s')
    {th : Thread} {g : Option (UUID × Stage)} (hne : ∀ o, a ≠ .call tid o)
    (ht : s.thread? tid = some th) (hg : Fits s th.role g) : Fits s' th.role g := by
  rcases g with _ | ⟨id, stage⟩
  · exact fun id hdel => hg id ((delivers_step hwf h ht).mp hdel)
  · obtain ⟨hdel, hstage⟩ := hg
    refine ⟨(delivers_step hwf h ht).mpr hdel, ?_⟩
    have hno : ¬ AcceptedFor s id → ¬ AcceptedFor s' id := by
      intro hno hacc
      obtain ⟨tid₀, o, k₀, rfl, hw, hk₀, -⟩ := acceptedFor_new hwf hi h hacc hno
      -- the other thread would execute the same task
      obtain ⟨p₀, ht₀⟩ := thread_of_working hw
      obtain ⟨role, p⟩ := th
      obtain ⟨k, rfl, hrest⟩ := hdel
      obtain rfl := hi.one id k k₀ ((delivers_iff hwf ht).mp ⟨k, rfl, hrest⟩) hk₀
      exact hne o (by rw [hwf.threads.alone tid tid₀ k p p₀ ht ht₀])
    cases stage with
    | unsent loaded => exact ⟨hstage.1, hno hstage.2⟩
    | rejected => exact hno hstage
    | accepted recorded => exact fun hrec => recorded_step h (hstage hrec)

/-- A call that is not a POST leaves the posts. -/
theorem acceptedFor_call {o : Obs} {role : Role} {c : Call} {k : c.Result → P Outcome}
    (h : System.step env s (.call tid o) = some s')
    (ht : s.thread? tid = some ⟨role, .call c k⟩) (hc : NotPost c) :
    AcceptedFor s' id ↔ AcceptedFor s id := by
  have hposts : s'.world.posts = s.world.posts := by
    rcases step_posts h with heq | ⟨tid', o', role', url, body, k', reply, ha, ht', -⟩
    · exact heq
    · obtain ⟨rfl, -⟩ := Act.call.inj ha
      obtain ⟨-, hcall⟩ := Thread.mk.inj (Option.some.inj (ht.symm.trans ht'))
      exact absurd (Prog.call.inj hcall).1 (hc url body)
  unfold AcceptedFor
  rw [hposts]

/-- What a thread has seen after a call of its own is true. -/
theorem stageOk_call {o : Obs} (hP : DeliverySafe s (.call tid o)) {role : Role} {c : Call}
    {k : c.Result → P Outcome} {stage : Stage}
    (h : System.step env s (.call tid o) = some s')
    (ht : s.thread? tid = some ⟨role, .call c k⟩) (hallow : stage.Allows id c)
    (hstage : StageOk s id stage) :
    StageOk s' id (stage.next c (c.exec o s.world).1) := by
  have hkeep : NotPost c → StageOk s' id stage := by
    intro hc
    have hiff : AcceptedFor s' id ↔ AcceptedFor s id := acceptedFor_call h ht hc
    cases stage with
    | unsent loaded => exact ⟨hstage.1, fun hacc => hstage.2 (hiff.mp hacc)⟩
    | rejected => exact fun hacc => hstage (hiff.mp hacc)
    | accepted recorded => exact fun hrec => recorded_step h (hstage hrec)
  cases stage with
  | unsent loaded =>
      cases c with
      | get id' =>
          obtain rfl : id' = id := hallow
          rcases hr : ((Call.get id').exec o s.world).1 with err | job
          · exact hkeep (notPost_of_isPost rfl)
          · refine ⟨?_, (hkeep (notPost_of_isPost rfl)).2⟩
            rintro x ⟨⟩
            exact DB.job?_id (exec_get_ok hr)
      | post url body =>
          -- the only post that is new has the reply that the sender saw
          have hnew : (∀ code, ((Call.post url body).exec o s.world).1 = .ok code →
              ¬ (200 ≤ code ∧ code < 300)) → ¬ AcceptedFor s' id := by
            rintro hbad ⟨p, hp, hid, code, hcode, hrange⟩
            rcases step_posts h with heq | ⟨tid', o', role', url', body', k', reply, ha, ht', heq,
              -, hreply⟩
            · exact hstage.2 ⟨p, heq ▸ hp, hid, code, hcode, hrange⟩
            · obtain ⟨rfl, rfl⟩ := Act.call.inj ha
              obtain ⟨-, hcall⟩ := Thread.mk.inj (Option.some.inj (ht.symm.trans ht'))
              obtain ⟨rfl, rfl⟩ := Call.post.inj (Prog.call.inj hcall).1
              rw [heq, List.mem_append, List.mem_singleton] at hp
              rcases hp with hp | rfl
              · exact hstage.2 ⟨p, hp, hid, code, hcode, hrange⟩
              · exact hbad code ((hreply code).mp hcode) hrange
          rcases hr : ((Call.post url body).exec o s.world).1 with err | code
          · exact hnew fun code hok => by rw [hr] at hok; cases hok
          · show StageOk s' id (if 200 ≤ code ∧ code < 300 then _ else _)
            split
            · exact nofun
            · rename_i hrange
              refine hnew fun code' hok => ?_
              rw [hr] at hok
              rwa [← Except.ok.inj hok]
      | _ => exact hkeep (notPost_of_isPost rfl)
  | rejected =>
      cases c with
      | post url body => exact hallow.elim
      | _ => exact hkeep (notPost_of_isPost rfl)
  | accepted recorded =>
      cases c with
      | post url body => exact hallow.elim
      | recordAttempt id' url n code delivered =>
          obtain ⟨rfl, rfl⟩ := hallow
          intro _
          have hfault := hP.record tid o role id' url n code k rfl ht
          have hrow : ∀ d ∈ ((s.world.db.recordAttempt id' url n code true).2).deliveries,
              d ∈ s'.world.db.deliveries := by
            intro d hd
            rw [world_of_call h ht]
            rcases hf : o.fault with _ | err | err
            · simpa only [Call.exec, hf, Call.effect] using hd
            · exact absurd hf (hfault err)
            · simpa only [Call.exec, hf, Call.lost, Call.effect] using hd
          exact ⟨_, hrow _ (List.mem_append_right _ (List.mem_singleton_self _)), rfl, rfl⟩
      | _ => exact hkeep (notPost_of_isPost rfl)

/-- A call that its monitor allows keeps the thread in step. -/
theorem fits_call {o : Obs} (hwf : Wf s) (hP : DeliverySafe s (.call tid o)) {role : Role}
    {c : Call}
    {k : c.Result → P Outcome} {g : Option (UUID × Stage)}
    (h : System.step env s (.call tid o) = some s')
    (ht : s.thread? tid = some ⟨role, .call c k⟩) (hallow : deliverMonitor.Allows g c)
    (hg : Fits s role g) : Fits s' role (deliverMonitor.next g c (c.exec o s.world).1) := by
  rcases g with _ | ⟨id, stage⟩
  · exact fun id hdel => hg id ((delivers_step hwf h ht).mp hdel)
  · exact ⟨(delivers_step hwf h ht).mpr hg.1, stageOk_call hP h ht hallow hg.2⟩

/-- A thread starts out with nothing seen. -/
theorem fits_fresh (hwf : Wf s) (hi : DeliveryInv s) (h : System.step env s a = some s')
    {th : Thread} (hth : Fresh env s a th) :
    ∃ g, Follows deliverMonitor Settled th.prog g ∧ Fits s' th.role g := by
  have hnone : ∀ {role : Role} {p : P Outcome}, p.Calls NotPost → (∀ id, ¬ Delivers s' role id) →
      ∃ g, Follows deliverMonitor Settled p g ∧ Fits s' role g :=
    fun hp hrole => ⟨none, follows_none hp, hrole⟩
  have hapi : ∀ c, Api.ApiCall env c → NotPost c := by
    rintro c hc url body rfl
    cases hc
  cases hth with
  | submit p =>
      refine hnone (((Api.submit_calls env p).mono hapi).bind fun _ => trivial) ?_
      rintro id ⟨k, hk, -⟩
      cases hk
  | query clientID id =>
      refine hnone (((Api.handleGetJob_calls env clientID id).mono hapi).bind fun _ => trivial) ?_
      rintro id ⟨k, hk, -⟩
      cases hk
  | sweep =>
      refine hnone (((Reconciler.sweep_calls env).mono ?_).bind fun _ => trivial) ?_
      · rintro c hc url body rfl
        cases hc
      · rintro id ⟨k, hk, -⟩
        cases hk
  | @start k i hti hst =>
      obtain ⟨i', hti', htask⟩ := step_task h hti
      cases hconv : i.task.typename.isConvert with
      | true =>
          refine hnone (((handle_calls env i).mono ?_).bind fun _ => trivial) ?_
          · rintro c hc url body rfl
            rw [if_pos hconv] at hc
            cases hc
          · rintro id ⟨k', hk, i'', hti'', hic, -⟩
            obtain rfl := Role.worker.inj hk
            obtain rfl := Option.some.inj (hti'.symm.trans hti'')
            rw [htask, hconv] at hic
            cases hic
      | false =>
          refine ⟨some (i.task.jobID, .unsent none), ?_, ⟨k, rfl, i', hti', htask ▸ hconv,
            htask ▸ rfl⟩, nofun, ?_⟩
          · refine Follows.bind_of (K := SettledErr) ?_ ?_
            · unfold handle
              split <;> rename_i htype <;> first
                | exact handleWebhookDeliver_follows _ _ _ _
                | (rw [htype] at hconv; cases hconv)
            · rintro err g hset id recorded rfl
              obtain ⟨hrec, rfl⟩ := hset id recorded rfl
              exact ⟨hrec, rfl⟩
          · -- the task would be executed already
            intro hacc'
            have hacc : AcceptedFor s i.task.jobID := by
              rcases step_posts h with heq | ⟨_, _, _, _, _, _, _, ha, -⟩
              · unfold AcceptedFor at hacc' ⊢
                rwa [← heq]
              · cases ha
            have hu : i.unfinished = true := by
              rw [TaskInfo.unfinished, hst]
              rfl
            obtain ⟨tid, hw⟩ := hi.busy _ k hacc ⟨i, hti, hconv, rfl, hu⟩
            obtain ⟨p, ht⟩ := thread_of_working hw
            obtain ⟨i₀, hti₀, hact⟩ := hwf.threads.busy tid k p ht
            obtain rfl := Option.some.inj (hti.symm.trans hti₀)
            rw [hst] at hact
            cases hact

/-- **Every step that stays clear of the gaps keeps the invariant.** -/
theorem deliveryInv_step (hwf : Wf s) (hs : Holds (contract env False) Returns s)
    (hi : DeliveryInv s) (hP : DeliverySafe s a) (h : System.step env s a = some s') :
    DeliveryInv s' where
  one := oneTask_step hwf hs hi.one hP.ttl h
  busy := busy_step hwf hs hi hP h
  kept := kept_step hwf hi hP h
  posts := posts_step hwf hi h
  threads := by
    apply hi.threads.step h
    · exact fun th hth => fits_fresh hwf hi h hth
    · exact fun tid th g hne _ ht _ hg => fits_other hwf hi h hne ht hg
    · rintro tid o role c k g rfl ht hallow hg
      exact fits_call hwf hP h ht hallow hg

/-- The invariant holds at the start. -/
theorem deliveryInv_init (now : Int) : DeliveryInv (init now) where
  one := oneTask_init false now
  busy := by
    rintro id k ⟨p, hp, -⟩
    simp [init, World.init] at hp
  kept := by
    rintro id ⟨p, hp, -⟩
    simp [init, World.init] at hp
  threads := monitored_init
  posts := List.Pairwise.nil

/-- **After a 2xx no webhook is sent for the job**, in every state of a run that stays clear of the
gaps. -/
theorem delivered_once {now : Int} {tr : List (System × Act)}
    (h : Exec (System.step env) (System.init now) tr s)
    (hP : ∀ x ∈ tr, DeliverySafe x.1 x.2) :
    s.world.posts.Pairwise fun p q => p.Accepted → q.body.jobID ≠ p.body.jobID := by
  have hrun := h.invariant (P := DeliverySafe)
    (I := fun s => (Wf s ∧ Holds (contract env False) Returns s) ∧ DeliveryInv s)
    (fun s a s' hI hP hstep => ?_)
    ⟨⟨wf_init now, holds_init (worldOk_init now)⟩, deliveryInv_init now⟩ hP
  · exact hrun.2.2.posts
  · obtain ⟨⟨hwf, hs⟩, hi⟩ := hI
    refine ⟨⟨wf_step hwf hstep, ?_⟩, deliveryInv_step hwf hs hi hP hstep⟩
    exact (contract_sound env False).step hs hwf.threads False.elim hstep

/-- A step during which nothing fails or crashes, before any delivery is recorded and with every
task within its TTL, stays clear of the gaps. -/
theorem deliverySafe_of_quiet (hfault : ∀ tid o, a = .call tid o → o.fault = .none)
    (hcrash : ∀ tid, a ≠ .crash tid)
    (hnone : s.world.db.deliveries = [] ∨ ∀ tid o, a ≠ .call tid o)
    (httl : ∀ i ∈ s.world.asynq.tasks, s.world.now - i.enqueuedAt < i.task.uniqueTTL) :
    DeliverySafe s a where
  record tid o role id url n code k ha ht err hf := by
    rw [hfault tid o ha] at hf
    cases hf
  enqueue := by
    rintro tid t ⟨o, b, ha, -⟩ - ⟨d, hd, -⟩
    rcases hnone with hnone | hcall
    · rw [hnone] at hd
      exact List.not_mem_nil hd
    · exact hcall tid o ha
  ttl := withinTTL_of_tasks httl
  crash tid k i ha := absurd ha (hcrash tid)

/-- The example run, and the delivery of its webhook by thread 2. -/
def deliveredActs : List Act :=
  exampleActs ++ .start 1 :: List.replicate 5 (.call 2 {}) ++ [.finish 2]

/-- Each of the actions can be taken. -/
theorem deliveredActs_enabled :
    (trace (System.step exampleEnv) (System.init 0) deliveredActs).isSome = true := by
  decide +kernel

/-- In that run one webhook is sent, and accepted. -/
theorem delivered_once_exampleRun :
    let x := runOf (System.step exampleEnv) (System.init 0) deliveredActs deliveredActs_enabled
    x.2.world.posts.map (·.reply) = [some 200] ∧
      x.2.world.posts.Pairwise fun p q => p.Accepted → q.body.jobID ≠ p.body.jobID := by
  intro x
  have hfault : ∀ a ∈ deliveredActs, ∀ c ∈ a.call?, c.2.fault = .none := by decide +kernel
  have hcrash : ∀ a ∈ deliveredActs, a.crash? = none := by decide +kernel
  have hnone : ∀ y ∈ x.1, ∀ c ∈ y.2.call?, y.1.world.db.deliveries = [] := by decide +kernel
  have httl : ∀ y ∈ x.1, ∀ i ∈ y.1.world.asynq.tasks,
      y.1.world.now - i.enqueuedAt < i.task.uniqueTTL := by
    decide +kernel
  refine ⟨by decide +kernel, delivered_once (exec_runOf deliveredActs_enabled) fun y hy => ?_⟩
  have hf := hfault y.2 (mem_runOf hy)
  have hc := hcrash y.2 (mem_runOf hy)
  have hd := hnone y hy
  refine deliverySafe_of_quiet (fun tid o heq => ?_) (fun tid heq => ?_) ?_ (httl y hy)
  · rw [heq] at hf
    exact hf (tid, o) rfl
  · rw [heq] at hc
    cases hc
  · by_cases hcall : ∃ tid o, y.2 = .call tid o
    · obtain ⟨tid, o, heq⟩ := hcall
      rw [heq] at hd
      exact .inl (hd (tid, o) rfl)
    · exact .inr fun tid o heq => hcall ⟨tid, o, heq⟩

/-- The row of the successful attempt is lost; the next sweep takes the webhook for one that was
never enqueued, and thread 4 sends it again. -/
def lostRowActs : List Act :=
  exampleActs ++ .start 1 :: List.replicate 4 (.call 2 {}) ++
    [.call 2 { fault := .aborted (GoError.new "connection reset") }, .finish 2,
      .tick 900000000001, .sweep, .call 3 {}, .call 3 {}, .call 3 {}, .start 2] ++
    List.replicate 4 (.call 4 {})

/-- Each of the actions can be taken, with the row lost. -/
theorem lostRowActs_enabled :
    (trace (System.step exampleEnv) (System.init 0) lostRowActs).isSome = true := by
  decide +kernel

/-- **Without that row the webhook is delivered twice.** -/
theorem delivered_twice :
    ¬ ∀ (env : Env) (now : Int) (tr : List (System × Act)) (s : System),
      Exec (System.step env) (System.init now) tr s →
      s.world.posts.Pairwise fun p q => p.Accepted → q.body.jobID ≠ p.body.jobID := by
  intro h
  exact absurd (h exampleEnv 0 _ _ (exec_runOf lostRowActs_enabled)) (by decide +kernel)

end System

end OctoConv
