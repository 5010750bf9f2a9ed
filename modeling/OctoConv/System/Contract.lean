import OctoConv.System.Model

/-!
# What the threads owe to each other

Most of what the pipeline promises rests on an order that every program keeps: the object is
uploaded before its row is written, the row before the job is done, the job is finished before its
webhook is enqueued, and a convert task is made from the engine of its job. The contract says so
call by call (`Pre`), and `WorldOk` is what then holds of the world.

The sweep discards an error before it enqueues a webhook. With the parameter `careful` the contract
also promises finished jobs to the webhook queue, of runs in which that error never hits an
unfinished job (`Careful`).

## Main results

* `worldOk_changes` — a call made under its precondition keeps the world in order.
* `contract_sound` — every program of the system keeps the contract.
-/

namespace OctoConv.System

open Conc Worker

/-! ## The world in order -/

/-- The key under which the output of a job is stored. -/
def jobOutKey (j : Job) : String := outputKey j.id 0 ("out." ++ j.targetFormat)

/-- Output rows belong to uploaded objects, and done jobs have one. -/
structure OutputsInv (w : World) : Prop where
  /-- A row carries the key of its job's output, and that object has been uploaded. -/
  key : ∀ id, ∀ out ∈ w.db.outputsOf id, ∃ j, w.db.job? id = some j ∧
    out.objectKey = jobOutKey j ∧ out.objectKey ∈ w.objects
  /-- A done job has a row. -/
  done : ∀ id j, w.db.job? id = some j → j.status = .done → w.db.outputsOf id ≠ []

/-- A later state of a job has the same output key. -/
theorem Later.jobOutKey {j j' : Job} (h : j.Later j') : jobOutKey j' = jobOutKey j := by
  rw [System.jobOutKey, System.jobOutKey, h.id, h.targetFormat]

/-- Growth keeps the rows that are there in order. -/
theorem outputs_key_grows {w w' : World} (hg : w.Grows w') {id : UUID} {out : Output}
    (h : ∃ j, w.db.job? id = some j ∧ out.objectKey = jobOutKey j ∧ out.objectKey ∈ w.objects) :
    ∃ j, w'.db.job? id = some j ∧ out.objectKey = jobOutKey j ∧ out.objectKey ∈ w'.objects := by
  obtain ⟨j, hj, hkey, hobj⟩ := h
  obtain ⟨j', hj', hl⟩ := hg.job id j hj
  exact ⟨j', hj', hkey.trans (Later.jobOutKey hl).symm, hg.objects hobj⟩

/-- The job has ended. -/
def Finished (id : UUID) (w : World) : Prop :=
  ∃ j, w.db.job? id = some j ∧ j.status.terminal = true

/-- A finished job stays finished while the world grows. -/
theorem Finished.grows {id : UUID} {w w' : World} (h : Finished id w) (hg : w.Grows w') :
    Finished id w' := by
  obtain ⟨j, hj, ht⟩ := h
  obtain ⟨j', hj', hl⟩ := hg.job id j hj
  obtain rfl := hl.finished ht
  exact ⟨_, hj', ht⟩

/-- What is true of a task that may be enqueued: a convert task is the one of its job's engine, and
a webhook task is one of a finished job. -/
structure TaskOk (env : Env) (careful : Prop) (w : World) (t : Task) : Prop where
  convert : t.typename.isConvert = true →
    ∃ j, w.db.job? t.jobID = some j ∧ env.client.convertTask j.engine t.jobID = some t
  webhook : t.typename.isConvert = false → t = env.client.webhookTask t.jobID
  finished : t.typename.isConvert = false → careful → Finished t.jobID w

/-- A task that may be enqueued stays so while the world grows. -/
theorem TaskOk.grows {env : Env} {careful : Prop} {w w' : World} {t : Task}
    (h : TaskOk env careful w t) (hg : w.Grows w') : TaskOk env careful w' t := by
  refine ⟨fun hc => ?_, h.webhook, fun hc hcare => (h.finished hc hcare).grows hg⟩
  obtain ⟨j, hj, ht⟩ := h.convert hc
  obtain ⟨j', hj', hl⟩ := hg.job _ j hj
  exact ⟨j', hj', hl.engine ▸ ht⟩

/-- The world is in order. -/
structure WorldOk (env : Env) (careful : Prop) (w : World) : Prop where
  /-- A job is in one of the four statuses of the pipeline. -/
  status : ∀ id j, w.db.job? id = some j → j.status = .queued ∨ j.status = .active ∨
    j.status.terminal = true
  outputs : OutputsInv w
  tasks : ∀ i ∈ w.asynq.tasks, TaskOk env careful w i.task
  /-- The body of a webhook tells how the job ended. -/
  posts : careful → ∀ p ∈ w.posts, p.body.status.terminal = true

/-- When a call may be made. -/
def Pre (env : Env) (careful : Prop) (c : Call) (w : World) : Prop :=
  match c with
  | .write id .markDone => w.db.outputsOf id ≠ []
  | .addOutput id out => ∃ j, w.db.job? id = some j ∧ out.objectKey = jobOutKey j ∧
      out.objectKey ∈ w.objects
  | .outputs id => ∃ j, w.db.job? id = some j ∧ j.status = .done
  | .enqueue t => TaskOk env careful w t
  | .post _ body => careful → body.status.terminal = true
  | _ => True

/-- The sweep's failure of a job does not get lost while the job is unfinished and has a webhook. -/
def Careful (c : Call) (o : Obs) (w : World) : Prop :=
  ∀ id, c = .write id Reconciler.exhaustedWrite → (∃ err, o.fault = .aborted err) →
    ∀ j, w.db.job? id = some j → j.status.terminal = true ∨ j.callbackURL = ""

variable {env : Env} {careful : Prop}

/-- A call made under its precondition keeps the rows in order. -/
theorem outputsInv_changes {c : Call} {w w' : World} (hi : OutputsInv w)
    (hpre : Pre env careful c w)
    (h : Changes w c w') : OutputsInv w' := by
  have hg := h.grows
  -- a call that adds no row and finishes no job has nothing to show
  have hframe : (∀ id, w'.db.outputsOf id = w.db.outputsOf id) →
      (∀ id j, w'.db.job? id = some j → j.status = .done → ∃ j₀, w.db.job? id = some j₀ ∧
        j₀.status = .done) → OutputsInv w' := by
    intro hout hjob
    refine ⟨fun id out ho => ?_, fun id j hj hd => ?_⟩
    · rw [hout] at ho
      exact outputs_key_grows hg (hi.key id out ho)
    · obtain ⟨j₀, hj₀, hd₀⟩ := hjob id j hj hd
      rw [hout]
      exact hi.done id j₀ hj₀ hd₀
  cases h with
  | @create p newID jobs h =>
      refine hframe (fun _ => rfl) fun id j hj hd => ?_
      change (w.db.withJob jobs (DB.jobIDOf newID p) p.input).job? id = some j at hj
      rw [DB.job?_withJob h] at hj
      split at hj
      · obtain rfl := Option.some.inj hj
        cases hd
      · exact ⟨j, hj, hd⟩
  | @write id wr j hj ha =>
      have hjob := job?_write hj wr w.now
        ⟨id, some j.status, wr.transition.toStatus, wr.transition.detail⟩
      refine ⟨fun id' out ho => outputs_key_grows hg (hi.key id' out ho), fun id' j' hj' hd => ?_⟩
      change DB.job? (DB.addEvent _ _) id' = some j' at hj'
      rw [hjob] at hj'
      split at hj'
      · rename_i heq
        subst heq
        obtain rfl := Option.some.inj hj'
        rw [wr.apply_status] at hd
        cases wr with
        | markDone => exact hpre
        | markActive => cases hd
        | markFailed => cases hd
        | requeueStale => cases hd
      · exact hi.done id' j' hj' hd
  | addOutput id out =>
      refine ⟨fun id' o ho => ?_, fun id' j hj hd => ?_⟩
      · rw [mem_outputsOf] at ho
        rcases List.mem_append.mp ho with ho | ho
        · exact outputs_key_grows hg (hi.key id' o (mem_outputsOf.mpr ho))
        · obtain ⟨rfl, rfl⟩ := Prod.mk.inj (List.mem_singleton.mp ho)
          exact outputs_key_grows hg hpre
      · intro hnil
        obtain ⟨o, ho⟩ := List.exists_mem_of_ne_nil _ (hi.done id' j hj hd)
        have := hg.outputs id' ho
        rw [hnil] at this
        exact List.not_mem_nil this
  | nothing => exact hi
  | gap => exact hframe (fun _ => rfl) fun id j hj hd => ⟨j, hj, hd⟩
  | recordAttempt => exact hframe (fun _ => rfl) fun id j hj hd => ⟨j, hj, hd⟩
  | markDeadLetter => exact hframe (fun _ => rfl) fun id j hj hd => ⟨j, hj, hd⟩
  | enqueue => exact hframe (fun _ => rfl) fun id j hj hd => ⟨j, hj, hd⟩
  | putObject => exact hframe (fun _ => rfl) fun id j hj hd => ⟨j, hj, hd⟩
  | post => exact hframe (fun _ => rfl) fun id j hj hd => ⟨j, hj, hd⟩

/-- A call leaves every job in one of the four statuses. -/
theorem status_changes {c : Call} {w w' : World}
    (hi : ∀ id j, w.db.job? id = some j → j.status = .queued ∨ j.status = .active ∨
      j.status.terminal = true) (h : Changes w c w') {id : UUID} {j : Job}
    (hj : w'.db.job? id = some j) :
    j.status = .queued ∨ j.status = .active ∨ j.status.terminal = true := by
  cases h with
  | @create p newID jobs h =>
      change (w.db.withJob jobs (DB.jobIDOf newID p) p.input).job? id = some j at hj
      rw [DB.job?_withJob h] at hj
      split at hj
      · obtain rfl := Option.some.inj hj
        exact .inl rfl
      · exact hi id j hj
  | @write id' wr j' hj' ha =>
      change DB.job? (DB.addEvent _ _) id = some j at hj
      rw [job?_write hj'] at hj
      split at hj
      · obtain rfl := Option.some.inj hj
        rw [wr.apply_status]
        cases wr with
        | markActive => exact .inr (.inl rfl)
        | markDone => exact .inr (.inr rfl)
        | markFailed => exact .inr (.inr rfl)
        | requeueStale => exact .inl rfl
      · exact hi id j hj
  | nothing => exact hi id j hj
  | addOutput => exact hi id j hj
  | gap => exact hi id j hj
  | recordAttempt => exact hi id j hj
  | markDeadLetter => exact hi id j hj
  | enqueue => exact hi id j hj
  | putObject => exact hi id j hj
  | post => exact hi id j hj

/-- **A call made under its precondition keeps the world in order.** -/
theorem worldOk_changes {c : Call} {w w' : World} (hi : WorldOk env careful w)
    (hpre : Pre env careful c w) (h : Changes w c w') : WorldOk env careful w' := by
  have hg := h.grows
  refine ⟨fun id j hj => status_changes hi.status h hj, outputsInv_changes hi.outputs hpre h,
    fun i hmem => ?_, fun hcare p hp => ?_⟩
  · rcases h.asynq with heq | ⟨t, rfl, hen⟩
    · exact (hi.tasks i (heq ▸ hmem)).grows hg
    · rw [(Asynq.enqueue_ok hen).2.2.1, List.mem_append, List.mem_singleton] at hmem
      rcases hmem with hmem | rfl
      · exact (hi.tasks i hmem).grows hg
      · exact TaskOk.grows hpre hg
  · cases h with
    | post url body reply =>
        rcases List.mem_append.mp hp with hp | hp
        · exact hi.posts hcare p hp
        · obtain rfl := List.mem_singleton.mp hp
          exact hpre hcare
    | nothing => exact hi.posts hcare p hp
    | create => exact hi.posts hcare p hp
    | write => exact hi.posts hcare p hp
    | addOutput => exact hi.posts hcare p hp
    | gap => exact hi.posts hcare p hp
    | recordAttempt => exact hi.posts hcare p hp
    | markDeadLetter => exact hi.posts hcare p hp
    | enqueue => exact hi.posts hcare p hp
    | putObject => exact hi.posts hcare p hp

/-- The clock does not matter, and tasks may change state. -/
theorem WorldOk.frame {w : World} (h : WorldOk env careful w) (now : Int) {a : Asynq}
    (ha : ∀ i ∈ a.tasks, ∃ i' ∈ w.asynq.tasks, i.task = i'.task) :
    WorldOk env careful { w with now := now, asynq := a } := by
  have hg := World.Grows.frame (w := w) now a
  refine ⟨h.status, ⟨h.outputs.key, h.outputs.done⟩, fun i hi => ?_, h.posts⟩
  obtain ⟨i', hi', heq⟩ := ha i hi
  rw [heq]
  exact (h.tasks i' hi').grows hg

/-- **The contract.** -/
def contract (env : Env) (careful : Prop) : Spec Call Call.Result World where
  Exec c w r w' := ∃ o, c.exec o w = (r, w') ∧ (careful → Careful c o w)
  Rely := World.Grows
  Inv := WorldOk env careful
  Pre := Pre env careful
  rely_refl := World.Grows.refl
  rely_trans _ _ _ := World.Grows.trans
  guar c w r w' hi hpre := by
    rintro ⟨o, he, -⟩
    have hch := exec_changes c o w
    rw [he] at hch
    exact ⟨hch.grows, worldOk_changes hi hpre hch⟩

/-! ## What a call establishes -/

variable {w w' : World} {id : UUID} {job : Job}

/-- The job is there, as it was read or later. -/
def Known (job : Job) (w : World) : Prop := ∃ j, w.db.job? job.id = some j ∧ job.Later j

/-- Nobody takes back what is known of a job. -/
theorem stable_known : Stable (contract env careful) (Known job) := by
  rintro w w' ⟨j, hj, hl⟩ hg
  obtain ⟨j', hj', hl'⟩ := World.Grows.job hg _ j hj
  exact ⟨j', hj', hl.trans hl'⟩

/-- Nobody takes back that a job is finished. -/
theorem stable_finished : Stable (contract env careful) (Finished id) :=
  fun _ _ h hg => h.grows hg

/-- Nobody deletes an object. -/
theorem stable_object (key : String) :
    Stable (contract env careful) fun w => key ∈ w.objects :=
  fun _ _ h hg => World.Grows.objects hg h

/-- Nobody deletes the outputs of a job. -/
theorem stable_outputs (id : UUID) :
    Stable (contract env careful) fun w => w.db.outputsOf id ≠ [] :=
  fun _ _ h hg hnil => h (List.subset_nil.mp (hnil ▸ World.Grows.outputs hg id))

/-- What nobody takes back, nobody takes back under a condition. -/
theorem stable_imp {p : Prop} {K : World → Prop} (h : Stable (contract env careful) K) :
    Stable (contract env careful) fun w => p → K w :=
  fun w w' hk hg hp => h w w' (hk hp) hg

/-- A call that was answered under the contract has had its effect on the world. -/
theorem effect_of_exec {c : Call} {a : c.Answer}
    (h : (contract env careful).Exec c w (.ok a) w') : ∃ o, c.effect o w = (.ok a, w') := by
  obtain ⟨o, he, -⟩ := h
  exact ⟨o, (exec_ok (congrArg Prod.fst he)).symm.trans he⟩

/-- A row that was read is in the table. -/
theorem get_ok (h : (contract env careful).Exec (.get id) w (.ok job) w') :
    w'.db.job? id = some job := by
  obtain ⟨o, he, -⟩ := h
  have hget : ((Call.get id).exec o w).1 = .ok job := congrArg Prod.fst he
  have hj := exec_get_ok hget
  rw [exec_ok hget] at he
  obtain rfl := congrArg Prod.snd he
  exact hj

/-- A job that was read is known. -/
theorem get_known (h : (contract env careful).Exec (.get id) w (.ok job) w') :
    job.id = id ∧ Known job w' := by
  have hj := get_ok h
  have hid := DB.job?_id hj
  exact ⟨hid, job, hid ▸ hj, .refl job⟩

/-- A write that has succeeded has left its status in the row. -/
theorem write_ok {wr : Write} (h : (contract env careful).Exec (.write id wr) w (.ok ()) w') :
    ∃ j, w'.db.job? id = some j ∧ j.status = wr.transition.toStatus := by
  obtain ⟨o, he⟩ := effect_of_exec h
  simp only [Call.effect] at he
  rcases ht : w.db.transition w.now id wr.transition with ⟨r, db⟩
  rw [ht] at he
  obtain ⟨rfl, rfl⟩ := Prod.mk.inj he
  rcases DB.transition_cases ht with ⟨⟨e, hr⟩, -⟩ | ⟨-, j, hj, -, rfl⟩
  · cases hr
  · exact ⟨_, DB.job?_transition hj _, wr.apply_status _ _⟩

/-- An output that was added is there. -/
theorem addOutput_ok {out : Output}
    (h : (contract env careful).Exec (.addOutput id out) w (.ok ()) w') :
    w'.db.outputsOf id ≠ [] := by
  obtain ⟨o, he⟩ := effect_of_exec h
  obtain ⟨-, rfl⟩ := Prod.mk.inj he
  have hmem : out ∈ (w.db.addOutput id out).outputsOf id :=
    mem_outputsOf.mpr (List.mem_append_right _ (List.mem_singleton_self _))
  exact List.ne_nil_of_mem hmem

/-- An object that was put is there. -/
theorem putObject_ok {key contentType : String} {size : Int}
    (h : (contract env careful).Exec (.putObject key size contentType) w (.ok ()) w') :
    key ∈ w'.objects := by
  obtain ⟨o, he⟩ := effect_of_exec h
  obtain ⟨-, rfl⟩ := Prod.mk.inj he
  exact List.mem_append_right _ (List.mem_singleton_self _)

/-- The outputs that were read are those of the job, by their ordinals. -/
theorem outputs_ok {l : List Output}
    (h : (contract env careful).Exec (.outputs id) w (.ok l) w') : l = w.db.outputsByOrdinal id := by
  obtain ⟨o, he⟩ := effect_of_exec h
  exact (Except.ok.inj (Prod.mk.inj he).1).symm

/-- A job that was created has the engine that was asked for. -/
theorem create_ok {p : CreateParams} (h : (contract env careful).Exec (.create p) w (.ok id) w') :
    ∃ j, w'.db.job? id = some j ∧ j.engine = p.engine := by
  obtain ⟨o, he⟩ := effect_of_exec h
  simp only [Call.effect, DB.create] at he
  rcases hins : w.db.jobs.insert? (DB.newJob w.now (DB.jobIDOf o.newID p) p) with _ | jobs
  · rw [hins] at he
    cases he
  · rw [hins] at he
    obtain ⟨hid, rfl⟩ := Prod.mk.inj he
    obtain rfl := Except.ok.inj hid
    refine ⟨DB.newJob w.now (DB.jobIDOf o.newID p) p, ?_, rfl⟩
    rw [DB.job?_addEvent, DB.job?_withJob hins]
    exact if_pos rfl

/-- The jobs of the first scan are in the table, with their engines. -/
theorem findStale_ok {q a : Int} {l : List StaleJob}
    (h : (contract env careful).Exec (.findStale q a) w (.ok l) w') :
    ∀ g ∈ l, ∃ j, w'.db.job? g.id = some j ∧ j.engine = g.engine := by
  obtain ⟨o, he⟩ := effect_of_exec h
  obtain ⟨hl, rfl⟩ := Prod.mk.inj he
  obtain rfl := Except.ok.inj hl
  intro g hg
  obtain ⟨j, hj, -, heng, -⟩ := DB.mem_findStale (mem_arrange.mp hg)
  exact ⟨j, hj, heng⟩

/-- The jobs of the second scan are finished. -/
theorem findWebhookGaps_ok {a : Int} {l : List WebhookGapJob}
    (h : (contract env careful).Exec (.findWebhookGaps a) w (.ok l) w') :
    ∀ g ∈ l, Finished g.id w' := by
  obtain ⟨o, he⟩ := effect_of_exec h
  obtain ⟨hl, rfl⟩ := Prod.mk.inj he
  obtain rfl := Except.ok.inj hl
  intro g hg
  obtain ⟨j, hj, -, ht, -⟩ := DB.mem_findWebhookGaps (mem_arrange.mp hg)
  exact ⟨j, hj, ht⟩

/-- After the sweep's failure of a job with a webhook the job is finished, whatever it answered:
it went through, or was rejected because the job had ended, or (in a careful run) hit such a job. -/
theorem exhausted_finished {r : (Call.write id Reconciler.exhaustedWrite).Result}
    (h : (contract env careful).Exec (.write id Reconciler.exhaustedWrite) w r w')
    (hi : WorldOk env careful w) {j : Job} (hj : w.db.job? id = some j) (hurl : j.callbackURL ≠ "")
    (hcare : careful) : Finished id w' := by
  have heffect : ∀ o, Finished id ((Call.write id Reconciler.exhaustedWrite).effect o w).2 := by
    intro o
    simp only [Call.effect]
    rcases ht : w.db.transition w.now id Reconciler.exhaustedWrite.transition with ⟨r, db⟩
    rcases DB.transition_cases ht with ⟨-, rfl, hnot⟩ | ⟨-, j', hj', -, rfl⟩
    · refine ⟨j, hj, ?_⟩
      have hst := hnot j hj
      rcases hi.status id j hj with hq | ha | hterm
      · exact absurd (hq ▸ List.mem_cons_self) hst
      · exact absurd (ha ▸ List.mem_cons_of_mem _ List.mem_cons_self) hst
      · exact hterm
    · exact ⟨_, DB.job?_transition hj' _, rfl⟩
  obtain ⟨o, he, hc⟩ := h
  rw [show w' = ((Call.write id Reconciler.exhaustedWrite).exec o w).2 by rw [he], Call.exec]
  split
  · exact heffect o
  · rename_i err hf
    rcases hc hcare id rfl ⟨err, hf⟩ j hj with ht | hnone
    · exact ⟨j, hj, ht⟩
    · exact absurd hnone hurl
  · exact heffect o

/-! ## The programs keep the contract -/

/-- Nothing is promised of the result. -/
def anything {α : Type} (_ : α) (_ : World) : Prop := True

/-- A program that returns is safe. -/
theorem safe_ret {α : Type} {a : α} : Safe (contract env careful) anything (.ret a) w :=
  fun _ _ _ => trivial

/-- The calls of the host ask for nothing. -/
theorem hostFree (st : HostStep) : ∀ t, WorldOk env careful t → Pre env careful (.host st) t :=
  fun _ _ => trivial

/-- A webhook is enqueued safely once the job is finished. -/
theorem notify_safe {jobID : UUID} (h : job.callbackURL ≠ "" → careful → Finished jobID w) :
    Safe (contract env careful) anything (notify env job jobID) w := by
  unfold notify
  split
  · rename_i hurl
    refine Safe.call_of (stable_imp stable_finished) (h hurl) (fun t hK _ => ?_)
      fun _ _ _ _ _ _ _ _ => safe_ret
    exact ⟨nofun, fun _ => rfl, fun _ => hK⟩
  · exact safe_ret

/-- A job is given up safely. -/
theorem giveUp_safe {jobID : UUID} {code message : String} {detail : Detail} {err : GoError} :
    Safe (contract env careful) anything (giveUp env job jobID code message detail err) w := by
  refine Safe.call_of Stable.true trivial (fun _ _ _ => trivial) fun t r u _ _ he _ _ => ?_
  cases r with
  | error _ => exact safe_ret
  | ok _ =>
      obtain ⟨j, hj, hst⟩ := write_ok he
      have hfin : Finished jobID u := ⟨j, hj, hst ▸ rfl⟩
      show Safe _ _ (notify env job jobID >>= fun _ => .ret (some err)) u
      exact Safe.bind_of (notify_safe fun _ _ => hfin) fun _ _ _ _ => safe_ret

/-- An attempt is concluded safely: a success is reported of finished jobs only. -/
theorem conclude_safe {cls : ConvertClass} {jobID : UUID} {r : Except GoError Unit}
    (h : r = .ok () → Finished jobID w) :
    Safe (contract env careful) anything (conclude env cls job jobID r) w := by
  cases r with
  | ok _ =>
      show Safe _ _ (notify env job jobID >>= fun _ => .ret none) w
      exact Safe.bind_of (notify_safe fun _ _ => h rfl) fun _ _ _ _ => safe_ret
  | error err =>
      by_cases ht : cls.isTerminal err = true
      · rw [conclude, if_pos ht]
        exact giveUp_safe
      · rw [conclude, if_neg ht]
        exact safe_ret

/-- What a successful attempt has stored. -/
theorem uploadFrom_safe {key path contentType : String} :
    Safe (contract env careful) (fun r t => ∀ size, r = .ok size → key ∈ t.objects)
      (uploadFrom key path contentType) w := by
  refine Safe.skipThen Stable.true trivial (host_calls hostFree _ _) (fun _ t _ _ => ?_) nofun
  refine Safe.skipThen Stable.true trivial ?_ (fun size t _ _ => ?_) nofun
  · exact Prog.Calls.mapError (ask_calls fun _ _ => trivial)
  have hput : Safe (contract env careful) (fun r t => r = .ok () → key ∈ t.objects)
      (ask (.putObject key size contentType)) t := by
    refine Safe.perform_of Stable.true (fun r => stable_imp (stable_object key)) trivial
      (fun _ _ _ => trivial) ?_
    rintro t r u _ _ he rfl
    exact putObject_ok he
  refine Safe.andThen (K := fun _ t => key ∈ t.objects) (Safe.mapError (hput.mono ?_))
    (fun _ t _ hK => ?_) nofun
  · rintro (_ | _) t _ h _ hr
    · cases hr
    · exact h rfl
  · exact Safe.ret_of (stable_object key) hK fun _ h _ _ _ => h

/-- Storing an output is safe, and finishes the job if it succeeds. -/
theorem store_safe {path : String} (hk : Known job w) :
    Safe (contract env careful) (fun r t => r = .ok () → Finished job.id t)
      (store env job path) w := by
  refine Safe.andThen (K := fun _ t => Known job t ∧ outKey job ∈ t.objects) ?_
    (fun size t _ hK => ?_) nofun
  · refine Safe.mono ?_ (Safe.frame stable_known hk uploadFrom_safe)
    exact fun r t _ h size hr => ⟨h.1, h.2 size hr⟩
  have hrow : Safe (contract env careful) (fun r t => r = .ok () → t.db.outputsOf job.id ≠ [])
      (ask (.addOutput job.id (outputRow env job size))) t := by
    refine Safe.perform_of (stable_known.and (stable_object (outKey job)))
      (fun r => stable_imp (stable_outputs job.id)) hK ?_ ?_
    · rintro t ⟨⟨j, hj, hl⟩, hobj⟩ _
      exact ⟨j, hj, (Later.jobOutKey hl).symm, hobj⟩
    · rintro t r u _ _ he rfl
      exact addOutput_ok he
  refine Safe.andThen (K := fun _ t => t.db.outputsOf job.id ≠ [])
    (hrow.mono fun r t _ h _ hr => h hr) (fun _ t _ hK => ?_) nofun
  refine Safe.perform_of (stable_outputs job.id) (fun r => stable_imp stable_finished) hK
    (fun _ h _ => h) ?_
  rintro t r u _ _ he rfl
  obtain ⟨j, hj, hst⟩ := write_ok he
  exact ⟨j, hj, hst ▸ rfl⟩

/-- Processing is safe, and finishes the job if it succeeds. -/
theorem process_safe (hk : Known job w) :
    Safe (contract env careful) (fun r t => r = .ok () → Finished job.id t)
      (process env job) w := by
  refine Safe.skipThen stable_known hk (inputKey_calls fun _ _ => trivial) (fun input t _ hK => ?_)
    nofun
  split
  · refine Safe.skipThen stable_known hK (host_calls hostFree _ _) (fun _ t _ hK => ?_) nofun
    refine Safe.skipThen stable_known hK (downloadTo_calls hostFree _ _) (fun _ t _ hK => ?_) nofun
    refine Safe.skipThen stable_known hK (guardedConvert_calls hostFree _ _)
      (fun _ t _ hK => ?_) nofun
    exact store_safe hK
  · exact fun _ _ _ h => nomatch h

/-- The handler of the conversion tasks is safe. -/
theorem handleConvert_safe (cls : ConvertClass) (jobID : UUID) :
    Safe (contract env careful) anything (handleConvert env cls jobID) w := by
  refine Safe.call_of Stable.true trivial (fun _ _ _ => trivial) fun t r u _ _ he _ _ => ?_
  cases r with
  | error _ => exact safe_ret
  | ok job =>
      obtain ⟨hid, hk⟩ := get_known he
      simp only [Prog.bind]
      rcases hopts : cls.optsError job.opts with _ | err
      · refine Safe.call_of stable_known hk (fun _ _ _ => trivial) fun t r u _ _ he hu _ => ?_
        cases r with
        | error _ => exact safe_ret
        | ok _ =>
            show Safe _ _ (process env job >>= conclude env cls job jobID) u
            exact Safe.bind_of (process_safe hu) fun r v _ hr =>
              conclude_safe fun hok => hid ▸ hr hok
      · exact giveUp_safe

/-- The body tells what the row says. -/
theorem webhookBody_safe {jobID : UUID} (hk : Known job w) :
    Safe (contract env careful) (fun r _ => ∀ body, r = .ok body → body.status = job.status)
      (webhookBody env job jobID) w := by
  unfold webhookBody
  split
  · rename_i hdone
    have houtputs : Safe (contract env careful) (fun _ _ => True) (ask (.outputs job.id)) w := by
      refine Safe.perform_of stable_known (fun _ => Stable.true) hk ?_ fun _ _ _ _ _ _ => trivial
      rintro t ⟨j, hj, hl⟩ _
      obtain rfl := hl.finished (by rw [hdone]; rfl)
      exact ⟨_, hj, hdone⟩
    refine Safe.andThen (K := fun _ _ => True) (Safe.mapError (houtputs.mono ?_))
      (fun l t _ _ => ?_) nofun
    · exact fun _ _ _ _ _ _ => trivial
    cases l with
    | nil => exact fun _ _ _ _ h => nomatch h
    | cons out l =>
        refine Safe.skipThen Stable.true trivial (Prog.Calls.mapError (ask_calls fun _ _ => trivial))
          (fun url t _ _ => ?_) nofun
        rintro _ _ _ _ ⟨⟩
        rfl
  · split
    · rintro _ _ _ _ ⟨⟩
      rfl
    · rintro _ _ _ _ ⟨⟩
      rfl

/-- The handler of the webhook tasks is safe for a finished job. -/
theorem handleWebhookDeliver_safe {jobID : UUID} (retryCount maxRetry : Nat)
    (h : careful → Finished jobID w) :
    Safe (contract env careful) anything
      (handleWebhookDeliver env jobID retryCount maxRetry) w := by
  refine Safe.call_of (stable_imp stable_finished) h (fun _ _ _ => trivial)
    fun t r u _ _ he hu _ => ?_
  cases r with
  | error _ => exact safe_ret
  | ok job =>
      have hfin : careful → job.status.terminal = true := by
        intro hcare
        obtain ⟨j, hj, hterm⟩ := hu hcare
        obtain rfl := Option.some.inj ((get_ok he).symm.trans hj)
        exact hterm
      simp only [Prog.bind]
      split
      · exact safe_ret
      · show Safe _ _ (webhookBody env job jobID >>= _) u
        refine Safe.bind_of (webhookBody_safe (get_known he).2) fun r v _ hr => ?_
        cases r with
        | error _ => exact safe_ret
        | ok body =>
            refine (Safe.of_calls (attempt_calls ?_ ?_ ?_) v).mono fun _ _ _ _ => trivial
            · exact fun _ _ hcare => (hr body rfl).symm ▸ hfin hcare
            · exact fun _ _ _ _ => trivial
            · exact fun _ _ _ => trivial

/-- The job was read with this engine. -/
def HasEngine (g : StaleJob) (w : World) : Prop :=
  ∃ j, w.db.job? g.id = some j ∧ j.engine = g.engine

/-- A job keeps its engine. -/
theorem stable_hasEngine (g : StaleJob) : Stable (contract env careful) (HasEngine g) := by
  rintro w w' ⟨j, hj, he⟩ hg
  obtain ⟨j', hj', hl⟩ := World.Grows.job hg _ j hj
  exact ⟨j', hj', hl.engine.trans he⟩

/-- A job at the recovery cap is failed safely. -/
theorem exhaust_safe {g : StaleJob} :
    Safe (contract env careful) anything (Reconciler.exhaust env g) w := by
  refine Safe.call_of Stable.true trivial (fun _ _ _ => trivial) fun t r u _ _ he _ _ => ?_
  cases r with
  | error _ =>
    exact Safe.call_of Stable.true trivial (fun _ _ _ => trivial) fun _ _ _ _ _ _ _ _ => safe_ret
  | ok job =>
      obtain ⟨hid, hk⟩ := get_known he
      refine Safe.call_of stable_known hk (fun _ _ _ => trivial) fun t r u hK ht he _ _ => ?_
      refine notify_safe fun hurl hcare => ?_
      obtain ⟨j, hj, hl⟩ := hK
      exact exhausted_finished he ht (hid ▸ hj) (hl.callbackURL ▸ hurl) hcare

/-- The convert task of a job with its engine may be enqueued. -/
theorem pre_convertTask {g : StaleJob} {task : Task} (h : HasEngine g w)
    (htask : env.client.convertTask g.engine g.id = some task) :
    (contract env careful).Pre (.enqueue task) w := by
  have hjob := Client.convertTask_jobID htask
  have hconvert := Client.convertTask_isConvert htask
  obtain ⟨j, hj, he⟩ := h
  exact ⟨fun _ => ⟨j, hjob ▸ hj, by rw [he, hjob, htask]⟩, fun hc => absurd hconvert (by simp [hc]),
    fun hc => absurd hconvert (by simp [hc])⟩

/-- A job below it is recovered safely. -/
theorem recover_safe {g : StaleJob} (h : HasEngine g w) :
    Safe (contract env careful) anything (Reconciler.recover env g) w := by
  unfold Reconciler.recover
  split
  · exact safe_ret
  · rename_i task htask
    refine Safe.call_of (stable_hasEngine g) h (fun t hK _ => pre_convertTask hK htask)
      fun t r u _ _ _ _ _ => ?_
    cases r with
    | error _ => exact safe_ret
    | ok _ =>
        refine Safe.call_of Stable.true trivial (fun _ _ _ => trivial) fun t r u _ _ _ _ _ => ?_
        cases r with
        | ok _ => exact safe_ret
        | error _ =>
            exact Safe.call_of Stable.true trivial (fun _ _ _ => trivial)
              fun _ _ _ _ _ _ _ _ => safe_ret

/-- A job of the first scan is treated safely. -/
theorem sweepStale_safe {g : StaleJob} (h : HasEngine g w) :
    Safe (contract env careful) anything (Reconciler.sweepStale env g) w := by
  refine Safe.call_of (stable_hasEngine g) h (fun _ _ _ => trivial) fun t r u _ _ _ hu _ => ?_
  cases r with
  | error _ => exact safe_ret
  | ok n =>
      show Safe _ _ (if env.maxRecoveries ≤ n then _ else _) u
      split
      · exact exhaust_safe
      · exact recover_safe hu

/-- A job of the second scan is treated safely. -/
theorem sweepGap_safe {g : WebhookGapJob} (h : Finished g.id w) :
    Safe (contract env careful) anything (Reconciler.sweepGap env g) w := by
  refine Safe.call_of stable_finished h (fun t hK _ => ?_) fun t r u _ _ _ _ _ => ?_
  · exact ⟨nofun, fun _ => rfl, fun _ _ => hK⟩
  · cases r with
    | error _ => exact safe_ret
    | ok _ =>
        exact Safe.call_of Stable.true trivial (fun _ _ _ => trivial) fun _ _ _ _ _ _ _ _ => safe_ret

/-- What nobody takes back for each of a list, nobody takes back for all. -/
theorem stable_forall {ι : Type} {l : List ι} {K : ι → World → Prop}
    (h : ∀ x, Stable (contract env careful) (K x)) :
    Stable (contract env careful) fun w => ∀ x ∈ l, K x w :=
  fun w w' hk hg x hx => h x w w' (hk x hx) hg

/-- A loop over what a query returned, with what it says of each row in hand. -/
theorem forM_safe {ι : Type} {l : List ι} {K : ι → World → Prop} {f : ι → P Unit}
    (hK : ∀ x, Stable (contract env careful) (K x)) (hi : WorldOk env careful w)
    (h : ∀ x ∈ l, K x w)
    (hf : ∀ x w, K x w → Safe (contract env careful) anything (f x) w) :
    Safe (contract env careful) anything (l.forM f) w := by
  refine (Safe.forM_of (stable_forall hK) hi h fun x hx t _ hKt => ?_).mono fun _ _ _ _ => trivial
  exact (Safe.frame (stable_forall hK) hKt (hf x t (hKt x hx))).mono fun _ _ _ h => h.1

/-- The second scan is safe. -/
theorem sweepGaps_safe : Safe (contract env careful) anything (Reconciler.sweepGaps env) w := by
  refine Safe.call_of Stable.true trivial (fun _ _ _ => trivial) fun t r u _ _ he _ hu => ?_
  cases r with
  | error _ => exact safe_ret
  | ok gaps =>
      exact forM_safe (K := fun g w => Finished g.id w) (fun _ => stable_finished) hu
        (findWebhookGaps_ok he) fun _ _ => sweepGap_safe

/-- The whole sweep is safe. -/
theorem sweep_safe : Safe (contract env careful) anything (Reconciler.sweep env) w := by
  refine Safe.call_of Stable.true trivial (fun _ _ _ => trivial) fun t r u _ _ he _ hu => ?_
  cases r with
  | error _ => exact safe_ret
  | ok stale =>
      show Safe _ _ (stale.forM (Reconciler.sweepStale env) >>= fun _ => Reconciler.sweepGaps env) u
      exact Safe.bind_of
        (forM_safe stable_hasEngine hu (findStale_ok he) fun _ _ => sweepStale_safe)
        fun _ _ _ _ => sweepGaps_safe

/-- A create request is safe. -/
theorem submit_safe (p : CreateParams) :
    Safe (contract env careful) anything (Api.submit env p) w := by
  refine Safe.call_of Stable.true trivial (fun _ _ _ => trivial) fun t r u _ _ he _ _ => ?_
  cases r with
  | error _ => exact safe_ret
  | ok createdID =>
      have hk : HasEngine ⟨createdID, .queued, p.engine⟩ u := create_ok he
      simp only [Prog.bind]
      split
      · exact safe_ret
      · rename_i task htask
        refine Safe.call_of (stable_hasEngine _) hk (fun t hK _ => pre_convertTask hK htask)
          fun t r u _ _ _ _ _ => ?_
        cases r with
        | error _ => exact safe_ret
        | ok _ => exact safe_ret

/-- A status request never answers that a job is done without a download URL. -/
def Complete (a : Api.JobAnswer) : Prop :=
  ∀ id opts code message, a ≠ .found id .done opts none code message

/-- A status request is safe, and its answer is complete. -/
theorem handleGetJob_safe (clientID : UUID) :
    Safe (contract env careful) (fun a _ => Complete a) (Api.handleGetJob env clientID id) w := by
  refine Safe.call_of Stable.true trivial (fun _ _ _ => trivial) fun t r u _ _ hget _ _ => ?_
  cases r with
  | error err =>
      show Safe _ _ (if err.is .notFound = true then _ else _) u
      split <;> exact fun _ _ _ _ _ _ _ => nofun
  | ok job =>
      obtain ⟨hid, hk⟩ := get_known hget
      simp only [Prog.bind]
      split
      · exact fun _ _ _ _ _ _ _ => nofun
      · split
        · rename_i hdone
          refine Safe.call_of stable_known hk ?_ fun t r u hK ht he _ _ => ?_
          · rintro t ⟨j, hj, hl⟩ _
            obtain rfl := hl.finished (by rw [hdone]; rfl)
            exact ⟨_, hid ▸ hj, hdone⟩
          rcases r with _ | ⟨_ | ⟨out, l⟩⟩
          · exact fun _ _ _ _ _ _ _ => nofun
          · -- a done job has a row
            obtain ⟨j, hj, hl⟩ := hK
            obtain rfl := hl.finished (by rw [hdone]; rfl)
            exact absurd (outputs_ok he).symm
              (mt DB.outputsByOrdinal_eq_nil.mp (ht.outputs.done id _ (hid ▸ hj) hdone))
          · refine Safe.call_of Stable.true trivial (fun _ _ _ => trivial)
              fun t r u _ _ _ _ _ => ?_
            cases r with
            | error _ => exact fun _ _ _ _ _ _ _ => nofun
            | ok url => exact fun _ _ _ _ _ _ _ h => nomatch (Api.JobAnswer.found.inj h).2.2.2.1
        · rename_i hfailed
          rw [hfailed]
          exact fun _ _ _ _ _ _ _ => nofun
        · rename_i hdone _
          exact fun _ _ _ _ _ _ _ h => hdone (Api.JobAnswer.found.inj h).2.1

/-- A task that may be enqueued is handled safely. -/
theorem handle_safe {i : TaskInfo} (h : TaskOk env careful w i.task) :
    Safe (contract env careful) anything (handle env i) w := by
  unfold handle
  split
  · exact handleConvert_safe _ _
  · exact handleConvert_safe _ _
  · exact handleConvert_safe _ _
  · exact handleConvert_safe _ _
  · exact handleConvert_safe _ _
  · rename_i hw
    exact handleWebhookDeliver_safe _ _ (h.finished (by rw [hw]; rfl))

/-! ## Runs -/

/-- What the threads return. -/
def Returns (_ : Role) (out : Outcome) (_ : World) : Prop :=
  ∀ a, out = .answered a → Complete a

/-- A step of a careful run. -/
def CarefulStep (s : System) (a : Act) : Prop :=
  ∀ tid o role c k, a = .call tid o → s.thread? tid = some ⟨role, .call c k⟩ →
    Careful c o s.world

/-- **Every program of the system keeps the contract.** -/
theorem contract_sound (env : Env) (careful : Prop) :
    Sound env (contract env careful) Returns fun s a => careful → CarefulStep s a where
  call s tid o role c k hP ht := ⟨o, rfl, fun hcare => hP hcare tid o role c k rfl ht⟩
  tick w d hi := ⟨World.Grows.frame _ w.asynq, hi.frame _ fun i hi => ⟨i, hi, rfl⟩⟩
  tasks s a a' hs _ _ hta := by
    refine ⟨World.Grows.frame s.world.now a', hs.inv.frame s.world.now fun i hi => ?_⟩
    obtain ⟨k, f, -, hf, htasks⟩ := hta.tasks
    obtain ⟨k', hk'⟩ := List.getElem?_of_mem hi
    rw [htasks] at hk'
    split at hk'
    · obtain ⟨i', hi', rfl⟩ := Option.map_eq_some_iff.mp hk'
      exact ⟨i', List.mem_of_getElem? hi', (hf i').1⟩
    · exact ⟨i, List.mem_of_getElem? hk', rfl⟩
  fresh s a th hi _ hth := by
    cases hth with
    | submit p =>
        exact Safe.bind_of (submit_safe p) fun _ _ _ _ _ _ _ _ => nofun
    | query clientID id =>
        refine Safe.bind_of (handleGetJob_safe clientID) fun a _ _ ha => ?_
        rintro _ _ _ _ ⟨⟩
        exact ha
    | sweep => exact Safe.bind_of sweep_safe fun _ _ _ _ _ _ _ _ => nofun
    | start hi' _ =>
        exact Safe.bind_of (handle_safe (hi.tasks _ (List.mem_of_getElem? hi')))
          fun _ _ _ _ _ _ _ _ => nofun

/-- The empty world keeps the contract. -/
theorem worldOk_init (now : Int) : WorldOk env careful (World.init now) where
  status id j h := by simp [World.init, DB.empty, DB.job?] at h
  outputs := ⟨fun id out h => by simp [World.init, DB.empty, DB.outputsOf] at h,
    fun id j h => by simp [World.init, DB.empty, DB.job?] at h⟩
  tasks i h := by simp [World.init, Asynq.empty] at h
  posts _ p h := by simp [World.init] at h

/-- In every state of a run the world is in order and every thread keeps the contract. -/
theorem contract_run (careful : Prop) {now : Int} {tr : List (System × Act)} {s : System}
    (h : Exec (System.step env) (System.init now) tr s)
    (hP : careful → ∀ x ∈ tr, CarefulStep x.1 x.2) :
    (∀ x ∈ tr, Wf x.1 ∧ Holds (contract env careful) Returns x.1) ∧
      Wf s ∧ Holds (contract env careful) Returns s :=
  (contract_sound env careful).run h (wf_init now) (holds_init (worldOk_init now))
    fun x hx hcare => hP hcare x hx

end OctoConv.System
