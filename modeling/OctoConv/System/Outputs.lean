import OctoConv.System.Contract

/-!
# Done jobs have their output

The contract read off for the outputs of done jobs, in every state of every run: attempts may
fail or crash at any call, two attempts of one job may overlap, and sweeps may requeue the job
underneath them.

## Main result

* `done_job_has_output` — a done job has a row, every row carries the key of an object that was
  uploaded before it, and nobody who asks for the output of a done job goes away without one.
-/

namespace OctoConv.System

open Conc Worker

/-- What a state says about the outputs of jobs. -/
structure OutputsSettled (env : Env) (s : System) : Prop where
  /-- A done job has a row. -/
  row : ∀ id j, s.world.db.job? id = some j → j.status = .done → s.world.db.outputsOf id ≠ []
  /-- A row carries the key of its job's output, and that object has been uploaded. -/
  key : ∀ id, ∀ out ∈ s.world.db.outputsOf id, ∃ j, s.world.db.job? id = some j ∧
    out.objectKey = outputKey id 0 ("out." ++ j.targetFormat) ∧ out.objectKey ∈ s.world.objects
  /-- It was uploaded before the row is written. -/
  uploaded : ∀ tid role id out k, s.thread? tid = some ⟨role, .call (.addOutput id out) k⟩ →
    out.objectKey ∈ s.world.objects
  /-- No status request has answered that a job is done without a download URL. -/
  answered : ∀ tid role id opts code message,
    s.thread? tid ≠ some ⟨role, .ret (.answered (.found id .done opts none code message))⟩
  /-- A status request for a done job, nothing failing, answers with a download URL. -/
  download : ∀ id j, s.world.db.job? id = some j → j.status = .done → ∀ o : Call → Obs,
    (∀ c, (o c).fault = .none) → ∃ opts url,
      (machine.run (fun c => some (o c)) (Api.handleGetJob env j.clientID id) s.world).1 =
        some (.found id .done opts (some url) none none)
  /-- Whoever loads the outputs of a job, as the webhook handler does, finds one. -/
  outputs : ∀ tid role id k o, s.thread? tid = some ⟨role, .call (.outputs id) k⟩ →
    ((Call.outputs id).exec o s.world).1 ≠ .ok []

variable {env : Env} {s : System}

/-- A status request for a done job that has a row, run alone. -/
theorem run_handleGetJob {w : World} {id : UUID} {j : Job} (hj : w.db.job? id = some j)
    (hdone : j.status = .done) (hrow : w.db.outputsOf id ≠ []) {o : Call → Obs}
    (ho : ∀ c, (o c).fault = .none) :
    ∃ opts url, (machine.run (fun c => some (o c)) (Api.handleGetJob env j.clientID id) w).1 =
      some (.found id .done opts (some url) none none) := by
  obtain ⟨out, l, hout⟩ := List.exists_cons_of_ne_nil (mt DB.outputsByOrdinal_eq_nil.mp hrow)
  have hexec : ∀ c w, Call.exec c (o c) w = c.effect (o c) w := by
    intro c w
    rw [Call.exec, ho c]
  have hget : w.db.get id = .ok j := DB.get_ok_iff.mpr hj
  refine ⟨if j.opts.isEmpty then none else some j.opts,
    (o (.presign out.objectKey env.presignTTL)).url, ?_⟩
  simp [Api.handleGetJob, ask, Prog.perform_bind, Machine.run_call, machine, hexec, Call.effect,
    hget, hdone, hout]

/-- A state within the contract has its outputs settled. -/
theorem outputsSettled_of_holds {careful : Prop} (hs : Holds (contract env careful) Returns s) :
    OutputsSettled env s where
  row := hs.inv.outputs.done
  key id out ho := by
    obtain ⟨j, hj, hkey, hobj⟩ := hs.inv.outputs.key id out ho
    exact ⟨j, hj, by rw [hkey, jobOutKey, DB.job?_id hj], hobj⟩
  uploaded tid role id out k ht := by
    obtain ⟨_, _, _, hobj⟩ := (hs.safe tid _ ht).pre hs.inv
    exact hobj
  answered tid role id opts code message ht :=
    (hs.safe tid _ ht).result hs.inv _ rfl id opts code message rfl
  download id j hj hdone o ho := run_handleGetJob hj hdone (hs.inv.outputs.done id j hj hdone) ho
  outputs tid role id k o ht h := by
    obtain ⟨j, hj, hdone⟩ := (hs.safe tid _ ht).pre hs.inv
    have heff := congrArg Prod.fst (exec_ok h)
    rw [h] at heff
    exact hs.inv.outputs.done id j hj hdone
      (DB.outputsByOrdinal_eq_nil.mp (Except.ok.inj heff).symm)

/-- **In every state of every run a done job has its output**, and the status request and the
webhook handler find it. -/
theorem done_job_has_output {now : Int} {tr : List (System × Act)}
    (h : Exec (System.step env) (System.init now) tr s) :
    (∀ x ∈ tr, OutputsSettled env x.1) ∧ OutputsSettled env s := by
  have hrun := contract_run False h False.elim
  exact ⟨fun x hx => outputsSettled_of_holds (hrun.1 x hx).2, outputsSettled_of_holds hrun.2.2⟩

/-- The example run, and a status request after it. -/
def queryActs : List Act := exampleActs ++ .query 3 7 :: List.replicate 3 (.call 2 {})

/-- Each of the actions can be taken. -/
theorem queryActs_enabled :
    (trace (System.step exampleEnv) (System.init 0) queryActs).isSome = true := by
  decide +kernel

/-- In that run the job is done. -/
theorem done_job_has_output_exampleRun :
    let x := runOf (System.step exampleEnv) (System.init 0) queryActs queryActs_enabled
    (x.2.world.db.job? 7).map Job.status = some .done ∧ OutputsSettled exampleEnv x.2 := by
  have h := done_job_has_output (exec_runOf queryActs_enabled)
  exact ⟨by decide +kernel, h.2⟩

end OctoConv.System
