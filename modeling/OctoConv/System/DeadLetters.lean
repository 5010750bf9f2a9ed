import OctoConv.System.Model
import OctoConv.Worker.Attempts

/-!
# What an exhausted webhook task leaves behind

A webhook that was not delivered is to be found in one of two ways: by its dead-letter row, or by
the sweep, which looks for jobs without any row. The rows of the early attempts hide the job from
the sweep, and only the last attempt can flag its row, so whether the webhook can be found depends
on the calls of that attempt.

Source: `internal/worker/worker.go` HandleWebhookDeliver.

## Main results

* `handle_ends` — what one attempt does to the rows of its job, call by call.
* `exhausted_accounted_iff` — when the budget is used up, the job has a delivered row, a dead-letter
  row or no row at all exactly if the attempts fail in certain ways (`Accounted`).
* `exhausted_unaccounted` — a series of attempts after which none of these holds.
-/

namespace OctoConv

open Conc Worker

/-- How the calls of an attempt at a webhook go; each is made once at most. -/
structure WebhookTry where
  delay : Nat := 0
  get : Option Obs := some {}
  outputs : Option Obs := some {}
  presign : Option Obs := some {}
  post : Option Obs := some {}
  record : Option Obs := some {}
  deadLetter : Option Obs := some {}
  dies : Bool := false

namespace WebhookTry

/-- The outside world of the attempt. -/
def outside (a : WebhookTry) : Call → Option Obs
  | .get _ => a.get
  | .outputs _ => a.outputs
  | .presign _ _ => a.presign
  | .post _ _ => a.post
  | .recordAttempt .. => a.record
  | .markDeadLetter _ => a.deadLetter
  | _ => none

/-- The circumstances of the attempt. -/
def toTry (a : WebhookTry) : Try := ⟨a.delay, a.outside, a.dies⟩

/-- The reads that the body of the webhook takes get through. -/
def bodyReady (a : WebhookTry) (w : World) (job : Job) : Bool :=
  decide (job.status ≠ .done) ||
    (answers a.outputs && decide (w.db.outputsOf job.id ≠ []) && answers a.presign)

/-- The attempt gets as far as the end of the POST. -/
def sends (a : WebhookTry) (w : World) (id : UUID) : Bool :=
  match w.db.job? id with
  | some job => answers a.get && decide (job.callbackURL ≠ "") && a.bodyReady w job && a.post.isSome
  | none => false

/-- The endpoint answers the POST with a 2xx. -/
def accepted (a : WebhookTry) : Bool :=
  match a.post with
  | some o => decide (o.fault = .none) && decide (200 ≤ o.code ∧ o.code < 300)
  | none => false

/-- The attempt leaves a row. -/
def leavesRow (a : WebhookTry) (w : World) (id : UUID) : Bool :=
  a.sends w id && takesEffect a.record

/-- The attempt flags its row, if it is the last one. -/
def flags (a : WebhookTry) : Bool :=
  !a.accepted && answers a.record && takesEffect a.deadLetter

end WebhookTry

/-- The webhook of a job can be found: it was delivered, or flagged, or the sweep looks for it. -/
def Found (w : World) (id : UUID) : Prop :=
  (∃ d ∈ w.db.deliveriesOf id, d.delivered = true) ∨
  (∃ d ∈ w.db.deliveriesOf id, d.deadLetter = true) ∨ w.db.deliveriesOf id = []

instance (w : World) (id : UUID) : Decidable (Found w id) := by
  unfold Found
  infer_instance

/-- How the attempts at the webhook of a job have to go for it to be found: there was a delivered
or a flagged row before, or no attempt leaves a row, or an accepted one does, or the last one does
and flags it. -/
def Accounted (w : World) (id : UUID) (as : List WebhookTry) : Prop :=
  (∃ d ∈ w.db.deliveriesOf id, d.delivered = true ∨ d.deadLetter = true) ∨
  (w.db.deliveriesOf id = [] ∧ ∀ a ∈ as, a.leavesRow w id = false) ∨
  (∃ a ∈ as, a.leavesRow w id = true ∧ a.accepted = true) ∨
  ∃ a ∈ as.getLast?, a.leavesRow w id = true ∧ a.flags = true

/-- The job has got one more row with these flags, or none. -/
structure Leaves (w w' : World) (id : UUID) (row delivered deadLetter : Bool) : Prop where
  job : w'.db.job? id = w.db.job? id
  outputs : w'.db.outputsOf id = w.db.outputsOf id
  nothing : row = false → w'.db.deliveriesOf id = w.db.deliveriesOf id
  one : row = true → ∃ d, w'.db.deliveriesOf id = w.db.deliveriesOf id ++ [d] ∧
    d.delivered = delivered ∧ d.deadLetter = deadLetter

/-! ## The parts of an attempt -/

variable {env : Env} {a : WebhookTry} {w w' : World} {id : UUID} {job : Job} {n max : Nat}
  {delivered deadLetter : Bool}

/-- With a row that is left, a row of a success or a dead letter can be found if there was one or it is
one. -/
theorem Leaves.row {row : Bool} (h : Leaves w w' id row delivered deadLetter) (hrow : row = true) :
    ((∃ d' ∈ w'.db.deliveriesOf id, d'.delivered = true ∨ d'.deadLetter = true) ↔
        (∃ d' ∈ w.db.deliveriesOf id, d'.delivered = true ∨ d'.deadLetter = true) ∨
          delivered = true ∨ deadLetter = true) ∧ w'.db.deliveriesOf id ≠ [] := by
  obtain ⟨d, hd, hdel, hdead⟩ := h.one hrow
  rw [hd]
  constructor
  · simp [hdel, hdead, or_and_right, exists_or]
  · simp

/-- A world that has not changed has no new row. -/
theorem Leaves.refl : Leaves w w id false delivered deadLetter :=
  ⟨rfl, rfl, fun _ => rfl, nofun⟩

/-- Only the tables count. -/
theorem Leaves.of_db {w₁ : World} {row : Bool} (hdb : w₁.db = w.db)
    (h : Leaves w₁ w' id row delivered deadLetter) : Leaves w w' id row delivered deadLetter :=
  ⟨hdb ▸ h.job, hdb ▸ h.outputs, hdb ▸ h.nothing, hdb ▸ h.one⟩

/-- Preparing the body only reads, and succeeds exactly if its reads get through. -/
theorem webhookBody_ends (env : Env) (a : WebhookTry) (w : World) (job : Job) (id : UUID) :
    machine.Ends a.outside (webhookBody env job id) w fun r w' => w' = w ∧
      (a.bodyReady w job = true ↔ ∃ body, r = some (.ok body)) := by
  unfold webhookBody
  split
  · rename_i hdone
    have hready : a.bodyReady w job = true ↔
        answers a.outputs = true ∧ w.db.outputsOf job.id ≠ [] ∧ answers a.presign = true := by
      simp [WebhookTry.bodyReady, hdone, and_assoc]
    refine (read_mapError_ends _ (fun _ => rfl) rfl fun _ => rfl).andThen ?_ ?_ ?_
    · rintro w' ⟨h⟩
      refine ⟨rfl, ⟨fun hr => ?_, by simp⟩⟩
      exact Bool.noConfusion ((hready.mp hr).1.symm.trans h)
    · intro err w' h
      cases h with
      | failed _ h =>
          refine ⟨rfl, ⟨fun hr => ?_, by simp⟩⟩
          obtain ⟨o, err', herr⟩ := h (hready.mp hr).1
          cases herr
    · intro outs w' h
      cases h with
      | @answered o _ ha _ hok =>
          obtain rfl : w.db.outputsByOrdinal job.id = outs := Except.ok.inj hok
          rcases houts : w.db.outputsByOrdinal job.id with _ | ⟨out, rest⟩
          · refine ⟨rfl, ⟨fun hr => ?_, fun ⟨body, hb⟩ => ?_⟩⟩
            · exact absurd (DB.outputsByOrdinal_eq_nil.mp houts) (hready.mp hr).2.1
            · cases hb
          · have hne : w.db.outputsOf job.id ≠ [] := by
              intro hnil
              rw [DB.outputsByOrdinal_eq_nil.mpr hnil] at houts
              cases houts
            refine (read_mapError_ends _ (fun _ => rfl) rfl fun _ => rfl).andThen ?_ ?_ ?_
            · rintro w' ⟨h⟩
              refine ⟨rfl, ⟨fun hr => ?_, by simp⟩⟩
              exact Bool.noConfusion ((hready.mp hr).2.2.symm.trans h)
            · intro err w' h
              cases h with
              | failed _ h =>
                  refine ⟨rfl, ⟨fun hr => ?_, by simp⟩⟩
                  obtain ⟨o, err', herr⟩ := h (hready.mp hr).2.2
                  cases herr
            · intro url w' h
              cases h with
              | answered hp _ _ => exact ⟨rfl, ⟨fun _ => ⟨_, rfl⟩, fun _ => hready.mpr ⟨ha, hne, hp⟩⟩⟩
  · rename_i hdone
    have hready : a.bodyReady w job = true := by simp [WebhookTry.bodyReady, hdone]
    split
    · exact ⟨rfl, ⟨fun _ => ⟨_, rfl⟩, fun _ => hready⟩⟩
    · exact ⟨rfl, ⟨fun _ => ⟨_, rfl⟩, fun _ => hready⟩⟩

/-- A delivery sends the POST unless the worker dies before it, and succeeds if it is accepted. -/
theorem deliver_ends (a : WebhookTry) (w : World) (url : String) (body : WebhookBody) :
    machine.Ends a.outside (deliver url body) w fun r w' => w'.db = w.db ∧
      (r = none → a.post = none) ∧
      ∀ sent, r = some sent → a.post.isSome = true ∧ sent.2.isNone = a.accepted := by
  refine (ask_ends _ (.post url body) w).bind ?_ ?_
  · rintro w' ⟨h⟩
    exact ⟨rfl, fun _ => h, nofun⟩
  · intro ans w' h
    cases h with
    | @answered o h hf =>
        have ho : a.post = some o := h
        have hacc : a.accepted = decide (200 ≤ o.code ∧ o.code < 300) := by
          simp [WebhookTry.accepted, ho, hf]
        show machine.Ends a.outside
          (if 200 ≤ o.code ∧ o.code < 300 then Prog.ret (o.code, none) else Prog.ret (o.code, _)) _ _
        split
        · rename_i hcode
          refine ⟨rfl, nofun, fun sent hsent => ?_⟩
          cases hsent
          simp [ho, hacc, hcode]
        · rename_i hcode
          refine ⟨rfl, nofun, fun sent hsent => ?_⟩
          cases hsent
          simp [ho, hacc, hcode]
    | @aborted o err h hf =>
        have ho : a.post = some o := h
        refine ⟨rfl, nofun, fun sent hsent => ?_⟩
        cases hsent
        simp [ho, hf, WebhookTry.accepted]
    | @lost o err h hf =>
        have ho : a.post = some o := h
        refine ⟨rfl, nofun, fun sent hsent => ?_⟩
        cases hsent
        simp [ho, hf, WebhookTry.accepted]

/-- A new row, which may be flagged at once. -/
theorem leaves_record (w : World) (id : UUID) (url : String) (attempt : Nat) (code : Option Int)
    (b : Bool) :
    Leaves w { w with db := (w.db.recordAttempt id url attempt code b).2 } id true b false ∧
    Leaves w
      { w with db := (w.db.recordAttempt id url attempt code b).2.markDeadLetter
                  w.db.deliveries.length } id true b true := by
  have hlt : w.db.deliveries.length <
      (w.db.deliveries ++ [(⟨id, url, attempt, code, b, false⟩ : Delivery)]).length := by simp
  refine ⟨⟨rfl, rfl, nofun, fun _ => ⟨⟨id, url, attempt, code, b, false⟩, ?_, rfl, rfl⟩⟩,
    ⟨rfl, rfl, nofun, fun _ => ⟨⟨id, url, attempt, code, b, true⟩, ?_, rfl, rfl⟩⟩⟩
  · simp [DB.deliveriesOf, DB.recordAttempt]
  · simp only [DB.deliveriesOf, DB.recordAttempt, DB.markDeadLetter]
    rw [List.modify_eq_take_cons_drop hlt]
    simp

/-- **Recording an attempt**: a row if the INSERT takes effect, flagged if this is the last attempt,
it failed, the row's id came back and the UPDATE takes effect. -/
theorem record_ends (a : WebhookTry) (w : World) (job : Job) (id : UUID) (n max : Nat)
    (sent : Int × Option GoError) (hsent : sent.2.isNone = a.accepted) :
    machine.Ends a.outside (record job id n max sent) w fun _ w' =>
      Leaves w w' id (takesEffect a.record) a.accepted (a.flags && decide (max ≤ n)) := by
  have hrows := leaves_record w id job.callbackURL (n + 1) (if 0 < sent.1 then some sent.1 else none)
    sent.2.isNone
  unfold WebhookTry.flags
  rw [← hsent]
  refine (write_ends (c := .recordAttempt id job.callbackURL (n + 1) _ sent.2.isNone) rfl
    fun _ => rfl).bind ?_ ?_
  · rintro w' ⟨h⟩
    have heff : takesEffect a.record = false := h
    rw [heff]
    exact .refl
  · obtain ⟨code, derr⟩ := sent
    intro recorded w' h
    cases h with
    | aborted err h =>
        have heff : takesEffect a.record = false := h
        rw [heff]
        rcases derr with _ | err'
        · exact Machine.Ends.ret .refl
        · exact Machine.Ends.ret .refl
    | lost o err h hans =>
        have heff : takesEffect a.record = true := h
        have hans : answers a.record = false := hans
        rw [heff, hans, Bool.and_false, Bool.false_and, Bool.false_and]
        rcases derr with _ | err'
        · exact Machine.Ends.ret hrows.1
        · exact Machine.Ends.ret hrows.1
    | answered o h hans =>
        have heff : takesEffect a.record = true := h
        have hans : answers a.record = true := hans
        rw [heff, hans]
        rcases derr with _ | err
        · exact hrows.1
        · show machine.Ends a.outside (if max ≤ n then _ else _) _ _
          split
          · rename_i hlast
            rw [decide_eq_true hlast]
            refine (write_ends (c := .markDeadLetter w.db.deliveries.length) rfl fun _ => rfl).bind
              ?_ ?_
            · rintro w' ⟨h'⟩
              have hflag : takesEffect a.deadLetter = false := h'
              rw [hflag]
              exact hrows.1
            · intro r w' h'
              cases h' with
              | aborted err' h' =>
                  have hflag : takesEffect a.deadLetter = false := h'
                  rw [hflag]
                  exact hrows.1
              | lost o' err' h' _ =>
                  have hflag : takesEffect a.deadLetter = true := h'
                  rw [hflag]
                  exact hrows.2
              | answered o' h' _ =>
                  have hflag : takesEffect a.deadLetter = true := h'
                  rw [hflag]
                  exact hrows.2
          · rename_i hlast
            rw [decide_eq_false hlast, Bool.and_false]
            exact hrows.1

/-- **One attempt at a webhook.** -/
theorem handle_ends (env : Env) (a : WebhookTry) (w : World) (id : UUID) (n max : Nat) :
    machine.Ends a.outside (handleWebhookDeliver env id n max) w fun _ w' =>
      Leaves w w' id (a.leavesRow w id) a.accepted (a.flags && decide (max ≤ n)) := by
  have hno : a.sends w id = false →
      Leaves w w id (a.leavesRow w id) a.accepted (a.flags && decide (max ≤ n)) := by
    intro h
    rw [WebhookTry.leavesRow, h]
    exact .refl
  refine (read_ends (c := .get id) (fun _ => rfl) rfl fun _ => rfl).bind ?_ ?_
  · rintro w' ⟨h⟩
    have hget : answers a.get = false := h
    refine hno ?_
    unfold WebhookTry.sends
    split <;> simp [hget]
  · intro r w' h
    cases h with
    | failed err h =>
        refine Machine.Ends.ret (hno ?_)
        unfold WebhookTry.sends
        split
        · rename_i job hjob
          have hget : answers a.get = false := by
            by_contra hget
            obtain ⟨o, err', herr⟩ := h (Bool.not_eq_false _ ▸ hget)
            exact absurd ((DB.get_ok_iff.mpr hjob).symm.trans herr) nofun
          simp [hget]
        · rfl
    | @answered o job hget _ hok =>
        have hget : answers a.get = true := hget
        have hjob : w.db.job? id = some job := DB.get_ok_iff.mp hok
        have hsends : a.sends w id =
            (decide (job.callbackURL ≠ "") && a.bodyReady w job && a.post.isSome) := by
          simp [WebhookTry.sends, hjob, hget]
        show machine.Ends a.outside (if job.callbackURL = "" then _ else _) _ _
        split
        · rename_i hurl
          exact Machine.Ends.ret (hno (by simp [hsends, hurl]))
        · rename_i hurl
          refine (webhookBody_ends env a w job id).bind ?_ ?_
          · rintro w' ⟨rfl, hready⟩
            have hbody : a.bodyReady w' job = false := by
              by_contra hne
              simpa using hready.mp (by simpa using hne)
            exact hno (by simp [hsends, hbody])
          · rintro r w' ⟨rfl, hready⟩
            rcases r with err | body
            · have hbody : a.bodyReady w' job = false := by
                by_contra hne
                simpa using hready.mp (by simpa using hne)
              exact Machine.Ends.ret (hno (by simp [hsends, hbody]))
            · have hbody : a.bodyReady w' job = true := hready.mpr ⟨body, rfl⟩
              refine (deliver_ends a w' job.callbackURL body).bind ?_ ?_
              · rintro w₁ ⟨hdb, hpost, -⟩
                have hrow : a.leavesRow w' id = false := by
                  simp [WebhookTry.leavesRow, hsends, hpost rfl]
                rw [hrow]
                exact Leaves.refl.of_db hdb
              · rintro sent w₁ ⟨hdb, -, hsent⟩
                obtain ⟨hpost, hacc⟩ := hsent sent rfl
                have hrow : a.leavesRow w' id = takesEffect a.record := by
                  simp [WebhookTry.leavesRow, hsends, hurl, hbody, hpost]
                rw [hrow]
                exact (record_ends a w₁ job id n max sent hacc).mono fun r w₂ h => h.of_db hdb

/-! ## All attempts -/

/-- What the attempt leaves depends only on what it leaves alone. -/
theorem leavesRow_congr (hjob : w'.db.job? id = w.db.job? id)
    (houts : w'.db.outputsOf id = w.db.outputsOf id) (a : WebhookTry) :
    a.leavesRow w' id = a.leavesRow w id := by
  unfold WebhookTry.leavesRow WebhookTry.sends
  rw [hjob]
  rcases hj : w.db.job? id with _ | job
  · rfl
  · simp only [WebhookTry.bodyReady]
    rw [DB.job?_id hj, houts]

/-- A job that is accounted for has a settled row, or none at all. -/
theorem found_iff : Found w id ↔
    (∃ d ∈ w.db.deliveriesOf id, d.delivered = true ∨ d.deadLetter = true) ∨
      w.db.deliveriesOf id = [] := by
  simp only [Found, and_or_left, exists_or, or_assoc]

/-- What an attempt that is not the last one leaves counts in the same way as if it still had to be
made. -/
theorem accounted_step {as : List WebhookTry} (hne : as ≠ [])
    (h : Leaves w w' id (a.leavesRow w id) a.accepted false) :
    Accounted w' id as ↔ Accounted w id (a :: as) := by
  have hcongr := leavesRow_congr h.job h.outputs
  have hlast : (a :: as).getLast? = as.getLast? := List.getLast?_cons_of_ne_nil hne
  unfold Accounted
  simp only [hcongr, hlast, List.mem_cons, forall_eq_or_imp, exists_eq_or_imp]
  rcases hrow : a.leavesRow w id with _ | _
  · rw [h.nothing hrow]
    simp
  · obtain ⟨hex, hnil⟩ := h.row hrow
    simp only [hex, hnil, reduceCtorEq, false_and, and_false, false_or, or_false, true_and, or_assoc,
      Bool.false_eq_true]

/-- What the last attempt leaves settles the matter. -/
theorem accounted_last (h : Leaves w w' id (a.leavesRow w id) a.accepted a.flags) :
    Found w' id ↔ Accounted w id [a] := by
  rw [found_iff]
  unfold Accounted
  simp only [List.mem_singleton, forall_eq, exists_eq_left, List.getLast?_singleton,
    Option.mem_def, Option.some.injEq, exists_eq_left']
  rcases hrow : a.leavesRow w id with _ | _
  · rw [h.nothing hrow]
    simp
  · obtain ⟨hex, hnil⟩ := h.row hrow
    simp only [hex, hnil, reduceCtorEq, and_false, or_false, false_or, true_and]

/-- A webhook attempt at a task. -/
theorem attemptTask_leaves (env : Env) (a : WebhookTry) {i : TaskInfo} (w : World)
    (htype : i.task.typename = .webhookDeliver) :
    Leaves w (attemptTask env a.toTry (i, w)).2 i.task.jobID (a.leavesRow w i.task.jobID) a.accepted
      (a.flags && decide (i.task.maxRetry ≤ i.retried)) := by
  have hhandle : handle env i =
      handleWebhookDeliver env i.task.jobID i.retried i.task.maxRetry := by
    unfold handle
    rw [htype]
  have hrow : a.leavesRow { w with now := w.now + a.delay } i.task.jobID =
      a.leavesRow w i.task.jobID := rfl
  have hends := handle_ends env a { w with now := w.now + a.delay } i.task.jobID i.retried
    i.task.maxRetry
  rw [hrow] at hends
  rw [attemptTask_world, hhandle]
  exact Leaves.of_db (rfl : World.db { w with now := w.now + a.delay } = w.db) hends

/-- **When the retry budget of a webhook task is used up, its webhook was delivered or can be found
exactly if the attempts went as `Accounted` says.** -/
theorem exhausted_accounted_iff (env : Env) (as : List WebhookTry) (i : TaskInfo) (w : World)
    (htype : i.task.typename = .webhookDeliver) (hi : i.unfinished = true)
    (hlen : i.retried + as.length = i.task.maxRetry + 1)
    (hex : Exhausted (attempts env (as.map WebhookTry.toTry) (i, w)).1) :
    Found (attempts env (as.map WebhookTry.toTry) (i, w)).2 i.task.jobID ↔
      Accounted w i.task.jobID as := by
  induction as generalizing i w with
  | nil =>
      have harch : i.state = .archived := hex.1
      simp [TaskInfo.unfinished, harch, TaskState.unfinished] at hi
  | cons a as ih =>
      rw [List.map_cons, attempts_cons _ hi] at hex ⊢
      have hleaves := attemptTask_leaves env a w htype
      rcases hx : attemptTask env a.toTry (i, w) with ⟨i', w'⟩
      rw [hx] at hleaves hex
      by_cases hlast : as = []
      · subst hlast
        have hle : i.task.maxRetry ≤ i.retried := by
          simp only [List.length_cons, List.length_nil] at hlen
          omega
        rw [decide_eq_true hle, Bool.and_true] at hleaves
        exact accounted_last hleaves
      · have hlt : ¬ i.task.maxRetry ≤ i.retried := by
          have := List.length_pos_iff.mpr hlast
          simp only [List.length_cons] at hlen
          omega
        rw [decide_eq_false hlt, Bool.and_false] at hleaves
        rw [← accounted_step hlast hleaves]
        have hcases := attemptTask_cases env a.toTry i w
        rw [hx] at hcases
        rcases hcases with rfl | rfl | ⟨-, rfl⟩
        · rw [attempts_finished _ rfl] at hex
          exact absurd hex.1 (by simp)
        · rw [attempts_finished _ rfl] at hex
          exact absurd hex.2 (by simp only; omega)
        · refine ih _ w' htype rfl ?_ hex
          simp only [List.length_cons] at hlen ⊢
          omega

/-! ## Examples -/

/-- The webhook task of the example job. -/
def exampleTask : TaskInfo := ⟨System.exampleEnv.client.webhookTask 7, .pending, 0, 0⟩

/-- The endpoint replies 500. -/
def refused : WebhookTry := { post := some { code := 500 } }

/-- The worker cannot load the job. -/
def unloadable : WebhookTry := { get := some { fault := .aborted (GoError.new "connection reset") } }

/-- If the endpoint refuses the webhook seven times, its last row is flagged. -/
theorem exhausted_accounted_iff_refused :
    Found (attempts System.exampleEnv ((List.replicate 7 refused).map WebhookTry.toTry)
      (exampleTask, System.doneWorld)).2 7 := by
  refine (exhausted_accounted_iff System.exampleEnv (List.replicate 7 refused) exampleTask
    System.doneWorld rfl rfl rfl (by decide +kernel)).mpr (.inr (.inr (.inr ⟨refused, ?_, ?_⟩)))
  · rfl
  · decide +kernel

/-- **If the job cannot be loaded the seventh time, the webhook is neither delivered nor flagged, and
its rows hide it from the sweep.** -/
theorem exhausted_unaccounted :
    ¬ ∀ (env : Env) (as : List WebhookTry) (i : TaskInfo) (w : World),
      i.task.typename = .webhookDeliver → i.unfinished = true →
      i.retried + as.length = i.task.maxRetry + 1 →
      Exhausted (attempts env (as.map WebhookTry.toTry) (i, w)).1 →
      Found (attempts env (as.map WebhookTry.toTry) (i, w)).2 i.task.jobID := by
  intro h
  exact absurd (h System.exampleEnv (List.replicate 6 refused ++ [unloadable]) exampleTask
    System.doneWorld rfl rfl rfl (by decide +kernel)) (by decide +kernel)

end OctoConv
