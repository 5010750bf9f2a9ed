import Mathlib.Data.List.Sort
import OctoConv.Jobs.Repo
import OctoConv.Lib.Run
import OctoConv.Lib.Slots

/-!
# The statements of the jobs repository, interleaved

Any number of repository calls are in flight. Each runs the statements of its transaction one at a
time and ends with a COMMIT or, at any point, with a rollback. The writes of a transaction are
invisible until it commits; `SELECT … FOR UPDATE` and the INSERT of a primary key wait for the
transaction that holds the row; the id of an event is drawn from the sequence when it is inserted
and is not given back. RecordWebhookGapRecovered inserts its event without looking at the job,
with a pair that an earlier FindWebhookGaps returned.

Source: `internal/jobs/repo.go`, `internal/db/migrations/0001_init.sql`.

## Main results

* `inv_step` — the invariant of the statement-level machine.
* `step_moves` — one step changes what the database says of one job by one move of its life
  (`Lifecycle.Move`), and only if it is a commit.
* `job_log_agree` — every reachable database is consistent for every job.
* `commit_write_view` — a committed status change is the atomic `DB.transition`.
-/

namespace OctoConv.Transactions

open Conc Lifecycle

/-- A repository call that writes. -/
inductive Request
  /-- Create; the id is the one of `uuid.New()` if the caller passes none. -/
  | create (newID : UUID) (p : CreateParams)
  /-- MarkActive, MarkDone, MarkFailed or RequeueStale. -/
  | write (id : UUID) (w : Write)
  /-- RecordWebhookGapRecovered. -/
  | gap (g : WebhookGapJob)

/-- The job that the call is about. -/
def Request.jobID : Request → UUID
  | .create newID p => DB.jobIDOf newID p
  | .write id _ => id
  | .gap g => g.id

/-- How far a transaction has got. -/
inductive Phase
  /-- BEGIN -/
  | begun
  /-- `SELECT status … FOR UPDATE` has locked the row and returned this status. -/
  | locked (source : Status)
  /-- The UPDATE has been executed. -/
  | updated (source : Status)
  /-- The job has been inserted. -/
  | inserted
  /-- The input has been inserted. -/
  | inputInserted
  /-- The event has been inserted, with this id; only the COMMIT is left. -/
  | logged (eid : Nat) (e : Event)
  /-- The call is going to return this error; only the rollback is left. -/
  | failed (err : GoError)

/-- An open transaction. -/
structure Txn where
  req : Request
  /-- `now()`, fixed at BEGIN. -/
  now : Int
  phase : Phase

/-- The transaction holds its row: no other one can lock it or insert its key. -/
def Txn.holds (t : Txn) : Bool :=
  match t.req, t.phase with
  | .gap _, _ => false
  | _, .begun => false
  | _, .failed _ => false
  | _, _ => true

/-- The state of the database server and of the sweepers that query it. -/
structure State where
  now : Int
  /-- What is committed; the sequence of job_events is not transactional. -/
  db : DB
  /-- The transactions, ended ones erased. -/
  txns : List (Option Txn)
  /-- What FindWebhookGaps has returned so far. -/
  found : List WebhookGapJob

/-- No jobs, no transactions. -/
def State.init (now : Int) : State := ⟨now, DB.empty, [], []⟩

/-- The open transaction with number `c`. -/
def State.txn? (s : State) (c : Nat) : Option Txn := slot? s.txns c

/-- Some transaction holds the row of this job. -/
def State.locked (s : State) (id : UUID) : Bool :=
  s.txns.any fun t => t.any fun t => t.holds && t.req.jobID = id

/-- The next statement: the transaction after it, and the sequence. `none` while it waits for a
lock or when there is no statement left. -/
def Txn.exec (s : State) (t : Txn) : Option (Txn × Nat) :=
  match t.req, t.phase with
  | .write id w, .begun =>
      match s.db.job? id with
      | none => some ({ t with phase := .failed errNotFound }, s.db.eventSeq)
      | some j =>
          if s.locked id then none
          else if j.status ∈ w.transition.allowedFrom then
            some ({ t with phase := .locked j.status }, s.db.eventSeq)
          else
            let err := illegalTransition j.status w.transition.toStatus id
            some ({ t with phase := .failed err }, s.db.eventSeq)
  | .write _ _, .locked source => some ({ t with phase := .updated source }, s.db.eventSeq)
  | .write id w, .updated source =>
      let e : Event := ⟨id, some source, w.transition.toStatus, w.transition.detail⟩
      some ({ t with phase := .logged s.db.eventSeq e }, s.db.eventSeq + 1)
  | .create _ _, .begun =>
      match s.db.job? t.req.jobID with
      | some _ =>
          let err := GoError.new "insert job: duplicate key value violates unique constraint"
          some ({ t with phase := .failed err }, s.db.eventSeq)
      | none =>
          if s.locked t.req.jobID then none
          else some ({ t with phase := .inserted }, s.db.eventSeq)
  | .create _ _, .inserted => some ({ t with phase := .inputInserted }, s.db.eventSeq)
  | .create _ _, .inputInserted =>
      some ({ t with phase := .logged s.db.eventSeq ⟨t.req.jobID, none, .queued, none⟩ },
        s.db.eventSeq + 1)
  | .gap g, .begun =>
      some ({ t with phase := .logged s.db.eventSeq (DB.gapEvent g.id g.status) },
        s.db.eventSeq + 1)
  | _, _ => none

/-- `ORDER BY id` -/
def idLE (a b : Nat × Event) : Prop := a.1 ≤ b.1

instance : DecidableRel idLE := fun a b => inferInstanceAs (Decidable (a.1 ≤ b.1))

instance : Std.Total idLE := ⟨fun a b => Nat.le_total a.1 b.1⟩

instance : IsTrans (Nat × Event) idLE := ⟨fun _ _ _ => Nat.le_trans⟩

/-- An event that becomes visible takes its place in id order. -/
def publishEvent (db : DB) (eid : Nat) (e : Event) : DB :=
  { db with events := db.events.orderedInsert idLE (eid, e) }

/-- The writes of a transaction other than its event. -/
def Txn.publish (t : Txn) (db : DB) : Option DB :=
  match t.req with
  | .create _ p =>
      (db.jobs.insert? (DB.newJob t.now t.req.jobID p)).map fun jobs =>
        db.withJob jobs t.req.jobID p.input
  | .write id w =>
      some (db.update id (w.transition.apply t.now) (w.transition.apply_id t.now))
  | .gap _ => some db

/-- COMMIT -/
def Txn.commit (t : Txn) (db : DB) : Option DB :=
  match t.phase with
  | .logged eid e => (t.publish db).map fun db' => publishEvent db' eid e
  | _ => none

/-- What can happen next. -/
inductive Act
  | tick (d : Nat)
  /-- A sweeper runs FindWebhookGaps. -/
  | findGaps (activeStaleAfter : Int)
  | start (r : Request)
  | exec (c : Nat)
  | commit (c : Nat)
  | abort (c : Nat)

/-- The calls that the code makes: a failure's detail does not carry the recovery tag, and a
recovered gap is one that FindWebhookGaps returned. -/
def State.admits (s : State) : Request → Bool
  | .create _ _ => true
  | .write _ w => w.Tagged
  | .gap g => g ∈ s.found

/-- One step of the statement-level machine. -/
def step (s : State) : Act → Option State
  | .tick d => some { s with now := s.now + d }
  | .findGaps a => some { s with found := s.found ++ s.db.findWebhookGaps s.now a }
  | .start r =>
      if s.admits r then some { s with txns := s.txns ++ [some ⟨r, s.now, .begun⟩] } else none
  | .exec c => do
      let t ← s.txn? c
      let (t', seq) ← t.exec s
      some { s with db := { s.db with eventSeq := seq }, txns := s.txns.set c (some t') }
  | .commit c => do
      let t ← s.txn? c
      let db ← t.commit s.db
      some { s with db := db, txns := s.txns.set c none }
  | .abort c => do
      let _ ← s.txn? c
      some { s with txns := s.txns.set c none }

/-! ## The invariant -/

/-- What an open transaction knows about the committed tables. -/
def TxnOk (db : DB) (t : Txn) : Prop :=
  match t.req, t.phase with
  | .create _ _, .inserted | .create _ _, .inputInserted => db.job? t.req.jobID = none
  | .create _ _, .logged eid e =>
      db.job? t.req.jobID = none ∧ e = ⟨t.req.jobID, none, .queued, none⟩ ∧ eid < db.eventSeq
  | .write id w, .locked source | .write id w, .updated source =>
      w.Tagged ∧ ∃ j, db.job? id = some j ∧ j.status = source ∧
        source ∈ w.transition.allowedFrom
  | .write id w, .logged eid e =>
      w.Tagged ∧ ∃ j, db.job? id = some j ∧ j.status ∈ w.transition.allowedFrom ∧
        e = ⟨id, some j.status, w.transition.toStatus, w.transition.detail⟩ ∧
        eid < db.eventSeq ∧ ∀ x ∈ db.events, x.2.jobID = id → x.1 < eid
  | .write _ w, .begun | .write _ w, .failed _ => w.Tagged
  | .gap g, .begun =>
      ∃ j, db.job? g.id = some j ∧ j.status = g.status ∧ j.status.terminal = true
  | .gap g, .logged eid e =>
      (∃ j, db.job? g.id = some j ∧ j.status = g.status ∧ j.status.terminal = true) ∧
        e = DB.gapEvent g.id g.status ∧ eid < db.eventSeq ∧
        ∀ x ∈ db.events, x.2.jobID = g.id → x.1 < eid ∨ x.2 = e
  | .create _ _, .begun | .create _ _, .failed _ => True
  | _, _ => False

/-- The invariant of the statement-level machine. -/
structure Inv (s : State) : Prop where
  /-- Row and log agree for every job. -/
  consistent : ∀ id, Consistent (s.db.view id)
  /-- The events are in id order. -/
  sorted : s.db.events.Pairwise idLE
  /-- Their ids have been drawn from the sequence. -/
  fresh : ∀ x ∈ s.db.events, x.1 < s.db.eventSeq
  /-- Every open transaction is right about the committed tables. -/
  txn : ∀ c t, s.txn? c = some t → TxnOk s.db t
  /-- No two transactions hold the same row. -/
  lock : ∀ c c' t t', s.txn? c = some t → s.txn? c' = some t' → t.holds = true →
    t'.holds = true → t.req.jobID = t'.req.jobID → c = c'
  /-- The pairs that FindWebhookGaps returned are still true. -/
  found : ∀ g ∈ s.found, ∃ j, s.db.job? g.id = some j ∧ j.status = g.status ∧
    j.status.terminal = true

variable {s s' : State} {t t' : Txn} {c c' : Nat} {id : UUID} {db db' : DB}

/-! ### What a step can do -/

/-- Only a call that has written its event commits, and it publishes what it wrote. -/
theorem Txn.commit_eq_some (h : t.commit db = some db') :
    ∃ eid e db₁, t.phase = .logged eid e ∧ t.publish db = some db₁ ∧
      db' = publishEvent db₁ eid e := by
  unfold Txn.commit at h
  split at h
  · rename_i eid e hphase
    obtain ⟨db₁, hpub, rfl⟩ := Option.map_eq_some_iff.mp h
    exact ⟨eid, e, db₁, hphase, hpub, rfl⟩
  · exact nomatch h

/-- A transaction starts where it is admitted. -/
theorem step_start {r : Request} (h : step s (.start r) = some s') :
    s.admits r = true ∧ s' = { s with txns := s.txns ++ [some ⟨r, s.now, .begun⟩] } := by
  simp only [step] at h
  split at h
  · rename_i hadm
    exact ⟨hadm, (Option.some.inj h).symm⟩
  · exact nomatch h

/-- A statement is one of an open transaction. -/
theorem step_exec (h : step s (.exec c) = some s') :
    ∃ t t' seq, s.txn? c = some t ∧ t.exec s = some (t', seq) ∧
      s' = { s with db := { s.db with eventSeq := seq }, txns := s.txns.set c (some t') } := by
  simp only [step, Option.bind_eq_bind, Option.bind_eq_some_iff] at h
  obtain ⟨t, ht, ⟨t', seq⟩, hexec, h⟩ := h
  exact ⟨t, t', seq, ht, hexec, (Option.some.inj h).symm⟩

/-- A commit is one of an open transaction. -/
theorem step_commit (h : step s (.commit c) = some s') :
    ∃ t db, s.txn? c = some t ∧ t.commit s.db = some db ∧
      s' = { s with db := db, txns := s.txns.set c none } := by
  simp only [step, Option.bind_eq_bind, Option.bind_eq_some_iff] at h
  obtain ⟨t, ht, db, hcommit, h⟩ := h
  exact ⟨t, db, ht, hcommit, (Option.some.inj h).symm⟩

/-- An abort is one of an open transaction, and leaves the rows. -/
theorem step_abort (h : step s (.abort c) = some s') :
    ∃ t, s.txn? c = some t ∧ s' = { s with txns := s.txns.set c none } := by
  simp only [step, Option.bind_eq_bind, Option.bind_eq_some_iff] at h
  obtain ⟨t, ht, h⟩ := h
  exact ⟨t, ht, (Option.some.inj h).symm⟩

/-! ### Locks -/

/-- While a row is free, nobody holds it. -/
theorem not_holds_of_not_locked (h : s.locked id = false) (ht : s.txn? c = some t)
    (hid : t.req.jobID = id) : t.holds = false := by
  unfold State.locked at h
  rw [List.any_eq_false] at h
  simpa [hid] using h (some t) (mem_of_slot? ht)

/-! ### Steps inside a transaction -/

/-- What one statement does: it stays in the same call, leaves the transaction right about the
tables, and takes the row only while nobody holds it. -/
structure Executed (s : State) (t t' : Txn) (seq : Nat) : Prop where
  req : t'.req = t.req
  seq_le : s.db.eventSeq ≤ seq
  ok : TxnOk { s.db with eventSeq := seq } t'
  holds : t'.holds = true → t.holds = true ∨ s.locked t.req.jobID = false

/-- What a statement does to its transaction. -/
theorem exec_spec (hs : Inv s) (ht : TxnOk s.db t) {seq : Nat}
    (h : t.exec s = some (t', seq)) : Executed s t t' seq := by
  obtain ⟨req, now, phase⟩ := t
  cases req with
  | create newID p =>
      cases phase with
      | begun =>
          simp only [Txn.exec] at h
          rcases hj : s.db.job? (Request.create newID p).jobID with _ | j
          · simp only [hj] at h
            rcases hl : s.locked (Request.create newID p).jobID with _ | _
            · simp only [hl, Bool.false_eq_true, if_false, Option.some.injEq, Prod.mk.injEq] at h
              obtain ⟨rfl, rfl⟩ := h
              exact ⟨rfl, le_rfl, hj, fun _ => .inr hl⟩
            · simp [hl] at h
          · simp only [hj, Option.some.injEq, Prod.mk.injEq] at h
            obtain ⟨rfl, rfl⟩ := h
            exact ⟨rfl, le_rfl, trivial, fun hh => Bool.noConfusion hh⟩
      | inserted =>
          obtain ⟨rfl, rfl⟩ := Prod.mk.inj (Option.some.inj h)
          exact ⟨rfl, le_rfl, ht, fun _ => .inl rfl⟩
      | inputInserted =>
          obtain ⟨rfl, rfl⟩ := Prod.mk.inj (Option.some.inj h)
          exact ⟨rfl, Nat.le_succ _, ⟨ht, rfl, Nat.lt_succ_self _⟩, fun _ => .inl rfl⟩
      | locked => cases h
      | updated => cases h
      | logged => cases h
      | failed => cases h
  | write id w =>
      cases phase with
      | begun =>
          simp only [Txn.exec] at h
          rcases hj : s.db.job? id with _ | j
          · simp only [hj, Option.some.injEq, Prod.mk.injEq] at h
            obtain ⟨rfl, rfl⟩ := h
            exact ⟨rfl, le_rfl, ht, fun hh => Bool.noConfusion hh⟩
          · simp only [hj] at h
            rcases hl : s.locked id with _ | _
            · simp only [hl, Bool.false_eq_true, if_false] at h
              split at h
              · rename_i ha
                obtain ⟨rfl, rfl⟩ := Prod.mk.inj (Option.some.inj h)
                exact ⟨rfl, le_rfl, ⟨ht, j, hj, rfl, ha⟩, fun _ => .inr hl⟩
              · obtain ⟨rfl, rfl⟩ := Prod.mk.inj (Option.some.inj h)
                exact ⟨rfl, le_rfl, ht, fun hh => Bool.noConfusion hh⟩
            · simp [hl] at h
      | locked source =>
          obtain ⟨rfl, rfl⟩ := Prod.mk.inj (Option.some.inj h)
          exact ⟨rfl, le_rfl, ht, fun _ => .inl rfl⟩
      | updated source =>
          obtain ⟨rfl, rfl⟩ := Prod.mk.inj (Option.some.inj h)
          obtain ⟨hw, j, hj, rfl, ha⟩ := ht
          exact ⟨rfl, Nat.le_succ _, ⟨hw, j, hj, ha, rfl, Nat.lt_succ_self _,
            fun x hx _ => hs.fresh x hx⟩, fun _ => .inl rfl⟩
      | inserted => cases h
      | inputInserted => cases h
      | logged => cases h
      | failed => cases h
  | gap g =>
      cases phase with
      | begun =>
          obtain ⟨rfl, rfl⟩ := Prod.mk.inj (Option.some.inj h)
          exact ⟨rfl, Nat.le_succ _, ⟨ht, rfl, Nat.lt_succ_self _,
            fun x hx _ => .inl (hs.fresh x hx)⟩, fun hh => Bool.noConfusion hh⟩
      | locked => cases h
      | updated => cases h
      | inserted => cases h
      | inputInserted => cases h
      | logged => cases h
      | failed => cases h

/-- A transaction stays right as long as its job does not change and no events of it appear. -/
theorem TxnOk.congr (h : TxnOk db t) (hjob : db'.job? t.req.jobID = db.job? t.req.jobID)
    (hseq : db.eventSeq ≤ db'.eventSeq)
    (hev : ∀ x ∈ db'.events, x.2.jobID = t.req.jobID → x ∈ db.events) : TxnOk db' t := by
  obtain ⟨req, now, phase⟩ := t
  cases req with
  | create newID p =>
      have hjob' : db'.job? (Request.create newID p).jobID = db.job? _ := hjob
      cases phase with
      | begun => trivial
      | failed => trivial
      | inserted => exact hjob'.trans h
      | inputInserted => exact hjob'.trans h
      | logged eid e => exact ⟨hjob'.trans h.1, h.2.1, h.2.2.trans_le hseq⟩
      | locked => exact h
      | updated => exact h
  | write id w =>
      have hjob' : db'.job? id = db.job? id := hjob
      cases phase with
      | begun => exact h
      | failed => exact h
      | inserted => exact h
      | inputInserted => exact h
      | locked source =>
          obtain ⟨hw, j, hj, hst⟩ := h
          exact ⟨hw, j, hjob'.trans hj, hst⟩
      | updated source =>
          obtain ⟨hw, j, hj, hst⟩ := h
          exact ⟨hw, j, hjob'.trans hj, hst⟩
      | logged eid e =>
          obtain ⟨hw, j, hj, ha, he, hlt, hids⟩ := h
          exact ⟨hw, j, hjob'.trans hj, ha, he, hlt.trans_le hseq,
            fun x hx hid => hids x (hev x hx hid) hid⟩
  | gap g =>
      have hjob' : db'.job? g.id = db.job? g.id := hjob
      cases phase with
      | begun =>
          obtain ⟨j, hj, hst⟩ := h
          exact ⟨j, hjob'.trans hj, hst⟩
      | logged eid e =>
          obtain ⟨⟨j, hj, hst⟩, he, hlt, hids⟩ := h
          exact ⟨⟨j, hjob'.trans hj, hst⟩, he, hlt.trans_le hseq,
            fun x hx hid => hids x (hev x hx hid) hid⟩
      | locked => exact h
      | updated => exact h
      | inserted => exact h
      | inputInserted => exact h
      | failed => exact h

/-! ### Commits -/

/-- An event whose id is larger than that of every selected event, or that is one of several equal
ones, comes last among the selected events. -/
theorem filter_orderedInsert {l : List (Nat × Event)} {p : Event → Bool} {eid : Nat} {e : Event}
    (hsorted : l.Pairwise idLE) (he : p e = true)
    (hlast : ∀ x ∈ l, p x.2 = true → x.1 < eid ∨ x.2 = e) :
    ((l.orderedInsert idLE (eid, e)).map Prod.snd).filter p =
      (l.map Prod.snd).filter p ++ [e] := by
  induction l with
  | nil => simp [he]
  | cons y l ih =>
      obtain ⟨hy, hl⟩ := List.pairwise_cons.mp hsorted
      have hlast' : ∀ x ∈ l, p x.2 = true → x.1 < eid ∨ x.2 = e :=
        fun x hx => hlast x (List.mem_cons_of_mem _ hx)
      rw [List.orderedInsert_cons]
      split
      · -- every selected event from here on is the same one
        rename_i hle
        have hall : ∀ f ∈ ((y :: l).map Prod.snd).filter p, f = e := by
          intro f hf
          obtain ⟨hf, hpf⟩ := List.mem_filter.mp hf
          obtain ⟨x, hx, rfl⟩ := List.mem_map.mp hf
          have hge : eid ≤ x.1 := by
            rcases List.mem_cons.mp hx with rfl | hx
            · exact hle
            · exact hle.trans (hy x hx)
          exact (hlast x hx hpf).resolve_left (by omega)
        have hrep := List.eq_replicate_of_mem hall
        rw [List.map_cons, List.filter_cons_of_pos (by exact he), hrep]
        exact List.replicate_succ'
      · have hih := ih hl hlast'
        rw [List.map_cons, List.map_cons]
        rcases hp : p y.2 with _ | _
        · rw [List.filter_cons_of_neg (by simp [hp]), List.filter_cons_of_neg (by simp [hp]), hih]
        · rw [List.filter_cons_of_pos hp, List.filter_cons_of_pos hp, hih, List.cons_append]

/-- The job of an event sees it as its last one. -/
theorem view_publishEvent_self (db : DB) (id : UUID) (eid : Nat) (e : Event) (he : e.jobID = id)
    (hsorted : db.events.Pairwise idLE)
    (hlast : ∀ x ∈ db.events, x.2.jobID = id → x.1 < eid ∨ x.2 = e) :
    (publishEvent db eid e).view id = ⟨db.job? id, db.eventsOf id ++ [e]⟩ := by
  have hlog : (publishEvent db eid e).eventsOf id = db.eventsOf id ++ [e] := by
    refine filter_orderedInsert hsorted (by simpa using he) fun x hx hp => ?_
    exact hlast x hx (by simpa using hp)
  rw [DB.view, hlog]
  rfl

/-- The others do not see it. -/
theorem view_publishEvent_ne {eid : Nat} {e : Event} (he : e.jobID ≠ id) :
    (publishEvent db eid e).view id = db.view id := by
  have hfilter : ∀ l : List (Nat × Event),
      ((l.orderedInsert idLE (eid, e)).map Prod.snd).filter (·.jobID = id) =
        (l.map Prod.snd).filter (·.jobID = id) := by
    intro l
    induction l with
    | nil => simp [he]
    | cons y l ih =>
        rw [List.orderedInsert_cons]
        split
        · rw [List.map_cons, List.filter_cons_of_neg (by simpa using he)]
        · rw [List.map_cons, List.map_cons, List.filter_cons, List.filter_cons, ih]
  exact congrArg (View.mk (db.job? id)) (hfilter db.events)

/-- Whether the call is a recovery. -/
def Request.isRequeue : Request → Bool
  | .write _ w => w.isRequeue
  | _ => false

/-- What a COMMIT does: one move in the life of its job, and nothing to the others. -/
structure Committed (s : State) (id : UUID) (b : Bool) (db : DB) : Prop where
  move : Move id b (s.db.view id) (db.view id)
  frame : ∀ id', id' ≠ id → db.view id' = s.db.view id'
  eventSeq : db.eventSeq = s.db.eventSeq
  event : ∃ eid e, e.jobID = id ∧ eid < s.db.eventSeq ∧
    db.events = s.db.events.orderedInsert idLE (eid, e)

/-- What the commit of a creation does. -/
theorem commit_create {p : CreateParams} {now : Int} {eid : Nat} {jobs : Table Job Job.id}
    (hs : Inv s) (hnone : s.db.job? id = none) (hlt : eid < s.db.eventSeq)
    (hins : s.db.jobs.insert? (DB.newJob now id p) = some jobs) :
    Committed s id false
      (publishEvent (s.db.withJob jobs id p.input) eid ⟨id, none, .queued, none⟩) := by
  have hlog : s.db.eventsOf id = [] := by
    have hcons := hs.consistent id
    rwa [Consistent, DB.view, hnone] at hcons
  have hempty : ∀ x ∈ s.db.events, x.2.jobID ≠ id := by
    intro x hx hid
    have hmem : x.2 ∈ s.db.eventsOf id :=
      List.mem_filter.mpr ⟨List.mem_map_of_mem hx, by simpa using hid⟩
    rw [hlog] at hmem
    exact List.not_mem_nil hmem
  refine ⟨?_, fun id' hid => ?_, rfl, eid, _, rfl, hlt, rfl⟩
  · rw [view_publishEvent_self (s.db.withJob jobs id p.input) id eid
      ⟨id, none, .queued, none⟩ rfl hs.sorted
        fun x hx hid => absurd hid (hempty x hx),
      DB.job?_withJob hins, DB.eventsOf_withJob, DB.view, hnone, hlog]
    rw [if_pos (show id = (DB.newJob now id p).id from rfl)]
    exact .create _ rfl rfl rfl rfl rfl rfl
  · rw [view_publishEvent_ne hid.symm, DB.view, DB.job?_withJob hins, DB.eventsOf_withJob,
      if_neg (show ¬ id' = (DB.newJob now id p).id from hid), DB.view]

/-- What the commit of a write does. -/
theorem commit_write {w : Write} {now : Int} {eid : Nat} {j : Job} (hs : Inv s) (hw : w.Tagged)
    (hj : s.db.job? id = some j) (ha : j.status ∈ w.transition.allowedFrom)
    (hlt : eid < s.db.eventSeq) (hids : ∀ x ∈ s.db.events, x.2.jobID = id → x.1 < eid) :
    Committed s id w.isRequeue
      (publishEvent (s.db.update id (w.transition.apply now) (w.transition.apply_id now)) eid
        ⟨id, some j.status, w.transition.toStatus, w.transition.detail⟩) := by
  refine ⟨?_, fun id' hid => ?_, rfl, eid, _, rfl, hlt, rfl⟩
  · rw [view_publishEvent_self (s.db.update id _ (w.transition.apply_id now)) id eid
        ⟨id, some j.status, w.transition.toStatus, w.transition.detail⟩ rfl hs.sorted
        fun x hx hid => .inl (hids x hx hid),
      DB.job?_update_self, DB.eventsOf_update, DB.view, hj, Option.map_some,
      ← w.apply_status now j]
    refine .row _ (w.rowStep now ha) ?_
    rw [w.apply_status now j]
    exact w.action_iff hw id _
  · rw [view_publishEvent_ne hid.symm, DB.view, DB.job?_update_ne hid, DB.eventsOf_update, DB.view]

/-- What the commit of a gap event does. -/
theorem commit_gap {eid : Nat} {j : Job} (hs : Inv s) (hj : s.db.job? id = some j)
    (hterm : j.status.terminal = true) (hlt : eid < s.db.eventSeq)
    (hids : ∀ x ∈ s.db.events, x.2.jobID = id → x.1 < eid ∨ x.2 = DB.gapEvent id j.status) :
    Committed s id false (publishEvent s.db eid (DB.gapEvent id j.status)) := by
  refine ⟨?_, fun id' hid => ?_, rfl, eid, _, rfl, hlt, rfl⟩
  · rw [view_publishEvent_self s.db id eid (DB.gapEvent id j.status) rfl hs.sorted hids, DB.view, hj]
    exact .note hterm (by simp [Event.action, detailActionRecovery])
  · exact view_publishEvent_ne hid.symm

/-- **A COMMIT is one move in the life of its job.** -/
theorem commit_spec (hs : Inv s) (ht : s.txn? c = some t) (h : t.commit s.db = some db') :
    Committed s t.req.jobID t.req.isRequeue db' := by
  have hok := hs.txn c t ht
  obtain ⟨eid, e, db₁, hphase, hpub, rfl⟩ := Txn.commit_eq_some h
  obtain ⟨req, now, phase⟩ := t
  obtain rfl : phase = .logged eid e := hphase
  cases req with
  | create newID p =>
      obtain ⟨hnone, he, hlt⟩ := hok
      rw [he]
      simp only [Txn.publish, Option.map_eq_some_iff] at hpub
      obtain ⟨jobs, hins, rfl⟩ := hpub
      exact commit_create hs hnone hlt hins
  | write id w =>
      obtain ⟨hw, j, hj, ha, rfl, hlt, hids⟩ := hok
      obtain rfl := Option.some.inj hpub
      exact commit_write hs hw hj ha hlt hids
  | gap g =>
      obtain ⟨⟨j, hj, hst, hterm⟩, rfl, hlt, hids⟩ := hok
      obtain rfl := Option.some.inj hpub
      rw [← hst] at hids ⊢
      exact commit_gap hs hj hterm hlt hids

/-! ### The invariant is kept -/

/-- The job of a gap that is being noted is finished. -/
theorem TxnOk.gap {g : WebhookGapJob} {now : Int} {phase : Phase}
    (h : TxnOk db ⟨.gap g, now, phase⟩) :
    ∃ j, db.job? g.id = some j ∧ j.status = g.status ∧ j.status.terminal = true := by
  cases phase with
  | begun => exact h
  | logged => exact h.1
  | failed => exact h.elim
  | inserted => exact h.elim
  | inputInserted => exact h.elim
  | locked => exact h.elim
  | updated => exact h.elim

/-- A transaction on the row of a finished job, other than a note, does not hold the row. -/
theorem TxnOk.of_terminal {j : Job} (h : TxnOk db t) (hj : db.job? t.req.jobID = some j)
    (ht : j.status.terminal = true) : t.holds = false := by
  rw [Bool.eq_false_iff]
  intro hh
  obtain ⟨req, now, phase⟩ := t
  have hallowed : ∀ (w : Write) (j' : Job), db.job? req.jobID = some j' →
      j'.status ∈ w.transition.allowedFrom → False := by
    intro w j' hj' ha
    obtain rfl := Option.some.inj (hj.symm.trans hj')
    rw [Write.not_terminal ha] at ht
    cases ht
  cases req with
  | create newID p =>
      cases phase with
      | inserted => exact absurd (h.symm.trans hj) nofun
      | inputInserted => exact absurd (h.symm.trans hj) nofun
      | logged => exact absurd (h.1.symm.trans hj) nofun
      | begun => cases hh
      | failed => cases hh
      | locked => exact h
      | updated => exact h
  | write id w =>
      cases phase with
      | locked =>
          obtain ⟨_, j', hj', rfl, ha⟩ := h
          exact hallowed w j' hj' ha
      | updated =>
          obtain ⟨_, j', hj', rfl, ha⟩ := h
          exact hallowed w j' hj' ha
      | logged =>
          obtain ⟨_, j', hj', ha, _⟩ := h
          exact hallowed w j' hj' ha
      | begun => cases hh
      | failed => cases hh
      | inserted => exact h
      | inputInserted => exact h
  | gap g => cases hh

/-- A transaction that neither holds its row nor notes a gap is right about any tables. -/
theorem TxnOk.of_not_holds (h : TxnOk db t) (hh : t.holds = false)
    (hgap : ∀ g, t.req ≠ .gap g) : TxnOk db' t := by
  obtain ⟨req, now, phase⟩ := t
  cases req with
  | create newID p =>
      cases phase with
      | begun => trivial
      | failed => trivial
      | inserted => cases hh
      | inputInserted => cases hh
      | logged => cases hh
      | locked => exact h
      | updated => exact h
  | write id w =>
      cases phase with
      | begun => exact h
      | failed => exact h
      | locked => cases hh
      | updated => cases hh
      | logged => cases hh
      | inserted => exact h
      | inputInserted => exact h
  | gap g => exact absurd rfl (hgap g)

/-- A transaction about to commit holds its row, or it notes a gap. -/
theorem holds_or_gap (hok : TxnOk db t) (h : t.commit db = some db') :
    t.holds = true ∨ ∃ g, t.req = .gap g ∧
      ∃ eid, db' = publishEvent db eid (DB.gapEvent g.id g.status) := by
  obtain ⟨eid, e, db₁, hphase, hpub, rfl⟩ := Txn.commit_eq_some h
  obtain ⟨req, now, phase⟩ := t
  obtain rfl : phase = .logged eid e := hphase
  cases req with
  | create newID p => exact .inl rfl
  | write id w => exact .inl rfl
  | gap g =>
      obtain ⟨_, rfl, _⟩ := hok
      obtain rfl := Option.some.inj hpub
      exact .inr ⟨g, rfl, eid, rfl⟩

/-- A finished job survives every commit. -/
theorem Committed.terminal {b : Bool} (h : Committed s id b db') {id' : UUID} {j : Job}
    (hj : s.db.job? id' = some j) (ht : j.status.terminal = true) : db'.job? id' = some j := by
  by_cases hid : id' = id
  · subst hid
    exact h.move.job_of_terminal hj ht
  · have := congrArg View.job (h.frame id' hid)
    exact this.trans hj

/-- Noting a gap leaves the transactions on other notes of the same job right. -/
theorem TxnOk.gap_publish {g g' : WebhookGapJob} {now : Int} {phase : Phase} {eid : Nat}
    (h : TxnOk db ⟨.gap g', now, phase⟩) (hg : g = g') :
    TxnOk (publishEvent db eid (DB.gapEvent g.id g.status)) ⟨.gap g', now, phase⟩ := by
  subst hg
  cases phase with
  | begun => exact h
  | logged eid' e =>
      obtain ⟨hj, rfl, hlt, hids⟩ := h
      refine ⟨hj, rfl, hlt, fun x hx hid => ?_⟩
      rcases (List.mem_orderedInsert _).mp hx with rfl | hx
      · exact .inr rfl
      · exact hids x hx hid
  | failed => exact h
  | inserted => exact h
  | inputInserted => exact h
  | locked => exact h
  | updated => exact h

/-- A transaction in flight stays right when another one commits. -/
theorem txnOk_commit (hs : Inv s) (ht : s.txn? c = some t) (h : t.commit s.db = some db')
    (ht' : s.txn? c' = some t') (hne : c' ≠ c) : TxnOk db' t' := by
  have hc := commit_spec hs ht h
  have hok := hs.txn c t ht
  have hok' := hs.txn c' t' ht'
  by_cases hid : t'.req.jobID = t.req.jobID
  · rcases holds_or_gap hok h with hh | ⟨g, hreq, eid, rfl⟩
    · -- the committing transaction holds the row, so the other one has not come to it yet
      have hfree : t'.holds = false := by
        rw [Bool.eq_false_iff]
        exact fun hh' => hne (hs.lock c' c t' t ht' ht hh' hh hid)
      refine hok'.of_not_holds hfree fun g hg => ?_
      obtain ⟨req', now', phase'⟩ := t'
      obtain rfl : req' = .gap g := hg
      obtain ⟨j, hj, -, hterm⟩ := hok'.gap
      rw [hok.of_terminal (hid ▸ hj) hterm] at hh
      cases hh
    · -- the job is finished, and the only transactions on it note the same
      obtain ⟨req, now, phase⟩ := t
      obtain rfl : req = .gap g := hreq
      obtain ⟨j, hj, hst, hterm⟩ := hok.gap
      have hfree := hok'.of_terminal (show s.db.job? t'.req.jobID = some j from hid ▸ hj) hterm
      obtain ⟨req', now', phase'⟩ := t'
      cases req' with
      | create newID p => exact hok'.of_not_holds hfree fun g hg => nomatch hg
      | write id w => exact hok'.of_not_holds hfree fun g hg => nomatch hg
      | gap g' =>
          obtain ⟨j', hj', hst', -⟩ := hok'.gap
          have hgid : g'.id = g.id := hid
          rw [hgid, hj] at hj'
          obtain rfl := Option.some.inj hj'
          refine hok'.gap_publish ?_
          cases g
          cases g'
          simp_all
  · obtain ⟨eid, e, hejob, -, hevents⟩ := hc.event
    refine hok'.congr ?_ (by rw [hc.eventSeq]) fun x hx hxid => ?_
    · exact congrArg View.job (hc.frame _ hid)
    · rw [hevents, List.mem_orderedInsert] at hx
      rcases hx with rfl | hx
      · exact absurd (hxid.symm.trans hejob) hid
      · exact hx

/-! ### Steps and runs -/

/-- **The invariant is kept by every step.** -/
theorem inv_step {a : Act} (hs : Inv s) (h : step s a = some s') : Inv s' := by
  cases a with
  | tick d =>
      obtain rfl := Option.some.inj h
      exact ⟨hs.consistent, hs.sorted, hs.fresh, hs.txn, hs.lock, hs.found⟩
  | findGaps a =>
      obtain rfl := Option.some.inj h
      refine ⟨hs.consistent, hs.sorted, hs.fresh, hs.txn, hs.lock, fun g hg => ?_⟩
      rcases List.mem_append.mp hg with hg | hg
      · exact hs.found g hg
      · obtain ⟨j, hj, hst, hterm, -⟩ := DB.mem_findWebhookGaps hg
        exact ⟨j, hj, hst, hterm⟩
  | start r =>
      obtain ⟨hadm, rfl⟩ := step_start h
      have hok : TxnOk s.db ⟨r, s.now, .begun⟩ := by
        cases r with
        | create newID p => trivial
        | write id w =>
            show w.Tagged
            simpa [State.admits] using hadm
        | gap g => exact hs.found g (by simpa [State.admits] using hadm)
      refine ⟨hs.consistent, hs.sorted, hs.fresh, fun c t ht => ?_, ?_, hs.found⟩
      · rcases slot?_append_cases ht with ht | ⟨-, rfl⟩
        · exact hs.txn c t ht
        · exact hok
      · intro c c' t t' ht ht' hh hh' hid
        have hbegun : Txn.holds ⟨r, s.now, .begun⟩ = false := by cases r <;> rfl
        rcases slot?_append_cases ht with ht | ⟨-, rfl⟩
        · rcases slot?_append_cases ht' with ht' | ⟨-, rfl⟩
          · exact hs.lock c c' t t' ht ht' hh hh' hid
          · rw [hbegun] at hh'
            cases hh'
        · rw [hbegun] at hh
          cases hh
  | exec c =>
      obtain ⟨t, t', seq, ht, hexec, rfl⟩ := step_exec h
      have hx := exec_spec hs (hs.txn c t ht) hexec
      refine ⟨hs.consistent, hs.sorted, fun x hx' => (hs.fresh x hx').trans_le hx.seq_le, ?_, ?_,
        hs.found⟩
      · intro c' t₁ ht₁
        rw [State.txn?, slot?_set ht] at ht₁
        split at ht₁
        · obtain rfl := Option.some.inj ht₁
          exact hx.ok
        · exact (hs.txn c' t₁ ht₁).congr rfl hx.seq_le fun x hx _ => hx
      · -- the only row that may have been taken was free
        have hnew : ∀ c₁ t₁, c₁ ≠ c → s.txn? c₁ = some t₁ → t'.holds = true → t₁.holds = true →
            t'.req.jobID = t₁.req.jobID → False := by
          intro c₁ t₁ hne ht₁ hh hh₁ hid
          rw [hx.req] at hid
          rcases hx.holds hh with hold | hfree
          · exact hne (hs.lock c₁ c t₁ t ht₁ ht hh₁ hold hid.symm)
          · rw [not_holds_of_not_locked hfree ht₁ hid.symm] at hh₁
            cases hh₁
        intro c₁ c₂ t₁ t₂ ht₁ ht₂ hh₁ hh₂ hid
        rw [State.txn?, slot?_set ht] at ht₁ ht₂
        split at ht₁ <;> split at ht₂
        · rename_i h₁ h₂
          rw [h₁, h₂]
        · rename_i h₂
          obtain rfl := Option.some.inj ht₁
          exact (hnew c₂ t₂ h₂ ht₂ hh₁ hh₂ hid).elim
        · rename_i h₁ _
          obtain rfl := Option.some.inj ht₂
          exact (hnew c₁ t₁ h₁ ht₁ hh₂ hh₁ hid.symm).elim
        · exact hs.lock c₁ c₂ t₁ t₂ ht₁ ht₂ hh₁ hh₂ hid
  | commit c =>
      obtain ⟨t, db, ht, hcommit, rfl⟩ := step_commit h
      have hc := commit_spec hs ht hcommit
      obtain ⟨eid, e, hejob, hlt, hevents⟩ := hc.event
      have hother : ∀ c' t', slot? (s.txns.set c none) c' = some t' →
          s.txn? c' = some t' ∧ c' ≠ c := fun c' t' ht' => slot?_clear ht ht'
      refine ⟨fun id => ?_, ?_, fun x hx => ?_, fun c' t' ht' => ?_, ?_, fun g hg => ?_⟩
      · by_cases hid : id = t.req.jobID
        · subst hid
          exact hc.move.consistent (fun j hj => DB.job?_id hj) (hs.consistent _)
        · rw [hc.frame id hid]
          exact hs.consistent id
      · rw [hevents]
        exact hs.sorted.orderedInsert _ _
      · rw [hevents, List.mem_orderedInsert] at hx
        rw [hc.eventSeq]
        rcases hx with rfl | hx
        · exact hlt
        · exact hs.fresh x hx
      · obtain ⟨ht', hne⟩ := hother c' t' ht'
        exact txnOk_commit hs ht hcommit ht' hne
      · intro c₁ c₂ t₁ t₂ ht₁ ht₂
        exact hs.lock c₁ c₂ t₁ t₂ (hother c₁ t₁ ht₁).1 (hother c₂ t₂ ht₂).1
      · obtain ⟨j, hj, hst, hterm⟩ := hs.found g hg
        exact ⟨j, hc.terminal hj hterm, hst, hterm⟩
  | abort c =>
      obtain ⟨t, ht, rfl⟩ := step_abort h
      have hother : ∀ c' t', slot? (s.txns.set c none) c' = some t' → s.txn? c' = some t' :=
        fun c' t' ht' => (slot?_clear ht ht').1
      refine ⟨hs.consistent, hs.sorted, hs.fresh, fun c' t' ht' => hs.txn c' t' (hother c' t' ht'),
        ?_, hs.found⟩
      intro c₁ c₂ t₁ t₂ ht₁ ht₂
      exact hs.lock c₁ c₂ t₁ t₂ (hother c₁ t₁ ht₁) (hother c₂ t₂ ht₂)

/-- The call that a step commits, if it does. -/
def committed (s : State) : Act → Option Request
  | .commit c => (s.txn? c).map Txn.req
  | _ => none

/-- A step that commits nothing leaves the committed rows and events as they are. -/
theorem step_uncommitted {a : Act} (h : step s a = some s') (hnone : committed s a = none) :
    s'.db.jobs = s.db.jobs ∧ s'.db.events = s.db.events := by
  cases a with
  | tick d => obtain rfl := Option.some.inj h; exact ⟨rfl, rfl⟩
  | findGaps a => obtain rfl := Option.some.inj h; exact ⟨rfl, rfl⟩
  | start r =>
      obtain ⟨-, rfl⟩ := step_start h
      exact ⟨rfl, rfl⟩
  | exec c =>
      obtain ⟨t, t', seq, ht, hexec, rfl⟩ := step_exec h
      exact ⟨rfl, rfl⟩
  | commit c =>
      obtain ⟨t, db, ht, -⟩ := step_commit h
      rw [committed, ht] at hnone
      cases hnone
  | abort c =>
      obtain ⟨t, ht, rfl⟩ := step_abort h
      exact ⟨rfl, rfl⟩

/-- **One step is at most one move.** What the tables say of a job stays, or the step commits a
call on that job and makes the move of that call. -/
theorem step_moves {a : Act} (hs : Inv s) (h : step s a = some s') (id : UUID) :
    (s'.db.view id = s.db.view id ∧ ∀ r, committed s a = some r → r.jobID ≠ id) ∨
    ∃ r, committed s a = some r ∧ r.jobID = id ∧
      Move id r.isRequeue (s.db.view id) (s'.db.view id) := by
  rcases hcm : committed s a with _ | r
  · obtain ⟨hjobs, hevents⟩ := step_uncommitted h hcm
    refine .inl ⟨?_, fun r hr => nomatch hr⟩
    simp only [DB.view, DB.job?, DB.eventsOf, hjobs, hevents]
  · cases a with
    | commit c =>
        obtain ⟨t, db, ht, hcommit, rfl⟩ := step_commit h
        rw [committed, ht] at hcm
        obtain rfl := Option.some.inj hcm
        have hc := commit_spec hs ht hcommit
        by_cases hid : t.req.jobID = id
        · subst hid
          exact .inr ⟨_, rfl, rfl, hc.move⟩
        · refine .inl ⟨hc.frame id fun h => hid h.symm, fun r hr => ?_⟩
          obtain rfl := Option.some.inj hr
          exact hid
    | tick => cases hcm
    | findGaps => cases hcm
    | start => cases hcm
    | exec => cases hcm
    | abort => cases hcm

/-- The invariant holds at the start. -/
theorem inv_init (now : Int) : Inv (State.init now) := by
  have hnone : ∀ c, (State.init now).txn? c = none := fun c => slot?_nil
  refine ⟨fun id => rfl, .nil, fun x hx => absurd hx List.not_mem_nil, fun c t ht => ?_, ?_,
    fun g hg => absurd hg List.not_mem_nil⟩
  · rw [hnone] at ht
    cases ht
  · intro c c' t t' ht
    rw [hnone] at ht
    cases ht

/-- The step commits a RequeueStale of this job. -/
def recovers (id : UUID) (x : State × Act) : Bool :=
  (committed x.1 x.2).any fun r => r.isRequeue && r.jobID = id

/-- What a run does to one job, from any state in which the invariant holds: the log counts the
recoveries, a finished job stays, and a start time stays. -/
theorem run_moves {tr : List (State × Act)} (h : Exec step s tr s') (hs : Inv s) (id : UUID) :
    s'.db.recoveryCount id = s.db.recoveryCount id + tr.countP (recovers id) ∧
    (∀ j, s.db.job? id = some j → j.status.terminal = true → s'.db.job? id = some j) ∧
    (∀ j t, s.db.job? id = some j → j.startedAt = some t →
      ∃ j', s'.db.job? id = some j' ∧ j'.startedAt = some t) := by
  induction h with
  | nil s => exact ⟨rfl, fun j hj _ => hj, fun j t hj ht => ⟨j, hj, ht⟩⟩
  | @cons s u v a tr hstep _ ih =>
      obtain ⟨ihcount, ihterm, ihstart⟩ := ih (inv_step hs hstep)
      rw [List.countP_cons, ihcount]
      rcases step_moves hs hstep id with ⟨hview, hne⟩ | ⟨r, hr, hid, hmove⟩
      · have hrec : recovers id (s, a) = false := by
          rw [recovers, Option.any_eq_false]
          intro r hr
          simp [hne r hr]
        have hjob : u.db.job? id = s.db.job? id := congrArg View.job hview
        have hlog : u.db.eventsOf id = s.db.eventsOf id := congrArg View.log hview
        refine ⟨?_, fun j hj => ihterm j (hjob.trans hj), fun j t hj => ihstart j t (hjob.trans hj)⟩
        rw [hrec, DB.recoveryCount, DB.recoveryCount, hlog]
        simp
      · have hrec : recovers id (s, a) = r.isRequeue := by simp [recovers, hr, hid]
        refine ⟨?_, fun j hj ht => ?_, fun j t hj ht => ?_⟩
        · have hcount := hmove.recoveries
          rw [hrec]
          simp only [DB.recoveryCount] at hcount ⊢
          simp only [DB.view] at hcount
          omega
        · exact ihterm j (hmove.job_of_terminal hj ht) ht
        · obtain ⟨j', hj', ht'⟩ := hmove.startedAt hj ht
          exact ihstart j' t hj' ht'

/-- **Row and log of every job agree in every reachable database**, in whatever order the
statements of the calls are interleaved and wherever transactions end. From any earlier state of
the run, finished jobs and start times have stayed; the recovery count is the number of committed
requeues; and a step that commits nothing, as all of a call that returns an error, changes neither
rows nor events. -/
theorem job_log_agree {now : Int} {tr : List (State × Act)} {s : State}
    (h : Exec step (State.init now) tr s) :
    (s.db.events.Pairwise idLE ∧ ∀ id, Consistent (s.db.view id)) ∧
    (∀ id, s.db.recoveryCount id = tr.countP (recovers id)) ∧
    (∀ pre x post, tr = pre ++ x :: post → ∀ id j, x.1.db.job? id = some j →
      (j.status.terminal = true → s.db.job? id = some j) ∧
      ∀ t, j.startedAt = some t → ∃ j', s.db.job? id = some j' ∧ j'.startedAt = some t) ∧
    (∀ x ∈ tr, ∀ s', step x.1 x.2 = some s' → committed x.1 x.2 = none →
      s'.db.jobs = x.1.db.jobs ∧ s'.db.events = x.1.db.events) := by
  have hinv : (∀ x ∈ tr, Inv x.1) ∧ Inv s :=
    h.invariant (P := fun _ _ => True) (fun _ _ _ hs _ hstep => inv_step hs hstep) (inv_init now)
      fun _ _ => trivial
  refine ⟨⟨hinv.2.sorted, hinv.2.consistent⟩, fun id => ?_, ?_, ?_⟩
  · have hrun := (run_moves h (inv_init now) id).1
    rw [hrun]
    exact Nat.zero_add _
  · intro pre x post htr id j hj
    subst htr
    obtain ⟨u, -, hpost⟩ := h.split
    have hx : Inv x.1 := hinv.1 x (List.mem_append_right _ List.mem_cons_self)
    have hrun := run_moves hpost hx id
    exact ⟨hrun.2.1 j hj, fun t ht => hrun.2.2 j t hj ht⟩
  · exact fun x _ s' hstep hnone => step_uncommitted hstep hnone

/-- The run of one job that is created and activated while its first requeue is rolled back. -/
def exampleActs : List Act :=
  [.start (.create 1 ⟨7, 3, "convert", .image, "png", "webp", "", [], "", 0,
      ⟨0, "uploads/7/0-a.png", "a.png", "png", 4, "image/png"⟩⟩),
    .exec 0, .exec 0, .exec 0, .commit 0,
    .start (.write 7 .markActive), .start (.write 7 (.requeueStale "stale_queued")),
    .exec 1, .exec 1, .exec 1, .tick 5, .commit 1, .exec 2, .exec 2, .abort 2]

/-- Each of the steps can be taken. -/
theorem exampleActs_enabled : (trace step (State.init 0) exampleActs).isSome = true := by
  decide +kernel

/-- That run: its trace and its last state. -/
def exampleRun : List (State × Act) × State :=
  runOf step (State.init 0) exampleActs exampleActs_enabled

/-- In that run the rolled-back requeue left nothing, and row and log agree. -/
theorem job_log_agree_exampleRun :
    (exampleRun.2.db.job? 7).map Job.status = some .active ∧
    exampleRun.2.db.recoveryCount 7 = exampleRun.1.countP (recovers 7) ∧
    Consistent (exampleRun.2.db.view 7) := by
  have h := job_log_agree (exec_runOf exampleActs_enabled)
  exact ⟨by decide +kernel, h.2.1 7, h.1.2 7⟩

/-- **A committed status change is the atomic one**: the call finds the job in a status that is
allowed, and leaves what `DB.transition` leaves. -/
theorem commit_write_view {w : Write} {now : Int} {phase : Phase} (hs : Inv s)
    (ht : s.txn? c = some ⟨.write id w, now, phase⟩)
    (h : Txn.commit ⟨.write id w, now, phase⟩ s.db = some db') :
    (s.db.transition now id w.transition).1 = .ok () ∧
    ∀ id', db'.view id' = (s.db.transition now id w.transition).2.view id' := by
  have hok := hs.txn c _ ht
  obtain ⟨eid, e, db₁, hphase, hpub, rfl⟩ := Txn.commit_eq_some h
  obtain rfl : phase = .logged eid e := hphase
  obtain ⟨hw, j, hj, ha, rfl, hlt, hids⟩ := hok
  obtain rfl := Option.some.inj hpub
  have htr : s.db.transition now id w.transition =
      (.ok (), (s.db.update id (w.transition.apply now) (w.transition.apply_id now)).addEvent
        ⟨id, some j.status, w.transition.toStatus, w.transition.detail⟩) := by
    simp only [DB.transition, hj, if_pos ha]
  rw [htr]
  refine ⟨rfl, fun id' => ?_⟩
  by_cases hid : id' = id
  · subst hid
    refine (view_publishEvent_self (s.db.update id' _ (w.transition.apply_id now)) id' eid
      ⟨id', some j.status, w.transition.toStatus, w.transition.detail⟩ rfl hs.sorted
      fun x hx hx' => .inl (hids x hx hx')).trans ?_
    rw [DB.view, DB.eventsOf_addEvent_self rfl]
    rfl
  · refine (view_publishEvent_ne (Ne.symm hid)).trans ?_
    rw [DB.view, DB.view, DB.eventsOf_addEvent_ne (Ne.symm hid)]
    rfl

end OctoConv.Transactions
