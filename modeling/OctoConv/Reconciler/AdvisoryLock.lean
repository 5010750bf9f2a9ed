import OctoConv.Base.Errors
import OctoConv.Lib.Run

/-!
# The advisory lock and the connection pool

`PGAdvisoryLock` keeps one connection of the pool for itself and asks for a session-level advisory
lock on it. Such a lock belongs to the session: it is gone when the connection is closed, and it
stays when the connection is given back to the pool. A run interleaves the steps of TryAcquire with
Close, with the other users of the pool and with the sessions of other processes; the mutex of the
lock is what keeps Close out of a TryAcquire.

Source: `internal/reconciler/reconciler.go` PGAdvisoryLock.

## Main results

* `inv_of_exec` — the lock's connection is dedicated to it, and the session that holds the advisory
  lock is open.
* `never_leaked_iff` — no connection in circulation ever holds the advisory lock exactly if Close
  never finds it on the lock's own connection.
* `leaked_after_close` — a run in which it does.
-/

namespace OctoConv.Reconciler

open Conc

/-! ## The pool -/

/-- Who has a connection of the pool. -/
inductive Place
  /-- Nobody: the next Acquire may return it. -/
  | idle
  /-- Another user of the pool. -/
  | lent
  /-- The advisory lock. -/
  | dedicated
deriving DecidableEq, Repr

/-- A connection of the pool. -/
structure PgConn where
  place : Place
  isOpen : Bool
deriving DecidableEq, Repr

/-- A session that can hold the advisory lock: one of this pool's, or one of another process. -/
inductive Session
  | conn (i : Nat)
  | elsewhere
deriving DecidableEq, Repr

/-- The connections of the pool, by number, and who holds the advisory lock on the server. -/
structure Pool where
  conns : List PgConn
  holder : Option Session
deriving DecidableEq, Repr

/-- How an Acquire ends. -/
inductive Acquired
  | failed (err : GoError)
  /-- It returns an idle connection. -/
  | idle (i : Nat)
  /-- It opens a new one. -/
  | opened
deriving DecidableEq, Repr

/-- What the other users of the pool and other processes do. -/
inductive OtherStep
  /-- Another user acquires a connection. -/
  | lend (o : Acquired)
  /-- Another user releases a connection. -/
  | giveBack (i : Nat)
  /-- A connection is lost, closed by its user or retired by the pool. -/
  | lose (i : Nat)
  | takenElsewhere
  | freedElsewhere
deriving DecidableEq, Repr

namespace Pool

/-- The connection is open. -/
def isOpen (p : Pool) (i : Nat) : Bool := p.conns[i]?.any PgConn.isOpen

/-- The connection is here. -/
def isAt (p : Pool) (i : Nat) (place : Place) : Bool := p.conns[i]?.any fun c => c.place = place

/-- The session of the connection holds the advisory lock. -/
def Holds (p : Pool) (i : Nat) : Prop := p.holder = some (.conn i)

instance (p : Pool) (i : Nat) : Decidable (p.Holds i) := by
  unfold Holds
  infer_instance

/-- The connection changes hands. -/
def move (p : Pool) (i : Nat) (place : Place) : Pool :=
  { p with conns := p.conns.modify i fun c => { c with place } }

/-- A new connection. -/
def open' (p : Pool) (place : Place) : Pool :=
  { p with conns := p.conns ++ [⟨place, true⟩] }

/-- The connection is closed, and its session gives up the advisory lock. -/
def close (p : Pool) (i : Nat) : Pool where
  conns := p.conns.modify i fun c => { c with isOpen := false }
  holder := if p.holder = some (.conn i) then none else p.holder

/-- `pool.Acquire`. -/
def acquire (p : Pool) (place : Place) : Acquired → Option (Except GoError Nat × Pool)
  | .failed err => some (.error err, p)
  | .idle i => if p.isOpen i ∧ p.isAt i .idle then some (.ok i, p.move i place) else none
  | .opened => some (.ok p.conns.length, p.open' place)

/-- `conn.Release`: a connection that was closed is never handed out again. -/
def release (p : Pool) (i : Nat) : Pool := p.move i .idle

/-- `SELECT pg_try_advisory_lock($1)` on the connection. -/
def tryAdvisoryLock (p : Pool) (i : Nat) : Bool × Pool :=
  if p.holder = none ∨ p.holder = some (.conn i) then
    (true, { p with holder := some (.conn i) })
  else (false, p)

/-- The others use the pool and the server; none of them asks for the advisory lock on a connection
of this pool. -/
def others (p : Pool) : OtherStep → Option Pool
  | .lend o => (p.acquire .lent o).map Prod.snd
  | .giveBack i => if p.isAt i .lent then some (p.release i) else none
  | .lose i => some (p.close i)
  | .takenElsewhere => if p.holder = none then some { p with holder := some .elsewhere } else none
  | .freedElsewhere => if p.holder = some .elsewhere then some { p with holder := none } else none

/-- An open connection that anybody may have holds the advisory lock. -/
def Leaked (p : Pool) : Prop := ∃ i, p.Holds i ∧ p.isOpen i ∧ ¬ p.isAt i .dedicated

/-- Whoever holds the advisory lock has an open session. -/
def Live (p : Pool) : Prop := ∀ i, p.Holds i → p.isOpen i

variable {p p' : Pool} {i j : Nat} {place q : Place}

/-- Moving a connection neither opens nor closes any. -/
@[simp] theorem isOpen_move : (p.move i place).isOpen j = p.isOpen j := by
  simp only [isOpen, move, List.getElem?_modify]
  rcases p.conns[j]? with _ | c
  · rfl
  · by_cases h : i = j <;> simp [h]

/-- Moving a connection changes nothing about the advisory lock. -/
@[simp] theorem holds_move : (p.move i place).Holds j ↔ p.Holds j := Iff.rfl

/-- The others stay where they are. -/
theorem isAt_move_ne (h : i ≠ j) : (p.move i place).isAt j q = p.isAt j q := by
  simp [isAt, move, h]

/-- A connection that is moved is at its new place. -/
theorem isAt_move_self (h : p.isAt i q) : (p.move i place).isAt i place = true := by
  simp only [isAt, move, List.getElem?_modify] at h ⊢
  rcases hc : p.conns[i]? with _ | c
  · simp [hc] at h
  · simp

/-- It is at no other place. -/
theorem not_isAt_move (h : place ≠ q) : (p.move i place).isAt i q = false := by
  simp only [isAt, move, List.getElem?_modify]
  rcases p.conns[i]? with _ | c <;> simp [h]

/-- A connection is in one place. -/
theorem isAt_unique (h : p.isAt i place) (h' : p.isAt i q) : place = q := by
  simp only [isAt] at h h'
  rcases hc : p.conns[i]? with _ | c
  · simp [hc] at h
  · simp only [hc, Option.any_some, decide_eq_true_eq] at h h'
    rw [← h, ← h']

/-- A connection that is somewhere is one of the pool. -/
theorem lt_of_isAt (h : p.isAt i place) : i < p.conns.length := by
  by_contra hi
  rw [isAt, List.getElem?_eq_none (by omega)] at h
  simp at h

/-- Opening a connection leaves the older ones where they are. -/
theorem isAt_open' (h : i < p.conns.length) : (p.open' place).isAt i q = p.isAt i q := by
  simp [isAt, open', List.getElem?_append_left h]

/-- Opening a connection leaves the older ones open or closed. -/
theorem isOpen_open' (h : i < p.conns.length) : (p.open' place).isOpen i = p.isOpen i := by
  simp [isOpen, open', List.getElem?_append_left h]

/-- A new connection is where it was opened. -/
theorem isAt_opened : (p.open' place).isAt p.conns.length place = true := by
  simp [isAt, open']

/-- Opening a connection changes nothing about the advisory lock. -/
@[simp] theorem holds_open' : (p.open' place).Holds j ↔ p.Holds j := Iff.rfl

/-- Closing a connection moves none. -/
@[simp] theorem isAt_close : (p.close i).isAt j q = p.isAt j q := by
  simp only [isAt, close, List.getElem?_modify]
  rcases p.conns[j]? with _ | c
  · rfl
  · by_cases h : i = j <;> simp [h]

/-- Closing a connection leaves the others open or closed. -/
theorem isOpen_close_ne (h : i ≠ j) : (p.close i).isOpen j = p.isOpen j := by
  simp [isOpen, close, h]

/-- A closed connection is not open. -/
@[simp] theorem isOpen_close_self : (p.close i).isOpen i = false := by
  simp only [isOpen, close, List.getElem?_modify]
  rcases p.conns[i]? with _ | c <;> simp

/-- Closing a connection frees the lock if that connection holds it. -/
theorem holds_close : (p.close i).Holds j ↔ j ≠ i ∧ p.Holds j := by
  simp only [Holds, close]
  split
  · rename_i h
    rw [h]
    simp only [reduceCtorEq, Option.some.injEq, Session.conn.injEq, false_iff]
    exact fun h' => h'.1 h'.2.symm
  · rename_i h
    constructor
    · intro hj
      exact ⟨fun hij => h (hij ▸ hj), hj⟩
    · exact And.right

/-- Asking for the lock changes no connection. -/
theorem tryAdvisoryLock_conns : (p.tryAdvisoryLock i).2.conns = p.conns := by
  unfold tryAdvisoryLock
  split <;> rfl

/-- Asking for the lock moves no connection. -/
@[simp] theorem isAt_tryAdvisoryLock : (p.tryAdvisoryLock i).2.isAt j q = p.isAt j q := by
  rw [isAt, tryAdvisoryLock_conns, isAt]

/-- Asking for the lock opens and closes no connection. -/
@[simp] theorem isOpen_tryAdvisoryLock : (p.tryAdvisoryLock i).2.isOpen j = p.isOpen j := by
  rw [isOpen, tryAdvisoryLock_conns, isOpen]

/-- Only the session that asks can come to hold the lock. -/
theorem holds_tryAdvisoryLock (h : (p.tryAdvisoryLock i).2.Holds j) : j = i ∨ p.Holds j := by
  unfold tryAdvisoryLock at h
  split at h
  · exact .inl (by simpa [Holds] using h.symm)
  · exact .inr h

/-- The answer is true exactly if the session holds the lock afterwards. -/
theorem tryAdvisoryLock_true_iff :
    (p.tryAdvisoryLock i).1 = true ↔ (p.tryAdvisoryLock i).2.Holds i := by
  unfold tryAdvisoryLock
  split
  · simp [Holds]
  · rename_i h
    simp only [Bool.false_eq_true, false_iff]
    exact fun h' => h (.inr h')

/-- The statement runs on an open connection. -/
theorem live_tryAdvisoryLock (h : p.Live) (hi : p.isOpen i) : (p.tryAdvisoryLock i).2.Live := by
  intro j hj
  rw [isOpen_tryAdvisoryLock]
  rcases holds_tryAdvisoryLock hj with rfl | hj
  · exact hi
  · exact h j hj

/-! ## What the others can do to the pool -/

/-- What the dedicated connections may rely on: they stay dedicated, a closed one is not opened
again, and no session of the pool comes to hold the advisory lock. -/
structure Frame (p p' : Pool) : Prop where
  dedicated : ∀ i, p.isAt i .dedicated → p'.isAt i .dedicated
  closed : ∀ i, p.isAt i .dedicated → p'.isOpen i → p.isOpen i
  holds : ∀ i, p'.Holds i → p.Holds i
  live : p.Live → p'.Live

/-- The pool is in a frame with itself. -/
theorem Frame.refl (p : Pool) : Frame p p :=
  ⟨fun _ h => h, fun _ _ h => h, fun _ h => h, fun h => h⟩

/-- A connection that is not dedicated changes hands. -/
theorem frame_move (h : p.isAt i q) (hq : q ≠ .dedicated) : Frame p (p.move i place) := by
  refine ⟨fun j hj => ?_, fun j _ hj => by simpa using hj, fun j hj => hj, fun hl j hj => ?_⟩
  · have hij : i ≠ j := by
      rintro rfl
      exact hq (isAt_unique h hj)
    rw [isAt_move_ne hij]
    exact hj
  · rw [isOpen_move]
    exact hl j hj

/-- Opening a connection is in the frame. -/
theorem frame_open' : Frame p (p.open' place) := by
  refine ⟨fun j hj => ?_, fun j hj ho => ?_, fun j hj => hj, fun hl j hj => ?_⟩
  · rw [isAt_open' (lt_of_isAt hj)]
    exact hj
  · rw [isOpen_open' (lt_of_isAt hj)] at ho
    exact ho
  · have ho := hl j hj
    have hlt : j < p.conns.length := by
      by_contra hge
      rw [isOpen, List.getElem?_eq_none (by omega)] at ho
      simp at ho
    rw [isOpen_open' hlt]
    exact ho

/-- Closing one is in the frame. -/
theorem frame_close : Frame p (p.close i) := by
  refine ⟨fun j hj => by simpa using hj, fun j _ ho => ?_, fun j hj => ?_, fun hl j hj => ?_⟩
  · by_cases hij : i = j
    · subst hij
      simp at ho
    · rwa [isOpen_close_ne hij] at ho
  · exact (holds_close.mp hj).2
  · obtain ⟨hne, hj⟩ := holds_close.mp hj
    rw [isOpen_close_ne (Ne.symm hne)]
    exact hl j hj

/-- An Acquire takes a connection that was idle, or a new one. -/
theorem acquire_frame {o : Acquired} {r : Except GoError Nat}
    (h : p.acquire place o = some (r, p')) :
    Frame p p' ∧ ∀ i, r = .ok i → p'.isAt i place := by
  cases o with
  | failed err =>
      obtain ⟨rfl, rfl⟩ := Prod.mk.inj (Option.some.inj h)
      exact ⟨.refl p, fun i hi => by cases hi⟩
  | idle i =>
      simp only [acquire] at h
      split at h
      · rename_i hc
        obtain ⟨rfl, rfl⟩ := Prod.mk.inj (Option.some.inj h)
        refine ⟨frame_move hc.2 (by simp), fun j hj => ?_⟩
        obtain rfl : i = j := by simpa using hj
        exact isAt_move_self hc.2
      · cases h
  | opened =>
      obtain ⟨rfl, rfl⟩ := Prod.mk.inj (Option.some.inj h)
      refine ⟨frame_open', fun j hj => ?_⟩
      obtain rfl : p.conns.length = j := by simpa using hj
      exact isAt_opened

/-- The advisory lock passes between nobody and another process. -/
theorem frame_elsewhere {holder : Option Session} (h : ∀ i, holder ≠ some (.conn i)) :
    Frame p { p with holder } :=
  ⟨fun _ h => h, fun _ _ h => h, fun i hi => absurd hi (h i), fun _ i hi => absurd hi (h i)⟩

/-- What others do is in the frame. -/
theorem others_frame {e : OtherStep} (h : p.others e = some p') : Frame p p' := by
  cases e with
  | lend o =>
      obtain ⟨x, hx, rfl⟩ := Option.map_eq_some_iff.mp h
      exact (acquire_frame hx).1
  | giveBack i =>
      obtain ⟨hat, hp⟩ := Option.ite_none_right_eq_some.mp h
      rw [← Option.some.inj hp]
      exact frame_move hat (by simp)
  | lose i =>
      rw [← Option.some.inj h]
      exact frame_close
  | takenElsewhere =>
      obtain ⟨_, hp⟩ := Option.ite_none_right_eq_some.mp h
      rw [← Option.some.inj hp]
      exact frame_elsewhere fun i => by simp
  | freedElsewhere =>
      obtain ⟨_, hp⟩ := Option.ite_none_right_eq_some.mp h
      rw [← Option.some.inj hp]
      exact frame_elsewhere fun i => by simp

end Pool

/-! ## The lock -/

/-- The fields of the lock.

Source: `reconciler.go` PGAdvisoryLock -/
structure PGAdvisoryLock where
  conn : Option Nat
  closed : Bool
deriving DecidableEq, Repr

/-- Where a TryAcquire that has the mutex is. -/
inductive TryPhase
  /-- It acquires a connection. -/
  | reacquire
  /-- It queries its connection. -/
  | query (i : Nat)
  /-- The query has failed: it closes the connection. -/
  | hardClose (i : Nat) (err : GoError)
  /-- It releases the closed connection. -/
  | release (i : Nat) (err : GoError)
  /-- It returns. -/
  | returned (r : Except GoError Bool)

/-- How the query ends. -/
inductive Queried
  /-- The answer is scanned. -/
  | scanned
  /-- There is an error, before or after the statement has run on the server. -/
  | failed (err : GoError) (ran : Bool)
deriving DecidableEq, Repr

/-- The pool, the lock once it has been made, and the TryAcquire that has its mutex. -/
structure LockState where
  pool : Pool
  lock : Option PGAdvisoryLock
  call : Option TryPhase

/-- One step of the lock, of the other users of the pool, or of another process. -/
inductive LockStep
  | newPGAdvisoryLock (o : Acquired)
  /-- A TryAcquire takes the mutex. -/
  | tryAcquire
  | reacquire (o : Acquired)
  | query (o : Queried)
  | hardClose
  | release
  /-- The TryAcquire returns and gives the mutex back. -/
  | finish
  /-- A whole Close. -/
  | close
  | others (e : OtherStep)
deriving DecidableEq, Repr

namespace LockState

/-- Before the lock is made. -/
def init : LockState := ⟨⟨[], none⟩, none, none⟩

/-- The head of TryAcquire.

Source: `reconciler.go` TryAcquire -/
def enter (l : PGAdvisoryLock) : TryPhase :=
  if l.closed then .returned (.error (.new "advisory lock is closed"))
  else
    match l.conn with
    | none => .reacquire
    | some i => .query i

/-- The query of TryAcquire: on an error the lock forgets its connection.

Source: `reconciler.go` TryAcquire -/
def queried (s : LockState) (l : PGAdvisoryLock) (i : Nat) : Queried → Option LockState
  | .scanned =>
      if s.pool.isOpen i then
        some { s with
          pool := (s.pool.tryAdvisoryLock i).2
          call := some (.returned (.ok (s.pool.tryAdvisoryLock i).1)) }
      else none
  | .failed err ran =>
      some {
        pool := if ran ∧ s.pool.isOpen i then (s.pool.tryAdvisoryLock i).2 else s.pool
        lock := some { l with conn := none }
        call := some (.hardClose i err) }

/-- The lazy acquire of TryAcquire.

Source: `reconciler.go` TryAcquire -/
def reacquired (s : LockState) (l : PGAdvisoryLock) (o : Acquired) : Option LockState :=
  match s.pool.acquire .dedicated o with
  | none => none
  | some (.error err, p) => some { s with
      pool := p
      call := some (.returned
        (.error (err.wrap "re-acquire dedicated advisory-lock connection"))) }
  | some (.ok i, p) => some ⟨p, some { l with conn := some i }, some (.query i)⟩

/-- Close: it releases the connection, without unlocking it.

Source: `reconciler.go` Close -/
def closed (s : LockState) (l : PGAdvisoryLock) : LockState where
  pool :=
    match l.conn with
    | some i => s.pool.release i
    | none => s.pool
  lock := some ⟨none, true⟩
  call := none

/-- NewPGAdvisoryLock.

Source: `reconciler.go` NewPGAdvisoryLock -/
def made (s : LockState) (o : Acquired) : Option LockState :=
  match s.pool.acquire .dedicated o with
  | none => none
  | some (.error _, p) => some { s with pool := p }
  | some (.ok i, p) => some { s with pool := p, lock := some ⟨some i, false⟩ }

/-- One step. Nothing is called before the lock is made; Close and the head of TryAcquire wait for
the mutex. -/
def step (s : LockState) : LockStep → Option LockState
  | .newPGAdvisoryLock o =>
      match s.lock, s.call with
      | none, none => s.made o
      | _, _ => none
  | .tryAcquire =>
      match s.lock, s.call with
      | some l, none => some { s with call := some (enter l) }
      | _, _ => none
  | .reacquire o =>
      match s.lock, s.call with
      | some l, some .reacquire => s.reacquired l o
      | _, _ => none
  | .query o =>
      match s.lock, s.call with
      | some l, some (.query i) => s.queried l i o
      | _, _ => none
  | .hardClose =>
      match s.call with
      | some (.hardClose i err) =>
          some { s with pool := s.pool.close i, call := some (.release i err) }
      | _ => none
  | .release =>
      match s.call with
      | some (.release i err) => some { s with
          pool := s.pool.release i
          call := some (.returned (.error (err.wrap "pg_try_advisory_lock"))) }
      | _ => none
  | .finish =>
      match s.call with
      | some (.returned _) => some { s with call := none }
      | _ => none
  | .close =>
      match s.lock, s.call with
      | some l, none => some (s.closed l)
      | _, _ => none
  | .others e => (s.pool.others e).map fun p => { s with pool := p }

/-- The connection the lock has. -/
def conn (s : LockState) : Option Nat := s.lock.bind PGAdvisoryLock.conn

/-- The step is a Close that finds the advisory lock on the lock's own connection. -/
def ClosesHolding (s : LockState) : LockStep → Prop
  | .close => ∃ i ∈ s.conn, s.pool.Holds i
  | _ => False

/-- The connection is in the hands of the lock or of its TryAcquire. -/
def Owns (s : LockState) (i : Nat) : Prop :=
  s.conn = some i ∨ s.call = some (.query i) ∨
    ∃ err, s.call = some (.hardClose i err) ∨ s.call = some (.release i err)

/-! ## The invariant -/

/-- What holds in every run. -/
structure Inv (s : LockState) : Prop where
  live : s.pool.Live
  /-- The lock's connection is dedicated to it. -/
  owned : ∀ i, s.Owns i → s.pool.isAt i .dedicated
  /-- The lock has forgotten the connection that TryAcquire gives up. -/
  forgotten : ∀ i err, s.call = some (.hardClose i err) ∨ s.call = some (.release i err) →
    s.conn = none
  /-- TryAcquire releases a connection only once it is closed. -/
  dead : ∀ i err, s.call = some (.release i err) → ¬ s.pool.isOpen i

/-- The sessions of the pool that hold the advisory lock belong to dedicated connections. -/
def Kept (s : LockState) : Prop := ∀ i, s.pool.Holds i → s.pool.isAt i .dedicated

variable {s t : LockState} {a : LockStep}

/-- A lock that is kept is not leaked. -/
theorem Kept.not_leaked (h : s.Kept) : ¬ s.pool.Leaked :=
  fun ⟨i, hi, _, hn⟩ => hn (h i hi)

/-- The invariant holds at the start. -/
theorem inv_init : init.Inv where
  live i hi := by cases hi
  owned i hi := by simp [Owns, init, conn] at hi
  forgotten i err h := by simp [init] at h
  dead i err h := by simp [init] at h

/-- Nothing is leaked at the start. -/
theorem kept_init : init.Kept := fun i hi => by cases hi

/-- The others keep the invariant. -/
theorem Inv.frame (h : s.Inv) {p : Pool} (hf : s.pool.Frame p) :
    ({ s with pool := p } : LockState).Inv where
  live := hf.live h.live
  owned i hi := hf.dedicated i (h.owned i hi)
  forgotten := h.forgotten
  dead i err hc ho := h.dead i err hc (hf.closed i (h.owned i (.inr (.inr ⟨err, .inr hc⟩))) ho)

/-- What others do leaks nothing. -/
theorem Kept.frame (h : s.Kept) {p : Pool} (hf : s.pool.Frame p) :
    ({ s with pool := p } : LockState).Kept :=
  fun i hi => hf.dedicated i (h i (hf.holds i hi))

/-- The head of TryAcquire hands it the lock's own connection. -/
theorem enter_owns {l : PGAdvisoryLock} {i : Nat} (h : enter l = .query i) : l.conn = some i := by
  unfold enter at h
  split at h
  · cases h
  · split at h
    · cases h
    · rename_i hc
      rw [hc, TryPhase.query.inj h]

/-- Entering TryAcquire closes and releases nothing. -/
theorem enter_ne_closing {l : PGAdvisoryLock} {i : Nat} {e : GoError} :
    enter l ≠ .hardClose i e ∧ enter l ≠ .release i e := by
  unfold enter
  split
  · simp
  · split <;> simp

/-- Entering TryAcquire keeps the invariant. -/
theorem Inv.entered (h : s.Inv) {l : PGAdvisoryLock} (hl : s.lock = some l) :
    ({ s with call := some (enter l) } : LockState).Inv where
  live := h.live
  owned i hi := by
    apply h.owned i
    rcases hi with hi | hi | ⟨err, hi | hi⟩
    · exact .inl hi
    · left
      rw [conn, hl]
      exact enter_owns (Option.some.inj hi)
    · exact absurd (Option.some.inj hi) enter_ne_closing.1
    · exact absurd (Option.some.inj hi) enter_ne_closing.2
  forgotten i err hc := by
    rcases hc with hc | hc
    · exact absurd (Option.some.inj hc) (enter_ne_closing (e := err)).1
    · exact absurd (Option.some.inj hc) (enter_ne_closing (e := err)).2
  dead i err hc := absurd (Option.some.inj hc) (enter_ne_closing (e := err)).2

/-- A call that returns owns nothing of its own. -/
theorem Inv.returned (h : s.Inv) {p : Pool} (hf : s.pool.Frame p) (call : Option TryPhase)
    (hc : ∀ x ∈ call, ∃ r, x = .returned r) : ({ s with pool := p, call } : LockState).Inv where
  live := hf.live h.live
  owned i hi := by
    apply hf.dedicated i
    apply h.owned i
    rcases hi with hi | hi | ⟨err, hi | hi⟩
    · exact .inl hi
    all_goals
      obtain ⟨r, hr⟩ := hc _ hi
      cases hr
  forgotten i err hi := by
    rcases hi with hi | hi
    all_goals
      obtain ⟨r, hr⟩ := hc _ hi
      cases hr
  dead i err hi := by
    obtain ⟨r, hr⟩ := hc _ hi
    cases hr

/-- Acquiring a connection anew keeps the invariant. -/
theorem Inv.reacquired (h : s.Inv) {l : PGAdvisoryLock} {o : Acquired}
    (hs : s.reacquired l o = some t) : t.Inv := by
  unfold LockState.reacquired at hs
  split at hs
  · cases hs
  · rename_i err p hacq
    obtain rfl := Option.some.inj hs
    exact h.returned (Pool.acquire_frame hacq).1 _ fun x hx => ⟨_, (Option.some.inj hx).symm⟩
  · rename_i i p hacq
    obtain rfl := Option.some.inj hs
    obtain ⟨hf, hp⟩ := Pool.acquire_frame hacq
    refine ⟨hf.live h.live, fun j hj => ?_, fun j err hc => ?_, fun j err hc => ?_⟩
    · have hij : i = j := by
        rcases hj with hj | hj | ⟨err, hj | hj⟩
        · exact Option.some.inj hj
        · exact TryPhase.query.inj (Option.some.inj hj)
        · cases hj
        · cases hj
      rw [← hij]
      exact hp i rfl
    · rcases hc with hc | hc <;> cases hc
    · cases hc

/-- The pool after the query of a connection. -/
theorem pool_queried {l : PGAdvisoryLock} {i : Nat} {o : Queried}
    (hs : s.queried l i o = some t) :
    t.pool = s.pool ∨ s.pool.isOpen i ∧ t.pool = (s.pool.tryAdvisoryLock i).2 := by
  cases o with
  | scanned =>
      simp only [queried] at hs
      split at hs
      · rename_i ho
        obtain rfl := Option.some.inj hs
        exact .inr ⟨ho, rfl⟩
      · cases hs
  | failed err ran =>
      obtain rfl := Option.some.inj hs
      dsimp only
      split
      · rename_i hc
        exact .inr ⟨hc.2, rfl⟩
      · exact .inl rfl

/-- So does a query, whatever it is answered. -/
theorem Inv.queried (h : s.Inv) {l : PGAdvisoryLock} {i : Nat} {o : Queried}
    (hc : s.call = some (.query i)) (hs : s.queried l i o = some t) : t.Inv := by
  have hlive : t.pool.Live := by
    rcases pool_queried hs with hp | ⟨ho, hp⟩
    · rw [hp]
      exact h.live
    · rw [hp]
      exact Pool.live_tryAdvisoryLock h.live ho
  have hat : ∀ j, s.pool.isAt j .dedicated → t.pool.isAt j .dedicated := by
    intro j hj
    rcases pool_queried hs with hp | ⟨_, hp⟩
    · rw [hp]
      exact hj
    · rw [hp, Pool.isAt_tryAdvisoryLock]
      exact hj
  cases o with
  | scanned =>
      simp only [LockState.queried] at hs
      split at hs
      · obtain rfl := Option.some.inj hs
        refine ⟨hlive, fun j hj => hat j (h.owned j ?_), fun j err hj => ?_, fun j err hj => ?_⟩
        · rcases hj with hj | hj | ⟨err, hj | hj⟩
          · exact .inl hj
          all_goals cases hj
        · rcases hj with hj | hj <;> cases hj
        · cases hj
      · cases hs
  | failed err ran =>
      obtain rfl := Option.some.inj hs
      refine ⟨hlive, fun j hj => hat j (h.owned j ?_), fun j err hj => rfl, fun j err hj => ?_⟩
      · -- the connection that the lock has forgotten is the one it queried
        rcases hj with hj | hj | ⟨err, hj | hj⟩
        · cases hj
        · cases hj
        · obtain ⟨rfl, -⟩ := TryPhase.hardClose.inj (Option.some.inj hj)
          exact .inr (.inl hc)
        · cases hj
      · cases hj

/-- What TryAcquire gives back is closed. -/
theorem Inv.hardClosed (h : s.Inv) {i : Nat} {err : GoError}
    (hc : s.call = some (.hardClose i err)) :
    ({ s with pool := s.pool.close i, call := some (.release i err) } : LockState).Inv where
  live := Pool.frame_close.live h.live
  owned j hj := by
    rw [Pool.isAt_close]
    apply h.owned j
    rcases hj with hj | hj | ⟨err', hj | hj⟩
    · exact .inl hj
    · cases hj
    · cases hj
    · obtain ⟨rfl, -⟩ := TryPhase.release.inj (Option.some.inj hj)
      exact .inr (.inr ⟨err, .inl hc⟩)
  forgotten j err' _ := h.forgotten i err (.inl hc)
  dead j err' hj := by
    obtain ⟨rfl, -⟩ := TryPhase.release.inj (Option.some.inj hj)
    simp

/-- Nothing is left in the hands of the lock. -/
theorem inv_of_unowned {p : Pool} (hp : p.Live) {lock : Option PGAdvisoryLock}
    {call : Option TryPhase} (hl : lock.bind PGAdvisoryLock.conn = none)
    (hc : ∀ x ∈ call, ∃ r, x = .returned r) : (⟨p, lock, call⟩ : LockState).Inv where
  live := hp
  owned i hi := by
    rcases hi with hi | hi | ⟨err, hi | hi⟩
    · rw [conn, hl] at hi
      cases hi
    all_goals
      obtain ⟨r, hr⟩ := hc _ hi
      cases hr
  forgotten _ _ _ := hl
  dead i err hi := by
    obtain ⟨r, hr⟩ := hc _ hi
    cases hr

/-- And so does making the lock. -/
theorem Inv.made (h : s.Inv) (hc : s.call = none) {o : Acquired} (hs : s.made o = some t) :
    t.Inv := by
  unfold LockState.made at hs
  split at hs
  · cases hs
  · rename_i err p hacq
    obtain rfl := Option.some.inj hs
    exact h.frame (Pool.acquire_frame hacq).1
  · rename_i i p hacq
    obtain rfl := Option.some.inj hs
    obtain ⟨hf, hp⟩ := Pool.acquire_frame hacq
    refine ⟨hf.live h.live, fun j hj => ?_, fun j err hj => ?_, fun j err hj => ?_⟩
    · have hij : i = j := by
        rcases hj with hj | hj | ⟨err, hj | hj⟩
        · exact Option.some.inj hj
        all_goals simp [hc] at hj
      rw [← hij]
      exact hp i rfl
    · simp [hc] at hj
    · simp [hc] at hj

/-- Releasing a connection keeps the holder alive. -/
theorem live_release {p : Pool} {i : Nat} (h : p.Live) : (p.release i).Live := by
  intro j hj
  rw [Pool.release, Pool.isOpen_move]
  exact h j hj

/-! ## One step -/

/-- What a step can do. -/
inductive Steps (s : LockState) : LockStep → LockState → Prop
  | made {o : Acquired} {t : LockState} (hc : s.call = none) (ht : s.made o = some t) :
      Steps s (.newPGAdvisoryLock o) t
  | entered {l : PGAdvisoryLock} (hl : s.lock = some l) :
      Steps s .tryAcquire { s with call := some (enter l) }
  | reacquired {o : Acquired} {l : PGAdvisoryLock} {t : LockState}
      (ht : s.reacquired l o = some t) : Steps s (.reacquire o) t
  | queried {o : Queried} {l : PGAdvisoryLock} {i : Nat} {t : LockState}
      (hc : s.call = some (.query i)) (ht : s.queried l i o = some t) : Steps s (.query o) t
  | hardClosed {i : Nat} {err : GoError} (hc : s.call = some (.hardClose i err)) :
      Steps s .hardClose { s with pool := s.pool.close i, call := some (.release i err) }
  | released {i : Nat} {err : GoError} (hc : s.call = some (.release i err)) :
      Steps s .release { s with
        pool := s.pool.release i
        call := some (.returned (.error (err.wrap "pg_try_advisory_lock"))) }
  | finished : Steps s .finish { s with call := none }
  | closed {l : PGAdvisoryLock} (hl : s.lock = some l) : Steps s .close (s.closed l)
  | others {e : OtherStep} {p : Pool} (hp : s.pool.others e = some p) :
      Steps s (.others e) { s with pool := p }

/-- What one step of the lock can do. -/
theorem steps_of_step (hs : step s a = some t) : Steps s a t := by
  unfold step at hs
  split at hs
  · split at hs
    · rename_i hc
      exact .made hc hs
    · exact nomatch hs
  · split at hs
    · rename_i hl _
      obtain rfl := Option.some.inj hs
      exact .entered hl
    · exact nomatch hs
  · split at hs
    · exact .reacquired hs
    · exact nomatch hs
  · split at hs
    · rename_i hc
      exact .queried hc hs
    · exact nomatch hs
  · split at hs
    · rename_i hc
      obtain rfl := Option.some.inj hs
      exact .hardClosed hc
    · exact nomatch hs
  · split at hs
    · rename_i hc
      obtain rfl := Option.some.inj hs
      exact .released hc
    · exact nomatch hs
  · split at hs
    · obtain rfl := Option.some.inj hs
      exact .finished
    · exact nomatch hs
  · split at hs
    · rename_i hl _
      obtain rfl := Option.some.inj hs
      exact .closed hl
    · exact nomatch hs
  · obtain ⟨p, hp, rfl⟩ := Option.map_eq_some_iff.mp hs
    exact .others hp

/-- Making the lock is in the frame. -/
theorem made_frame {o : Acquired} (hs : s.made o = some t) : s.pool.Frame t.pool := by
  unfold made at hs
  split at hs
  · exact nomatch hs
  all_goals
    rename_i hacq
    obtain rfl := Option.some.inj hs
    exact (Pool.acquire_frame hacq).1

/-- Acquiring a connection anew is in the frame. -/
theorem reacquired_frame {l : PGAdvisoryLock} {o : Acquired} (hs : s.reacquired l o = some t) :
    s.pool.Frame t.pool := by
  unfold reacquired at hs
  split at hs
  · exact nomatch hs
  all_goals
    rename_i hacq
    obtain rfl := Option.some.inj hs
    exact (Pool.acquire_frame hacq).1

/-- What one step does to the pool: the others change it as in `Pool.Frame`, and so do an Acquire
and the hard close of the lock; the lock queries a connection of its own, and gives back one that is
closed. Only Close gives one back as it is. -/
theorem pool_step (h : s.Inv) (hs : step s a = some t) :
    s.pool.Frame t.pool ∨
      (∃ i, s.Owns i ∧ t.pool = (s.pool.tryAdvisoryLock i).2) ∨
      (∃ i, ¬ s.pool.isOpen i ∧ t.pool = s.pool.release i) ∨
      (∃ i, a = .close ∧ s.conn = some i ∧ t.pool = s.pool.release i) := by
  cases steps_of_step hs with
  | made _ ht => exact .inl (made_frame ht)
  | entered => exact .inl (.refl _)
  | reacquired ht => exact .inl (reacquired_frame ht)
  | @queried _ _ i _ hc ht =>
      rcases pool_queried ht with hp | ⟨_, hp⟩
      · rw [hp]
        exact .inl (.refl _)
      · exact .inr (.inl ⟨i, .inr (.inl hc), hp⟩)
  | hardClosed => exact .inl Pool.frame_close
  | @released i err hc => exact .inr (.inr (.inl ⟨i, h.dead i err hc, rfl⟩))
  | finished => exact .inl (.refl _)
  | @closed l hl =>
      rcases hc : l.conn with _ | i
      · simp only [LockState.closed, hc]
        exact .inl (.refl _)
      · simp only [LockState.closed, hc]
        exact .inr (.inr (.inr ⟨i, trivial, by simp [conn, hl, hc], rfl⟩))
  | others hp => exact .inl (Pool.others_frame hp)

/-- **The step lemma.** -/
theorem Inv.step (h : s.Inv) (hs : LockState.step s a = some t) : t.Inv := by
  cases steps_of_step hs with
  | made hc ht => exact h.made hc ht
  | entered hl => exact h.entered hl
  | reacquired ht => exact h.reacquired ht
  | queried hc ht => exact h.queried hc ht
  | hardClosed hc => exact h.hardClosed hc
  | @released i err hc =>
      exact inv_of_unowned (live_release h.live) (h.forgotten i err (.inr hc))
        fun x hx => ⟨_, (Option.some.inj hx).symm⟩
  | finished => exact h.returned (.refl _) none nofun
  | closed hl =>
      refine inv_of_unowned ?_ rfl nofun
      split
      · exact live_release h.live
      · exact h.live
  | others hp => exact h.frame (Pool.others_frame hp)

/-- Unless Close finds the advisory lock on the lock's connection, it stays with dedicated ones. -/
theorem Kept.step (h : s.Inv) (hk : s.Kept) (ha : ¬ s.ClosesHolding a)
    (hs : LockState.step s a = some t) : t.Kept := by
  -- a connection that is given back does not hold the lock
  have hback : ∀ i, ¬ s.pool.Holds i → t.pool = s.pool.release i → t.Kept := by
    intro i hi hp j hj
    rw [hp] at hj ⊢
    have hij : i ≠ j := fun e => hi (e ▸ hj)
    rw [Pool.release, Pool.isAt_move_ne hij]
    exact hk j hj
  rcases pool_step h hs with hf | ⟨i, ho, hp⟩ | ⟨i, hi, hp⟩ | ⟨i, rfl, hc, hp⟩
  · exact fun j hj => hf.dedicated j (hk j (hf.holds j hj))
  · intro j hj
    rw [hp] at hj ⊢
    rw [Pool.isAt_tryAdvisoryLock]
    rcases Pool.holds_tryAdvisoryLock hj with rfl | hj
    · exact h.owned j ho
    · exact hk j hj
  · exact hback i (fun hh => hi (h.live i hh)) hp
  · exact hback i (fun hh => ha ⟨i, hc, hh⟩) hp

/-- A Close that finds the advisory lock on the lock's connection leaks it. -/
theorem leaked_of_closesHolding (h : s.Inv) (ha : s.ClosesHolding a)
    (hs : LockState.step s a = some t) : t.pool.Leaked := by
  cases steps_of_step hs with
  | @closed l hl =>
      obtain ⟨i, hc, hi⟩ := ha
      have hlc : l.conn = some i := by simpa [conn, hl] using hc
      have hp : (s.closed l).pool = s.pool.release i := by simp only [LockState.closed, hlc]
      rw [hp]
      refine ⟨i, hi, ?_, ?_⟩
      · rw [Pool.release, Pool.isOpen_move]
        exact h.live i hi
      · simp [Pool.release, Pool.not_isAt_move]
  | _ => exact ha.elim

/-! ## Runs -/

variable {tr : List (LockState × LockStep)}

/-- The invariant holds in every state of a run. -/
theorem inv_of_exec (h : Exec step init tr s) : (∀ x ∈ tr, x.1.Inv) ∧ s.Inv :=
  h.invariant (P := fun _ _ => True) (fun _ _ _ hi _ hs => hi.step hs) inv_init fun _ _ => trivial

/-- **The lock leaks only through Close.** In a run no connection in circulation ever holds the
advisory lock exactly if no Close finds it on the lock's own connection. -/
theorem never_leaked_iff (h : Exec step init tr s) :
    ((∀ x ∈ tr, ¬ x.1.pool.Leaked) ∧ ¬ s.pool.Leaked) ↔ ∀ x ∈ tr, ¬ x.1.ClosesHolding x.2 := by
  constructor
  · rintro ⟨hall, hlast⟩ x hx hc
    obtain ⟨u, hu⟩ := h.step_of_mem hx
    have hleak := leaked_of_closesHolding ((inv_of_exec h).1 x hx) hc hu
    rcases h.next_of_mem hx hu with rfl | ⟨y, hy, rfl⟩
    · exact hlast hleak
    · exact hall y hy hleak
  · intro hP
    have hrun := h.invariant (I := fun s => s.Inv ∧ s.Kept) (P := fun s a => ¬ s.ClosesHolding a)
      (fun _ _ _ hi ha hs => ⟨hi.1.step hs, hi.2.step hi.1 ha hs⟩) ⟨inv_init, kept_init⟩ hP
    exact ⟨fun x hx => (hrun.1 x hx).2.not_leaked, hrun.2.2.not_leaked⟩

/-- The run of a process that is elected and then shut down. -/
def closing : List (LockState × LockStep) × LockState :=
  runOf step init [.newPGAdvisoryLock .opened, .tryAcquire, .query .scanned, .finish, .close] rfl

/-- A run without a Close of a held lock: the query fails after the server has taken the lock. -/
def failing : List (LockState × LockStep) × LockState :=
  runOf step init [.newPGAdvisoryLock .opened, .tryAcquire, .query (.failed (.new "timeout") true),
    .hardClose, .release, .finish, .close] rfl

/-- The exact condition, in the run that fails it. -/
theorem never_leaked_iff_failing :
    Exec step init failing.1 failing.2 ∧
      (((∀ x ∈ failing.1, ¬ x.1.pool.Leaked) ∧ ¬ failing.2.pool.Leaked) ↔
        ∀ x ∈ failing.1, ¬ x.1.ClosesHolding x.2) :=
  ⟨exec_runOf rfl, never_leaked_iff (exec_runOf rfl)⟩

/-- After the Close of an elected process an idle connection still holds the advisory lock. -/
theorem leaked_after_close :
    Exec step init closing.1 closing.2 ∧ closing.2.pool = ⟨[⟨.idle, true⟩], some (.conn 0)⟩ ∧
      closing.2.pool.Leaked :=
  ⟨exec_runOf rfl, rfl, 0, rfl, rfl, by decide⟩

end LockState

end OctoConv.Reconciler
