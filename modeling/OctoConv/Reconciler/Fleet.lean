import Mathlib.Logic.Function.Basic
import OctoConv.Reconciler.AdvisoryLock

/-!
# The fleet of sweepers

Every replica of the webhook worker runs a sweeper, and at each tick it sweeps only if TryAcquire
returns true. A fleet is any number of such replicas on one server: their steps interleave, their
connections are lost, their processes die and start again. What a replica sees of the fleet is the
state of its own lock, with every other replica as the other process of `LockState`.

A sweep is not stopped when its session is lost, so two replicas can sweep at once after that, but not
before.

Source: `internal/reconciler/reconciler.go` RunWithLock.

## Main results

* `replica_runs` — every state in which a replica sees its lock is one that a run of that lock reaches.
* `sweeps_exclusive` — no two replicas sweep on sessions that are open, and none at all overlap in a run
  in which no session is lost while its replica sweeps.
-/

namespace OctoConv.Reconciler

open Conc

/-! ## Elections, as one process sees them -/

namespace Pool

/-- The connection is closed, for good. -/
def Dead (p : Pool) (i : Nat) : Prop := ∃ c, p.conns[i]? = some c ∧ c.isOpen = false

variable {p p' : Pool} {i j : Nat} {place : Place}

/-- A closed connection is not open. -/
theorem Dead.not_open (h : p.Dead i) : p.isOpen i = false := by
  obtain ⟨c, hc, hclosed⟩ := h
  rw [isOpen, hc, Option.any_some, hclosed]

/-- Moving another connection opens no closed one. -/
theorem Dead.move (h : p.Dead i) : (p.move j place).Dead i := by
  obtain ⟨c, hc, hclosed⟩ := h
  rw [Dead, Pool.move, List.getElem?_modify, hc]
  refine ⟨_, rfl, ?_⟩
  split <;> exact hclosed

/-- Opening a new connection reopens no closed one. -/
theorem Dead.open' (h : p.Dead i) : (p.open' place).Dead i := by
  obtain ⟨c, hc, hclosed⟩ := h
  exact ⟨c, by rw [Pool.open', List.getElem?_append_left (List.getElem?_eq_some_iff.mp hc).1, hc],
    hclosed⟩

/-- Closing connections reopens none. -/
theorem Dead.close (h : p.Dead i) : (p.close j).Dead i := by
  obtain ⟨c, hc, hclosed⟩ := h
  rw [Dead, Pool.close, List.getElem?_modify, hc]
  refine ⟨_, rfl, ?_⟩
  split
  · rfl
  · exact hclosed

/-- What is closed is closed for good. -/
theorem dead_close (h : p.isOpen i) : (p.close i).Dead i := by
  rcases hi : p.conns[i]? with _ | c
  · simp [isOpen, hi] at h
  · exact ⟨{ c with isOpen := false }, by simp [Pool.close, hi], rfl⟩

/-- An Acquire leaves the advisory lock where it is. -/
theorem acquire_holder {o : Acquired} {r : Except GoError Nat} (h : p.acquire place o = some (r, p')) :
    p'.holder = p.holder ∧ ∀ i, p.Dead i → p'.Dead i := by
  rcases o with err | j | _
  · obtain ⟨-, rfl⟩ := Prod.mk.inj (Option.some.inj h)
    exact ⟨rfl, fun _ hi => hi⟩
  · obtain ⟨-, hp⟩ := Option.ite_none_right_eq_some.mp h
    obtain ⟨-, rfl⟩ := Prod.mk.inj (Option.some.inj hp)
    exact ⟨rfl, fun _ hi => hi.move⟩
  · obtain ⟨-, rfl⟩ := Prod.mk.inj (Option.some.inj h)
    exact ⟨rfl, fun _ hi => hi.open'⟩

/-- A query that is not granted changes nothing, and one that is granted finds nobody else. -/
theorem tryAdvisoryLock_holds (h : p.Holds i) : (p.tryAdvisoryLock j).2.Holds i := by
  unfold tryAdvisoryLock
  split
  · rename_i hfree
    rcases hfree with hnone | hself
    · exact nomatch h.symm.trans hnone
    · exact h.symm.trans hself ▸ rfl
  · exact h

/-- Asking for the lock reopens no connection. -/
theorem tryAdvisoryLock_dead (h : p.Dead i) : (p.tryAdvisoryLock j).2.Dead i := by
  rw [Dead, tryAdvisoryLock_conns]
  exact h

/-- No query gets the lock from another process, or gives it to one. -/
theorem tryAdvisoryLock_elsewhere :
    (p.tryAdvisoryLock j).2.holder = some .elsewhere ↔ p.holder = some .elsewhere := by
  unfold tryAdvisoryLock
  split
  · rename_i hfree
    rcases hfree with hfree | hfree <;> simp [hfree]
  · rfl

/-- Closing a connection of this process frees no lock that is held elsewhere. -/
theorem close_elsewhere : (p.close j).holder = some .elsewhere ↔ p.holder = some .elsewhere := by
  unfold close
  dsimp only
  split
  · rename_i hheld
    simp [hheld]
  · rfl

end Pool

namespace LockState

variable {s t : LockState} {a : LockStep} {i j : Nat}

/-- Making a lock opens a connection at most: the holder stays, and what is closed stays closed. -/
theorem made_holder {o : Acquired} (hs : s.made o = some t) :
    t.pool.holder = s.pool.holder ∧ ∀ i, s.pool.Dead i → t.pool.Dead i := by
  unfold made at hs
  split at hs
  · cases hs
  all_goals
    rename_i hacq
    obtain rfl := Option.some.inj hs
    exact Pool.acquire_holder hacq

/-- So does acquiring a connection for the lock anew. -/
theorem reacquired_holder {l : PGAdvisoryLock} {o : Acquired} (hs : s.reacquired l o = some t) :
    t.pool.holder = s.pool.holder ∧ ∀ i, s.pool.Dead i → t.pool.Dead i := by
  unfold reacquired at hs
  split at hs
  · cases hs
  all_goals
    rename_i hacq
    obtain rfl := Option.some.inj hs
    exact Pool.acquire_holder hacq

/-- What a step does to the session that holds the lock: the lock asks on its connection, a
connection is closed, another process takes or frees it, and nothing else does anything. -/
theorem holder_step (hs : step s a = some t) :
    (t.pool.holder = s.pool.holder ∧ ∀ i, s.pool.Dead i → t.pool.Dead i) ∨
      (∃ j, t.pool = (s.pool.tryAdvisoryLock j).2) ∨
      (∃ j, (a = .hardClose ∨ a = .others (.lose j)) ∧ t.pool = s.pool.close j) ∨
      (t.pool.conns = s.pool.conns ∧
        (a = .others .takenElsewhere ∧ s.pool.holder = none ∧ t.pool.holder = some .elsewhere ∨
          a = .others .freedElsewhere ∧ s.pool.holder = some .elsewhere ∧ t.pool.holder = none)) := by
  rcases steps_of_step hs with ⟨-, ht⟩ | - | ht | ⟨-, ht⟩ | - | - | - | @⟨l, -⟩ | hp
  · exact .inl (made_holder ht)
  · exact .inl ⟨rfl, fun _ h => h⟩
  · exact .inl (reacquired_holder ht)
  · rcases pool_queried ht with hp | ⟨-, hp⟩
    · exact .inl (hp ▸ ⟨rfl, fun _ h => h⟩)
    · exact .inr (.inl ⟨_, hp⟩)
  · exact .inr (.inr (.inl ⟨_, .inl rfl, rfl⟩))
  · exact .inl ⟨rfl, fun _ h => h.move⟩
  · exact .inl ⟨rfl, fun _ h => h⟩
  · unfold closed
    rcases l.conn with _ | i
    · exact .inl ⟨rfl, fun _ h => h⟩
    · exact .inl ⟨rfl, fun _ h => h.move⟩
  · rename_i e p
    rcases e with o | i | i | - | -
    · obtain ⟨x, hx, rfl⟩ := Option.map_eq_some_iff.mp hp
      exact .inl (Pool.acquire_holder hx)
    · obtain ⟨-, hp⟩ := Option.ite_none_right_eq_some.mp hp
      exact .inl (Option.some.inj hp ▸ ⟨rfl, fun _ h => h.move⟩)
    · exact .inr (.inr (.inl ⟨i, .inr rfl, (Option.some.inj hp).symm⟩))
    · obtain ⟨hnone, hp⟩ := Option.ite_none_right_eq_some.mp hp
      obtain rfl := Option.some.inj hp
      exact .inr (.inr (.inr ⟨rfl, .inl ⟨rfl, hnone, rfl⟩⟩))
    · obtain ⟨helse, hp⟩ := Option.ite_none_right_eq_some.mp hp
      obtain rfl := Option.some.inj hp
      exact .inr (.inr (.inr ⟨rfl, .inr ⟨rfl, helse, rfl⟩⟩))

/-- **The lock stays with its session** until the connection is closed. -/
theorem held_step (h : s.Inv) (hs : step s a = some t) (hi : s.pool.Holds i) :
    t.pool.Holds i ∨ t.pool.Dead i ∧ (a = .hardClose ∨ a = .others (.lose i)) := by
  rcases holder_step hs with ⟨hsame, -⟩ | ⟨j, hp⟩ | ⟨j, ha, hp⟩ | ⟨-, hother⟩
  · exact .inl (hsame.trans hi)
  · exact .inl (hp ▸ Pool.tryAdvisoryLock_holds hi)
  · by_cases hji : j = i
    · subst hji
      exact .inr ⟨hp ▸ Pool.dead_close (h.live j hi), ha⟩
    · exact .inl (hp ▸ Pool.holds_close.mpr ⟨Ne.symm hji, hi⟩)
  · rcases hother with ⟨-, hnone, -⟩ | ⟨-, helse, -⟩
    · cases hi.symm.trans hnone
    · cases hi.symm.trans helse

/-- A closed connection stays closed in every step of the lock. -/
theorem dead_step (hs : step s a = some t) (hi : s.pool.Dead i) : t.pool.Dead i := by
  rcases holder_step hs with ⟨-, hdead⟩ | ⟨j, hp⟩ | ⟨j, -, hp⟩ | ⟨hp, -⟩
  · exact hdead i hi
  · exact hp ▸ Pool.tryAdvisoryLock_dead hi
  · exact hp ▸ hi.close
  · rwa [Pool.Dead, hp]

/-- The lock is at another process as long as that process keeps it. -/
theorem elsewhere_step (hs : step s a = some t) (htake : a ≠ .others .takenElsewhere)
    (hfree : a ≠ .others .freedElsewhere) :
    t.pool.holder = some .elsewhere ↔ s.pool.holder = some .elsewhere := by
  rcases holder_step hs with ⟨hsame, -⟩ | ⟨j, hp⟩ | ⟨j, -, hp⟩ | ⟨-, hother⟩
  · rw [hsame]
  · rw [hp, Pool.tryAdvisoryLock_elsewhere]
  · rw [hp, Pool.close_elsewhere]
  · rcases hother with ⟨htaken, -⟩ | ⟨hfreed, -⟩
    · exact absurd htaken htake
    · exact absurd hfreed hfree

/-- The session holds the lock, or has lost it with its connection. -/
def HeldOrDead (s : LockState) (i : Nat) : Prop := s.pool.Holds i ∨ s.pool.Dead i

/-- A connection that holds the lock keeps it until it is closed. -/
theorem HeldOrDead.step (h : s.Inv) (hs : LockState.step s a = some t) (hi : s.HeldOrDead i) :
    t.HeldOrDead i := by
  rcases hi with hi | hi
  · exact (held_step h hs hi).imp id And.left
  · exact .inr (dead_step hs hi)

/-- A TryAcquire that was granted the lock was granted it on the lock's own connection. -/
structure Elected (s : LockState) : Prop where
  asks : ∀ i, s.call = some (.query i) → s.conn = some i
  granted : s.call = some (.returned (.ok true)) → ∃ i, s.conn = some i ∧ s.HeldOrDead i

/-- At the start nobody has been elected. -/
theorem elected_init : init.Elected := ⟨fun _ h => (by cases h), fun h => (by cases h)⟩

/-- Nothing is asked or granted in a call that is elsewhere. -/
theorem elected_of_call (hask : ∀ i, s.call ≠ some (.query i))
    (hgrant : s.call ≠ some (.returned (.ok true))) : s.Elected :=
  ⟨fun i hi => absurd hi (hask i), fun h => absurd h hgrant⟩

/-- Entering TryAcquire grants nothing yet. -/
theorem enter_ne_granted {l : PGAdvisoryLock} : enter l ≠ .returned (.ok true) := by
  unfold enter
  split
  · simp
  · split <;> simp

/-- Entering TryAcquire keeps what an election needs: the call has not returned. -/
theorem Elected.entered {l : PGAdvisoryLock} (hl : s.lock = some l) :
    ({ s with call := some (enter l) } : LockState).Elected where
  asks i hi := by
    rw [conn, hl]
    exact enter_owns (Option.some.inj hi)
  granted h := absurd (Option.some.inj h) enter_ne_granted

/-- Neither does acquiring a connection elect anybody. -/
theorem Elected.reacquired {l : PGAdvisoryLock} {o : Acquired} (hs : s.reacquired l o = some t) :
    t.Elected := by
  unfold LockState.reacquired at hs
  split at hs
  · cases hs
  · obtain rfl := Option.some.inj hs
    exact elected_of_call (by simp) (by simp)
  · obtain rfl := Option.some.inj hs
    exact ⟨fun _ hi => TryPhase.query.inj (Option.some.inj hi) ▸ rfl, fun h => by cases h⟩

/-- Only a query that was answered with true elects, on the connection that asked. -/
theorem Elected.queried (h : s.Elected) {l : PGAdvisoryLock} {o : Queried}
    (hc : s.call = some (.query i))
    (hs : s.queried l i o = some t) : t.Elected := by
  rcases o with _ | ⟨err, ran⟩
  · obtain ⟨-, ht⟩ := Option.ite_none_right_eq_some.mp hs
    obtain rfl := Option.some.inj ht
    refine ⟨fun _ hi => (by cases hi), fun hg => ⟨i, h.asks i hc, .inl ?_⟩⟩
    have htrue := Except.ok.inj (TryPhase.returned.inj (Option.some.inj hg))
    exact Pool.tryAdvisoryLock_true_iff.mp htrue
  · obtain rfl := Option.some.inj hs
    exact elected_of_call (by simp) (by simp)

/-- Every step of the lock keeps what an election needs. -/
theorem Elected.step (he : s.Elected) (h : s.Inv) (hs : LockState.step s a = some t) : t.Elected := by
  rcases steps_of_step hs with ⟨hc, ht⟩ | hl | ht | ⟨hc, ht⟩ | - | - | - | - | hp
  · have hcall : t.call = none := by
      unfold LockState.made at ht
      split at ht
      · cases ht
      all_goals
        obtain rfl := Option.some.inj ht
        exact hc
    exact elected_of_call (by simp [hcall]) (by simp [hcall])
  · exact .entered hl
  · exact .reacquired ht
  · exact he.queried hc ht
  · exact elected_of_call (by simp) (by simp)
  · exact elected_of_call (by simp) (by simp)
  · exact elected_of_call (by simp) (by simp)
  · exact elected_of_call (by simp [closed]) (by simp [closed])
  · refine ⟨he.asks, fun hg => ?_⟩
    obtain ⟨i, hconn, hi⟩ := he.granted hg
    exact ⟨i, hconn, hi.step h hs⟩

/-- The connection on which a TryAcquire that is about to return has been granted the lock. -/
def elected (s : LockState) : Option Nat :=
  match s.call with
  | some (.returned (.ok true)) => s.conn
  | _ => none

/-- An election is a call that has returned true, on the connection of the lock. -/
theorem elected_eq (h : s.elected = some i) :
    s.call = some (.returned (.ok true)) ∧ s.conn = some i := by
  unfold elected at h
  split at h
  · rename_i hc
    exact ⟨hc, h⟩
  · cases h

/-- The connection on which a process was elected holds the lock, or has been closed since. -/
theorem Elected.heldOrDead (he : s.Elected) (h : s.elected = some i) : s.HeldOrDead i := by
  obtain ⟨hc, hconn⟩ := elected_eq h
  obtain ⟨j, hj, hheld⟩ := he.granted hc
  obtain rfl := Option.some.inj (hconn.symm.trans hj)
  exact hheld

/-- When the query elects, its connection holds the lock. -/
theorem queried_elected {l : PGAdvisoryLock} {o : Queried} (he : s.Elected)
    (hc : s.call = some (.query j)) (hs : s.queried l j o = some t) (h : t.elected = some i) :
    t.pool.Holds i := by
  rcases o with _ | ⟨err, ran⟩
  · obtain ⟨-, ht⟩ := Option.ite_none_right_eq_some.mp hs
    obtain rfl := Option.some.inj ht
    obtain ⟨hg, hconn⟩ := elected_eq h
    obtain rfl : j = i := Option.some.inj ((he.asks j hc).symm.trans hconn)
    exact Pool.tryAdvisoryLock_true_iff.mp (Except.ok.inj (TryPhase.returned.inj (Option.some.inj hg)))
  · obtain rfl := Option.some.inj hs
    cases (elected_eq h).1

/-- Making the lock does not touch the call. -/
theorem made_call {o : Acquired} (hs : s.made o = some t) : t.call = s.call := by
  unfold made at hs
  split at hs
  · cases hs
  all_goals
    obtain rfl := Option.some.inj hs
    rfl

/-- Only a TryAcquire starts a call. -/
theorem call_step (hs : step s a = some t) (hc : s.call = none) (ha : a ≠ .tryAcquire) :
    t.call = none := by
  rcases a with o | _ | o | o | _ | _ | _ | _ | e
  · rcases hl : s.lock with _ | l
    · simp only [step, hc, hl] at hs
      rw [made_call hs, hc]
    · simp [step, hl] at hs
  · exact absurd rfl ha
  · rcases hl : s.lock with _ | l <;> simp [step, hc, hl] at hs
  · rcases hl : s.lock with _ | l <;> simp [step, hc, hl] at hs
  · simp [step, hc] at hs
  · simp [step, hc] at hs
  · simp [step, hc] at hs
  · rcases hl : s.lock with _ | l
    · simp [step, hl] at hs
    · simp only [step, hc, hl, Option.some.injEq] at hs
      rw [← hs, closed]
  · obtain ⟨p, -, rfl⟩ := Option.map_eq_some_iff.mp hs
    exact hc

/-- After `finish` no call is under way. -/
theorem finish_call (hs : step s .finish = some t) : t.call = none := by
  rcases steps_of_step hs
  rfl

/-- A TryAcquire is granted the lock by its query, and by nothing else. -/
theorem elected_step (he : s.Elected) (hs : step s a = some t) (h : t.elected = some i) :
    s.elected = some i ∨ t.pool.Holds i := by
  obtain ⟨hcall, hconn⟩ := elected_eq h
  rcases steps_of_step hs with ⟨hc, ht⟩ | hl | ht | ⟨hc, ht⟩ | - | - | - | - | hp
  · rw [made_call ht, hc] at hcall
    cases hcall
  · exact absurd (Option.some.inj hcall) enter_ne_granted
  · unfold LockState.reacquired at ht
    split at ht
    · cases ht
    all_goals
      obtain rfl := Option.some.inj ht
      cases hcall
  · exact .inr (queried_elected he hc ht h)
  · cases hcall
  · cases hcall
  · cases hcall
  · cases hcall
  · exact .inl h

end LockState

/-! ## The fleet -/

/-- A process with a sweeper. -/
structure Replica where
  conns : List PgConn
  lock : Option PGAdvisoryLock
  call : Option TryPhase
  /-- The session on which the sweep that is going on was granted the lock. -/
  sweeping : Option Nat

/-- A process that has just started. -/
def Replica.fresh : Replica := ⟨[], none, none, none⟩

/-- The replicas, by number, and which session of which replica holds the advisory lock. -/
structure Fleet where
  holder : Option (Nat × Nat)
  replicas : Nat → Replica

/-- One step of the fleet. -/
inductive FleetAct
  /-- A step of the lock of one replica, or of the other users of its pool. -/
  | own (n : Nat) (a : LockStep)
  /-- A sweep ends. -/
  | swept (n : Nat)
  /-- A process dies, and the server closes its sessions. -/
  | crash (n : Nat)
deriving DecidableEq, Repr

/-- The replica that the step is a step of. -/
def FleetAct.replica : FleetAct → Nat
  | .own n _ => n
  | .swept n => n
  | .crash n => n

namespace Fleet

/-- Before any replica has started. -/
def init : Fleet := ⟨none, fun _ => .fresh⟩

/-- The holder of the lock, as the replica sees it. -/
def seenBy (n : Nat) : Option (Nat × Nat) → Option Session
  | none => none
  | some (m, i) => if m = n then some (.conn i) else some .elsewhere

/-- The lock of the replica. -/
def view (s : Fleet) (n : Nat) : LockState :=
  ⟨⟨(s.replicas n).conns, seenBy n s.holder⟩, (s.replicas n).lock, (s.replicas n).call⟩

/-- The holder of the lock after a step of the replica. -/
def heldAfter (s : Fleet) (n : Nat) : Option Session → Option (Nat × Nat)
  | none => none
  | some (.conn i) => some (n, i)
  | some .elsewhere => s.holder

/-- The replica after a step of its lock: a TryAcquire that returns true starts a sweep, and the tick of
any other is skipped.

Source: `reconciler.go` RunWithLock -/
def ownAfter (r : Replica) (s : LockState) (a : LockStep) (t : LockState) : Replica where
  conns := t.pool.conns
  lock := t.lock
  call := t.call
  sweeping := if a = .finish then s.elected else r.sweeping

/-- The step is one of the replica's own, and its sweeper calls TryAcquire only between two sweeps. -/
def may (r : Replica) : LockStep → Bool
  | .tryAcquire => r.sweeping = none
  | .others .takenElsewhere | .others .freedElsewhere => false
  | _ => true

/-- One step. -/
def step (s : Fleet) : FleetAct → Option Fleet
  | .own n a =>
      if may (s.replicas n) a then
        ((s.view n).step a).map fun t =>
          ⟨s.heldAfter n t.pool.holder,
            Function.update s.replicas n (ownAfter (s.replicas n) (s.view n) a t)⟩
      else none
  | .swept n =>
      if (s.replicas n).sweeping ≠ none then
        some { s with
          replicas := Function.update s.replicas n { s.replicas n with sweeping := none } }
      else none
  | .crash n => some {
      holder := s.holder.filter fun h => h.1 ≠ n
      replicas := Function.update s.replicas n .fresh }

variable {s t : Fleet} {a : LockStep} {n m : Nat}

/-! ## The fleet, as one replica sees it -/

/-- Steps of the lock's model, one after another. -/
def Runs (x y : LockState) : Prop := ∃ tr, Exec LockState.step x tr y

/-- No step is a run. -/
theorem Runs.refl (x : LockState) : Runs x x := ⟨[], .nil x⟩

/-- A run can be extended by a step. -/
theorem Runs.snoc {x y z : LockState} {a : LockStep} (h : Runs x y) (hs : y.step a = some z) :
    Runs x z := by
  obtain ⟨tr, htr⟩ := h
  exact ⟨tr ++ [(y, a)], htr.snoc hs⟩

/-- Runs compose. -/
theorem Runs.trans {x y z : LockState} (h : Runs x y) (h' : Runs y z) : Runs x z := by
  obtain ⟨tr, htr⟩ := h
  obtain ⟨tr', htr'⟩ := h'
  exact ⟨tr ++ tr', htr.append htr'⟩

/-- The view of a fleet that is written out by its parts. -/
theorem view_mk {o : Option (Nat × Nat)} {r : Nat → Replica} :
    view ⟨o, r⟩ n = ⟨⟨(r n).conns, seenBy n o⟩, (r n).lock, (r n).call⟩ := rfl

/-- A replica sees its own connection as the holder. -/
theorem seenBy_self {i : Nat} : seenBy n (some (n, i)) = some (.conn i) := if_pos rfl

/-- Every other replica sees the lock as held elsewhere. -/
theorem seenBy_ne {i : Nat} (h : n ≠ m) : seenBy m (some (n, i)) = some .elsewhere := if_neg h

/-- A replica sees its connection as the holder exactly if it is. -/
theorem seenBy_conn {o : Option (Nat × Nat)} {i : Nat} :
    seenBy n o = some (.conn i) ↔ o = some (n, i) := by
  rcases o with _ | ⟨m, j⟩
  · simp [seenBy]
  · by_cases hm : m = n <;> simp [seenBy, hm]

/-- A step of the replica is a step of its lock, in which nobody else has a part. -/
theorem step_own {a : LockStep} (hs : step s (.own n a) = some t) :
    ∃ x, may (s.replicas n) a = true ∧ (s.view n).step a = some x ∧
      t = ⟨s.heldAfter n x.pool.holder,
        Function.update s.replicas n (ownAfter (s.replicas n) (s.view n) a x)⟩ := by
  obtain ⟨hmay, ht⟩ := Option.ite_none_right_eq_some.mp hs
  obtain ⟨x, hx, rfl⟩ := Option.map_eq_some_iff.mp ht
  exact ⟨x, hmay, hx, rfl⟩

/-- A step of a replica neither takes nor frees a lock that another one holds. -/
theorem elsewhere_own {a : LockStep} {x : LockState} (hmay : may (s.replicas n) a)
    (hx : (s.view n).step a = some x) :
    x.pool.holder = some .elsewhere ↔ seenBy n s.holder = some .elsewhere := by
  apply LockState.elsewhere_step hx
  · rintro rfl
    cases hmay
  · rintro rfl
    cases hmay

/-- Its own step leaves the replica with what its lock has made of it. -/
theorem view_own {a : LockStep} {x : LockState} (hmay : may (s.replicas n) a)
    (hx : (s.view n).step a = some x) :
    view ⟨s.heldAfter n x.pool.holder,
      Function.update s.replicas n (ownAfter (s.replicas n) (s.view n) a x)⟩ n = x := by
  have hholder : seenBy n (s.heldAfter n x.pool.holder) = x.pool.holder := by
    rcases ho : x.pool.holder with _ | i | _
    · rfl
    · exact seenBy_self
    · exact (elsewhere_own hmay hx).mp ho
  rw [view_mk, hholder, Function.update_self]
  rfl

/-- Other processes take the lock, free it, or leave it where it is. -/
theorem runs_others {x : LockState} {o : Option Session}
    (ho : o = x.pool.holder ∨ (∀ i, ¬ x.pool.Holds i) ∧ ∀ i, o ≠ some (.conn i)) :
    Runs x { x with pool := { x.pool with holder := o } } := by
  rcases ho with rfl | ⟨hbefore, hafter⟩
  · exact .refl x
  have htake : ∀ y : LockState, y.pool.holder = none →
      Runs y { y with pool := { y.pool with holder := some .elsewhere } } := by
    intro y hy
    refine (Runs.refl y).snoc (a := .others .takenElsewhere) ?_
    rw [LockState.step, Pool.others, if_pos hy, Option.map_some]
  have hfree : ∀ y : LockState, y.pool.holder = some .elsewhere →
      Runs y { y with pool := { y.pool with holder := none } } := by
    intro y hy
    refine (Runs.refl y).snoc (a := .others .freedElsewhere) ?_
    rw [LockState.step, Pool.others, if_pos hy, Option.map_some]
  rcases hx : x.pool.holder with _ | i | _
  · rcases o with _ | i | _
    · rw [← hx]
      exact .refl x
    · exact absurd rfl (hafter i)
    · exact htake x hx
  · exact absurd hx (hbefore i)
  · rcases o with _ | i | _
    · exact hfree x hx
    · exact absurd rfl (hafter i)
    · rw [← hx]
      exact .refl x

/-- No session of the replica holds the lock. -/
def NotOurs (m : Nat) (o : Option (Nat × Nat)) : Prop := ∀ i, o ≠ some (m, i)

/-- What is not this replica's is seen on none of its connections. -/
theorem NotOurs.seenBy {o : Option (Nat × Nat)} (h : NotOurs m o) (i : Nat) :
    seenBy m o ≠ some (.conn i) :=
  fun ho => h i (seenBy_conn.mp ho)

/-- For a replica that does nothing the lock is taken elsewhere, freed elsewhere, or stays where it
is. -/
theorem runs_idle {o : Option (Nat × Nat)} {r : Nat → Replica} (hr : r m = s.replicas m)
    (ho : o = s.holder ∨ NotOurs m s.holder ∧ NotOurs m o) : Runs (s.view m) (view ⟨o, r⟩ m) := by
  have hview : view ⟨o, r⟩ m =
      { s.view m with pool := { (s.view m).pool with holder := seenBy m o } } := by
    rw [view_mk, hr]
    rfl
  rw [hview]
  apply runs_others
  rcases ho with rfl | ⟨hbefore, hafter⟩
  · exact .inl rfl
  · exact .inr ⟨hbefore.seenBy, hafter.seenBy⟩

/-- Where the lock goes in a step of the replica. -/
theorem heldAfter_cases {a : LockStep} {x : LockState} (hmay : may (s.replicas n) a)
    (hx : (s.view n).step a = some x) (hne : n ≠ m) :
    s.heldAfter n x.pool.holder = s.holder ∨
      NotOurs m s.holder ∧ NotOurs m (s.heldAfter n x.pool.holder) := by
  have hours : x.pool.holder ≠ some .elsewhere → NotOurs m s.holder := by
    intro hho i hi
    refine hho ((elsewhere_own hmay hx).mpr ?_)
    rw [hi]
    exact seenBy_ne (Ne.symm hne)
  rcases ho : x.pool.holder with _ | i | _
  · exact .inr ⟨hours (by simp [ho]), nofun⟩
  · exact .inr ⟨hours (by simp [ho]), fun j hj => hne (Prod.mk.inj (Option.some.inj hj)).1⟩
  · exact .inl rfl

/-- A process that has just started has a view that its lock can begin with. -/
theorem runs_fresh {o : Option (Nat × Nat)} {r : Nat → Replica} (hr : r n = .fresh) (ho : NotOurs n o) :
    Runs .init (view ⟨o, r⟩ n) := by
  have hview : view ⟨o, r⟩ n =
      { LockState.init with pool := { LockState.init.pool with holder := seenBy n o } } := by
    rw [view_mk, hr]
    rfl
  rw [hview]
  exact runs_others (.inr ⟨nofun, ho.seenBy⟩)

/-- A crash takes the lock from its replica. -/
theorem notOurs_crash {o : Option (Nat × Nat)} : NotOurs n (o.filter fun h => h.1 ≠ n) := by
  intro i hi
  obtain ⟨-, hne⟩ := Option.filter_eq_some_iff.mp hi
  simp at hne

/-- A crash of one replica leaves the lock of any other where it is, or frees it. -/
theorem crash_cases {o : Option (Nat × Nat)} (hne : n ≠ m) :
    (o.filter fun h => h.1 ≠ n) = o ∨ NotOurs m o ∧ NotOurs m (o.filter fun h => h.1 ≠ n) := by
  rcases o with _ | ⟨k, i⟩
  · exact .inl rfl
  · by_cases hk : k = n
    · subst hk
      refine .inr ⟨fun j hj => hne (Prod.mk.inj (Option.some.inj hj)).1, fun j hj => ?_⟩
      rw [Option.filter_some, if_neg (by simp)] at hj
      cases hj
    · exact .inl (by simp [hk])

/-- What a step leaves of a replica that does nothing in it. -/
theorem idle_step {a : FleetAct} (hs : step s a = some t) (hne : a.replica ≠ m) :
    t.replicas m = s.replicas m ∧
      (t.holder = s.holder ∨ NotOurs m s.holder ∧ NotOurs m t.holder) := by
  rcases a with ⟨n, a⟩ | n | n
  · obtain ⟨x, hmay, hx, rfl⟩ := step_own hs
    exact ⟨Function.update_of_ne (Ne.symm hne) .., heldAfter_cases hmay hx hne⟩
  · obtain ⟨-, ht⟩ := Option.ite_none_right_eq_some.mp hs
    obtain rfl := Option.some.inj ht
    exact ⟨Function.update_of_ne (Ne.symm hne) .., .inl rfl⟩
  · obtain rfl := Option.some.inj hs
    exact ⟨Function.update_of_ne (Ne.symm hne) .., crash_cases hne⟩

/-- The end of a sweep is nothing that the lock takes part in. -/
theorem swept_step (hs : step s (.swept n) = some t) :
    t.view n = s.view n ∧ (t.replicas n).sweeping = none := by
  obtain ⟨-, ht⟩ := Option.ite_none_right_eq_some.mp hs
  obtain rfl := Option.some.inj ht
  have hr : Function.update s.replicas n { s.replicas n with sweeping := none } n =
      { s.replicas n with sweeping := none } := Function.update_self ..
  constructor
  · rw [view_mk, hr]
    rfl
  · exact congrArg Replica.sweeping hr

/-- A crash leaves a fresh replica, whose lock starts over. -/
theorem crash_step (hs : step s (.crash n) = some t) :
    t.replicas n = .fresh ∧ Runs .init (t.view n) := by
  obtain rfl := Option.some.inj hs
  exact ⟨Function.update_self .., runs_fresh (Function.update_self ..) notOurs_crash⟩

/-- **The step lemma of the simulation.** In one step of the fleet the lock of a replica takes steps
of its own model, unless its process dies: then it starts over. -/
theorem runs_step {a : FleetAct} (hs : step s a = some t) (m : Nat) :
    Runs (s.view m) (t.view m) ∨ Runs .init (t.view m) := by
  by_cases hm : a.replica = m
  · subst hm
    rcases a with ⟨n, a⟩ | n | n
    · obtain ⟨x, hmay, hx, rfl⟩ := step_own hs
      rw [FleetAct.replica, view_own hmay hx]
      exact .inl ((Runs.refl _).snoc hx)
    · rw [FleetAct.replica, (swept_step hs).1]
      exact .inl (.refl _)
    · exact .inr (crash_step hs).2
  · obtain ⟨hr, ho⟩ := idle_step hs hm
    exact .inl (runs_idle hr ho)

/-- **Each replica runs its lock.** Whatever the fleet does, the state in which one replica sees its
lock is reached by a run of the model of that lock, from the beginning or, after a crash, from its last
start: so every invariant of the lock holds of it. A crash starts the run over, so that the views of a
replica need not form a single one. -/
theorem replica_runs {tr : List (Fleet × FleetAct)} (h : Exec step init tr s) (n : Nat) :
    Runs .init (s.view n) := by
  refine (h.invariant (I := fun s => ∀ n, Runs .init (s.view n)) (P := fun _ _ => True)
    (fun s a t hI _ hs m => ?_) (fun n => .refl _) fun _ _ => trivial).2 n
  rcases runs_step hs m with hruns | hruns
  · exact (hI m).trans hruns
  · exact hruns

/-- What the lock keeps in its own runs. -/
theorem Runs.keeps {x y : LockState} (hr : Runs x y) (h : x.Inv ∧ x.Elected) : y.Inv ∧ y.Elected := by
  obtain ⟨_, htr⟩ := hr
  exact (htr.invariant (I := fun s => s.Inv ∧ s.Elected) (P := fun _ _ => True)
    (fun _ _ _ hi _ hs => ⟨hi.1.step hs, hi.2.step hi.1 hs⟩) h fun _ _ => trivial).2

/-- What the lock keeps in its own runs holds of what every replica sees. -/
def Views (s : Fleet) : Prop := ∀ n, (s.view n).Inv ∧ (s.view n).Elected

/-- At the start every view is one of an idle lock. -/
theorem views_init : init.Views := fun _ => ⟨LockState.inv_init, LockState.elected_init⟩

/-- What the lock keeps in its own runs, the fleet keeps in every view. -/
theorem Views.step {a : FleetAct} (h : s.Views) (hs : Fleet.step s a = some t) : t.Views := by
  intro n
  rcases runs_step hs n with hruns | hruns
  · exact hruns.keeps (h n)
  · exact hruns.keeps (views_init n)

/-! ## Sweeps -/

/-- The session has been granted the lock for a sweep that is going on, or about to begin. -/
def Granted (s : Fleet) (n i : Nat) : Prop :=
  (s.replicas n).sweeping = some i ∨ (s.view n).elected = some i

/-- The step is the loss of a session that has been granted the lock for a sweep. -/
def LosesSession (s : Fleet) : FleetAct → Prop
  | .own n (.others (.lose i)) => s.Granted n i
  | _ => False

/-- What holds of the sweeps in every run: nothing else is asked of the lock meanwhile, and the
session has the lock or is lost. -/
structure Sweeps (s : Fleet) : Prop where
  between : ∀ n, (s.replicas n).sweeping ≠ none → (s.view n).call = none
  held : ∀ n i, (s.replicas n).sweeping = some i → (s.view n).HeldOrDead i

/-- The sessions of the sweeps have the lock. -/
def Kept (s : Fleet) : Prop := ∀ n i, s.Granted n i → (s.view n).pool.Holds i

/-- At the start nobody sweeps. -/
theorem sweeps_init : init.Sweeps := ⟨fun _ h => absurd rfl h, fun _ _ h => by cases h⟩

/-- At the start no session has been lost. -/
theorem kept_init : init.Kept := by
  rintro n i (h | h) <;> cases h

/-- A run of the lock keeps a session that holds it, or closes it. -/
theorem Runs.heldOrDead {x y : LockState} {i : Nat} (hr : Runs x y) (h : x.Inv) (hi : x.HeldOrDead i) :
    y.HeldOrDead i := by
  obtain ⟨_, htr⟩ := hr
  exact (htr.invariant (I := fun s => s.Inv ∧ s.HeldOrDead i) (P := fun _ _ => True)
    (fun _ _ _ hi _ hs => ⟨hi.1.step hs, hi.2.step hi.1 hs⟩) ⟨h, hi⟩ fun _ _ => trivial).2.2

/-- A sweep begins only where a TryAcquire returns true. -/
theorem granted_own {a : LockStep} {i : Nat} {x : LockState}
    (h : (ownAfter (s.replicas n) (s.view n) a x).sweeping = some i) : s.Granted n i := by
  unfold ownAfter at h
  dsimp only at h
  split at h
  · exact .inr h
  · exact .inl h

/-- A replica calls TryAcquire between two sweeps, and the last one has returned when it sweeps. -/
theorem between_own {a : LockStep} {x : LockState} (h : s.Sweeps) (hmay : may (s.replicas n) a)
    (hx : (s.view n).step a = some x)
    (hsw : (ownAfter (s.replicas n) (s.view n) a x).sweeping ≠ none) : x.call = none := by
  unfold ownAfter at hsw
  dsimp only at hsw
  split at hsw
  · rename_i hfin
    subst hfin
    exact LockState.finish_call hx
  · refine LockState.call_step hx (h.between n hsw) ?_
    rintro rfl
    exact hsw (of_decide_eq_true hmay)

/-- Every step of the fleet keeps what sweeps need. -/
theorem Sweeps.step {a : FleetAct} (h : s.Sweeps) (hviews : s.Views)
    (hs : Fleet.step s a = some t) : t.Sweeps := by
  -- the replica whose step it is
  have hown : (t.replicas a.replica).sweeping ≠ none → (t.view a.replica).call = none ∧
      ∀ i, (t.replicas a.replica).sweeping = some i → (t.view a.replica).HeldOrDead i := by
    intro hsw
    rcases a with ⟨n, a⟩ | n | n
    · obtain ⟨x, hmay, hx, rfl⟩ := step_own hs
      rw [FleetAct.replica, view_own hmay hx] at *
      dsimp only at hsw ⊢
      rw [Function.update_self] at hsw ⊢
      refine ⟨between_own h hmay hx hsw, fun i hi => ?_⟩
      obtain ⟨hinv, helected⟩ := hviews n
      rcases granted_own hi with hgr | hgr
      · exact (h.held n i hgr).step hinv hx
      · exact (helected.heldOrDead hgr).step hinv hx
    · exact absurd (swept_step hs).2 hsw
    · rw [FleetAct.replica, (crash_step hs).1] at hsw
      exact absurd rfl hsw
  constructor
  · intro n hsw
    by_cases hn : a.replica = n
    · subst hn
      exact (hown hsw).1
    · obtain ⟨hr, -⟩ := idle_step hs hn
      rw [hr] at hsw
      rw [view, hr]
      exact h.between n hsw
  · intro n i hsw
    by_cases hn : a.replica = n
    · subst hn
      exact (hown (by simp [hsw])).2 i hsw
    · obtain ⟨hr, ho⟩ := idle_step hs hn
      rw [hr] at hsw
      exact (runs_idle hr ho).heldOrDead (hviews n).1 (h.held n i hsw)

/-- The granted session of a replica that does nothing keeps the lock. -/
theorem holds_idle {i : Nat} (h : (s.view n).pool.Holds i)
    (ho : t.holder = s.holder ∨ NotOurs n s.holder ∧ NotOurs n t.holder) : (t.view n).pool.Holds i := by
  have hheld : s.holder = some (n, i) := seenBy_conn.mp h
  rcases ho with hsame | ⟨hnot, -⟩
  · exact seenBy_conn.mpr (hsame.trans hheld)
  · exact absurd hheld (hnot i)

/-- The granted session of a replica keeps the lock in the replica's own steps, unless it is lost. -/
theorem holds_own {a : LockStep} {x : LockState} {i : Nat} (hk : s.Kept) (h : s.Sweeps)
    (hinv : (s.view n).Inv) (ha : ¬ s.LosesSession (.own n a)) (hx : (s.view n).step a = some x)
    (hg : s.Granted n i) : x.pool.Holds i := by
  rcases LockState.held_step hinv hx (hk n i hg) with hheld | ⟨-, rfl | rfl⟩
  · exact hheld
  · -- no TryAcquire gives up its connection while it is granted
    have hcall : ∀ j err, (s.view n).call ≠ some (.hardClose j err) := by
      intro j err hc
      rcases hg with hg | hg
      · cases hc.symm.trans (h.between n (by simp [hg]))
      · cases hc.symm.trans (LockState.elected_eq hg).1
    rcases LockState.steps_of_step hx with - | - | - | - | hc
    exact absurd hc (hcall _ _)
  · exact absurd hg ha

/-- So does every step that loses no session of a sweep. -/
theorem Kept.step {a : FleetAct} (hk : s.Kept) (h : s.Sweeps)
    (hviews : s.Views) (ha : ¬ s.LosesSession a)
    (hs : Fleet.step s a = some t) : t.Kept := by
  intro n i hg
  by_cases hn : a.replica = n
  · subst hn
    rcases a with ⟨n, a⟩ | n | n
    · obtain ⟨x, hmay, hx, rfl⟩ := step_own hs
      rw [FleetAct.replica, Granted, view_own hmay hx] at *
      dsimp only at hg
      rw [Function.update_self] at hg
      obtain ⟨hinv, helected⟩ := hviews n
      rcases hg with hg | hg
      · exact holds_own hk h hinv ha hx (granted_own hg)
      · rcases LockState.elected_step helected hx hg with hg | hg
        · exact holds_own hk h hinv ha hx (.inr hg)
        · exact hg
    · obtain ⟨hview, hsw⟩ := swept_step hs
      rcases hg with hg | hg
      · cases hsw.symm.trans hg
      · rw [FleetAct.replica, hview] at *
        exact hk n i (.inr hg)
    · rw [FleetAct.replica, Granted, view, (crash_step hs).1] at hg
      rcases hg with hg | hg <;> cases hg
  · obtain ⟨hr, ho⟩ := idle_step hs hn
    refine holds_idle (hk n i ?_) ho
    rcases hg with hg | hg
    · exact .inl (hr ▸ hg)
    · right
      rw [view, hr] at hg
      exact hg

/-- The session that holds the lock is one. -/
theorem holds_unique {i j : Nat} (h : (s.view n).pool.Holds i) (h' : (s.view m).pool.Holds j) : n = m :=
  (Prod.mk.inj (Option.some.inj ((seenBy_conn.mp h).symm.trans (seenBy_conn.mp h')))).1

/-- A sweep on an open session holds the lock. -/
theorem Sweeps.holds {i : Nat} (h : s.Sweeps) (hsw : (s.replicas n).sweeping = some i)
    (hopen : (s.view n).pool.isOpen i) : (s.view n).pool.Holds i := by
  rcases h.held n i hsw with hheld | hdead
  · exact hheld
  · rw [hdead.not_open] at hopen
    cases hopen

/-- Two sweeps on sessions that hold the lock are one. -/
theorem Sweeps.exclusive {i j : Nat} (h : s.Sweeps) (hn : (s.replicas n).sweeping = some i)
    (hm : (s.replicas m).sweeping = some j) (hi : (s.view n).pool.isOpen i)
    (hj : (s.view m).pool.isOpen j) : n = m :=
  holds_unique (h.holds hn hi) (h.holds hm hj)

/-- Two replicas that sweep on sessions that were kept are the same. -/
theorem Kept.exclusive (hk : s.Kept) (hn : (s.replicas n).sweeping ≠ none)
    (hm : (s.replicas m).sweeping ≠ none) : n = m := by
  obtain ⟨i, hi⟩ := Option.ne_none_iff_exists'.mp hn
  obtain ⟨j, hj⟩ := Option.ne_none_iff_exists'.mp hm
  exact holds_unique (hk n i (.inl hi)) (hk m j (.inl hj))

/-- **One sweeps at a time.** No two replicas sweep on sessions that are open; and no two sweep at
all in a run in which no session is lost that has been granted the lock for a sweep. -/
theorem sweeps_exclusive {tr : List (Fleet × FleetAct)} (h : Exec step init tr s) :
    (∀ n m i j, (s.replicas n).sweeping = some i → (s.replicas m).sweeping = some j →
      (s.view n).pool.isOpen i → (s.view m).pool.isOpen j → n = m) ∧
    ((∀ x ∈ tr, ¬ x.1.LosesSession x.2) →
      ∀ n m, (s.replicas n).sweeping ≠ none → (s.replicas m).sweeping ≠ none → n = m) := by
  constructor
  · have hrun := h.invariant (I := fun s => s.Views ∧ s.Sweeps) (P := fun _ _ => True)
      (fun _ _ _ hi _ hs => ⟨hi.1.step hs, hi.2.step hi.1 hs⟩) ⟨views_init, sweeps_init⟩
      fun _ _ => trivial
    intro n m i j hn hm
    exact hrun.2.2.exclusive hn hm
  · intro hkeeps
    have hrun := h.invariant (I := fun s => (s.Views ∧ s.Sweeps) ∧ s.Kept)
      (P := fun s a => ¬ s.LosesSession a)
      (fun _ _ _ hi ha hs => ⟨⟨hi.1.1.step hs, hi.1.2.step hi.1.1 hs⟩, hi.2.step hi.1.2 hi.1.1 ha hs⟩)
      ⟨⟨views_init, sweeps_init⟩, kept_init⟩ hkeeps
    intro n m
    exact hrun.2.2.exclusive

/-- Two replicas start, one is elected and sweeps, and the other skips its tick. -/
def elections : List FleetAct :=
  [.own 0 (.newPGAdvisoryLock .opened), .own 1 (.newPGAdvisoryLock .opened), .own 0 .tryAcquire,
    .own 0 (.query .scanned), .own 0 .finish, .own 1 .tryAcquire, .own 1 (.query .scanned),
    .own 1 .finish]

/-- The sweep goes on after its session is lost, and the other replica is elected. -/
def overlap : List FleetAct :=
  elections ++ [.own 0 (.others (.lose 0)), .own 1 .tryAcquire, .own 1 (.query .scanned),
    .own 1 .finish]

/-- In the run that ends with two sweeps the session of one has been lost. -/
theorem sweeps_exclusive_overlap :
    Exec step init (runOf step init overlap rfl).1 (runOf step init overlap rfl).2 ∧
      ((runOf step init overlap rfl).2.replicas 0).sweeping = some 0 ∧
      ((runOf step init overlap rfl).2.replicas 1).sweeping = some 0 ∧
      ((runOf step init overlap rfl).2.view 0).pool.isOpen 0 = false ∧
      ∃ x ∈ (runOf step init overlap rfl).1, x.1.LosesSession x.2 := by
  have hexec : Exec step init (runOf step init overlap rfl).1 (runOf step init overlap rfl).2 :=
    exec_runOf rfl
  obtain ⟨hopen, hkeeps⟩ := sweeps_exclusive hexec
  refine ⟨hexec, rfl, rfl, rfl, ?_⟩
  by_contra hnone
  have hsame : 0 = 1 := hkeeps (fun x hx hloses => hnone ⟨x, hx, hloses⟩) 0 1
    (Option.ne_none_iff_exists'.mpr ⟨0, rfl⟩) (Option.ne_none_iff_exists'.mpr ⟨0, rfl⟩)
  cases hsame

/-- What the other replica sees of that run. -/
theorem replica_runs_overlap :
    Runs .init ((runOf step init overlap rfl).2.view 1) ∧
      ((runOf step init overlap rfl).2.view 0).pool.holder = some .elsewhere :=
  ⟨replica_runs (exec_runOf rfl) 1, rfl⟩

end Fleet

end OctoConv.Reconciler
