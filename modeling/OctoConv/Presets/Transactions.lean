import Mathlib.Data.List.MinMax
import Mathlib.Order.Nat
import OctoConv.Lib.Run
import OctoConv.Lib.Slots
import OctoConv.Presets.Repo

/-!
# The statements of the presets repository, interleaved

Any number of repository calls are in flight. Create is a SELECT and an INSERT, each a transaction of
its own; Update and Deactivate are one transaction each, which locks the active row it finds. A
statement reads what is committed when it runs. An INSERT computes its version first and takes its
place in the unique indexes later: it fails on a committed row with its version, and waits for an
uncommitted one.

Source: `internal/presets/repo.go`, `internal/db/migrations/0001_init.sql`.

## Main results

* `inv_of_exec` — in every run the versions of every preset are 1 to n.
* `activeLast_iff` — the active version of a preset is alone and the last one, and a Deactivate leaves
  none, exactly if no INSERT of Create commits over an active version.
* `two_active` — two Creates that are both checked before either inserts.
-/

namespace OctoConv.Presets.Transactions

open Conc

/-! ## Calls in flight -/

/-- A call that writes; an id is the one that the database generates for the new row. -/
inductive Request
  | create (id : UUID) (p : CreateParams)
  | update (id : UUID) (p : CreateParams)
  | deactivate (k : PresetKey)

/-- The preset that the call is about. -/
def Request.key : Request → PresetKey
  | .create _ p => p.key
  | .update _ p => p.key
  | .deactivate k => k

/-- How far a call has got. -/
inductive Phase
  | begun
  /-- Create has found no active version. -/
  | checked
  /-- The INSERT of Create has computed this version. -/
  | planned (version : Nat)
  /-- `SELECT … FOR UPDATE` has locked and returned this row. -/
  | locked (r : Row)
  /-- The UPDATE has deactivated it. -/
  | deactivated (r : Row)
  /-- A row with this version has been inserted; the UPDATE before it deactivated `old`. -/
  | inserted (old : Option Row) (version : Nat)
  /-- The call is going to return this error. -/
  | failed (err : GoError)

/-- A call in flight. -/
structure Txn where
  req : Request
  /-- `now()` of its transaction. -/
  now : Int
  phase : Phase

/-- The row that the call holds. -/
def Txn.row? (t : Txn) : Option Row :=
  match t.phase with
  | .locked r => some r
  | .deactivated r => some r
  | .inserted old _ => old
  | _ => none

/-- The row that the call inserts with this version. -/
def Txn.newRow? (t : Txn) (version : Nat) : Option Row :=
  match t.req with
  | .create id p => some (p.row id t.now version)
  | .update id p => some (p.row id t.now version)
  | .deactivate _ => none

/-- The row that the call has inserted and not committed. -/
def Txn.uncommitted? (t : Txn) : Option Row :=
  match t.phase with
  | .inserted _ version => t.newRow? version
  | _ => none

/-- The state of the database server. -/
structure State where
  now : Int
  /-- What is committed. -/
  db : PresetTable
  /-- The calls, ended ones erased. -/
  txns : List (Option Txn)

/-- No presets, no calls. -/
def State.init (now : Int) : State := ⟨now, .empty Row.id, []⟩

/-- The call with number `c`. -/
def State.txn? (s : State) (c : Nat) : Option Txn := slot? s.txns c

/-- Some call holds the row. -/
def State.locked (s : State) (id : UUID) : Bool :=
  s.txns.any fun t => t.any fun t => t.row?.any fun r => r.id = id

/-- Two rows that a unique index cannot both hold. -/
def collide (a b : Row) : Bool := a.key = b.key ∧ a.version = b.version ∨ a.id = b.id

/-- Some call has inserted a row that collides with this one and has not committed it. -/
def State.waitsFor (s : State) (r : Row) : Bool :=
  s.txns.any fun t => t.any fun t => t.uncommitted?.any fun x => collide x r

/-- What a call returns when its INSERT violates a constraint. -/
def Request.insertError (q : Request) (v : Violation) : GoError :=
  match q with
  | .create _ _ => createError v
  | _ => v.error.wrap "insert new preset version"

/-- The INSERT takes its place in the indexes: it fails, waits or is done. -/
def Txn.insert (s : State) (t : Txn) (old : Option Row) (version : Nat) : Option Txn :=
  match t.newRow? version with
  | none => none
  | some r =>
      match insertRow s.db r with
      | .error v => some { t with phase := .failed (t.req.insertError v) }
      | .ok _ => if s.waitsFor r then none else some { t with phase := .inserted old version }

/-- `SELECT … FOR UPDATE` of the active version: it returns the committed active row `pick`, once
nobody holds it. -/
def Txn.lock (s : State) (t : Txn) (pick : UUID) : Option Txn :=
  if (s.db.rows.any fun r => r.key = t.req.key ∧ r.isActive) = false then
    some { t with phase := .failed errNotFound }
  else
    match s.db.find? pick with
    | none => none
    | some r =>
        if r.key = t.req.key ∧ r.isActive ∧ s.locked r.id = false then
          some { t with phase := .locked r }
        else none

/-- The next statement of a call, or the next part of it; `none` while it waits. -/
def Txn.exec (s : State) (t : Txn) (pick : UUID) : Option Txn :=
  match t.req, t.phase with
  | .create _ p, .begun =>
      if s.db.rows.any fun r => r.key = p.key ∧ r.isActive then
        some { t with phase := .failed (activeExists p) }
      else some { t with phase := .checked }
  | .create _ p, .checked =>
      some { t with now := s.now, phase := .planned (maxVersion s.db p.key + 1) }
  | .create _ _, .planned version => t.insert s none version
  | .update _ _, .begun => t.lock s pick
  | .update _ _, .locked r => some { t with phase := .deactivated r }
  | .update _ _, .deactivated r => t.insert s (some r) (r.version + 1)
  | .deactivate _, .begun => t.lock s pick
  | .deactivate _, .locked r => some { t with phase := .deactivated r }
  | _, _ => none

/-- COMMIT: the writes of the call become visible. -/
def Txn.commit (t : Txn) (db : PresetTable) : Option PresetTable :=
  match t.req, t.phase with
  | .create _ _, .inserted none version => (t.newRow? version).bind db.insert?
  | .update _ p, .inserted (some r) version =>
      (t.newRow? version).bind (deactivateVersion db t.now p.key r.version).insert?
  | .deactivate _, .deactivated r => some (deactivateID db t.now r.id)
  | _, _ => none

/-- What can happen next. -/
inductive Act
  | tick (d : Nat)
  | start (r : Request)
  | exec (c : Nat) (pick : UUID)
  | commit (c : Nat)
  /-- The call ends without a commit: an error, or a connection that is lost. -/
  | abort (c : Nat)

/-- One step of the statement-level machine. -/
def step (s : State) : Act → Option State
  | .tick d => some { s with now := s.now + d }
  | .start r => some { s with txns := s.txns ++ [some ⟨r, s.now, .begun⟩] }
  | .exec c pick => do
      let t ← s.txn? c
      let t' ← t.exec s pick
      some { s with txns := s.txns.set c (some t') }
  | .commit c => do
      let t ← s.txn? c
      let db ← t.commit s.db
      some { s with db := db, txns := s.txns.set c none }
  | .abort c => do
      let _ ← s.txn? c
      some { s with txns := s.txns.set c none }

/-! ## What is promised -/

/-- The versions of the preset, in the order of the rows. -/
def versions (t : PresetTable) (k : PresetKey) : List Nat :=
  (t.rows.filter fun r => r.key = k).map Row.version

/-- The versions of the preset are 1 to n, each once. -/
def Numbered (t : PresetTable) (k : PresetKey) : Prop :=
  ∃ n, (versions t k).Perm (List.range' 1 n)

/-- The active version of a preset is alone and the last one. -/
def ActiveLast (t : PresetTable) : Prop :=
  ∀ a ∈ t.rows, a.isActive = true → ∀ b ∈ t.rows, b.key = a.key →
    (b.isActive = true → b = a) ∧ b.version ≤ a.version

/-- The call that a step commits. -/
def committed? (s : State) : Act → Option Request
  | .commit c => (s.txn? c).map Txn.req
  | _ => none

/-- If the step commits a Deactivate, it leaves the preset without an active version. -/
def Deactivates (s : State) (a : Act) : Prop :=
  ∀ s' k, step s a = some s' → committed? s a = some (.deactivate k) →
    ∀ r ∈ s'.db.rows, r.key = k → r.isActive = false

/-- The step commits the INSERT of a Create while the preset has an active version. -/
def InsertsOverActive (s : State) (a : Act) : Prop :=
  ∃ id p, committed? s a = some (.create id p) ∧ ∃ r ∈ s.db.rows, r.key = p.key ∧ r.isActive = true

variable {s s' : State} {t t' : Txn} {c c' : Nat} {db db' : PresetTable} {k : PresetKey} {r x : Row}
  {pick : UUID} {a : Act}

/-! ## What a step can do -/

/-- A statement is one of an open transaction. -/
theorem step_exec (h : step s (.exec c pick) = some s') :
    ∃ t t', s.txn? c = some t ∧ t.exec s pick = some t' ∧
      s' = { s with txns := s.txns.set c (some t') } := by
  simp only [step, Option.bind_eq_bind, Option.bind_eq_some_iff] at h
  obtain ⟨t, ht, t', hexec, h⟩ := h
  exact ⟨t, t', ht, hexec, (Option.some.inj h).symm⟩

/-- A commit is one of an open transaction. -/
theorem step_commit (h : step s (.commit c) = some s') :
    ∃ t db, s.txn? c = some t ∧ t.commit s.db = some db ∧
      s' = { s with db := db, txns := s.txns.set c none } := by
  simp only [step, Option.bind_eq_bind, Option.bind_eq_some_iff] at h
  obtain ⟨t, ht, db, hcommit, h⟩ := h
  exact ⟨t, db, ht, hcommit, (Option.some.inj h).symm⟩

/-- An abort is one of an open transaction, and leaves the rows. -/
theorem step_abort (h : step s (.abort c) = some s') :
    ∃ t, s.txn? c = some t ∧ s' = { s with txns := s.txns.set c none } := by
  simp only [step, Option.bind_eq_bind, Option.bind_eq_some_iff] at h
  obtain ⟨t, ht, h⟩ := h
  exact ⟨t, ht, (Option.some.inj h).symm⟩

/-! ## Versions -/

/-- How many versions the preset has. -/
def count (t : PresetTable) (k : PresetKey) : Nat := (versions t k).length

/-- A row that is added adds its version. -/
theorem versions_snoc (h : db'.rows = db.rows ++ [x]) (k : PresetKey) :
    versions db' k = versions db k ++ if x.key = k then [x.version] else [] := by
  unfold versions
  rw [h, List.filter_append, List.map_append]
  by_cases hx : x.key = k <;> simp [hx]

/-- Deactivating rows changes no versions. -/
theorem versions_update {p : Row → Bool} {n : Int} (k : PresetKey) :
    versions (db.update p (Row.deactivate n) (Row.deactivate_id n)) k = versions db k := by
  have hlist : ∀ l : List Row,
      ((l.map fun r => if p r then r.deactivate n else r).filter fun r => r.key = k).map
        Row.version = (l.filter fun r => r.key = k).map Row.version := by
    intro l
    induction l with
    | nil => rfl
    | cons r l ih =>
        rcases hp : p r with _ | _ <;> by_cases hk : r.key = k <;> simp [hp, hk, ih]
  exact hlist db.rows

/-- The versions of a preset are those of its rows. -/
theorem mem_versions {v : Nat} : v ∈ versions db k ↔ ∃ r ∈ db.rows, r.key = k ∧ r.version = v := by
  simp [versions, and_assoc]

/-- Numbered versions are the numbers from 1 on. -/
theorem Numbered.perm (h : Numbered db k) : (versions db k).Perm (List.range' 1 (count db k)) := by
  obtain ⟨n, hn⟩ := h
  have hlen : count db k = n := by
    have := hn.length_eq
    simpa [count] using this
  rw [hlen]
  exact hn

/-- They are the numbers up to the count. -/
theorem Numbered.mem_iff (h : Numbered db k) (v : Nat) :
    v ∈ versions db k ↔ 1 ≤ v ∧ v ≤ count db k := by
  rw [h.perm.mem_iff, List.mem_range'_1]
  omega

/-- Two rows of a preset with the same version are one row. -/
theorem Numbered.eq_of_version (h : Numbered db k) {a b : Row} (ha : a ∈ db.rows) (hb : b ∈ db.rows)
    (hak : a.key = k) (hbk : b.key = k) (hv : a.version = b.version) : a = b := by
  have hnd : (versions db k).Nodup := h.perm.nodup_iff.mpr List.nodup_range'
  have ha' : a ∈ db.rows.filter fun r => r.key = k := List.mem_filter.mpr ⟨ha, by simpa using hak⟩
  have hb' : b ∈ db.rows.filter fun r => r.key = k := List.mem_filter.mpr ⟨hb, by simpa using hbk⟩
  exact List.inj_on_of_nodup_map hnd ha' hb' hv

/-- The largest version is at most the count. -/
theorem Numbered.maxVersion_le (h : Numbered db k) : maxVersion db k ≤ count db k :=
  List.max_le_of_forall_le (versions db k) (count db k) fun v hv => ((h.mem_iff v).mp hv).2

/-- The next version may be added. -/
theorem Numbered.snoc (h : Numbered db k) (hv : versions db' k = versions db k ++ [count db k + 1]) :
    Numbered db' k := by
  refine ⟨count db k + 1, ?_⟩
  rw [hv, List.range'_1_concat, Nat.add_comm 1]
  exact h.perm.append_right _

/-- The numbering depends on the versions only. -/
theorem Numbered.congr (h : Numbered db k) (hv : versions db' k = versions db k) :
    Numbered db' k := by
  obtain ⟨n, hn⟩ := h
  exact ⟨n, hv ▸ hn⟩

/-! ## The invariant -/

/-- What a call in flight knows about the committed table. -/
structure TxnOk (db : PresetTable) (t : Txn) : Prop where
  row : ∀ r, t.row? = some r → r ∈ db.rows ∧ r.key = t.req.key ∧ r.isActive = true
  planned : ∀ v, t.phase = .planned v → 1 ≤ v ∧ v ≤ count db t.req.key + 1
  inserted : ∀ old v, t.phase = .inserted old v →
    v = count db t.req.key + 1 ∧ ∃ x, t.uncommitted? = some x

/-- The invariant of the statement-level machine. -/
structure Inv (s : State) : Prop where
  /-- The versions of every preset are 1 to n. -/
  numbered : ∀ k, Numbered s.db k
  /-- Every call in flight is right about the committed table. -/
  txn : ∀ c t, s.txn? c = some t → TxnOk s.db t
  /-- No two calls hold the same row. -/
  lock : ∀ c c' t t' r r', s.txn? c = some t → s.txn? c' = some t' → t.row? = some r →
    t'.row? = some r' → r.id = r'.id → c = c'
  /-- No two calls have inserted a version of the same preset. -/
  pending : ∀ c c' t t' x x', s.txn? c = some t → s.txn? c' = some t' →
    t.uncommitted? = some x → t'.uncommitted? = some x' → x.key = x'.key → c = c'

/-- The row that a transaction is about to insert. -/
theorem newRow?_spec {version : Nat} (h : t.newRow? version = some x) :
    x.key = t.req.key ∧ x.version = version ∧ x.isActive = true := by
  unfold Txn.newRow? at h
  split at h
  · rename_i hreq
    rw [← Option.some.inj h, hreq]
    exact ⟨rfl, rfl, rfl⟩
  · rename_i hreq
    rw [← Option.some.inj h, hreq]
    exact ⟨rfl, rfl, rfl⟩
  · cases h

/-- An uncommitted row is the next version of its preset. -/
theorem TxnOk.uncommitted (h : TxnOk db t) (hx : t.uncommitted? = some x) :
    x.key = t.req.key ∧ x.version = count db t.req.key + 1 ∧ x.isActive = true := by
  unfold Txn.uncommitted? at hx
  split at hx
  · rename_i old v hphase
    obtain ⟨hk, hv, ha⟩ := newRow?_spec hx
    exact ⟨hk, hv.trans (h.inserted old v hphase).1, ha⟩
  · cases hx

/-! ### Statements -/

/-- What one statement does to its call. -/
structure Executed (s : State) (t t' : Txn) : Prop where
  req : t'.req = t.req
  ok : TxnOk s.db t'
  row : ∀ r, t'.row? = some r → t.row? = some r ∨ s.locked r.id = false
  pending : ∀ x, t'.uncommitted? = some x → s.waitsFor x = false

/-- A call that holds nothing and has inserted nothing. -/
theorem executed_of_idle {req : Request} {now : Int} {phase : Phase} (hreq : req = t.req)
    (hphase : (∃ err, phase = .failed err) ∨ phase = .checked) :
    Executed s t ⟨req, now, phase⟩ := by
  subst hreq
  rcases hphase with ⟨err, rfl⟩ | rfl
  all_goals
    refine ⟨rfl, ⟨fun r hr => ?_, fun v hv => ?_, fun old v hv => ?_⟩, fun r hr => ?_, fun x hx => ?_⟩
    · cases hr
    · cases hv
    · cases hv
    · cases hr
    · cases hx

/-- An insert that succeeds has used a version that was free. -/
theorem insertRow_ok_version (h : insertRow db x = .ok db') : x.version ∉ versions db x.key := by
  unfold insertRow at h
  split at h
  · cases h
  · split at h
    · cases h
    · rename_i hany
      rw [mem_versions]
      rintro ⟨r, hr, hk, hv⟩
      simp only [List.any_eq_true, decide_eq_true_eq, not_exists, not_and] at hany
      exact hany r hr hk hv

/-- An INSERT that is done has taken the next version. -/
theorem insert_spec (hs : Inv s) (ht : TxnOk s.db t) {old : Option Row} {version : Nat}
    (hold : old = t.row?) (hv : 1 ≤ version ∧ version ≤ count s.db t.req.key + 1)
    (h : t.insert s old version = some t') : Executed s t t' := by
  unfold Txn.insert at h
  split at h
  · cases h
  · rename_i x hx
    obtain ⟨hk, hxv, _⟩ := newRow?_spec hx
    split at h
    · obtain rfl := Option.some.inj h
      exact executed_of_idle rfl (.inl ⟨_, rfl⟩)
    · rename_i db' hins
      split at h
      · cases h
      · rename_i hwait
        obtain rfl := Option.some.inj h
        have hnew : version = count s.db t.req.key + 1 := by
          have hnot := insertRow_ok_version hins
          rw [hk, hxv, (hs.numbered t.req.key).mem_iff] at hnot
          omega
        refine ⟨rfl, ⟨fun r hr => ?_, fun v hv => ?_, fun old v hv => ?_⟩, fun r hr => ?_,
          fun y hy => ?_⟩
        · exact ht.row r (hold ▸ hr)
        · cases hv
        · obtain ⟨-, rfl⟩ := Phase.inserted.inj hv
          exact ⟨hnew, x, hx⟩
        · exact .inl (hold ▸ hr)
        · obtain rfl : x = y := Option.some.inj (hx.symm.trans hy)
          simpa using hwait

/-- What the locking read does. -/
theorem lock_spec (h : t.lock s pick = some t') : Executed s t t' := by
  unfold Txn.lock at h
  split at h
  · obtain rfl := Option.some.inj h
    exact executed_of_idle rfl (.inl ⟨_, rfl⟩)
  · split at h
    · cases h
    · rename_i r hr
      split at h
      · rename_i hc
        obtain ⟨hk, ha, hfree⟩ := hc
        obtain rfl := Option.some.inj h
        refine ⟨rfl, ⟨fun r' hr' => ?_, fun v hv => ?_, fun old v hv => ?_⟩, fun r' hr' => ?_,
          fun x hx => ?_⟩
        · obtain rfl : r = r' := Option.some.inj hr'
          exact ⟨Table.mem_of_find? hr, hk, ha⟩
        · cases hv
        · cases hv
        · obtain rfl : r = r' := Option.some.inj hr'
          exact .inr hfree
        · cases hx
      · cases h

/-- The UPDATE keeps the row that is locked. -/
theorem executed_deactivated {req : Request} {now : Int}
    (ht : TxnOk s.db ⟨req, now, .locked r⟩) :
    Executed s ⟨req, now, .locked r⟩ ⟨req, now, .deactivated r⟩ := by
  refine ⟨rfl, ⟨ht.row, fun v hv => ?_, fun old v hv => ?_⟩, fun r' hr' => .inl hr', fun x hx => ?_⟩
  · cases hv
  · cases hv
  · cases hx

/-- **What one statement does.** -/
theorem exec_spec (hs : Inv s) (ht : TxnOk s.db t) (h : t.exec s pick = some t') :
    Executed s t t' := by
  obtain ⟨req, now, phase⟩ := t
  cases req with
  | create id p =>
      cases phase with
      | begun =>
          simp only [Txn.exec] at h
          split at h
          · obtain rfl := Option.some.inj h
            exact executed_of_idle rfl (.inl ⟨_, rfl⟩)
          · obtain rfl := Option.some.inj h
            exact executed_of_idle rfl (.inr rfl)
      | checked =>
          obtain rfl := Option.some.inj h
          refine ⟨rfl, ⟨fun r hr => ?_, fun v hv => ?_, fun old v hv => ?_⟩, fun r hr => ?_,
            fun x hx => ?_⟩
          · cases hr
          · obtain rfl := Phase.planned.inj hv
            have := (hs.numbered p.key).maxVersion_le
            exact ⟨by omega, Nat.succ_le_succ this⟩
          · cases hv
          · cases hr
          · cases hx
      | planned version => exact insert_spec hs ht rfl (ht.planned version rfl) h
      | locked r => cases h
      | deactivated r => cases h
      | inserted old version => cases h
      | failed err => cases h
  | update id p =>
      cases phase with
      | begun => exact lock_spec h
      | locked r =>
          obtain rfl := Option.some.inj h
          exact executed_deactivated ht
      | deactivated r =>
          obtain ⟨hr, hk, _⟩ := ht.row r rfl
          have hv := ((hs.numbered r.key).mem_iff r.version).mp (mem_versions.mpr ⟨r, hr, rfl, rfl⟩)
          rw [hk] at hv
          exact insert_spec hs ht rfl ⟨by omega, by omega⟩ h
      | checked => cases h
      | planned version => cases h
      | inserted old version => cases h
      | failed err => cases h
  | deactivate k =>
      cases phase with
      | begun => exact lock_spec h
      | locked r =>
          obtain rfl := Option.some.inj h
          exact executed_deactivated ht
      | checked => cases h
      | planned version => cases h
      | deactivated r => cases h
      | inserted old version => cases h
      | failed err => cases h

/-! ### Commits -/

/-- What a commit does: it deactivates the row that the call holds, and adds the row that it has
inserted. -/
structure Commits (db : PresetTable) (t : Txn) (db' : PresetTable) : Prop where
  rows : ∃ (p : Row → Bool) (now : Int), (∀ r ∈ db.rows, p r = true ↔ t.row? = some r) ∧
    db'.rows = (db.update p (Row.deactivate now) (Row.deactivate_id now)).rows ++
      t.uncommitted?.toList
  create : ∀ id p, t.req = .create id p → t.row? = none ∧ ∃ x, t.uncommitted? = some x
  update : ∀ id p, t.req = .update id p → ∃ r, t.row? = some r
  deactivate : ∀ k, t.req = .deactivate k → t.uncommitted? = none ∧ ∃ r, t.row? = some r

/-- What a commit does to the rows. -/
theorem commit_spec (hn : ∀ k, Numbered db k) (ht : TxnOk db t) (h : t.commit db = some db') :
    Commits db t db' := by
  obtain ⟨req, now, phase⟩ := t
  unfold Txn.commit at h
  split at h
  · rename_i id p version hreq hphase
    dsimp only at hreq hphase
    subst hreq hphase
    obtain ⟨x, hx, hins⟩ := Option.bind_eq_some_iff.mp h
    refine ⟨⟨fun _ => false, 0, fun r _ => by simp [Txn.row?], ?_⟩, fun _ _ _ => ⟨rfl, x, hx⟩,
      fun _ _ hr => (by cases hr), fun _ hr => (by cases hr)⟩
    rw [Table.rows_insert? hins]
    simp only [Txn.uncommitted?, hx, Option.toList_some, Table.update, Bool.false_eq_true, if_false,
      List.map_id']
  · rename_i id p r version hreq hphase
    dsimp only at hreq hphase
    subst hreq hphase
    obtain ⟨x, hx, hins⟩ := Option.bind_eq_some_iff.mp h
    obtain ⟨hr, hk, _⟩ := ht.row r rfl
    refine ⟨⟨fun r' => r'.key = p.key ∧ r'.version = r.version, now, fun r' hr' => ?_, ?_⟩,
      fun _ _ hr => (by cases hr), fun _ _ _ => ⟨r, rfl⟩, fun _ hr => (by cases hr)⟩
    · simp only [Txn.row?, decide_eq_true_eq, Option.some.injEq]
      constructor
      · rintro ⟨hk', hv⟩
        exact ((hn p.key).eq_of_version hr' hr hk' hk hv).symm
      · rintro rfl
        exact ⟨hk, rfl⟩
    · rw [Table.rows_insert? hins]
      simp only [Txn.uncommitted?, hx, Option.toList_some, deactivateVersion]
  · rename_i k r hreq hphase
    dsimp only at hreq hphase
    subst hreq hphase
    obtain rfl := Option.some.inj h
    obtain ⟨hr, _, _⟩ := ht.row r rfl
    refine ⟨⟨fun r' => r'.id = r.id, now, fun r' hr' => ?_, ?_⟩, fun _ _ hr => (by cases hr),
      fun _ _ hr => (by cases hr), fun _ _ => ⟨rfl, r, rfl⟩⟩
    · simp only [Txn.row?, decide_eq_true_eq, Option.some.injEq]
      constructor
      · exact fun hid => (db.rows_injOn hr' hr hid).symm
      · rintro rfl
        rfl
    · simp only [Txn.uncommitted?, Option.toList_none, List.append_nil, deactivateID]
  · cases h

/-- The versions after a commit. -/
theorem Commits.versions (h : Commits db t db') (ht : TxnOk db t) (k : PresetKey) :
    versions db' k = Transactions.versions db k ∧ (∀ x, t.uncommitted? = some x → x.key ≠ k) ∨
      versions db' k = Transactions.versions db k ++ [count db k + 1] ∧
        ∃ x, t.uncommitted? = some x ∧ x.key = k := by
  obtain ⟨p, now, _, hrows⟩ := h.rows
  rcases hx : t.uncommitted? with _ | x
  · left
    rw [hx, Option.toList_none, List.append_nil] at hrows
    refine ⟨?_, fun x hx => by cases hx⟩
    have := @versions_update db p now k
    unfold Transactions.versions at this ⊢
    rw [hrows, this]
  · rw [hx, Option.toList_some] at hrows
    have hv := versions_snoc hrows k
    rw [versions_update] at hv
    obtain ⟨hxk, hxv, _⟩ := ht.uncommitted hx
    by_cases hk : x.key = k
    · right
      rw [hv, if_pos hk, hxv, ← hxk, hk]
      exact ⟨rfl, x, rfl, hk⟩
    · left
      rw [hv, if_neg hk, List.append_nil]
      refine ⟨rfl, fun y hy => ?_⟩
      obtain rfl := Option.some.inj hy
      exact hk

/-- A row after a commit: the new one, one that was committed, or the one that is deactivated. -/
theorem Commits.mem (h : Commits db t db') {b : Row} (hb : b ∈ db'.rows) :
    t.uncommitted? = some b ∨ (b ∈ db.rows ∧ t.row? ≠ some b) ∨
      ∃ b₀ ∈ db.rows, b.key = b₀.key ∧ b.version = b₀.version ∧ b.isActive = false := by
  obtain ⟨p, now, hp, hrows⟩ := h.rows
  rw [hrows, List.mem_append, Option.mem_toList] at hb
  rcases hb with hb | hb
  · right
    rcases Table.mem_update.mp hb with ⟨hb, hpb⟩ | ⟨b₀, hb₀, _, rfl⟩
    · left
      refine ⟨hb, fun hr => ?_⟩
      rw [(hp b hb).mpr hr] at hpb
      cases hpb
    · exact .inr ⟨b₀, hb₀, rfl, rfl, rfl⟩
  · exact .inl hb

/-- A committed row that the call does not hold stays. -/
theorem Commits.keeps (h : Commits db t db') {b : Row} (hb : b ∈ db.rows) (hr : t.row? ≠ some b) :
    b ∈ db'.rows := by
  obtain ⟨p, now, hp, hrows⟩ := h.rows
  rw [hrows, List.mem_append]
  refine .inl (Table.mem_update.mpr (.inl ⟨hb, ?_⟩))
  rw [Bool.eq_false_iff]
  exact fun hpb => hr ((hp b hb).mp hpb)

/-- A commit loses no rows. -/
theorem Commits.count_le (h : Commits db t db') (ht : TxnOk db t) (k : PresetKey) :
    count db k ≤ count db' k := by
  unfold count
  rcases h.versions ht k with ⟨hv, _⟩ | ⟨hv, _⟩ <;> rw [hv]
  simp

/-- A call in flight stays right when another one commits. -/
theorem txnOk_commit (hs : Inv s) (ht : s.txn? c = some t) (hc : Commits s.db t db')
    (ht' : s.txn? c' = some t') (hne : c' ≠ c) : TxnOk db' t' := by
  have hok := hs.txn c t ht
  have hok' := hs.txn c' t' ht'
  refine ⟨fun r hr => ?_, fun v hv => ?_, fun old v hv => ?_⟩
  · obtain ⟨hmem, hk, ha⟩ := hok'.row r hr
    refine ⟨hc.keeps hmem fun hr₀ => ?_, hk, ha⟩
    exact hne (hs.lock c' c t' t r r ht' ht hr hr₀ rfl)
  · have := hok'.planned v hv
    have := hc.count_le hok t'.req.key
    omega
  · obtain ⟨hcount, x', hx'⟩ := hok'.inserted old v hv
    refine ⟨?_, x', hx'⟩
    rw [hcount]
    rcases hc.versions hok t'.req.key with ⟨hvs, _⟩ | ⟨_, x, hx, hxk⟩
    · unfold count
      rw [hvs]
    · -- the other call has inserted the same version, so this one would have waited
      have hxk' := (hok'.uncommitted hx').1
      exact absurd (hs.pending c' c t' t x' x ht' ht hx' hx (hxk'.trans hxk.symm)) hne

/-! ### Steps -/

/-- While nobody waits, nobody holds the row. -/
theorem not_row_of_not_locked {id : UUID} (h : s.locked id = false) (ht : s.txn? c = some t)
    (hr : t.row? = some r) : r.id ≠ id := by
  unfold State.locked at h
  rw [List.any_eq_false] at h
  simpa [hr] using h (some t) (mem_of_slot? ht)

/-- A transaction that waits for nobody collides with no uncommitted row. -/
theorem not_collide_of_not_waitsFor {y : Row} (h : s.waitsFor x = false) (ht : s.txn? c = some t)
    (hy : t.uncommitted? = some y) : collide y x = false := by
  unfold State.waitsFor at h
  rw [List.any_eq_false] at h
  simpa [hy] using h (some t) (mem_of_slot? ht)

/-- **The step lemma.** -/
theorem Inv.step (hs : Inv s) (h : Transactions.step s a = some s') : Inv s' := by
  cases a with
  | tick d =>
      obtain rfl := Option.some.inj h
      exact ⟨hs.numbered, hs.txn, hs.lock, hs.pending⟩
  | start req =>
      obtain rfl := Option.some.inj h
      -- a call that has just begun holds nothing
      have hbegun : ∀ c t, slot? (s.txns ++ [some ⟨req, s.now, .begun⟩]) c = some t →
          s.txn? c = some t ∨ t = ⟨req, s.now, .begun⟩ :=
        fun c t ht => (slot?_append_cases ht).imp_right And.right
      refine ⟨hs.numbered, fun c t ht => ?_, fun c c' t t' r r' ht ht' hr hr' hid => ?_,
        fun c c' t t' x x' ht ht' hx hx' hk => ?_⟩
      · rcases hbegun c t ht with ht | rfl
        · exact hs.txn c t ht
        · refine ⟨fun r hr => ?_, fun v hv => ?_, fun old v hv => ?_⟩
          · cases hr
          · cases hv
          · cases hv
      · rcases hbegun c t ht with ht | rfl
        · rcases hbegun c' t' ht' with ht' | rfl
          · exact hs.lock c c' t t' r r' ht ht' hr hr' hid
          · cases hr'
        · cases hr
      · rcases hbegun c t ht with ht | rfl
        · rcases hbegun c' t' ht' with ht' | rfl
          · exact hs.pending c c' t t' x x' ht ht' hx hx' hk
          · cases hx'
        · cases hx
  | exec c pick =>
      obtain ⟨t, t', ht, hexec, rfl⟩ := step_exec h
      have hx := exec_spec hs (hs.txn c t ht) hexec
      have hset : ∀ c₁ t₁, slot? (s.txns.set c (some t')) c₁ = some t₁ →
          c₁ = c ∧ t₁ = t' ∨ c₁ ≠ c ∧ s.txn? c₁ = some t₁ := by
        intro c₁ t₁ ht₁
        rw [slot?_set ht] at ht₁
        split at ht₁
        · rename_i hc
          exact .inl ⟨hc, (Option.some.inj ht₁).symm⟩
        · rename_i hc
          exact .inr ⟨hc, ht₁⟩
      -- the row that the call may have locked was free
      have hlock : ∀ c₁ t₁ r r₁, c₁ ≠ c → s.txn? c₁ = some t₁ → t'.row? = some r →
          t₁.row? = some r₁ → r.id ≠ r₁.id := by
        intro c₁ t₁ r r₁ hne ht₁ hr hr₁ hid
        rcases hx.row r hr with hr | hfree
        · exact hne (hs.lock c₁ c t₁ t r₁ r ht₁ ht hr₁ hr hid.symm)
        · exact not_row_of_not_locked hfree ht₁ hr₁ hid.symm
      -- the version that the call may have inserted is nobody else's
      have hpending : ∀ c₁ t₁ x x₁, s.txn? c₁ = some t₁ → t'.uncommitted? = some x →
          t₁.uncommitted? = some x₁ → x.key ≠ x₁.key := by
        intro c₁ t₁ x x₁ ht₁ hx' hx₁ hk
        obtain ⟨hxk, hxv, _⟩ := hx.ok.uncommitted hx'
        obtain ⟨hxk₁, hxv₁, _⟩ := (hs.txn c₁ t₁ ht₁).uncommitted hx₁
        have hcol := not_collide_of_not_waitsFor (hx.pending x hx') ht₁ hx₁
        have hv : x₁.version = x.version := by
          rw [hxv₁, hxv, ← hxk₁, ← hxk, hk]
        simp [collide, hk.symm, hv] at hcol
      refine ⟨hs.numbered, fun c₁ t₁ ht₁ => ?_, fun c₁ c₂ t₁ t₂ r₁ r₂ ht₁ ht₂ hr₁ hr₂ hid => ?_,
        fun c₁ c₂ t₁ t₂ x₁ x₂ ht₁ ht₂ hx₁ hx₂ hk => ?_⟩
      · rcases hset c₁ t₁ ht₁ with ⟨_, rfl⟩ | ⟨_, ht₁⟩
        · exact hx.ok
        · exact hs.txn c₁ t₁ ht₁
      · rcases hset c₁ t₁ ht₁ with ⟨rfl, rfl⟩ | ⟨hne₁, ht₁'⟩ <;>
          rcases hset c₂ t₂ ht₂ with ⟨rfl, rfl⟩ | ⟨hne₂, ht₂'⟩
        · rfl
        · exact absurd hid (hlock c₂ t₂ r₁ r₂ hne₂ ht₂' hr₁ hr₂)
        · exact absurd hid.symm (hlock c₁ t₁ r₂ r₁ hne₁ ht₁' hr₂ hr₁)
        · exact hs.lock c₁ c₂ t₁ t₂ r₁ r₂ ht₁' ht₂' hr₁ hr₂ hid
      · rcases hset c₁ t₁ ht₁ with ⟨rfl, rfl⟩ | ⟨hne₁, ht₁'⟩ <;>
          rcases hset c₂ t₂ ht₂ with ⟨rfl, rfl⟩ | ⟨hne₂, ht₂'⟩
        · rfl
        · exact absurd hk (hpending c₂ t₂ x₁ x₂ ht₂' hx₁ hx₂)
        · exact absurd hk.symm (hpending c₁ t₁ x₂ x₁ ht₁' hx₂ hx₁)
        · exact hs.pending c₁ c₂ t₁ t₂ x₁ x₂ ht₁' ht₂' hx₁ hx₂ hk
  | commit c =>
      obtain ⟨t, db, ht, hcommit, rfl⟩ := step_commit h
      have hok := hs.txn c t ht
      have hc := commit_spec hs.numbered hok hcommit
      have hother : ∀ c' t', slot? (s.txns.set c none) c' = some t' →
          s.txn? c' = some t' ∧ c' ≠ c := fun c' t' ht' => slot?_clear ht ht'
      refine ⟨fun k => ?_, fun c' t' ht' => ?_, fun c₁ c₂ t₁ t₂ r₁ r₂ ht₁ ht₂ => ?_,
        fun c₁ c₂ t₁ t₂ x₁ x₂ ht₁ ht₂ => ?_⟩
      · rcases hc.versions hok k with ⟨hv, _⟩ | ⟨hv, _⟩
        · exact (hs.numbered k).congr hv
        · exact (hs.numbered k).snoc hv
      · obtain ⟨ht', hne⟩ := hother c' t' ht'
        exact txnOk_commit hs ht hc ht' hne
      · exact hs.lock c₁ c₂ t₁ t₂ r₁ r₂ (hother c₁ t₁ ht₁).1 (hother c₂ t₂ ht₂).1
      · exact hs.pending c₁ c₂ t₁ t₂ x₁ x₂ (hother c₁ t₁ ht₁).1 (hother c₂ t₂ ht₂).1
  | abort c =>
      obtain ⟨t, ht, rfl⟩ := step_abort h
      have hother : ∀ c' t', slot? (s.txns.set c none) c' = some t' → s.txn? c' = some t' :=
        fun c' t' ht' => (slot?_clear ht ht').1
      refine ⟨hs.numbered, fun c' t' ht' => hs.txn c' t' (hother c' t' ht'),
        fun c₁ c₂ t₁ t₂ r₁ r₂ ht₁ ht₂ => ?_, fun c₁ c₂ t₁ t₂ x₁ x₂ ht₁ ht₂ => ?_⟩
      · exact hs.lock c₁ c₂ t₁ t₂ r₁ r₂ (hother c₁ t₁ ht₁) (hother c₂ t₂ ht₂)
      · exact hs.pending c₁ c₂ t₁ t₂ x₁ x₂ (hother c₁ t₁ ht₁) (hother c₂ t₂ ht₂)

/-- The invariant holds at the start. -/
theorem inv_init (now : Int) : Inv (State.init now) := by
  have hnone : ∀ c, (State.init now).txn? c = none := fun c => slot?_nil
  refine ⟨fun k => ⟨0, .refl _⟩, fun c t ht => ?_, fun c c' t t' r r' ht => ?_,
    fun c c' t t' x x' ht => ?_⟩
  all_goals
    rw [hnone] at ht
    cases ht

/-! ## The active version -/

/-- A commit that leaves no other active version of the preset: it is no Create over one. -/
theorem inactive_of_commit (hal : ActiveLast db) (ht : TxnOk db t) (hc : Commits db t db')
    (hover : ∀ id p, t.req = .create id p → ∀ r ∈ db.rows, r.key = p.key → r.isActive = false)
    {b : Row} (hb : b ∈ db.rows) (hbk : b.key = t.req.key) (hr : t.row? ≠ some b) :
    b.isActive = false := by
  by_contra ha
  have ha : b.isActive = true := by simpa using ha
  -- the row that an Update or a Deactivate holds is the only active one
  have hheld : (∃ r, t.row? = some r) → False := by
    rintro ⟨r, hr'⟩
    obtain ⟨hmem, hk, hra⟩ := ht.row r hr'
    have heq : b = r := (hal r hmem hra b hb (hbk.trans hk.symm)).1 ha
    exact hr (heq ▸ hr')
  rcases hreq : t.req with ⟨id, p⟩ | ⟨id, p⟩ | k
  · rw [hreq] at hbk
    rw [hover id p hreq b hb hbk] at ha
    cases ha
  · exact hheld (hc.update id p hreq)
  · exact hheld (hc.deactivate k hreq).2

/-- **A commit keeps the active version the last one**, unless it is a Create over an active one. -/
theorem activeLast_commit (hn : ∀ k, Numbered db k) (hal : ActiveLast db) (ht : TxnOk db t)
    (hc : Commits db t db')
    (hover : ∀ id p, t.req = .create id p → ∀ r ∈ db.rows, r.key = p.key → r.isActive = false) :
    ActiveLast db' := by
  have hle : ∀ b ∈ db.rows, b.version ≤ count db b.key := fun b hb =>
    (((hn b.key).mem_iff b.version).mp (mem_versions.mpr ⟨b, hb, rfl, rfl⟩)).2
  intro a ha hact b hb hk
  rcases hc.mem ha with hxa | ⟨ha, hra⟩ | ⟨_, _, _, _, hina⟩
  · -- the active row is the new one
    obtain ⟨hak, hav, _⟩ := ht.uncommitted hxa
    rcases hc.mem hb with hxb | ⟨hb, hrb⟩ | ⟨b₀, hb₀, hk₀, hv₀, hinb⟩
    · obtain rfl : a = b := Option.some.inj (hxa.symm.trans hxb)
      exact ⟨fun _ => rfl, le_rfl⟩
    · refine ⟨fun hbact => ?_, ?_⟩
      · rw [inactive_of_commit hal ht hc hover hb (hk.trans hak) hrb] at hbact
        cases hbact
      · have := hle b hb
        rw [hk, hak] at this
        omega
    · refine ⟨fun hbact => ?_, ?_⟩
      · rw [hinb] at hbact
        cases hbact
      · have := hle b₀ hb₀
        rw [← hk₀, ← hv₀, hk, hak] at this
        omega
  · -- the active row was committed before
    rcases hc.mem hb with hxb | ⟨hb, _⟩ | ⟨b₀, hb₀, hk₀, hv₀, hinb⟩
    · have hbk := (ht.uncommitted hxb).1
      rw [inactive_of_commit hal ht hc hover ha (hk.symm.trans hbk) hra] at hact
      cases hact
    · exact hal a ha hact b hb hk
    · refine ⟨fun hbact => ?_, ?_⟩
      · rw [hinb] at hbact
        cases hbact
      · rw [hv₀]
        exact (hal a ha hact b₀ hb₀ (hk₀.symm.trans hk)).2
  · rw [hina] at hact
    cases hact

/-- The call that a step commits, and what it does. -/
theorem committed_spec (hs : Inv s) (h : step s a = some s') {req : Request}
    (hreq : committed? s a = some req) :
    ∃ t, t.req = req ∧ TxnOk s.db t ∧ Commits s.db t s'.db := by
  cases a with
  | commit c =>
      obtain ⟨t, db, ht, hcommit, rfl⟩ := step_commit h
      rw [committed?, ht] at hreq
      have hok := hs.txn c t ht
      exact ⟨t, Option.some.inj hreq, hok, commit_spec hs.numbered hok hcommit⟩
  | tick d => cases hreq
  | start req => cases hreq
  | exec c pick => cases hreq
  | abort c => cases hreq

/-- A step that commits nothing leaves the committed table as it is. -/
theorem step_uncommitted (h : step s a = some s') (hnone : committed? s a = none) :
    s'.db = s.db := by
  cases a with
  | tick d =>
      obtain rfl := Option.some.inj h
      rfl
  | start req =>
      obtain rfl := Option.some.inj h
      rfl
  | exec c pick =>
      obtain ⟨t, t', ht, hexec, rfl⟩ := step_exec h
      rfl
  | commit c =>
      obtain ⟨t, db, ht, -⟩ := step_commit h
      rw [committed?, ht] at hnone
      cases hnone
  | abort c =>
      obtain ⟨t, ht, rfl⟩ := step_abort h
      rfl

/-- What a Create that may commit asks of the table. -/
theorem not_active_of_not_over (hover : ¬ InsertsOverActive s a) {id : UUID} {p : CreateParams}
    (hreq : committed? s a = some (.create id p)) (hr : r ∈ s.db.rows) (hk : r.key = p.key) :
    r.isActive = false := by
  by_contra ha
  exact hover ⟨id, p, hreq, r, hr, hk, by simpa using ha⟩

/-- **The step lemma of the active version.** -/
theorem activeLast_step (hs : Inv s) (hal : ActiveLast s.db) (h : step s a = some s')
    (hover : ¬ InsertsOverActive s a) : ActiveLast s'.db := by
  rcases hreq : committed? s a with _ | req
  · rw [step_uncommitted h hreq]
    exact hal
  · obtain ⟨t, rfl, hok, hc⟩ := committed_spec hs h hreq
    refine activeLast_commit hs.numbered hal hok hc fun id p hp r hr hk => ?_
    exact not_active_of_not_over hover (hreq.trans (congrArg some hp)) hr hk

/-- A Deactivate leaves no active version if there was one at most. -/
theorem deactivates_of_activeLast (hs : Inv s) (hal : ActiveLast s.db) : Deactivates s a := by
  intro s' k h hreq b hb hbk
  obtain ⟨t, hreq', hok, hc⟩ := committed_spec hs h hreq
  have hkey : t.req.key = k := congrArg Request.key hreq'
  rcases hc.mem hb with hx | ⟨hb, hr⟩ | ⟨_, _, _, _, hin⟩
  · rw [(hc.deactivate k hreq').1] at hx
    cases hx
  · refine inactive_of_commit hal hok hc (fun id p hp => ?_) hb (hbk.trans hkey.symm) hr
    rw [hreq'] at hp
    cases hp
  · exact hin

/-- A Create over an active version leaves two. -/
theorem not_activeLast_of_over (hs : Inv s) (h : step s a = some s')
    (hover : InsertsOverActive s a) : ¬ ActiveLast s'.db := by
  obtain ⟨id, p, hreq, r, hr, hk, ha⟩ := hover
  obtain ⟨t, hreq', hok, hc⟩ := committed_spec hs h hreq
  obtain ⟨hrow, x, hx⟩ := hc.create id p hreq'
  obtain ⟨hxk, hxv, hxa⟩ := hok.uncommitted hx
  have hkey : t.req.key = p.key := congrArg Request.key hreq'
  have hr' : r ∈ s'.db.rows := hc.keeps hr (by rw [hrow]; simp)
  have hx' : x ∈ s'.db.rows := by
    obtain ⟨_, _, _, hrows⟩ := hc.rows
    rw [hrows, hx]
    simp
  intro hal
  have heq : r = x := (hal x hx' hxa r hr' (by rw [hk, hxk, hkey])).1 ha
  have hle := ((hs.numbered r.key).mem_iff r.version).mp (mem_versions.mpr ⟨r, hr, rfl, rfl⟩)
  rw [heq, hxv, hxk] at hle
  omega

/-! ## Runs -/

variable {tr : List (State × Act)} {now : Int}

/-- The invariant holds in every state of a run. -/
theorem inv_of_exec (h : Exec step (State.init now) tr s) : (∀ x ∈ tr, Inv x.1) ∧ Inv s :=
  h.invariant (P := fun _ _ => True) (fun _ _ _ hi _ hs => hi.step hs) (inv_init now)
    fun _ _ => trivial

/-- At the start no preset is active. -/
theorem activeLast_init : ActiveLast (State.init now).db := fun a ha => by cases ha

/-- What is promised of a state: versions 1 to n, and an active version that is alone and last. -/
def Good (s : State) : Prop := (∀ k, Numbered s.db k) ∧ ActiveLast s.db

/-- **The active version of a preset.** In every run of the statements, the versions of every preset
are 1 to n; and the active one is alone and the last one in every state, and gone after every
Deactivate, exactly if no INSERT of a Create commits while its preset has an active version. -/
theorem activeLast_iff (h : Exec step (State.init now) tr s) :
    ((∀ x ∈ tr, ∀ k, Numbered x.1.db k) ∧ ∀ k, Numbered s.db k) ∧
      (((∀ x ∈ tr, Good x.1 ∧ Deactivates x.1 x.2) ∧ Good s) ↔
        ∀ x ∈ tr, ¬ InsertsOverActive x.1 x.2) := by
  obtain ⟨hinv, hlast⟩ := inv_of_exec h
  refine ⟨⟨fun x hx => (hinv x hx).numbered, hlast.numbered⟩, ?_, ?_⟩
  · rintro ⟨hall, hgood⟩ x hx hover
    obtain ⟨u, hu⟩ := h.step_of_mem hx
    apply not_activeLast_of_over (hinv x hx) hu hover
    rcases h.next_of_mem hx hu with rfl | ⟨y, hy, rfl⟩
    · exact hgood.2
    · exact (hall y hy).1.2
  · intro hP
    have hrun := h.invariant (I := fun s => Inv s ∧ ActiveLast s.db)
      (P := fun s a => ¬ InsertsOverActive s a)
      (fun _ _ _ hi ha hs => ⟨hi.1.step hs, activeLast_step hi.1 hi.2 hs ha⟩)
      ⟨inv_init now, activeLast_init⟩ hP
    refine ⟨fun x hx => ⟨⟨(hinv x hx).numbered, (hrun.1 x hx).2⟩, ?_⟩, hlast.numbered, hrun.2.2⟩
    exact deactivates_of_activeLast (hinv x hx) (hrun.1 x hx).2

/-! ## Two Creates of one preset -/

/-- A system preset. -/
def thumbs : CreateParams := ⟨"thumbs", .system, none, "webp", none, ""⟩

/-- The second Create begins when the first has committed. -/
def inTurn : List (State × Act) × State :=
  runOf step (State.init 0)
    [.start (.create 1 thumbs), .exec 0 0, .exec 0 0, .exec 0 0, .commit 0,
      .start (.create 2 thumbs), .exec 1 0, .start (.deactivate thumbs.key), .exec 2 1, .exec 2 0,
      .commit 2] rfl

/-- The exact condition, in a run of two transactions in turn. -/
theorem activeLast_iff_inTurn :
    Exec step (State.init 0) inTurn.1 inTurn.2 ∧ (∀ k, Numbered inTurn.2.db k) ∧
      (((∀ x ∈ inTurn.1, Good x.1 ∧ Deactivates x.1 x.2) ∧ Good inTurn.2) ↔
        ∀ x ∈ inTurn.1, ¬ InsertsOverActive x.1 x.2) := by
  have hexec : Exec step (State.init 0) inTurn.1 inTurn.2 := exec_runOf rfl
  have h := activeLast_iff hexec
  exact ⟨hexec, h.1.2, h.2⟩

/-- Both Creates are checked before either inserts, and then the preset is deactivated. -/
def atOnce : List (State × Act) × State :=
  runOf step (State.init 0)
    [.start (.create 1 thumbs), .start (.create 2 thumbs), .exec 0 0, .exec 1 0,
      .exec 0 0, .exec 0 0, .commit 0, .exec 1 0, .exec 1 0, .commit 1,
      .start (.deactivate thumbs.key), .exec 2 2, .exec 2 0, .commit 2] rfl

/-- Of two Creates that are both checked before either inserts, each adds an active version, and a
Deactivate leaves one of them. -/
theorem two_active :
    Exec step (State.init 0) atOnce.1 atOnce.2 ∧
      (∃ x ∈ atOnce.1, (x.1.db.rows.filter Row.isActive).map Row.version = [1, 2]) ∧
      atOnce.2.db.rows.map (fun r => (r.key, r.version, r.isActive)) =
        [(thumbs.key, 1, true), (thumbs.key, 2, false)] := by
  refine ⟨exec_runOf rfl, ⟨atOnce.1.get ⟨10, by decide⟩, List.get_mem _ _, rfl⟩, rfl⟩

end OctoConv.Presets.Transactions
