import OctoConv.Base.Errors
import OctoConv.Jobs.Model
import OctoConv.Lib.Query

/-!
# The presets repository

A preset is a named conversion with options. Its versions are rows that are never changed except to be
deactivated; a preset of a client shadows a system preset of the same name. Here each call is one step
on the table; `Presets.Transactions` takes the calls apart into their statements.

Source: `internal/presets/repo.go`, `internal/db/migrations/0001_init.sql`.

## Main results

* `inv_run` — in every table that Create, Update and Deactivate lead to, a preset has at most one
  active version.
* `lookups_agree` — Resolve, GetForClient and ListForClient see the same effective preset, and what
  other clients do to their own presets changes none of the three.
* `keeps_run` — whatever is called, every version stays as it is or is deactivated.
-/

namespace OctoConv.Presets

open Conc

/-! ## Rows -/

/-- A preset scope (the CHECK constraint of `presets.scope`). -/
inductive Scope
  | system | user
deriving DecidableEq, Repr

/-- What the versions of one preset have in common: scope, owner and name. -/
structure PresetKey where
  scope : Scope
  clientID : Option UUID
  name : String
deriving DecidableEq, Repr

/-- A row of the presets table.

Source: `0001_init.sql` presets -/
structure Row where
  id : UUID
  name : String
  version : Nat
  scope : Scope
  clientID : Option UUID
  operation : String
  targetFormat : Option String
  options : Opts
  description : Option String
  isActive : Bool
  createdAt : Int
  updatedAt : Int

/-- The preset of a row. -/
def Row.key (r : Row) : PresetKey := ⟨r.scope, r.clientID, r.name⟩

/-- The table. -/
abbrev PresetTable := Table Row Row.id

/-- The Go struct that the repository returns; the zero time is `none`.

Source: `presets.go` Preset -/
structure Preset where
  id : UUID
  name : String
  version : Nat
  scope : Scope
  clientID : Option UUID
  operation : String
  targetFormat : String
  options : Opts
  description : String
  isActive : Bool
  createdAt : Option Int
  updatedAt : Option Int

/-- Source: `repo.go` deref -/
def deref (s : Option String) : String := s.getD ""

/-- The columns that GetForClient and ListForClient select. -/
def Row.full (r : Row) : Preset where
  id := r.id
  name := r.name
  version := r.version
  scope := r.scope
  clientID := r.clientID
  operation := r.operation
  targetFormat := deref r.targetFormat
  options := r.options
  description := deref r.description
  isActive := r.isActive
  createdAt := some r.createdAt
  updatedAt := some r.updatedAt

/-- The columns that Resolve selects; the other fields keep their zero values. -/
def Row.resolved (r : Row) : Preset :=
  { r.full with description := "", isActive := false, createdAt := none, updatedAt := none }

/-- Source: `presets.go` OperationConvert -/
def operationConvert : String := "convert"

/-- Source: `presets.go` ErrNotFound -/
def errNotFound : GoError := .new "preset not found"

/-- Source: `presets.go` ErrAlreadyExists -/
def errAlreadyExists : GoError := .new "preset already exists"

/-! ## Constraints -/

/-- A constraint that an INSERT violates. -/
inductive Violation
  /-- SQLSTATE 23505 -/
  | unique (index : String)
  /-- SQLSTATE 23514 -/
  | check (name : String)

/-- The error of the driver. -/
def Violation.error : Violation → GoError
  | .unique index => .new ("ERROR: duplicate key value violates unique constraint \"" ++ index ++
      "\" (SQLSTATE 23505)")
  | .check name => .new ("ERROR: new row for relation \"presets\" violates check constraint \"" ++
      name ++ "\" (SQLSTATE 23514)")

/-- System presets have no owner and user presets have one.

Source: `0001_init.sql` presets_scope_owner_chk -/
def ownerOk (scope : Scope) (clientID : Option UUID) : Bool :=
  match scope with
  | .system => clientID.isNone
  | .user => clientID.isSome

/-- The unique index on the versions of a scope.

Source: `0001_init.sql` presets_system_uq, presets_user_uq -/
def Scope.versionIndex : Scope → String
  | .system => "presets_system_uq"
  | .user => "presets_user_uq"

/-- INSERT with its constraints. -/
def insertRow (t : PresetTable) (r : Row) : Except Violation PresetTable :=
  if ownerOk r.scope r.clientID = false then .error (.check "presets_scope_owner_chk")
  else if t.rows.any fun x => x.key = r.key ∧ x.version = r.version then
    .error (.unique r.scope.versionIndex)
  else
    match t.insert? r with
    | some t' => .ok t'
    | none => .error (.unique "presets_pkey")

/-! ## The calls that write -/

/-- Source: `repo.go` CreateParams -/
structure CreateParams where
  name : String
  scope : Scope
  clientID : Option UUID
  targetFormat : String
  /-- `nil` is stored as the empty object. -/
  options : Option Opts
  description : String

/-- The preset that the parameters name. -/
def CreateParams.key (p : CreateParams) : PresetKey := ⟨p.scope, p.clientID, p.name⟩

/-- `SELECT MAX(version)`, or 0 without rows. -/
def maxVersion (t : PresetTable) (k : PresetKey) : Nat :=
  ((t.rows.filter fun r => r.key = k).map Row.version).foldr max 0

/-- The row that Create and Update insert. -/
def newRow (id : UUID) (now : Int) (k : PresetKey) (version : Nat) (targetFormat : String)
    (options : Option Opts) (description : String) : Row where
  id := id
  name := k.name
  version := version
  scope := k.scope
  clientID := k.clientID
  operation := operationConvert
  targetFormat := some targetFormat
  options := options.getD []
  description := some description
  isActive := true
  createdAt := now
  updatedAt := now

/-- The row that Create inserts. -/
def CreateParams.row (p : CreateParams) (id : UUID) (now : Int) (version : Nat) : Row :=
  newRow id now p.key version p.targetFormat p.options p.description

/-- The text with which Create refuses a preset that is active.

Source: `repo.go` Create -/
def activeExists (p : CreateParams) : GoError :=
  errAlreadyExists.wrap ("active preset " ++ goQuote p.name ++ " already exists for scope " ++
    goQuote (match p.scope with
      | .system => "system"
      | .user => "user") ++ "; use Update instead")

/-- What Create makes of a violated constraint.

Source: `repo.go` Create -/
def createError : Violation → GoError
  | .unique _ => errAlreadyExists
  | v => v.error.wrap "insert preset"

/-- A new version, if the preset has no active one.

Source: `repo.go` Create -/
def create (t : PresetTable) (id : UUID) (now : Int) (p : CreateParams) :
    Except GoError (PresetTable × UUID × Nat) :=
  if t.rows.any fun r => r.key = p.key ∧ r.isActive then .error (activeExists p)
  else
    let version := maxVersion t p.key + 1
    match insertRow t (p.row id now version) with
    | .ok t' => .ok (t', id, version)
    | .error v => .error (createError v)

/-- `is_active = false`, and the trigger of `updated_at`. -/
def Row.deactivate (now : Int) (r : Row) : Row := { r with isActive := false, updatedAt := now }

/-- A row that is deactivated keeps its id. -/
theorem Row.deactivate_id (now : Int) (r : Row) : (r.deactivate now).id = r.id := rfl

/-- The active row that Update and Deactivate lock. -/
def activeRow? (t : PresetTable) (k : PresetKey) : Option Row :=
  t.rows.find? fun r => r.key = k ∧ r.isActive

/-- The UPDATE of Update: it names the row by its version. -/
def deactivateVersion (t : PresetTable) (now : Int) (k : PresetKey) (version : Nat) : PresetTable :=
  t.update (fun r => r.key = k ∧ r.version = version) (Row.deactivate now) (Row.deactivate_id now)

/-- The UPDATE of Deactivate. -/
def deactivateID (t : PresetTable) (now : Int) (id : UUID) : PresetTable :=
  t.update (fun r => r.id = id) (Row.deactivate now) (Row.deactivate_id now)

/-- The next version takes the place of the active one.

Source: `repo.go` Update -/
def update (t : PresetTable) (id : UUID) (now : Int) (p : CreateParams) :
    Except GoError (PresetTable × Nat) :=
  match activeRow? t p.key with
  | none => .error errNotFound
  | some current =>
      match insertRow (deactivateVersion t now p.key current.version)
          (p.row id now (current.version + 1)) with
      | .ok t' => .ok (t', current.version + 1)
      | .error v => .error (v.error.wrap "insert new preset version")

/-- The active version is deactivated.

Source: `repo.go` Deactivate -/
def deactivate (t : PresetTable) (now : Int) (k : PresetKey) : Except GoError PresetTable :=
  match activeRow? t k with
  | none => .error errNotFound
  | some r => .ok (deactivateID t now r.id)

/-! ## The calls that read -/

/-- `client_id = $1`, which no NULL satisfies. -/
def ownedBy (clientID : Option UUID) (r : Row) : Bool :=
  clientID.isSome ∧ r.clientID = clientID

/-- `ORDER BY (scope='user') DESC, version DESC` -/
def userFirst (a b : Row) : Prop :=
  if a.scope = b.scope then b.version ≤ a.version else a.scope = .user

instance : DecidableRel userFirst := fun a b => by
  unfold userFirst
  infer_instance

/-- The rows that Resolve and GetForClient select.

Source: `repo.go` Resolve, GetForClient -/
def effective (clientID : Option UUID) (name : String) (r : Row) : Bool :=
  r.name = name ∧ r.isActive ∧ r.operation = operationConvert ∧
    (r.scope = .system ∧ r.clientID = none ∨ r.scope = .user ∧ ownedBy clientID r)

/-- The row that Resolve and GetForClient find. -/
def effectiveRow? (t : PresetTable) (clientID : Option UUID) (name : String) : Option Row :=
  first userFirst (t.rows.filter (effective clientID name))

/-- The effective preset of a client, without its description and times.

Source: `repo.go` Resolve -/
def resolve (t : PresetTable) (clientID : UUID) (name : String) : Except GoError Preset :=
  match effectiveRow? t (some clientID) name with
  | some r => .ok r.resolved
  | none => .error errNotFound

/-- The effective preset of a client.

Source: `repo.go` GetForClient -/
def getForClient (t : PresetTable) (clientID : Option UUID) (name : String) :
    Except GoError Preset :=
  match effectiveRow? t clientID name with
  | some r => .ok r.full
  | none => .error errNotFound

/-- An active preset of the client has this name. -/
def shadowed (t : PresetTable) (clientID : Option UUID) (name : String) : Bool :=
  t.rows.any fun u => u.scope = .user ∧ ownedBy clientID u ∧ u.name = name ∧ u.isActive

/-- The rows that ListForClient selects.

Source: `repo.go` ListForClient -/
def listed (t : PresetTable) (clientID : Option UUID) (includeInactive : Bool) (r : Row) : Bool :=
  (r.scope = .user ∧ ownedBy clientID r ∨
    r.scope = .system ∧ r.clientID = none ∧ ¬ shadowed t clientID r.name) ∧
    (includeInactive ∨ r.isActive)

/-- `ORDER BY p.name, (p.scope = 'user') DESC, p.version DESC` -/
def byName (a b : Row) : Prop := if a.name = b.name then userFirst a b else a.name < b.name

instance : DecidableRel byName := fun a b => by
  unfold byName
  infer_instance

/-- The presets of a client: its own, and the system presets that none of them shadows.

Source: `repo.go` ListForClient -/
def listForClient (t : PresetTable) (clientID : Option UUID) (includeInactive : Bool) :
    List Preset :=
  ((t.rows.filter (listed t clientID includeInactive)).insertionSort byName).map Row.full

/-- `ORDER BY version DESC` -/
def newestFirst (a b : Row) : Prop := b.version ≤ a.version

instance : DecidableRel newestFirst := fun a b => inferInstanceAs (Decidable (b.version ≤ a.version))

/-- The active version of one preset, without regard to what shadows it.

Source: `repo.go` Get -/
def get (t : PresetTable) (k : PresetKey) : Except GoError Preset :=
  match first newestFirst (t.rows.filter fun r => r.key = k ∧ r.isActive) with
  | some r => .ok r.full
  | none => .error errNotFound

/-- `ORDER BY name, version DESC` -/
def byNameNewest (a b : Row) : Prop := if a.name = b.name then newestFirst a b else a.name < b.name

instance : DecidableRel byNameNewest := fun a b => by
  unfold byNameNewest
  infer_instance

/-- The presets of one owner.

Source: `repo.go` List -/
def list (t : PresetTable) (scope : Scope) (clientID : Option UUID) (includeInactive : Bool) :
    List Preset :=
  ((t.rows.filter fun r => r.scope = scope ∧ r.clientID = clientID ∧
    (includeInactive ∨ r.isActive)).insertionSort byNameNewest).map Row.full

/-! ## Sequences of calls -/

/-- A call that writes, with the id and the time that the database gives it. -/
inductive Op
  | create (id : UUID) (now : Int) (p : CreateParams)
  | update (id : UUID) (now : Int) (p : CreateParams)
  | deactivate (now : Int) (k : PresetKey)

/-- The preset that the call is about. -/
def Op.key : Op → PresetKey
  | .create _ _ p => p.key
  | .update _ _ p => p.key
  | .deactivate _ k => k

/-- The table after a call; a call that fails leaves it as it was. -/
def apply (t : PresetTable) : Op → PresetTable
  | .create id now p =>
      match create t id now p with
      | .ok x => x.1
      | .error _ => t
  | .update id now p =>
      match update t id now p with
      | .ok x => x.1
      | .error _ => t
  | .deactivate now k =>
      match deactivate t now k with
      | .ok t' => t'
      | .error _ => t

/-- The table after a sequence of calls. -/
def run (t : PresetTable) (ops : List Op) : PresetTable := ops.foldl apply t

variable {t t' : PresetTable} {r a b : Row} {k : PresetKey} {op : Op} {clientID : Option UUID}
  {name : String}

/-! ## What the calls do -/

/-- The row that Create inserts is of the preset that was asked for. -/
@[simp] theorem CreateParams.row_key (p : CreateParams) (id : UUID) (now : Int) (version : Nat) :
    (p.row id now version).key = p.key := rfl

/-- A row that is deactivated keeps its preset. -/
@[simp] theorem Row.deactivate_key (now : Int) (r : Row) : (r.deactivate now).key = r.key := rfl

/-- A row that is deactivated keeps its version. -/
@[simp] theorem Row.deactivate_version (now : Int) (r : Row) :
    (r.deactivate now).version = r.version := rfl

/-- An insert that succeeds adds the row. -/
theorem insertRow_ok (h : insertRow t r = .ok t') : t'.rows = t.rows ++ [r] := by
  unfold insertRow at h
  split at h
  · cases h
  · split at h
    · cases h
    · split at h
      · rename_i hins
        rw [← Except.ok.inj h]
        exact Table.rows_insert? hins
      · cases h

/-- The active row of a preset is one of its rows, and active. -/
theorem activeRow?_mem (h : activeRow? t k = some r) : r ∈ t.rows ∧ r.key = k ∧ r.isActive = true := by
  have hr := List.find?_some h
  simp only [decide_eq_true_eq] at hr
  exact ⟨List.mem_of_find?_eq_some h, hr⟩

/-- **What a call does.** It fails; or the preset has no active version and gets a new one; or its
active version is deactivated and it gets a new one; or its active version is deactivated. -/
theorem apply_cases (t : PresetTable) (op : Op) :
    apply t op = t ∨
      (∃ new, new.key = op.key ∧ new.operation = operationConvert ∧
        (∀ x ∈ t.rows, x.key = op.key → x.isActive = false) ∧
        (apply t op).rows = t.rows ++ [new]) ∨
      (∃ new now current, new.key = op.key ∧ new.operation = operationConvert ∧
        activeRow? t op.key = some current ∧
        (apply t op).rows = (deactivateVersion t now op.key current.version).rows ++ [new]) ∨
      (∃ now current, activeRow? t op.key = some current ∧
        apply t op = deactivateID t now current.id) := by
  cases op with
  | create id now p =>
      rcases hx : create t id now p with err | x
      · left
        simp only [apply, hx]
      · right
        left
        unfold create at hx
        split at hx
        · cases hx
        · rename_i hnone
          dsimp only at hx
          split at hx
          · rename_i t' hins
            refine ⟨p.row id now (maxVersion t p.key + 1), rfl, rfl, ?_, ?_⟩
            · simpa [Op.key] using hnone
            · simp only [apply, create, if_neg hnone, hins]
              exact insertRow_ok hins
          · cases hx
  | update id now p =>
      rcases hx : update t id now p with err | x
      · left
        simp only [apply, hx]
      · right
        right
        left
        unfold update at hx
        split at hx
        · cases hx
        · rename_i current hcur
          split at hx
          · rename_i t' hins
            refine ⟨p.row id now (current.version + 1), now, current, rfl, rfl, hcur, ?_⟩
            simp only [apply, update, hcur, hins]
            exact insertRow_ok hins
          · cases hx
  | deactivate now k =>
      rcases hx : activeRow? t k with _ | current
      · left
        simp only [apply, deactivate, hx]
      · right
        right
        right
        refine ⟨now, current, hx, ?_⟩
        simp only [apply, deactivate, hx]

/-! ## The invariant -/

/-- At most one version of each preset is active, and every row is a conversion. -/
structure Inv (t : PresetTable) : Prop where
  activeUnique : ∀ a ∈ t.rows, ∀ b ∈ t.rows, a.key = b.key → a.isActive = true →
    b.isActive = true → a = b
  converts : ∀ r ∈ t.rows, r.operation = operationConvert

/-- The empty table keeps the invariant. -/
theorem inv_empty : Inv (.empty Row.id) where
  activeUnique a ha := by cases ha
  converts r hr := by cases hr

/-- A new row keeps the invariant if its preset has no active version. -/
theorem Inv.snoc (h : Inv t) (hrows : t'.rows = t.rows ++ [r]) (hr : r.operation = operationConvert)
    (hnone : ∀ x ∈ t.rows, x.key = r.key → x.isActive = false) : Inv t' := by
  refine ⟨fun a ha b hb hk hact hbact => ?_, fun x hx => ?_⟩
  · rw [hrows, List.mem_append, List.mem_singleton] at ha hb
    rcases ha with ha | rfl <;> rcases hb with hb | rfl
    · exact h.activeUnique a ha b hb hk hact hbact
    · rw [hnone a ha hk] at hact
      cases hact
    · rw [hnone b hb hk.symm] at hbact
      cases hbact
    · rfl
  · rw [hrows, List.mem_append, List.mem_singleton] at hx
    rcases hx with hx | rfl
    · exact h.converts x hx
    · exact hr

/-- Deactivating rows keeps the invariant. -/
theorem Inv.deactivated (h : Inv t) (now : Int) (p : Row → Bool) :
    Inv (t.update p (Row.deactivate now) (Row.deactivate_id now)) := by
  refine ⟨fun a ha b hb hk hact hbact => ?_, fun x hx => ?_⟩
  · rcases Table.mem_update.mp ha with ⟨ha, _⟩ | ⟨a', _, _, rfl⟩
    · rcases Table.mem_update.mp hb with ⟨hb, _⟩ | ⟨b', _, _, rfl⟩
      · exact h.activeUnique a ha b hb hk hact hbact
      · cases hbact
    · cases hact
  · rcases Table.mem_update.mp hx with ⟨hx, _⟩ | ⟨x', hx', _, rfl⟩
    · exact h.converts x hx
    · exact h.converts x' hx'

/-- After the UPDATE of Update the preset has no active version. -/
theorem deactivateVersion_inactive (h : Inv t) (hr : activeRow? t k = some r) {now : Int} :
    ∀ x ∈ (deactivateVersion t now k r.version).rows, x.key = k → x.isActive = false := by
  obtain ⟨hmem, hkey, hact⟩ := activeRow?_mem hr
  intro x hx hxk
  rcases Table.mem_update.mp hx with ⟨hx, hp⟩ | ⟨x', _, _, rfl⟩
  · rcases hxa : x.isActive with _ | _
    · rfl
    · -- the only active version is the one that was deactivated
      have heq := h.activeUnique x hx r hmem (hxk.trans hkey.symm) hxa hact
      rw [heq] at hp
      simp [hkey] at hp
  · rfl

/-- **The step lemma.** -/
theorem Inv.apply (h : Inv t) (op : Op) : Inv (apply t op) := by
  rcases apply_cases t op with ht | ⟨new, hk, hop, hnone, hrows⟩ |
    ⟨new, now, current, hk, hop, hcur, hrows⟩ | ⟨now, current, hcur, ht⟩
  · rw [ht]
    exact h
  · exact h.snoc hrows hop fun x hx hxk => hnone x hx (hxk.trans hk)
  · have hd : Inv (deactivateVersion t now op.key current.version) := h.deactivated now _
    exact hd.snoc hrows hop fun x hx hxk => deactivateVersion_inactive h hcur x hx (hxk.trans hk)
  · rw [ht]
    exact h.deactivated now _

/-- In every table that the calls lead to, a preset has at most one active version. -/
theorem inv_run (h : Inv t) (ops : List Op) : Inv (run t ops) := by
  induction ops generalizing t with
  | nil => exact h
  | cons op ops ih => exact ih (h.apply op)

/-! ## Versions are never changed -/

/-- Every row stays as it is, or is deactivated. -/
def Keeps (t t' : PresetTable) : Prop :=
  ∀ r ∈ t.rows, r ∈ t'.rows ∨ ∃ x ∈ t'.rows, x.id = r.id ∧ x.isActive = false

/-- Nothing is lost. -/
theorem Keeps.refl (t : PresetTable) : Keeps t t := fun _ hr => .inl hr

/-- What is kept twice is kept. -/
theorem Keeps.trans {t'' : PresetTable} (h : Keeps t t') (h' : Keeps t' t'') : Keeps t t'' := by
  intro r hr
  rcases h r hr with hr' | ⟨x, hx, hid, hin⟩
  · exact h' r hr'
  · -- what is inactive is never active again
    rcases h' x hx with hx' | ⟨y, hy, hyid, hyin⟩
    · exact .inr ⟨x, hx', hid, hin⟩
    · exact .inr ⟨y, hy, hyid.trans hid, hyin⟩

/-- Deactivating rows loses none. -/
theorem keeps_update (t : PresetTable) (now : Int) (p : Row → Bool) :
    Keeps t (t.update p (Row.deactivate now) (Row.deactivate_id now)) := by
  intro r hr
  rcases hp : p r with _ | _
  · exact .inl (Table.mem_update.mpr (.inl ⟨hr, hp⟩))
  · exact .inr ⟨r.deactivate now, Table.mem_update.mpr (.inr ⟨r, hr, hp, rfl⟩), rfl, rfl⟩

/-- An insert loses none. -/
theorem keeps_snoc (hrows : t'.rows = t.rows ++ [r]) : Keeps t t' := by
  intro x hx
  rw [hrows]
  exact .inl (List.mem_append_left _ hx)

/-- **The step lemma.** -/
theorem keeps_apply (t : PresetTable) (op : Op) : Keeps t (apply t op) := by
  rcases apply_cases t op with ht | ⟨new, -, -, -, hrows⟩ | ⟨new, now, current, -, -, -, hrows⟩ |
    ⟨now, current, -, ht⟩
  · rw [ht]
    exact .refl t
  · exact keeps_snoc hrows
  · exact (keeps_update t now _).trans (keeps_snoc hrows)
  · rw [ht]
    exact keeps_update t now _

/-- Whatever is called, every row stays as it is, or is deactivated. -/
theorem keeps_run (t : PresetTable) (ops : List Op) : Keeps t (run t ops) := by
  induction ops generalizing t with
  | nil => exact .refl t
  | cons op ops ih => exact (keeps_apply t op).trans (ih (apply t op))

/-- A row that is active later is the row with its id of before. -/
theorem Keeps.eq_of_active (h : Keeps t t') (ha : a ∈ t.rows) (hb : b ∈ t'.rows) (hid : b.id = a.id)
    (hact : b.isActive = true) : b = a := by
  rcases h a ha with ha' | ⟨x, hx, hxid, hin⟩
  · exact t'.rows_injOn hb ha' hid
  · obtain rfl : b = x := t'.rows_injOn hb hx (hid.trans hxid.symm)
    rw [hin] at hact
    cases hact

/-! ## The three lookups agree -/

instance : Std.Total userFirst where
  total a b := by
    unfold userFirst
    by_cases h : a.scope = b.scope
    · simp only [h, if_true]
      exact Nat.le_total _ _
    · rcases ha : a.scope <;> rcases hb : b.scope <;> simp_all

instance : IsTrans Row userFirst where
  trans a b c hab hbc := by
    unfold userFirst at *
    rcases ha : a.scope <;> rcases hb : b.scope <;> rcases hc : c.scope <;> simp_all <;> omega

/-- The preset of a client with this name. -/
def userKey (c : UUID) (name : String) : PresetKey := ⟨.user, some c, name⟩

/-- The system preset with this name. -/
def systemKey (name : String) : PresetKey := ⟨.system, none, name⟩

/-- The effective preset: the client's active one, else the active system one. -/
def IsEffective (t : PresetTable) (c : UUID) (name : String) : Option Row → Prop
  | some r => r ∈ t.rows ∧ r.isActive = true ∧ (r.key = userKey c name ∨ r.key = systemKey name ∧
      ∀ u ∈ t.rows, u.key = userKey c name → u.isActive = false)
  | none => ∀ r ∈ t.rows, r.isActive = true → r.key ≠ userKey c name ∧ r.key ≠ systemKey name

/-- The rows that Resolve can choose from: active, and of the client or of the system. -/
theorem effective_iff {c : UUID} : effective (some c) name r = true ↔
    r.isActive = true ∧ r.operation = operationConvert ∧
      (r.key = userKey c name ∨ r.key = systemKey name) := by
  simp only [effective, ownedBy, Row.key, userKey, systemKey, PresetKey.mk.injEq,
    decide_eq_true_eq, Option.isSome_some, true_and, Bool.decide_and, Bool.and_eq_true,
    decide_eq_true_eq]
  tauto

/-- A name is shadowed by an active preset of the client. -/
theorem shadowed_iff {c : UUID} : shadowed t (some c) name = true ↔
    ∃ u ∈ t.rows, u.key = userKey c name ∧ u.isActive = true := by
  simp only [shadowed, List.any_eq_true, ownedBy, Row.key, userKey, PresetKey.mk.injEq,
    decide_eq_true_eq, Option.isSome_some, true_and]
  constructor
  · rintro ⟨u, hu, hs, ho, hn, ha⟩
    exact ⟨u, hu, ⟨hs, ho, hn⟩, ha⟩
  · rintro ⟨u, hu, ⟨hs, ho, hn⟩, ha⟩
    exact ⟨u, hu, hs, ho, hn, ha⟩

/-- The rows that a client is listed under a name. -/
theorem listed_iff {c : UUID} : (r.name = name ∧ listed t (some c) false r = true) ↔
    r.isActive = true ∧ (r.key = userKey c name ∨
      r.key = systemKey name ∧ ∀ u ∈ t.rows, u.key = userKey c name → u.isActive = false) := by
  have hsh : ¬ shadowed t (some c) name = true ↔
      ∀ u ∈ t.rows, u.key = userKey c name → u.isActive = false := by
    rw [shadowed_iff]
    simp
  rw [← hsh]
  simp only [listed, ownedBy, Row.key, userKey, systemKey, PresetKey.mk.injEq, decide_eq_true_eq,
    Option.isSome_some, true_and, Bool.false_eq_true, false_or]
  constructor
  · rintro ⟨rfl, ⟨h₁, h₂⟩ | ⟨h₁, h₂, h₃⟩, ha⟩
    · exact ⟨ha, .inl ⟨h₁, h₂, rfl⟩⟩
    · exact ⟨ha, .inr ⟨⟨h₁, h₂, rfl⟩, h₃⟩⟩
  · rintro ⟨ha, ⟨h₁, h₂, rfl⟩ | ⟨⟨h₁, h₂, rfl⟩, h₃⟩⟩
    · exact ⟨rfl, .inl ⟨h₁, h₂⟩, ha⟩
    · exact ⟨rfl, .inr ⟨h₁, h₂, h₃⟩, ha⟩

/-- Every name has its effective preset or none. -/
theorem exists_isEffective (t : PresetTable) (c : UUID) (name : String) :
    ∃ o, IsEffective t c name o := by
  by_cases hu : ∃ u ∈ t.rows, u.key = userKey c name ∧ u.isActive = true
  · obtain ⟨u, hu, hk, ha⟩ := hu
    exact ⟨some u, hu, ha, .inl hk⟩
  · have hno : ∀ u ∈ t.rows, u.key = userKey c name → u.isActive = false := by
      intro u hm hk
      by_contra ha
      exact hu ⟨u, hm, hk, by simpa using ha⟩
    by_cases hs : ∃ r ∈ t.rows, r.key = systemKey name ∧ r.isActive = true
    · obtain ⟨r, hr, hk, ha⟩ := hs
      exact ⟨some r, hr, ha, .inr ⟨hk, hno⟩⟩
    · refine ⟨none, fun r hr ha => ⟨fun hk => ?_, fun hk => hs ⟨r, hr, hk, ha⟩⟩⟩
      rw [hno r hr hk] at ha
      cases ha

/-- The row that Resolve and GetForClient find. -/
theorem effectiveRow?_eq (h : Inv t) {c : UUID} {o : Option Row} (ho : IsEffective t c name o) :
    effectiveRow? t (some c) name = o := by
  cases o with
  | none =>
      rw [effectiveRow?, first_eq_none_iff, List.filter_eq_nil_iff]
      intro r hr he
      obtain ⟨ha, _, hk⟩ := effective_iff.mp he
      obtain ⟨h₁, h₂⟩ := ho r hr ha
      exact hk.elim h₁ h₂
  | some r =>
      obtain ⟨hr, ha, hk⟩ := ho
      have hmem : r ∈ t.rows.filter (effective (some c) name) :=
        List.mem_filter.mpr ⟨hr, effective_iff.mpr ⟨ha, h.converts r hr, hk.imp_right And.left⟩⟩
      refine first_eq_some hmem fun b hb hbr => ?_
      obtain ⟨hb, he⟩ := List.mem_filter.mp hb
      obtain ⟨hba, _, hbk⟩ := effective_iff.mp he
      rcases hk with hk | ⟨hk, hno⟩
      · rcases hbk with hbk | hbk
        · exact h.activeUnique b hb r hr (hbk.trans hk.symm) hba ha
        · -- a system preset does not come before a preset of the client
          have hbs : b.scope = .system := congrArg PresetKey.scope hbk
          have hrs : r.scope = .user := congrArg PresetKey.scope hk
          simp [userFirst, hbs, hrs] at hbr
      · rcases hbk with hbk | hbk
        · rw [hno b hb hbk] at hba
          cases hba
        · exact h.activeUnique b hb r hr (hbk.trans hk.symm) hba ha

/-- The rows of ListForClient with this name. -/
theorem filter_listed_eq (h : Inv t) {c : UUID} {o : Option Row} (ho : IsEffective t c name o) :
    (t.rows.filter (listed t (some c) false)).filter (fun r => r.name = name) = o.toList := by
  rw [List.filter_filter]
  cases o with
  | none =>
      rw [Option.toList_none, List.filter_eq_nil_iff]
      intro r hr hp
      simp only [Bool.and_eq_true, decide_eq_true_eq] at hp
      obtain ⟨ha, hk⟩ := listed_iff.mp hp
      obtain ⟨h₁, h₂⟩ := ho r hr ha
      exact hk.elim h₁ fun hk => h₂ hk.1
  | some r =>
      obtain ⟨hr, ha, hk⟩ := ho
      rw [Option.toList_some]
      refine filter_eq_singleton t.nodup_rows hr ?_ fun b hb hp => ?_
      · simp only [Bool.and_eq_true, decide_eq_true_eq]
        exact listed_iff.mpr ⟨ha, hk⟩
      · simp only [Bool.and_eq_true, decide_eq_true_eq] at hp
        obtain ⟨hba, hbk⟩ := listed_iff.mp hp
        rcases hk with hk | ⟨hk, hno⟩ <;> rcases hbk with hbk | ⟨hbk, hbno⟩
        · exact h.activeUnique b hb r hr (hbk.trans hk.symm) hba ha
        · rw [hbno r hr hk] at ha
          cases ha
        · rw [hno b hb hbk] at hba
          cases hba
        · exact h.activeUnique b hb r hr (hbk.trans hk.symm) hba ha

/-- The list has one preset of a name at most: the one that Resolve finds. -/
theorem filter_listForClient_eq (h : Inv t) {c : UUID} {o : Option Row}
    (ho : IsEffective t c name o) :
    (listForClient t (some c) false).filter (fun p => p.name = name) = o.toList.map Row.full := by
  have hl := filter_listed_eq h ho
  have hsorted : ((t.rows.filter (listed t (some c) false)).insertionSort byName).filter
      (fun r => r.name = name) = o.toList := by
    cases o with
    | none => exact filter_insertionSort_eq_nil byName hl
    | some r => exact filter_insertionSort_eq_singleton byName hl
  rw [listForClient, List.filter_map, ← hsorted]
  rfl

/-! ## Other clients -/

/-- The rows that a lookup of the client can see. -/
def relevant (c : UUID) (r : Row) : Bool := r.key.scope = .system ∨ r.key.clientID = some c

/-- The call is about a preset of somebody else. -/
def Op.foreign (c : UUID) (op : Op) : Prop := op.key.scope = .user ∧ op.key.clientID ≠ some c

/-- The rows of an operation on foreign presets are none that the client can see. -/
theorem not_relevant_of_foreign {c : UUID} (h : op.foreign c) (hk : r.key = op.key) :
    relevant c r = false := by
  unfold relevant
  rw [hk]
  simp [h.1, h.2]

/-- Deactivating rows that the client cannot see does not change what it sees. -/
theorem filter_relevant_update {c : UUID} {now : Int} {p : Row → Bool}
    (hp : ∀ r ∈ t.rows, p r = true → relevant c r = false) :
    (t.update p (Row.deactivate now) (Row.deactivate_id now)).rows.filter (relevant c) =
      t.rows.filter (relevant c) := by
  have hrel : ∀ r, relevant c (r.deactivate now) = relevant c r := fun r => rfl
  have hlist : ∀ l : List Row, (∀ r ∈ l, p r = true → relevant c r = false) →
      (l.map fun r => if p r then r.deactivate now else r).filter (relevant c) =
        l.filter (relevant c) := by
    intro l hl
    induction l with
    | nil => rfl
    | cons r l ih =>
        have ih' := ih fun x hx => hl x (List.mem_cons_of_mem _ hx)
        rcases hpr : p r with _ | _
        · simp only [List.map_cons, hpr, Bool.false_eq_true, if_false, List.filter_cons, ih']
        · have hr := hl r List.mem_cons_self hpr
          simp only [List.map_cons, hpr, if_true, List.filter_cons, hrel, hr, Bool.false_eq_true,
            if_false, ih']
  exact hlist t.rows hp

/-- A call about a preset of somebody else leaves what the client can see as it was. -/
theorem filter_relevant_apply {c : UUID} (h : op.foreign c) :
    (apply t op).rows.filter (relevant c) = t.rows.filter (relevant c) := by
  have hsnoc : ∀ (l : List Row) (new : Row), new.key = op.key →
      (l ++ [new]).filter (relevant c) = l.filter (relevant c) := by
    intro l new hk
    rw [List.filter_append, List.filter_singleton, not_relevant_of_foreign h hk]
    simp
  rcases apply_cases t op with ht | ⟨new, hk, _, _, hrows⟩ |
    ⟨new, now, current, hk, _, _, hrows⟩ | ⟨now, current, hcur, ht⟩
  · rw [ht]
  · rw [hrows, hsnoc _ _ hk]
  · rw [hrows, hsnoc _ _ hk]
    refine filter_relevant_update fun r _ hp => ?_
    simp only [decide_eq_true_eq] at hp
    exact not_relevant_of_foreign h hp.1
  · rw [ht]
    obtain ⟨hmem, hkey, _⟩ := activeRow?_mem hcur
    refine filter_relevant_update fun r hr hp => ?_
    have heq : r = current := t.rows_injOn hr hmem (by simpa using hp)
    rw [heq]
    exact not_relevant_of_foreign h hkey

/-- Neither do operations on foreign presets, however many. -/
theorem filter_relevant_run {c : UUID} (ops : List Op) (h : ∀ op ∈ ops, op.foreign c) :
    (run t ops).rows.filter (relevant c) = t.rows.filter (relevant c) := by
  induction ops generalizing t with
  | nil => rfl
  | cons op ops ih =>
      have hrest := ih (t := apply t op) fun o ho => h o (List.mem_cons_of_mem _ ho)
      exact hrest.trans (filter_relevant_apply (h op List.mem_cons_self))

/-- A query that selects relevant rows only. -/
theorem filter_eq_of_relevant {c : UUID} {q : Row → Bool} (hq : ∀ r, q r = true → relevant c r = true)
    (h : t'.rows.filter (relevant c) = t.rows.filter (relevant c)) :
    t'.rows.filter q = t.rows.filter q := by
  have hsplit : ∀ l : List Row, l.filter q = (l.filter (relevant c)).filter q := by
    intro l
    rw [List.filter_filter]
    refine List.filter_congr fun r _ => ?_
    rcases hr : q r with _ | _
    · simp
    · simp [hq r hr]
  rw [hsplit t'.rows, hsplit t.rows, h]

/-- What Resolve can choose from is relevant to the client. -/
theorem relevant_of_effective {c : UUID} (h : effective (some c) name r = true) :
    relevant c r = true := by
  obtain ⟨_, _, hk⟩ := effective_iff.mp h
  rcases hk with hk | hk <;> simp [relevant, hk, userKey, systemKey]

/-- What is listed for the client is relevant to it. -/
theorem relevant_of_listed {c : UUID} {includeInactive : Bool}
    (h : listed t (some c) includeInactive r = true) : relevant c r = true := by
  simp only [listed, ownedBy, decide_eq_true_eq, Option.isSome_some, true_and] at h
  rcases h.1 with ⟨_, ho⟩ | ⟨hs, _, _⟩
  · simp [relevant, Row.key, ho]
  · simp [relevant, Row.key, hs]

/-- Whether a name is shadowed depends on what the client can see only. -/
theorem shadowed_congr {c : UUID} (h : t'.rows.filter (relevant c) = t.rows.filter (relevant c))
    (name : String) : shadowed t' (some c) name = shadowed t (some c) name := by
  have hmem : ∀ u, relevant c u = true → (u ∈ t'.rows ↔ u ∈ t.rows) := by
    intro u hu
    have := congrArg (u ∈ ·) h
    simpa [List.mem_filter, hu] using this
  have hrel : ∀ u : Row, u.key = userKey c name → relevant c u = true := by
    intro u hu
    simp [relevant, hu, userKey]
  rw [Bool.eq_iff_iff, shadowed_iff, shadowed_iff]
  constructor
  · rintro ⟨u, hu, hk, ha⟩
    exact ⟨u, (hmem u (hrel u hk)).mp hu, hk, ha⟩
  · rintro ⟨u, hu, hk, ha⟩
    exact ⟨u, (hmem u (hrel u hk)).mpr hu, hk, ha⟩

/-- **Other clients change nothing.** After any calls about presets of other clients the three lookups
of a client answer as before. -/
theorem lookups_congr {c : UUID} (h : t'.rows.filter (relevant c) = t.rows.filter (relevant c)) :
    resolve t' c name = resolve t c name ∧
      getForClient t' (some c) name = getForClient t (some c) name ∧
      ∀ includeInactive,
        listForClient t' (some c) includeInactive = listForClient t (some c) includeInactive := by
  have heff : effectiveRow? t' (some c) name = effectiveRow? t (some c) name := by
    unfold effectiveRow?
    rw [filter_eq_of_relevant (fun r => relevant_of_effective) h]
  refine ⟨?_, ?_, fun includeInactive => ?_⟩
  · rw [resolve, heff, resolve]
  · rw [getForClient, heff, getForClient]
  · have hlisted : listed t' (some c) includeInactive = listed t (some c) includeInactive := by
      funext r
      simp only [listed, shadowed_congr h]
    unfold listForClient
    rw [hlisted, filter_eq_of_relevant (fun r => relevant_of_listed) h]

/-- **The lookups of a client.** In every table that Create, Update and Deactivate lead to, Resolve,
GetForClient and the rows of ListForClient with a name all miss or all denote the effective preset of
that name; and nothing that other clients then do to their presets changes them. -/
theorem lookups_agree (hist : List Op) (c : UUID) (name : String) :
    (∃ o, IsEffective (run (.empty Row.id) hist) c name o ∧
      resolve (run (.empty Row.id) hist) c name =
        (match o with
          | some r => .ok r.resolved
          | none => .error errNotFound) ∧
      getForClient (run (.empty Row.id) hist) (some c) name =
        (match o with
          | some r => .ok r.full
          | none => .error errNotFound) ∧
      (listForClient (run (.empty Row.id) hist) (some c) false).filter (fun p => p.name = name) =
        o.toList.map Row.full) ∧
    ∀ ops : List Op, (∀ op ∈ ops, op.foreign c) →
      resolve (run (run (.empty Row.id) hist) ops) c name =
          resolve (run (.empty Row.id) hist) c name ∧
        getForClient (run (run (.empty Row.id) hist) ops) (some c) name =
          getForClient (run (.empty Row.id) hist) (some c) name ∧
        ∀ includeInactive,
          listForClient (run (run (.empty Row.id) hist) ops) (some c) includeInactive =
            listForClient (run (.empty Row.id) hist) (some c) includeInactive := by
  have hinv := inv_run inv_empty hist
  obtain ⟨o, ho⟩ := exists_isEffective (run (.empty Row.id) hist) c name
  refine ⟨⟨o, ho, ?_, ?_, filter_listForClient_eq hinv ho⟩, fun ops hops => ?_⟩
  · rw [resolve, effectiveRow?_eq hinv ho]
  · rw [getForClient, effectiveRow?_eq hinv ho]
  · exact lookups_congr (filter_relevant_run ops hops)

end OctoConv.Presets
