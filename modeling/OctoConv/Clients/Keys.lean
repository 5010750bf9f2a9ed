import OctoConv.Base.Errors
import OctoConv.Base.Keys
import OctoConv.Lib.Table

/-!
# The keys of a client

A client has two key slots. The primary is filled when the client is created and can only be revoked;
the secondary can be filled whenever it holds no active key. Either active key authenticates the
client.

Each operation is one transaction that locks the client's row, so it is one step; an operation that
fails leaves the table as it was.

Source: `internal/clients/repo.go`, `internal/db/migrations/0002_client_api_keys.sql`.

## Main results

* `getByKeyHash_iff` — a digest resolves exactly if it is active in some slot.
* `rotation_iff` — a client with an active key can be moved to a fresh one without a moment in which
  no key of its own authenticates, exactly if its primary key has not been revoked.
* `rotation_impossible` — a client that cannot.
-/

namespace OctoConv.Clients

open Conc

/-! ## The table and its operations -/

/-- A row of `clients`, without the columns that nothing here reads.

Source: `0002_client_api_keys.sql` -/
structure Client where
  id : UUID
  name : String
  apiKeyHash : Option String
  apiKeyHashSecondary : Option String
  primaryRevokedAt : Option Int
  secondaryRevokedAt : Option Int
deriving DecidableEq, Repr

/-- The table. -/
abbrev ClientTable := Table Client Client.id

/-- Source: `repo.go` ErrNotFound -/
def errNotFound : GoError := .new "client not found"

/-- A unique violation. -/
def duplicateKey (name : String) : GoError :=
  .new ("ERROR: duplicate key value violates unique constraint \"" ++ name ++
    "\" (SQLSTATE 23505)")

/-- The primary slot holds the digest and is not revoked. -/
def Client.primaryActive (c : Client) (keyHash : String) : Bool :=
  c.apiKeyHash = some keyHash ∧ c.primaryRevokedAt = none

/-- The secondary slot holds the digest and is not revoked. -/
def Client.secondaryActive (c : Client) (keyHash : String) : Bool :=
  c.apiKeyHashSecondary = some keyHash ∧ c.secondaryRevokedAt = none

/-- The condition of GetByKeyHash.

Source: `repo.go` GetByKeyHash -/
def Client.active (c : Client) (keyHash : String) : Bool :=
  c.primaryActive keyHash || c.secondaryActive keyHash

/-- The id and the name of a row with the digest in an active slot.

Source: `repo.go` GetByKeyHash -/
def getByKeyHash (t : ClientTable) (keyHash : String) : Except GoError (UUID × String) :=
  match t.rows.find? fun c => c.active keyHash with
  | some c => .ok (c.id, c.name)
  | none => .error errNotFound

/-- A new client, with the id that the database generates.

Source: `repo.go` Create -/
def create (t : ClientTable) (id : UUID) (name primaryKeyHash : String) :
    Except GoError ClientTable :=
  if t.rows.any fun c => c.apiKeyHash = some primaryKeyHash then
    .error ((duplicateKey "clients_api_key_hash_key").wrap "insert client")
  else
    match t.insert? ⟨id, name, some primaryKeyHash, none, none, none⟩ with
    | some t' => .ok t'
    | none => .error ((duplicateKey "clients_pkey").wrap "insert client")

/-- The update of AddSecondaryKey. -/
def Client.withSecondary (keyHash : String) (c : Client) : Client :=
  { c with apiKeyHashSecondary := some keyHash, secondaryRevokedAt := none }

/-- A client with a secondary key keeps its id. -/
theorem Client.withSecondary_id (keyHash : String) (c : Client) :
    (c.withSecondary keyHash).id = c.id := rfl

/-- A second key, if the slot holds no active one.

Source: `repo.go` AddSecondaryKey -/
def addSecondaryKey (t : ClientTable) (clientID : UUID) (keyHash : String) :
    Except GoError ClientTable :=
  match t.find? clientID with
  | none => .error errNotFound
  | some c =>
      if c.apiKeyHashSecondary ≠ none ∧ c.secondaryRevokedAt = none then
        .error (.new ("client " ++ clientID.text ++ " already has an active secondary key"))
      else if t.rows.any fun r => r.id ≠ clientID ∧ r.apiKeyHashSecondary = some keyHash then
        .error ((duplicateKey "clients_api_key_hash_secondary_key").wrap "add secondary key")
      else .ok (t.modify clientID (Client.withSecondary keyHash) (Client.withSecondary_id keyHash))

/-- The update of RevokeKey for a slot, if there is such a slot. -/
def revokeSlot (slot : String) (now : Int) : Option { f : Client → Client // ∀ c, (f c).id = c.id } :=
  if slot = "primary" then some ⟨fun c => { c with primaryRevokedAt := some now }, fun _ => rfl⟩
  else if slot = "secondary" then
    some ⟨fun c => { c with secondaryRevokedAt := some now }, fun _ => rfl⟩
  else none

/-- A slot is revoked; nothing is asked of its state.

Source: `repo.go` RevokeKey -/
def revokeKey (t : ClientTable) (clientID : UUID) (slot : String) (now : Int) :
    Except GoError ClientTable :=
  match revokeSlot slot now with
  | none =>
      .error (.new ("invalid key slot " ++ goQuote slot ++
        ": must be \"primary\" or \"secondary\""))
  | some f =>
      match t.find? clientID with
      | none => .error errNotFound
      | some _ => .ok (t.modify clientID f.1 f.2)

/-! ## Sequences of operations -/

/-- An operation. -/
inductive Op
  | create (id : UUID) (name primaryKeyHash : String)
  | addSecondaryKey (clientID : UUID) (keyHash : String)
  | revokeKey (clientID : UUID) (slot : String) (now : Int)
deriving DecidableEq, Repr

/-- The operation on a table. -/
def Op.exec (t : ClientTable) : Op → Except GoError ClientTable
  | .create id name hash => OctoConv.Clients.create t id name hash
  | .addSecondaryKey id hash => OctoConv.Clients.addSecondaryKey t id hash
  | .revokeKey id slot now => OctoConv.Clients.revokeKey t id slot now

/-- The table after an operation. -/
def apply (t : ClientTable) (op : Op) : ClientTable :=
  match op.exec t with
  | .ok t' => t'
  | .error _ => t

/-- The table after a sequence of operations. -/
def run (t : ClientTable) (ops : List Op) : ClientTable := ops.foldl apply t

/-- The operation is an AddSecondaryKey or a RevokeKey. -/
def Op.isKeyOp : Op → Bool
  | .create .. => false
  | _ => true

/-! ## What rotation asks for -/

/-- The digest authenticates the client. -/
def Authenticates (t : ClientTable) (id : UUID) (keyHash : String) : Prop :=
  ∃ c, t.find? id = some c ∧ c.active keyHash = true

/-- No slot holds the digest. -/
def Fresh (t : ClientTable) (keyHash : String) : Prop :=
  ∀ c ∈ t.rows, c.apiKeyHash ≠ some keyHash ∧ c.apiKeyHashSecondary ≠ some keyHash

/-- The operations move a client to the digest `h`: at their end it resolves to the client and none of
the digests that were active is, and some digest of the client is active at every moment. -/
structure Rotation (t : ClientTable) (c : Client) (h : String) (ops : List Op) : Prop where
  keyOps : ∀ op ∈ ops, op.isKeyOp
  resolves : getByKeyHash (run t ops) h = .ok (c.id, c.name)
  revoked : ∀ d, Authenticates t c.id d → ¬ Authenticates (run t ops) c.id d
  alive : ∀ pre, pre <+: ops → ∃ d, Authenticates (run t pre) c.id d

variable {t t' : ClientTable} {c : Client} {id : UUID} {d h : String}

/-! ## What the operations do -/

/-- A digest is active in a slot that was not revoked. -/
theorem active_iff : c.active d = true ↔
    c.apiKeyHash = some d ∧ c.primaryRevokedAt = none ∨
      c.apiKeyHashSecondary = some d ∧ c.secondaryRevokedAt = none := by
  simp [Client.active, Client.primaryActive, Client.secondaryActive]

/-- **A digest resolves exactly if it is active**, to some client for which it is. -/
theorem getByKeyHash_iff : (∃ x, getByKeyHash t d = .ok x) ↔ ∃ id, Authenticates t id d := by
  unfold getByKeyHash
  constructor
  · rintro ⟨x, hx⟩
    split at hx
    · rename_i c hf
      have ha := List.find?_some hf
      exact ⟨c.id, c, Table.mem_rows_iff.mp (List.mem_of_find?_eq_some hf), ha⟩
    · cases hx
  · rintro ⟨id, c, hc, ha⟩
    split
    · exact ⟨_, rfl⟩
    · rename_i hf
      exact absurd ha (List.find?_eq_none.mp hf c (Table.mem_of_find? hc))

/-- A digest that is active for one client only resolves to it. -/
theorem getByKeyHash_eq (hc : t.find? id = some c) (ha : c.active d = true)
    (honly : ∀ r ∈ t.rows, r.active d = true → r.id = id) :
    getByKeyHash t d = .ok (c.id, c.name) := by
  unfold getByKeyHash
  split
  · rename_i r hf
    have hr := List.mem_of_find?_eq_some hf
    have hactive := List.find?_some hf
    have hid : r.id = id := honly r hr hactive
    have heq : r = c := t.rows_injOn hr (Table.mem_of_find? hc) (by rw [hid, Table.key_of_find? hc])
    rw [heq]
  · rename_i hf
    exact absurd ha (List.find?_eq_none.mp hf c (Table.mem_of_find? hc))

/-- A secondary key is added where the slot is free and the key new. -/
theorem apply_addSecondaryKey (hc : t.find? id = some c)
    (hfree : ¬ (c.apiKeyHashSecondary ≠ none ∧ c.secondaryRevokedAt = none)) (hh : Fresh t h) :
    apply t (.addSecondaryKey id h) = t.modify id (Client.withSecondary h)
      (Client.withSecondary_id h) := by
  have hnone : (t.rows.any fun r => r.id ≠ id ∧ r.apiKeyHashSecondary = some h) = false := by
    rw [List.any_eq_false]
    intro r hr
    simp [(hh r hr).2]
  simp only [apply, Op.exec, addSecondaryKey, hc, if_neg hfree, hnone, Bool.false_eq_true,
    if_false]

/-- A key is revoked where the client is. -/
theorem apply_revokeKey {slot : String} {now : Int}
    {f : { f : Client → Client // ∀ c, (f c).id = c.id }} (hf : revokeSlot slot now = some f)
    (hc : t.find? id = some c) : apply t (.revokeKey id slot now) = t.modify id f.1 f.2 := by
  simp only [apply, Op.exec, revokeKey, hf, hc]

/-- **What an operation on keys does.** It fails, it fills a secondary slot that holds no active key,
or it revokes a slot. -/
theorem apply_cases {op : Op} (hop : op.isKeyOp) :
    apply t op = t ∨
      (∃ id h, ∃ c, t.find? id = some c ∧
        ¬ (c.apiKeyHashSecondary ≠ none ∧ c.secondaryRevokedAt = none) ∧
        apply t op = t.modify id (Client.withSecondary h) (Client.withSecondary_id h)) ∨
      (∃ id slot now f, revokeSlot slot now = some f ∧ apply t op = t.modify id f.1 f.2) := by
  cases op with
  | create id name hash => cases hop
  | addSecondaryKey id h =>
      rcases hx : addSecondaryKey t id h with err | t'
      · left
        simp only [apply, Op.exec, hx]
      · have happly : apply t (.addSecondaryKey id h) = t' := by simp only [apply, Op.exec, hx]
        unfold addSecondaryKey at hx
        split at hx
        · cases hx
        · rename_i c hc
          split at hx
          · cases hx
          · rename_i hfree
            split at hx
            · cases hx
            · rw [happly, ← Except.ok.inj hx]
              exact .inr (.inl ⟨id, h, c, hc, hfree, rfl⟩)
  | revokeKey id slot now =>
      rcases hf : revokeSlot slot now with _ | f
      · left
        simp only [apply, Op.exec, revokeKey, hf]
      · rcases hc : t.find? id with _ | c
        · left
          simp only [apply, Op.exec, revokeKey, hf, hc]
        · exact .inr (.inr ⟨id, slot, now, f, hf, apply_revokeKey hf hc⟩)

/-- A slot is revoked. -/
theorem revokeSlot_cases {slot : String} {now : Int}
    {f : { f : Client → Client // ∀ c, (f c).id = c.id }} (hf : revokeSlot slot now = some f) :
    (∀ c, f.1 c = { c with primaryRevokedAt := some now }) ∨
      ∀ c, f.1 c = { c with secondaryRevokedAt := some now } := by
  unfold revokeSlot at hf
  split at hf
  · rw [← Option.some.inj hf]
    exact .inl fun _ => rfl
  · split at hf
    · rw [← Option.some.inj hf]
      exact .inr fun _ => rfl
    · cases hf

/-! ## Every client keeps its primary digest -/

/-- Every client has a primary digest. -/
def HasPrimary (t : ClientTable) : Prop := ∀ c ∈ t.rows, c.apiKeyHash ≠ none

/-- A client keeps its primary key unless it is changed. -/
theorem HasPrimary.modify {f : Client → Client} {hf : ∀ c, (f c).id = c.id}
    (h : HasPrimary t) (hk : ∀ c, (f c).apiKeyHash = c.apiKeyHash) :
    HasPrimary (t.modify id f hf) := by
  intro c hc
  obtain ⟨c', hc', rfl⟩ := List.mem_map.mp hc
  split
  · rw [hk]
    exact h c' hc'
  · exact h c' hc'

/-- A client is created with a primary key. -/
theorem HasPrimary.create {name hash : String} (h : HasPrimary t)
    (ht : Clients.create t id name hash = .ok t') : HasPrimary t' := by
  unfold Clients.create at ht
  split at ht
  · cases ht
  · split at ht
    · rename_i hins
      obtain rfl := Except.ok.inj ht
      intro c hc
      rw [Table.rows_insert? hins, List.mem_append, List.mem_singleton] at hc
      rcases hc with hc | rfl
      · exact h c hc
      · simp
    · cases ht

/-- Every operation keeps the primary keys. -/
theorem HasPrimary.apply (h : HasPrimary t) (op : Op) : HasPrimary (apply t op) := by
  rcases hop : op.isKeyOp with _ | _
  · cases op with
    | create id name hash =>
        rcases hx : Clients.create t id name hash with err | t'
        · simpa only [Clients.apply, Op.exec, hx] using h
        · simpa only [Clients.apply, Op.exec, hx] using h.create hx
    | addSecondaryKey id hash => cases hop
    | revokeKey id slot now => cases hop
  · rcases apply_cases hop with ht | ⟨id, hash, c, _, _, ht⟩ | ⟨id, slot, now, f, hf, ht⟩
    · rw [ht]
      exact h
    · rw [ht]
      exact h.modify fun _ => rfl
    · rw [ht]
      refine h.modify fun c => ?_
      rcases revokeSlot_cases hf with hf | hf <;> rw [hf]

/-- So do operations in a row. -/
theorem hasPrimary_run (ops : List Op) (h : HasPrimary t) : HasPrimary (run t ops) := by
  induction ops generalizing t with
  | nil => exact h
  | cons op ops ih => exact ih (h.apply op)

/-! ## A client whose primary key is revoked -/

/-- Only the secondary slot of the client is active, with this digest. -/
structure Stuck (t : ClientTable) (id : UUID) (d : String) (c : Client) : Prop where
  row : t.find? id = some c
  primary : c.primaryRevokedAt ≠ none
  secondary : c.apiKeyHashSecondary = some d
  notRevoked : c.secondaryRevokedAt = none

/-- A client that is stuck authenticates with the key that is left. -/
theorem Stuck.authenticates (hs : Stuck t id d c) : Authenticates t id d :=
  ⟨c, hs.row, active_iff.mpr (.inr ⟨hs.secondary, hs.notRevoked⟩)⟩

/-- As long as some key of a stuck client is active, it stays stuck with the same digest. -/
theorem Stuck.apply (hs : Stuck t id d c) {op : Op} (hop : op.isKeyOp)
    (halive : ∃ d', Authenticates (apply t op) id d') : ∃ c', Stuck (apply t op) id d c' := by
  rcases apply_cases (t := t) hop with ht | ⟨id', h, c', hc', hfree, ht⟩ | ⟨id', slot, now, f, hf, ht⟩
  · rw [ht]
    exact ⟨c, hs⟩
  · -- the slot of the stuck client is taken, so the operation is another client's
    have hne : id ≠ id' := by
      rintro rfl
      obtain rfl : c = c' := Option.some.inj (hs.row.symm.trans hc')
      exact hfree ⟨by rw [hs.secondary]; simp, hs.notRevoked⟩
    rw [ht]
    exact ⟨c, by rw [Table.find?_modify_ne _ hne]; exact hs.row, hs.primary, hs.secondary,
      hs.notRevoked⟩
  · by_cases hid : id = id'
    · subst hid
      have hrow : (t.modify id f.1 f.2).find? id = some (f.1 c) := by
        rw [Table.find?_modify_self, hs.row, Option.map_some]
      rcases revokeSlot_cases hf with hf | hf
      · rw [ht]
        exact ⟨f.1 c, hrow, by simp [hf], by simp [hf, hs.secondary], by simp [hf, hs.notRevoked]⟩
      · -- a revocation of the last active key
        obtain ⟨d', c', hc', ha⟩ := halive
        rw [ht, hrow] at hc'
        obtain rfl := Option.some.inj hc'
        rw [hf] at ha
        simp [active_iff, hs.primary] at ha
    · rw [ht]
      exact ⟨c, by rw [Table.find?_modify_ne _ hid]; exact hs.row, hs.primary, hs.secondary,
        hs.notRevoked⟩

/-- Operations on keys leave a stuck client stuck, as long as it always authenticates. -/
theorem Stuck.run {ops : List Op} (hs : Stuck t id d c) (hops : ∀ op ∈ ops, op.isKeyOp)
    (halive : ∀ pre, pre <+: ops → ∃ d', Authenticates (run t pre) id d') :
    ∃ c', Stuck (run t ops) id d c' := by
  induction ops generalizing t c with
  | nil => exact ⟨c, hs⟩
  | cons op ops ih =>
      have hfirst : ∃ d', Authenticates (Clients.apply t op) id d' :=
        halive [op] (List.cons_prefix_cons.mpr ⟨rfl, List.nil_prefix⟩)
      obtain ⟨c', hs'⟩ := hs.apply (hops op List.mem_cons_self) hfirst
      refine ih hs' (fun o ho => hops o (List.mem_cons_of_mem _ ho)) fun pre hpre => ?_
      exact halive (op :: pre) (List.cons_prefix_cons.mpr ⟨rfl, hpre⟩)

/-- **A client whose primary key is revoked keeps the key it has.** -/
theorem not_rotation (hc : t.find? id = some c) (hp : c.primaryRevokedAt ≠ none)
    (ha : ∃ d, c.active d = true) (ops : List Op) : ¬ Rotation t c h ops := by
  intro hr
  obtain ⟨d, hd⟩ := ha
  have hid := Table.key_of_find? hc
  rcases active_iff.mp hd with ⟨_, hn⟩ | ⟨hsec, hn⟩
  · exact hp hn
  · have hs : Stuck t c.id d c := ⟨by rw [hid]; exact hc, hp, hsec, hn⟩
    obtain ⟨c', hs'⟩ := hs.run hr.keyOps hr.alive
    exact hr.revoked d hs.authenticates hs'.authenticates

/-! ## A client whose primary key is active -/

/-- Revoking the slot `primary` sets its time and nothing else. -/
theorem revokeSlot_primary (now : Int) : ∃ f, revokeSlot "primary" now = some f ∧
    ∀ c, f.1 c = { c with primaryRevokedAt := some now } :=
  ⟨_, if_pos rfl, fun _ => rfl⟩

/-- So it is with the slot `secondary`. -/
theorem revokeSlot_secondary (now : Int) : ∃ f, revokeSlot "secondary" now = some f ∧
    ∀ c, f.1 c = { c with secondaryRevokedAt := some now } :=
  ⟨_, (if_neg (by decide)).trans (if_pos rfl), fun _ => rfl⟩

/-- A row after a modification of the row `id`. -/
theorem mem_modify {f : Client → Client} {hf : ∀ c, (f c).id = c.id} {r : Client}
    (hr : r ∈ (t.modify id f hf).rows) : r ∈ t.rows ∨ ∃ r' ∈ t.rows, r'.id = id ∧ r = f r' := by
  obtain ⟨r', hr', rfl⟩ := List.mem_map.mp hr
  split
  · rename_i hid
    exact .inr ⟨r', hr', hid, rfl⟩
  · exact .inl hr'

/-- The two steps of a rotation: the fresh key, then the end of the primary. -/
def rotationSteps (id : UUID) (h : String) (now : Int) : List Op :=
  [.addSecondaryKey id h, .revokeKey id "primary" now]

/-- With a free secondary slot two steps suffice. -/
theorem rotation_of_free (hc : t.find? id = some c) (hp : c.primaryRevokedAt = none)
    (hprim : c.apiKeyHash ≠ none)
    (hfree : ¬ (c.apiKeyHashSecondary ≠ none ∧ c.secondaryRevokedAt = none)) (hh : Fresh t h)
    (now : Int) :
    getByKeyHash (run t (rotationSteps id h now)) h = .ok (c.id, c.name) ∧
      (∀ d, Authenticates (run t (rotationSteps id h now)) id d → d = h) ∧
      ∀ pre, pre <+: rotationSteps id h now → ∃ d, Authenticates (run t pre) id d := by
  obtain ⟨p, hp'⟩ := Option.ne_none_iff_exists'.mp hprim
  obtain ⟨f, hf, hfc⟩ := revokeSlot_primary now
  -- the table after the first step, and the client's row in it
  have ht₁ := apply_addSecondaryKey hc hfree hh
  have hc₁ : (apply t (.addSecondaryKey id h)).find? id = some (c.withSecondary h) := by
    rw [ht₁, Table.find?_modify_self, hc, Option.map_some]
  -- the table after the second step
  have ht₂ := apply_revokeKey hf hc₁
  have hc₂ : (run t (rotationSteps id h now)).find? id = some (f.1 (c.withSecondary h)) := by
    show (apply (apply t (.addSecondaryKey id h)) (.revokeKey id "primary" now)).find? id = _
    rw [ht₂, Table.find?_modify_self, hc₁, Option.map_some]
  have hactive : (f.1 (c.withSecondary h)).active h = true :=
    active_iff.mpr (.inr ⟨by rw [hfc]; rfl, by rw [hfc]; rfl⟩)
  refine ⟨?_, ?_, ?_⟩
  · have hres := getByKeyHash_eq hc₂ hactive ?_
    · rw [hres, hfc]
      rfl
    · -- no other row holds the fresh digest
      have hother : ∀ r ∈ t.rows, r.active h = true → r.id = id := by
        intro r hr ha
        rcases active_iff.mp ha with ⟨he, _⟩ | ⟨he, _⟩
        · exact absurd he (hh r hr).1
        · exact absurd he (hh r hr).2
      intro r hr ha
      have hr' : r ∈ ((apply t (.addSecondaryKey id h)).modify id f.1 f.2).rows := ht₂ ▸ hr
      rcases mem_modify hr' with hr₁ | ⟨r', _, hid, rfl⟩
      · rw [ht₁] at hr₁
        rcases mem_modify hr₁ with hr₀ | ⟨r', _, hid, rfl⟩
        · exact hother r hr₀ ha
        · exact hid
      · rw [f.2]
        exact hid
  · rintro d ⟨c', hc', ha⟩
    obtain rfl : f.1 (c.withSecondary h) = c' := Option.some.inj (hc₂.symm.trans hc')
    rw [hfc, active_iff] at ha
    simpa [Client.withSecondary, eq_comm] using ha
  · intro pre hpre
    simp only [rotationSteps, List.prefix_cons_iff, List.prefix_nil] at hpre
    rcases hpre with rfl | ⟨_, rfl, rfl | ⟨_, rfl, rfl⟩⟩
    · exact ⟨p, c, hc, active_iff.mpr (.inl ⟨hp', hp⟩)⟩
    · exact ⟨h, _, hc₁, active_iff.mpr (.inr ⟨rfl, rfl⟩)⟩
    · exact ⟨h, _, hc₂, hactive⟩

/-- **A client whose primary key is active can be rotated**, whatever its secondary slot holds. -/
theorem exists_rotation (ht : HasPrimary t) (hc : t.find? id = some c)
    (hp : c.primaryRevokedAt = none) (hh : Fresh t h) : ∃ ops, Rotation t c h ops := by
  obtain rfl := Table.key_of_find? hc
  have hprim := ht c (Table.mem_of_find? hc)
  obtain ⟨p, hp'⟩ := Option.ne_none_iff_exists'.mp hprim
  have halive : ∃ d, Authenticates t c.id d := ⟨p, c, hc, active_iff.mpr (.inl ⟨hp', hp⟩)⟩
  -- a digest that was active is not the fresh one
  have hold : ∀ d, Authenticates t c.id d → d ≠ h := by
    rintro d ⟨c', hc', ha⟩ rfl
    obtain ⟨h₁, h₂⟩ := hh c' (Table.mem_of_find? hc')
    rcases active_iff.mp ha with ⟨he, _⟩ | ⟨he, _⟩
    · exact h₁ he
    · exact h₂ he
  by_cases hfree : c.apiKeyHashSecondary ≠ none ∧ c.secondaryRevokedAt = none
  · -- the secondary slot is freed first
    obtain ⟨f, hf, hfc⟩ := revokeSlot_secondary 0
    have ht₁ := apply_revokeKey hf hc
    have hc₁ : (apply t (.revokeKey c.id "secondary" 0)).find? c.id = some (f.1 c) := by
      rw [ht₁, Table.find?_modify_self, hc, Option.map_some]
    have hh₁ : Fresh (apply t (.revokeKey c.id "secondary" 0)) h := by
      intro r hr
      rw [ht₁] at hr
      rcases mem_modify hr with hr | ⟨r', hr', _, rfl⟩
      · exact hh r hr
      · rw [hfc]
        exact hh r' hr'
    obtain ⟨hres, honly, hall⟩ := rotation_of_free hc₁ (by rw [hfc]; exact hp)
      (by rw [hfc]; exact hprim) (by rw [hfc]; simp) hh₁ 0
    refine ⟨.revokeKey c.id "secondary" 0 :: rotationSteps c.id h 0, ?_, ?_, ?_, ?_⟩
    · simp [rotationSteps, Op.isKeyOp]
    · rw [hfc] at hres
      exact hres
    · exact fun d hd hd' => hold d hd (honly d hd')
    · intro pre hpre
      rcases List.prefix_cons_iff.mp hpre with rfl | ⟨pre', rfl, hpre'⟩
      · exact halive
      · exact hall pre' hpre'
  · obtain ⟨hres, honly, hall⟩ := rotation_of_free hc hp hprim hfree hh 0
    refine ⟨rotationSteps c.id h 0, ?_, hres, ?_, hall⟩
    · simp [rotationSteps, Op.isKeyOp]
    · exact fun d hd hd' => hold d hd (honly d hd')

/-- The empty table has no client without a primary key. -/
theorem hasPrimary_empty : HasPrimary (.empty Client.id) := fun c hc => by cases hc

/-- **Rotation.** In every table that Create, AddSecondaryKey and RevokeKey lead to, a client with an
active key can be moved to a fresh digest without a moment in which no digest of its own is active,
exactly if its primary key has not been revoked. -/
theorem rotation_iff (hist : List Op) (hc : (run (.empty Client.id) hist).find? id = some c)
    (ha : ∃ d, c.active d = true) (hh : Fresh (run (.empty Client.id) hist) h) :
    (∃ ops, Rotation (run (.empty Client.id) hist) c h ops) ↔ c.primaryRevokedAt = none := by
  constructor
  · rintro ⟨ops, hops⟩
    by_contra hp
    exact not_rotation hc hp ha ops hops
  · intro hp
    exact exists_rotation (hasPrimary_run hist hasPrimary_empty) hc hp hh

/-- A client with two active keys. -/
def twoKeys : List Op := [.create 1 "acme" "d1", .addSecondaryKey 1 "d2"]

/-- A client with two active keys can be rotated. -/
theorem rotation_iff_twoKeys :
    ∃ ops, Rotation (run (.empty Client.id) twoKeys)
      ⟨1, "acme", some "d1", some "d2", none, none⟩ "d3" ops := by
  have hc : (run (.empty Client.id) twoKeys).find? 1 =
      some ⟨1, "acme", some "d1", some "d2", none, none⟩ := rfl
  exact (rotation_iff twoKeys hc ⟨"d1", rfl⟩ (by unfold Fresh; decide)).mpr rfl

/-- A client that has been rotated once. -/
def rotatedOnce : List Op := twoKeys ++ [.revokeKey 1 "primary" 7]

/-- After the first rotation there is no second one. -/
theorem rotation_impossible :
    ∃ c, (run (.empty Client.id) rotatedOnce).find? 1 = some c ∧ c.active "d2" = true ∧
      Fresh (run (.empty Client.id) rotatedOnce) "d3" ∧
      ∀ ops, ¬ Rotation (run (.empty Client.id) rotatedOnce) c "d3" ops := by
  have hc : (run (.empty Client.id) rotatedOnce).find? 1 =
      some ⟨1, "acme", some "d1", some "d2", some 7, none⟩ := rfl
  refine ⟨_, hc, rfl, by unfold Fresh; decide, fun ops => ?_⟩
  exact not_rotation hc (by simp) ⟨"d2", rfl⟩ ops

end OctoConv.Clients
