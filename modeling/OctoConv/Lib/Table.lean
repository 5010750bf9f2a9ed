import Mathlib.Data.List.Nodup

/-!
# Tables with a primary key

A `Table α key` is a list of rows no two of which have the same key; the constraint is a field, so
a table that breaks it cannot be built. Rows are looked up by key, inserted when their key is free
and modified in place by functions that leave the key alone. Scans read `rows`, and
`Table.mem_rows_iff` says that scanning and looking up see the same rows.
-/

namespace Conc

/-- A list of rows with pairwise distinct keys. -/
structure Table (α : Type) {κ : Type} (key : α → κ) where
  /-- The rows, in insertion order. -/
  rows : List α
  /-- The primary-key constraint. -/
  nodup : (rows.map key).Nodup

namespace Table

variable {α κ : Type} [DecidableEq κ] {key : α → κ} {t : Table α key} {r : α} {k k' : κ}

/-- The table without rows. -/
def empty (key : α → κ) : Table α key := ⟨[], List.nodup_nil⟩

/-- Look a row up by its key. -/
def find? (t : Table α key) (k : κ) : Option α := t.rows.find? fun r => key r = k

omit [DecidableEq κ] in
/-- A row is known by its key. -/
theorem rows_injOn (t : Table α key) {r r' : α} (hr : r ∈ t.rows) (hr' : r' ∈ t.rows)
    (h : key r = key r') : r = r' :=
  List.inj_on_of_nodup_map t.nodup hr hr' h

/-- The row under a key has that key. -/
theorem key_of_find? (h : t.find? k = some r) : key r = k := by
  simpa using List.find?_some h

/-- The row under a key is in the table. -/
theorem mem_of_find? (h : t.find? k = some r) : r ∈ t.rows :=
  List.mem_of_find?_eq_some h

/-- Scanning the rows and looking them up is the same. -/
theorem mem_rows_iff : r ∈ t.rows ↔ t.find? (key r) = some r := by
  refine ⟨fun hr => ?_, mem_of_find?⟩
  rcases hf : t.find? (key r) with _ | r'
  · have := List.find?_eq_none.mp hf r hr
    simp at this
  · rw [t.rows_injOn hr (mem_of_find? hf) (key_of_find? hf).symm]

/-- The empty table has no row. -/
@[simp] theorem find?_empty : (empty key).find? k = none := rfl

/-! ## Inserting -/

/-- Insert a row whose key is free; `none` is the violation of the constraint. -/
def insert? (t : Table α key) (r : α) : Option (Table α key) :=
  if h : t.find? (key r) = none then
    some ⟨t.rows ++ [r], by
      have hfree : ∀ x ∈ t.rows, key x ≠ key r := by simpa using List.find?_eq_none.mp h
      rw [List.map_append, List.nodup_append]
      refine ⟨t.nodup, List.nodup_singleton _, ?_⟩
      intro a ha b hb
      obtain ⟨x, hx, rfl⟩ := List.mem_map.mp ha
      obtain rfl : b = key r := by simpa using hb
      exact hfree x hx⟩
  else none

/-- A row is inserted exactly if its key is free. -/
theorem insert?_isSome : (t.insert? r).isSome = true ↔ t.find? (key r) = none := by
  unfold insert?
  split <;> simp_all

/-- After an insert the row is found, and the others as before. -/
theorem find?_insert? {t' : Table α key} (h : t.insert? r = some t') (k : κ) :
    t'.find? k = if k = key r then some r else t.find? k := by
  unfold insert? at h
  split at h
  · rename_i hfree
    obtain rfl := Option.some.inj h
    simp only [find?, List.find?_append, List.find?_cons, List.find?_nil]
    by_cases hk : k = key r
    · subst hk
      have : List.find? (fun x => decide (key x = key r)) t.rows = none := hfree
      simp [this]
    · have : decide (key r = k) = false := by simpa using fun e : key r = k => hk e.symm
      simp [this, hk]
  · exact absurd h (by simp)

/-- An insert adds the row at the end. -/
theorem rows_insert? {t' : Table α key} (h : t.insert? r = some t') : t'.rows = t.rows ++ [r] := by
  unfold insert? at h
  split at h
  · rw [← Option.some.inj h]
  · exact absurd h (by simp)

/-! ## Modifying -/

/-- Apply `f` to the row with key `k`, if there is one. -/
def modify (t : Table α key) (k : κ) (f : α → α) (hf : ∀ r, key (f r) = key r) : Table α key where
  rows := t.rows.map fun r => if key r = k then f r else r
  nodup := by
    have : (t.rows.map fun r => if key r = k then f r else r).map key = t.rows.map key := by
      rw [List.map_map]
      refine List.map_congr_left fun r _ => ?_
      simp only [Function.comp_apply]
      split
      · exact hf r
      · rfl
    rw [this]
    exact t.nodup

/-- After an update the row under the key is changed, and no other. -/
theorem find?_modify {f : α → α} (hf : ∀ r, key (f r) = key r) (k' : κ) :
    (t.modify k f hf).find? k' = if k' = k then (t.find? k').map f else t.find? k' := by
  have hkey : ∀ r, key (if key r = k then f r else r) = key r := by
    intro r
    split
    · exact hf r
    · rfl
  simp only [find?, modify, List.find?_map]
  have hcomp : ((fun r => decide (key r = k')) ∘ fun r => if key r = k then f r else r) =
      fun r => decide (key r = k') := by
    funext r
    simp only [Function.comp_apply, hkey]
  rw [hcomp]
  rcases hfind : t.rows.find? fun r => decide (key r = k') with _ | r
  · simp
  · have hr : key r = k' := by simpa using List.find?_some hfind
    by_cases hk : k' = k
    · simp [hk, hr]
    · simp [hk, hr]

/-- The row that is updated. -/
@[simp] theorem find?_modify_self {f : α → α} (hf : ∀ r, key (f r) = key r) :
    (t.modify k f hf).find? k = (t.find? k).map f := by
  rw [find?_modify hf, if_pos rfl]

/-- The others. -/
theorem find?_modify_ne {f : α → α} (hf : ∀ r, key (f r) = key r) (h : k' ≠ k) :
    (t.modify k f hf).find? k' = t.find? k' := by
  rw [find?_modify hf, if_neg h]

end Table

end Conc
