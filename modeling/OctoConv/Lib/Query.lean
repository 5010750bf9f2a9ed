import Mathlib.Data.List.Sort
import OctoConv.Lib.Table

/-!
# Queries over a table

`ORDER BY … LIMIT 1` is the first row of a sorted list, and `UPDATE … WHERE` maps the rows that meet
a condition. The rows of a `Table` are distinct, so a condition that one row alone meets selects
exactly that row, in any order.
-/

namespace Conc

variable {α : Type}

/-! ## ORDER BY … LIMIT 1 -/

/-- The first row of an order. -/
def first (r : α → α → Prop) [DecidableRel r] (l : List α) : Option α := (l.insertionSort r).head?

section First

variable {r : α → α → Prop} [DecidableRel r] {l : List α} {a : α}

/-- The first row is one of the rows. -/
theorem mem_of_first (h : first r l = some a) : a ∈ l :=
  (List.mem_insertionSort r).mp (List.mem_of_head? h)

/-- There is no first row of nothing. -/
theorem first_eq_none_iff : first r l = none ↔ l = [] := by
  rw [first, List.head?_eq_none_iff, ← List.length_eq_zero_iff, List.length_insertionSort,
    List.length_eq_zero_iff]

/-- A row that no other row precedes is the first. -/
theorem first_eq_some [Std.Total r] [IsTrans α r] (ha : a ∈ l)
    (hmin : ∀ b ∈ l, r b a → b = a) : first r l = some a := by
  rcases hf : first r l with _ | b
  · rw [first_eq_none_iff] at hf
    exact absurd ha (hf ▸ List.not_mem_nil)
  · obtain ⟨rest, hrest⟩ := List.head?_eq_some_iff.mp hf
    have hsorted := List.pairwise_insertionSort r l
    have hmem : a ∈ l.insertionSort r := (List.mem_insertionSort r).mpr ha
    rw [hrest] at hsorted hmem
    rcases List.mem_cons.mp hmem with rfl | hmem
    · rfl
    · rw [hmin b (mem_of_first hf) (List.rel_of_pairwise_cons hsorted hmem)]

end First

/-! ## Conditions that one row meets -/

/-- The only element that meets a condition. -/
theorem filter_eq_singleton {l : List α} {p : α → Bool} {a : α} (hl : l.Nodup) (ha : a ∈ l)
    (hp : p a = true) (honly : ∀ b ∈ l, p b = true → b = a) : l.filter p = [a] := by
  apply List.perm_singleton.mp
  rw [List.perm_ext_iff_of_nodup (hl.filter p) (List.nodup_singleton a)]
  intro b
  rw [List.mem_filter, List.mem_singleton]
  constructor
  · exact fun h => honly b h.1 h.2
  · rintro rfl
    exact ⟨ha, hp⟩

/-- Sorting does not change what one row alone meets. -/
theorem filter_insertionSort_eq_singleton {l : List α} {p : α → Bool} {a : α} (r : α → α → Prop)
    [DecidableRel r] (h : l.filter p = [a]) : (l.insertionSort r).filter p = [a] := by
  have hperm := (List.perm_insertionSort r l).filter p
  rw [h] at hperm
  exact List.perm_singleton.mp hperm

/-- Sorting does not bring in what was not there. -/
theorem filter_insertionSort_eq_nil {l : List α} {p : α → Bool} (r : α → α → Prop)
    [DecidableRel r] (h : l.filter p = []) : (l.insertionSort r).filter p = [] := by
  have hperm := (List.perm_insertionSort r l).filter p
  rw [h] at hperm
  exact List.perm_nil.mp hperm

/-! ## UPDATE … WHERE -/

namespace Table

variable {κ : Type} [DecidableEq κ] {key : α → κ} {t : Table α key}

/-- Apply `f` to the rows that meet `p`. -/
def update (t : Table α key) (p : α → Bool) (f : α → α) (hf : ∀ r, key (f r) = key r) :
    Table α key where
  rows := t.rows.map fun r => if p r then f r else r
  nodup := by
    have : (t.rows.map fun r => if p r then f r else r).map key = t.rows.map key := by
      rw [List.map_map]
      refine List.map_congr_left fun r _ => ?_
      simp only [Function.comp_apply]
      split
      · exact hf r
      · rfl
    rw [this]
    exact t.nodup

omit [DecidableEq κ] in
/-- No row comes twice. -/
theorem nodup_rows (t : Table α key) : t.rows.Nodup := t.nodup.of_map key

omit [DecidableEq κ] in
/-- The rows after an update. -/
theorem mem_update {p : α → Bool} {f : α → α} {hf : ∀ r, key (f r) = key r} {r : α} :
    r ∈ (t.update p f hf).rows ↔
      (r ∈ t.rows ∧ p r = false) ∨ ∃ r' ∈ t.rows, p r' = true ∧ r = f r' := by
  simp only [update, List.mem_map]
  constructor
  · rintro ⟨r', hr', rfl⟩
    rcases hp : p r' with _ | _
    · exact .inl ⟨by simpa using hr', by simpa using hp⟩
    · exact .inr ⟨r', hr', hp, by simp⟩
  · rintro (⟨hr, hp⟩ | ⟨r', hr', hp, rfl⟩)
    · exact ⟨r, hr, by simp [hp]⟩
    · exact ⟨r', hr', by simp [hp]⟩

/-! ## Parts of a table -/

section Keep

variable {p q : α → Bool} {f : α → α} {r : α}

omit [DecidableEq κ] in
/-- A table is its rows. -/
@[ext] theorem ext {t u : Table α key} (h : t.rows = u.rows) : t = u := by
  obtain ⟨rows, _⟩ := t
  obtain rfl : rows = _ := h
  rfl

/-- The rows that meet `p`. -/
def keep (t : Table α key) (p : α → Bool) : Table α key where
  rows := t.rows.filter p
  nodup := (List.filter_sublist.map key).nodup t.nodup

omit [DecidableEq κ] in
/-- The rows of a part. -/
@[simp] theorem rows_keep : (t.keep p).rows = t.rows.filter p := rfl

omit [DecidableEq κ] in
/-- A query that selects rows of the part does not see the others. -/
theorem filter_keep (hq : ∀ r, q r = true → p r = true) :
    (t.keep p).rows.filter q = t.rows.filter q := by
  rw [rows_keep, List.filter_filter]
  refine List.filter_congr fun r _ => ?_
  rcases hr : q r with _ | _
  · rfl
  · rw [hq r hr]
    rfl

omit [DecidableEq κ] in
/-- Whether a row exists can be seen in the part that has it. -/
theorem any_keep (hq : ∀ r, q r = true → p r = true) : (t.keep p).rows.any q = t.rows.any q := by
  rw [rows_keep, List.any_filter]
  congr 1
  funext r
  rcases hr : q r with _ | _
  · exact Bool.and_false _
  · rw [hq r hr]
    rfl

omit [DecidableEq κ] in
/-- The first row of a query can be found in the part that has it. -/
theorem findRow_keep (hq : ∀ r, q r = true → p r = true) :
    (t.keep p).rows.find? q = t.rows.find? q := by
  rw [rows_keep, List.find?_filter]
  congr 1
  funext r
  rcases hr : q r with _ | _
  · simp
  · simp [hq r hr]

omit [DecidableEq κ] in
/-- An update that keeps every row on its side can be done in the part. -/
theorem keep_update (hf : ∀ r, key (f r) = key r) (hp : ∀ r, p (f r) = p r) :
    (t.update q f hf).keep p = (t.keep p).update q f hf := by
  ext1
  simp only [rows_keep, update, List.filter_map]
  congr 1
  refine List.filter_congr fun r _ => ?_
  simp only [Function.comp_apply]
  split
  · exact hp r
  · rfl

omit [DecidableEq κ] in
/-- An update of rows outside of the part does not touch it. -/
theorem keep_update_of_not (hf : ∀ r, key (f r) = key r) (hp : ∀ r, p (f r) = p r)
    (hq : ∀ r ∈ t.rows, q r = true → p r = false) : (t.update q f hf).keep p = t.keep p := by
  rw [keep_update hf hp]
  ext1
  have hsame : ∀ r ∈ t.rows.filter p, (if q r then f r else r) = r := by
    intro r hr
    obtain ⟨hmem, hpr⟩ := List.mem_filter.mp hr
    rcases hqr : q r with _ | _
    · rfl
    · rw [hq r hmem hqr] at hpr
      cases hpr
  exact (List.map_congr_left hsame).trans (List.map_id _)

/-- A row whose key is free goes to its side. -/
theorem insert?_keep (hfree : t.find? (key r) = none) : ∃ u, t.insert? r = some u ∧
    (p r = true → (t.keep p).insert? r = some (u.keep p)) ∧ (p r = false → u.keep p = t.keep p) := by
  obtain ⟨u, hu⟩ := Option.isSome_iff_exists.mp (insert?_isSome.mpr hfree)
  have hrows := rows_insert? hu
  refine ⟨u, hu, fun hr => ?_, fun hr => ?_⟩
  · have hfree' : (t.keep p).find? (key r) = none := by
      refine List.find?_eq_none.mpr fun x hx => ?_
      exact List.find?_eq_none.mp hfree x (List.mem_filter.mp hx).1
    obtain ⟨v, hv⟩ := Option.isSome_iff_exists.mp (insert?_isSome.mpr hfree')
    rw [hv, Option.some.injEq]
    ext1
    rw [rows_insert? hv, rows_keep, rows_keep, hrows, List.filter_append, List.filter_cons_of_pos hr,
      List.filter_nil]
  · ext1
    rw [rows_keep, rows_keep, hrows, List.filter_append, List.filter_cons_of_neg (by simp [hr]),
      List.filter_nil, List.append_nil]

end Keep

end Table

end Conc
