import Mathlib.Order.Lattice
import Mathlib.Data.List.Basic

/-!
# The first greatest element of a list

A scan that keeps an element until it meets one with a greater key ends with the first of the elements
whose key is greatest.

Main results:

* `FirstMax.unique` — there is one such element;
* `foldl_keepMax_eq_some` — the scan finds it.
-/

namespace Conc

variable {α κ : Type*} [LinearOrder κ] {key : α → κ}

/-- The element found so far, or a later one with a greater key. -/
def keepMax (key : α → κ) (best : Option α) (x : α) : Option α :=
  match best with
  | none => some x
  | some b => if key b < key x then some x else some b

/-- The first element with the greatest key. -/
def FirstMax (key : α → κ) (l : List α) (m : α) : Prop :=
  ∃ before after, l = before ++ m :: after ∧ (∀ x ∈ before, key x < key m) ∧
    ∀ x ∈ after, key x ≤ key m

/-- The first maximum is one of the list. -/
theorem FirstMax.mem {l : List α} {m : α} (h : FirstMax key l m) : m ∈ l := by
  obtain ⟨before, after, rfl, -, -⟩ := h
  simp

/-- It is the largest. -/
theorem FirstMax.le {l : List α} {m : α} (h : FirstMax key l m) : ∀ x ∈ l, key x ≤ key m := by
  obtain ⟨before, after, rfl, hbefore, hafter⟩ := h
  intro x hx
  rcases List.mem_append.mp hx with hx | hx
  · exact (hbefore x hx).le
  · rcases List.mem_cons.mp hx with rfl | hx
    · exact le_refl _
    · exact hafter x hx

/-- An element of which all before are smaller comes first among those that are as great. -/
theorem FirstMax.unique {l : List α} {m m' : α} (h : FirstMax key l m) (h' : FirstMax key l m') :
    m = m' := by
  have hle := h.le m' h'.mem
  have hle' := h'.le m h.mem
  obtain ⟨before, after, hl, hbefore, -⟩ := h
  obtain ⟨before', after', hl', hbefore', -⟩ := h'
  rcases List.append_eq_append_iff.mp (hl.symm.trans hl') with ⟨mid, hmid, hrest⟩ | ⟨mid, hmid, hrest⟩
  · rcases mid with _ | ⟨x, mid⟩
    · exact (List.cons.inj hrest).1
    · obtain rfl := (List.cons.inj hrest).1
      exact absurd (hbefore' m (by simp [hmid])) (not_lt.mpr hle)
  · rcases mid with _ | ⟨x, mid⟩
    · exact (List.cons.inj hrest).1.symm
    · obtain rfl := (List.cons.inj hrest).1
      exact absurd (hbefore m' (by simp [hmid])) (not_lt.mpr hle')

/-- A scan that has found an element goes on as if it had started at it. -/
theorem foldl_keepMax_some (key : α → κ) (l : List α) (b : α) :
    ∃ m, l.foldl (keepMax key) (some b) = some m ∧ FirstMax key (b :: l) m := by
  induction l generalizing b with
  | nil => exact ⟨b, rfl, [], [], rfl, by simp, by simp⟩
  | cons x l ih =>
    rw [List.foldl_cons, keepMax]
    split
    · rename_i hlt
      obtain ⟨m, hm, hfirst⟩ := ih x
      have hle : key x ≤ key m := hfirst.le x List.mem_cons_self
      obtain ⟨before, after, hl, hbefore, hafter⟩ := hfirst
      refine ⟨m, hm, b :: before, after, by rw [hl]; rfl, ?_, hafter⟩
      intro y hy
      rcases List.mem_cons.mp hy with rfl | hy
      · exact lt_of_lt_of_le hlt hle
      · exact hbefore y hy
    · rename_i hlt
      have hxb : key x ≤ key b := not_lt.mp hlt
      obtain ⟨m, hm, before, after, hl, hbefore, hafter⟩ := ih b
      refine ⟨m, hm, ?_⟩
      rcases before with _ | ⟨c, before⟩
      · obtain ⟨rfl, rfl⟩ := List.cons.inj hl
        refine ⟨[], x :: l, rfl, by simp, ?_⟩
        intro y hy
        rcases List.mem_cons.mp hy with rfl | hy
        · exact hxb
        · exact hafter y hy
      · obtain ⟨rfl, rfl⟩ := List.cons.inj hl
        refine ⟨b :: x :: before, after, rfl, ?_, hafter⟩
        intro y hy
        rcases List.mem_cons.mp hy with rfl | hy
        · exact hbefore y List.mem_cons_self
        rcases List.mem_cons.mp hy with rfl | hy
        · exact lt_of_le_of_lt hxb (hbefore b List.mem_cons_self)
        · exact hbefore y (List.mem_cons_of_mem _ hy)

/-- The scan finds the first element with the greatest key. -/
theorem foldl_keepMax_eq_some {l : List α} {m : α} :
    l.foldl (keepMax key) none = some m ↔ FirstMax key l m := by
  rcases l with _ | ⟨x, l⟩
  · refine ⟨fun h => absurd h (by simp), fun h => absurd h.mem List.not_mem_nil⟩
  · obtain ⟨m', hm', hfirst⟩ := foldl_keepMax_some key l x
    have hfold : (x :: l).foldl (keepMax key) none = some m' := hm'
    rw [hfold]
    constructor
    · rintro ⟨⟩
      exact hfirst
    · intro h
      rw [hfirst.unique h]

end Conc
