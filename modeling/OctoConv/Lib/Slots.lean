import Mathlib.Data.List.Basic

/-!
# Numbered slots

A list of optional values as a growing array of slots: a new value takes the next number, and a
slot that is emptied keeps its number, so numbers are never used twice.
-/

namespace Conc

variable {α : Type} {l : List (Option α)} {c c' : Nat} {a b : α}

/-- The value in slot `c`. -/
def slot? (l : List (Option α)) (c : Nat) : Option α := l[c]?.join

/-- No slots, no value. -/
@[simp] theorem slot?_nil : slot? ([] : List (Option α)) c = none := by
  simp [slot?]

/-- A slot that is taken is one of the list. -/
theorem slot?_lt (h : slot? l c = some a) : c < l.length := by
  by_contra hge
  rw [slot?, List.getElem?_eq_none (by omega)] at h
  cases h

/-- Its value is one of the list. -/
theorem mem_of_slot? (h : slot? l c = some a) : some a ∈ l := by
  rcases hx : l[c]? with _ | o
  · simp [slot?, hx] at h
  · obtain rfl : o = some a := by simpa [slot?, hx] using h
    exact List.mem_of_getElem? hx

/-- Writing a slot that is in use changes that slot only. -/
theorem slot?_set (h : slot? l c = some a) (o : Option α) (c' : Nat) :
    slot? (l.set c o) c' = if c' = c then o else slot? l c' := by
  have hlt := slot?_lt h
  by_cases hc : c' = c
  · subst hc
    simp [slot?, hlt]
  · simp [slot?, hc, Ne.symm hc]

/-- A new value takes the next number. -/
theorem slot?_append (b : α) (c : Nat) :
    slot? (l ++ [some b]) c = if c = l.length then some b else slot? l c := by
  rcases Nat.lt_trichotomy c l.length with h | h | h
  · simp [slot?, List.getElem?_append_left h, Nat.ne_of_lt h]
  · simp [slot?, h]
  · have hlen : (l ++ [some b]).length ≤ c := by simp; omega
    simp [slot?, List.getElem?_eq_none hlen, List.getElem?_eq_none (Nat.le_of_lt h),
      Nat.ne_of_gt h]

/-- What is in a slot after a value was added. -/
theorem slot?_append_cases (h : slot? (l ++ [some b]) c = some a) :
    slot? l c = some a ∨ (c = l.length ∧ a = b) := by
  rw [slot?_append] at h
  split at h
  · exact .inr ⟨‹_›, (Option.some.inj h).symm⟩
  · exact .inl h

/-- What is in a slot after one was emptied. -/
theorem slot?_clear (h : slot? l c = some b) (h' : slot? (l.set c none) c' = some a) :
    slot? l c' = some a ∧ c' ≠ c := by
  rw [slot?_set h] at h'
  split at h'
  · cases h'
  · exact ⟨h', ‹_›⟩

end Conc
