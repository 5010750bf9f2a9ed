import Mathlib.Data.List.Infix

/-!
# Searching a text for patterns

A text is searched for a list of fixed patterns. Where the text is put together from parts, the
search can often be reduced to the parts: no pattern begins in a fixed prefix, or a separator occurs
in no pattern.

Main results:

* `scans_append` : a prefix in which no pattern begins can be dropped;
* `scans_split` : a separator that occurs in no pattern splits the search in two;
* `not_scans_of_forall` : a text over some characters holds no pattern that has another character;
* `replaceAll_free` : a pattern that is replaced everywhere by something in brackets is gone.
-/

namespace Scan

variable {α : Type} {pattern start text x y : List α} {patterns : List (List α)} {c : α}

/-- No occurrence of the pattern begins in this start of a text, whatever follows. -/
structure Detached (pattern start : List α) : Prop where
  /-- No occurrence lies in it. -/
  inside : ¬ pattern <:+: start
  /-- No occurrence begins at its end. -/
  across : ∀ p ∈ pattern.inits, p <:+ start → p = []

/-- At every place of the start, the pattern and the rest of the start part ways. -/
theorem detached_iff : Detached pattern start ↔
    pattern ≠ [] ∧ ∀ rest ∈ start.tails, rest ≠ [] → ¬ pattern <+: rest ∧ ¬ rest <+: pattern := by
  constructor
  · intro h
    constructor
    · rintro rfl
      exact h.inside List.nil_infix
    · intro rest hrest hne
      rw [List.mem_tails] at hrest
      constructor
      · intro hp
        exact h.inside (hp.isInfix.trans hrest.isInfix)
      · intro hp
        exact hne (h.across rest ((List.mem_inits _ _).mpr hp) hrest)
  · rintro ⟨hne, h⟩
    constructor
    · intro hin
      obtain ⟨rest, hp, hrest⟩ := List.infix_iff_prefix_suffix.mp hin
      refine (h rest ((List.mem_tails _ _).mpr hrest) ?_).1 hp
      rintro rfl
      exact hne (List.prefix_nil.mp hp)
    · intro p hp hrest
      by_contra hne'
      exact (h p ((List.mem_tails _ _).mpr hrest) hne').2 ((List.mem_inits _ _).mp hp)

instance [DecidableEq α] : Decidable (Detached pattern start) := decidable_of_iff _ detached_iff.symm

/-- A pattern that is detached from a start is found in the text behind it. -/
theorem Detached.infix_append (h : Detached pattern start) :
    pattern <:+: start ++ text ↔ pattern <:+: text := by
  constructor
  · intro hin
    rcases List.infix_append_iff_ne_nil.mp hin with hin | hin | ⟨p, q, hp, -, hpq, hstart, -⟩
    · exact absurd hin h.inside
    · exact hin
    · refine absurd (h.across p ?_ hstart) hp
      rw [List.mem_inits, hpq]
      exact List.prefix_append p q
  · exact List.infix_append_of_infix_right

/-- A character that is not in the pattern splits the search. -/
theorem infix_append_cons (hc : c ∉ pattern) :
    pattern <:+: x ++ c :: y ↔ pattern <:+: x ∨ pattern <:+: y := by
  rw [List.infix_append_iff_ne_nil, List.infix_cons_iff]
  constructor
  · rintro (h | (h | h) | ⟨p, q, -, hq, rfl, -, hy⟩)
    · exact .inl h
    · rcases List.prefix_cons_iff.mp h with rfl | ⟨t, rfl, -⟩
      · exact .inl List.nil_infix
      · exact absurd List.mem_cons_self hc
    · exact .inr h
    · rcases List.prefix_cons_iff.mp hy with rfl | ⟨t, rfl, -⟩
      · exact absurd rfl hq
      · exact absurd (List.mem_append_right p List.mem_cons_self) hc
  · rintro (h | h)
    · exact .inl h
    · exact .inr (.inl (.inr h))

/-! ## Several patterns -/

/-- One of the patterns occurs in the text. -/
def Scans (patterns : List (List α)) (text : List α) : Prop := ∃ p ∈ patterns, p <:+: text

instance [DecidableEq α] : Decidable (Scans patterns text) :=
  inferInstanceAs (Decidable (∃ p ∈ patterns, p <:+: text))

/-- A prefix in which no pattern begins can be dropped. -/
theorem scans_append (h : ∀ p ∈ patterns, Detached p start) :
    Scans patterns (start ++ text) ↔ Scans patterns text := by
  constructor
  · rintro ⟨p, hp, hin⟩
    exact ⟨p, hp, (h p hp).infix_append.mp hin⟩
  · rintro ⟨p, hp, hin⟩
    exact ⟨p, hp, (h p hp).infix_append.mpr hin⟩

/-- A separator that occurs in no pattern splits the search in two. -/
theorem scans_split (h : ∀ p ∈ patterns, c ∉ p) :
    Scans patterns (x ++ c :: y) ↔ Scans patterns x ∨ Scans patterns y := by
  constructor
  · rintro ⟨p, hp, hin⟩
    rcases (infix_append_cons (h p hp)).mp hin with hin | hin
    · exact .inl ⟨p, hp, hin⟩
    · exact .inr ⟨p, hp, hin⟩
  · rintro (⟨p, hp, hin⟩ | ⟨p, hp, hin⟩)
    · exact ⟨p, hp, (infix_append_cons (h p hp)).mpr (.inl hin)⟩
    · exact ⟨p, hp, (infix_append_cons (h p hp)).mpr (.inr hin)⟩

/-- A text over some characters holds no pattern that has another character. -/
theorem not_scans_of_forall {P : α → Prop} (htext : ∀ c ∈ text, P c)
    (h : ∀ p ∈ patterns, ∃ c ∈ p, ¬ P c) : ¬ Scans patterns text := by
  rintro ⟨p, hp, hin⟩
  obtain ⟨c, hc, hnot⟩ := h p hp
  exact hnot (htext c (hin.subset hc))

/-- What occurs in a part of the text occurs in the text. -/
theorem Scans.mono (h : Scans patterns x) (hin : x <:+: text) : Scans patterns text := by
  obtain ⟨p, hp, hx⟩ := h
  exact ⟨p, hp, hx.trans hin⟩

/-! ## Replacing a pattern -/

section Replace

variable [DecidableEq α]

/-- The text with its occurrences of a pattern replaced, from the left; an occurrence that has been
found is passed over, character by character. -/
def replaceFrom (pattern new : List α) : Nat → List α → List α
  | _, [] => []
  | n + 1, _ :: text => replaceFrom pattern new n text
  | 0, c :: text =>
    if pattern.isPrefixOf (c :: text) then new ++ replaceFrom pattern new (pattern.length - 1) text
    else c :: replaceFrom pattern new 0 text

/-- The text with its occurrences of a pattern replaced. -/
def replaceAll (pattern new text : List α) : List α := replaceFrom pattern new 0 text

variable {mark : List α} {l r : α}

/-- What stands in front of the first replacement stood in front of the text. -/
theorem prefix_of_replaceFrom {p : List α} (hl : l ∉ p)
    (h : p <+: replaceFrom pattern (l :: mark ++ [r]) 0 text) : p <+: text := by
  induction text generalizing p with
  | nil => exact h
  | cons c text ih =>
    rw [replaceFrom] at h
    rcases p with _ | ⟨d, p⟩
    · exact List.nil_prefix
    split at h
    · obtain ⟨hd, -⟩ := List.cons_prefix_cons.mp h
      exact absurd (hd ▸ List.mem_cons_self) hl
    · obtain ⟨rfl, hp⟩ := List.cons_prefix_cons.mp h
      exact List.cons_prefix_cons.mpr ⟨rfl, ih (fun hmem => hl (List.mem_cons_of_mem _ hmem)) hp⟩

/-- Where every occurrence is replaced by a mark in brackets, none is left. -/
theorem replaceFrom_free (hl : l ∉ pattern) (hr : r ∉ pattern) (hmark : ¬ pattern <:+: mark) (n : Nat) :
    ¬ pattern <:+: replaceFrom pattern (l :: mark ++ [r]) n text := by
  have hne : ¬ pattern <:+: [] := fun h => hmark (List.infix_nil.mp h ▸ List.nil_infix)
  induction text generalizing n with
  | nil =>
    rw [replaceFrom]
    exact hne
  | cons c text ih =>
    rcases n with _ | n
    · rw [replaceFrom]
      split
      · -- the brackets keep the replacement apart from what follows
        have hsplit :
            l :: mark ++ [r] ++ replaceFrom pattern (l :: mark ++ [r]) (pattern.length - 1) text =
              [] ++ l ::
                (mark ++ r :: replaceFrom pattern (l :: mark ++ [r]) (pattern.length - 1) text) := by
          simp
        rw [hsplit, infix_append_cons hl, infix_append_cons hr]
        rintro (hin | hin | hin)
        · exact hne hin
        · exact hmark hin
        · exact ih _ hin
      · rename_i hpre
        intro hin
        rcases List.infix_cons_iff.mp hin with hp | hin
        · have hcopy : pattern <+: replaceFrom pattern (l :: mark ++ [r]) 0 (c :: text) := by
            rw [replaceFrom, if_neg hpre]
            exact hp
          exact hpre (List.isPrefixOf_iff_prefix.mpr (prefix_of_replaceFrom hl hcopy))
        · exact ih 0 hin
    · rw [replaceFrom]
      exact ih n

/-- A pattern that is replaced everywhere by something in brackets is gone. -/
theorem replaceAll_free (hl : l ∉ pattern) (hr : r ∉ pattern) (hmark : ¬ pattern <:+: mark) :
    ¬ pattern <:+: replaceAll pattern (l :: mark ++ [r]) text := replaceFrom_free hl hr hmark 0

end Replace

end Scan
