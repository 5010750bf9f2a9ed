import Mathlib.Data.List.Nodup
import OctoConv.Lib.Program

/-!
# Programs that run alone

`Machine.Alone` is the weakest precondition of a program that nobody interrupts, while the outside world
answers each of its calls in some way that a condition admits. It is computed by recursion on the
program.

## Main results

* `Alone.bind`, `Alone.andThen` — the rules for a sequence.
* `Alone.of_replay` — it holds of every run whose answers are admitted.
* `Alone.forM` — the rule for a loop over distinct elements, each of which has a part of the state to
  itself.
-/

namespace Conc.Machine

variable {C : Type} {R : C → Type} {O σ α β ι : Type} (M : Machine C R O σ) (Ok : O → Prop)

/-- However the calls are answered, the program ends with a result and a state that satisfy `Q`. -/
def Alone : Prog C R α → σ → (α → σ → Prop) → Prop
  | .ret a, s, Q => Q a s
  | .call c k, s, Q => ∀ x, Ok x → Alone (k (M.exec c x s).1) (M.exec c x s).2 Q

/-- The run in which the calls are answered so, in turn; none if it ends earlier or later. -/
def replay : Prog C R α → σ → List O → Option (α × σ)
  | .ret a, s, [] => some (a, s)
  | .call c k, s, x :: answers => replay (k (M.exec c x s).1) (M.exec c x s).2 answers
  | .ret _, _, _ :: _ => none
  | .call _ _, _, [] => none

variable {M} {Ok} {p : Prog C R α} {s : σ} {Q : α → σ → Prop}

/-- A program that returns ends as it is. -/
@[simp] theorem alone_ret {a : α} : M.Alone Ok (.ret a) s Q ↔ Q a s := Iff.rfl

/-- A call ends well if it does for every choice of the machine. -/
@[simp] theorem alone_call {c : C} {k : R c → Prog C R α} :
    M.Alone Ok (.call c k) s Q ↔
      ∀ x, Ok x → M.Alone Ok (k (M.exec c x s).1) (M.exec c x s).2 Q := Iff.rfl

/-- The rule for a single call. -/
theorem Alone.perform {c : C} {Q : R c → σ → Prop}
    (h : ∀ x, Ok x → Q (M.exec c x s).1 (M.exec c x s).2) : M.Alone Ok (Prog.perform c) s Q := h

/-- The end of a program can be weakened. -/
theorem Alone.mono {Q' : α → σ → Prop} (h : M.Alone Ok p s Q) (himp : ∀ a t, Q a t → Q' a t) :
    M.Alone Ok p s Q' := by
  induction p generalizing s with
  | ret a => exact himp a s h
  | call c k ih => exact fun x hx => ih _ (h x hx)

/-- What holds however the calls are answered, holds of every run. -/
theorem Alone.of_replay {answers : List O} {a : α} {t : σ} (h : M.Alone Ok p s Q)
    (hok : ∀ x ∈ answers, Ok x) (hrun : M.replay p s answers = some (a, t)) : Q a t := by
  induction p generalizing s answers with
  | ret b =>
    cases answers with
    | nil =>
      obtain ⟨rfl, rfl⟩ := Prod.mk.inj (Option.some.inj hrun)
      exact h
    | cons x answers => exact nomatch hrun
  | call c k ih =>
    cases answers with
    | nil => exact nomatch hrun
    | cons x answers =>
      exact ih _ (h x (hok x List.mem_cons_self))
        (fun y hy => hok y (List.mem_cons_of_mem _ hy)) hrun

/-- The rule for a sequence. -/
theorem Alone.bind {f : α → Prog C R β} {Q' : β → σ → Prop} (h : M.Alone Ok p s Q)
    (hf : ∀ a t, Q a t → M.Alone Ok (f a) t Q') : M.Alone Ok (p >>= f) s Q' := by
  induction p generalizing s with
  | ret a => exact hf a s h
  | call c k ih => exact fun x hx => ih _ (h x hx)

/-- The rule for a sequence in which the first part may fail. -/
theorem Alone.andThen {ε : Type} {p : Prog C R (Except ε α)} {f : α → Prog C R (Except ε β)}
    {Q : Except ε α → σ → Prop} {Q' : Except ε β → σ → Prop} (h : M.Alone Ok p s Q)
    (herr : ∀ e t, Q (.error e) t → Q' (.error e) t)
    (hok : ∀ a t, Q (.ok a) t → M.Alone Ok (f a) t Q') : M.Alone Ok (p.andThen f) s Q' := by
  apply h.bind
  intro r t hQ
  rcases r with e | a
  · exact herr e t hQ
  · exact hok a t hQ

/-- A changed error changes the result only. -/
theorem Alone.mapError {ε ε' : Type} {p : Prog C R (Except ε α)} {g : ε → ε'}
    {Q : Except ε α → σ → Prop} (h : M.Alone Ok p s Q) :
    M.Alone Ok (p.mapError g) s fun r t => ∃ r', Q r' t ∧ r = r'.mapError g :=
  h.bind fun r _ hQ => ⟨r, hQ, rfl⟩

/-- The rule for a loop. What is to do for an element is still there when its turn comes, and what was
done for it is not undone afterwards. -/
theorem Alone.forM {l : List ι} {f : ι → Prog C R PUnit} {I : σ → Prop}
    (Todo : ι → σ → Prop) {Done : ι → σ → Prop} (hnodup : l.Nodup)
    (hbody : ∀ x ∈ l, ∀ s, I s → Todo x s → M.Alone Ok (f x) s fun _ t =>
      I t ∧ Done x t ∧ ∀ y ∈ l, y ≠ x → (Todo y s → Todo y t) ∧ (Done y s → Done y t))
    {s : σ} (hI : I s) (htodo : ∀ x ∈ l, Todo x s) :
    M.Alone Ok (l.forM f) s fun _ t => I t ∧ ∀ x ∈ l, Done x t := by
  -- the elements before `rest` are done, those in it are still to do
  suffices hrest : ∀ rest before, before ++ rest = l → ∀ s, I s → (∀ x ∈ before, Done x s) →
      (∀ x ∈ rest, Todo x s) → M.Alone Ok (rest.forM f) s fun _ t => I t ∧ ∀ x ∈ l, Done x t from
    hrest l [] rfl s hI (fun x hx => absurd hx List.not_mem_nil) htodo
  intro rest
  induction rest with
  | nil =>
    intro before hl s hI hdone _
    rw [List.append_nil] at hl
    exact ⟨hI, hl ▸ hdone⟩
  | cons x rest ih =>
    intro before hl s hI hdone htodo
    have hx : x ∈ l := hl ▸ List.mem_append_right _ List.mem_cons_self
    have hdisjoint := List.nodup_append.mp (hl ▸ hnodup)
    have hlast : x ∉ rest := (List.nodup_cons.mp hdisjoint.2.1).1
    have hfirst : ∀ y ∈ before, y ≠ x := fun y hy => hdisjoint.2.2 y hy x List.mem_cons_self
    apply (hbody x hx s hI (htodo x List.mem_cons_self)).bind
    rintro _ t ⟨hIt, hdonex, hothers⟩
    apply ih (before ++ [x]) (by rw [List.append_assoc, List.singleton_append, hl]) t hIt
    · intro y hy
      rcases List.mem_append.mp hy with hy | hy
      · exact (hothers y (hl ▸ List.mem_append_left _ hy) (hfirst y hy)).2 (hdone y hy)
      · rw [List.mem_singleton.mp hy]
        exact hdonex
    · intro y hy
      have hyl : y ∈ l := hl ▸ List.mem_append_right _ (List.mem_cons_of_mem _ hy)
      have hne : y ≠ x := fun heq => hlast (heq ▸ hy)
      exact (hothers y hyl hne).1 (htodo y (List.mem_cons_of_mem _ hy))

-- a program is to be walked through by these rules, and not to be computed
attribute [irreducible] Alone

end Conc.Machine
