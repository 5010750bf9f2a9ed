import OctoConv.Lib.Program

/-!
# Monitors: what a program may call after what it has seen

A `Monitor` keeps a ghost state along one run of a program: every call and its answer update it,
and it says which calls are allowed in which state. `Follows` is the judgement that a program makes
only allowed calls, whatever the answers are, and that what it returns fits the ghost state it ends
in. Unlike a `Spec` a monitor knows nothing of the shared state, only of this program's own past;
an invariant over a system of programs relates the two.
-/

namespace Conc

/-- A protocol that one program keeps with itself. -/
structure Monitor (C : Type) (R : C → Type) (G : Type) where
  /-- What may be called. -/
  Allows : G → C → Prop
  /-- What is remembered of a call and its answer. -/
  next : G → (c : C) → R c → G

variable {C : Type} {R : C → Type} {G α β ι : Type} (M : Monitor C R G)

/-- From the ghost state `g` on, `p` makes only allowed calls, and `Q` holds of what it returns and
the ghost state at its end. -/
def Follows (Q : α → G → Prop) : Prog C R α → G → Prop
  | .ret a, g => Q a g
  | .call c k, g => M.Allows g c ∧ ∀ r, Follows Q (k r) (M.next g c r)

variable {M} {Q : α → G → Prop}

/-- Sequencing. -/
theorem Follows.bind {p : Prog C R α} {f : α → Prog C R β} {Q' : β → G → Prop} {g : G}
    (hp : Follows M (fun a g => Follows M Q' (f a) g) p g) : Follows M Q' (p >>= f) g := by
  induction p generalizing g with
  | ret a => exact hp
  | call c k ih => exact ⟨hp.1, fun r => ih r (hp.2 r)⟩

/-- A promise can be weakened. -/
theorem Follows.mono {Q' : α → G → Prop} (hQ : ∀ a g, Q a g → Q' a g) {p : Prog C R α} {g : G}
    (h : Follows M Q p g) : Follows M Q' p g := by
  induction p generalizing g with
  | ret a => exact hQ a g h
  | call c k ih => exact ⟨h.1, fun r => ih r (h.2 r)⟩

/-- Sequencing, by what the first part leaves. -/
theorem Follows.bind_of {K : α → G → Prop} {p : Prog C R α} {f : α → Prog C R β}
    {Q' : β → G → Prop} {g : G} (hp : Follows M K p g)
    (hf : ∀ a g, K a g → Follows M Q' (f a) g) : Follows M Q' (p >>= f) g :=
  Follows.bind (hp.mono hf)

/-- Calls that are allowed everywhere in `K` and lead back into it. -/
def Neutral (M : Monitor C R G) (K : G → Prop) (c : C) : Prop :=
  ∀ g, K g → M.Allows g c ∧ ∀ r, K (M.next g c r)

/-- A program that makes only neutral calls follows the monitor. -/
theorem Follows.of_calls {K : G → Prop} {p : Prog C R α} (hp : p.Calls (Neutral M K)) {g : G}
    (hg : K g) : Follows M (fun _ g => K g) p g := by
  induction p generalizing g with
  | ret a => exact hg
  | call c k ih =>
      obtain ⟨hc, hk⟩ := hp
      exact ⟨(hc g hg).1, fun r => ih r (hk r) ((hc g hg).2 r)⟩

/-- A loop whose body leads back into `K`. -/
theorem Follows.forM_of {K : G → Prop} {l : List ι} {f : ι → Prog C R PUnit}
    (hf : ∀ x ∈ l, ∀ g, K g → Follows M (fun _ g => K g) (f x) g) {g : G} (hg : K g) :
    Follows M (fun _ g => K g) (l.forM f) g := by
  induction l generalizing g with
  | nil => exact hg
  | cons x l ih =>
      apply Follows.bind_of (hf x List.mem_cons_self g hg)
      intro _ g hg
      exact ih (fun y hy => hf y (List.mem_cons_of_mem _ hy)) hg

end Conc
