import Mathlib.Data.List.Basic

/-!
# Runs of a partial step function

`step : S → A → Option S` says which actions are enabled in a state and where they lead. `Exec` is
a finite run together with its trace of (state, action) pairs, so that a statement may speak about
the states a run goes through and about the steps it takes. `Exec.invariant` is the one induction
over runs: what every step that meets a condition preserves holds in every state of a run whose
steps all meet it. `trace` computes the run of a list of actions.
-/

namespace Conc

variable {S A : Type} {step : S → A → Option S}

/-- A finite run from one state to another, with the state before each action. -/
inductive Exec (step : S → A → Option S) : S → List (S × A) → S → Prop where
  | nil (s : S) : Exec step s [] s
  | cons {s t u : S} {a : A} {tr : List (S × A)} :
      step s a = some t → Exec step t tr u → Exec step s ((s, a) :: tr) u

/-- **The run rule.** An invariant that every step meeting `P` preserves holds before every step
of a run whose steps all meet `P`, and at its end. -/
theorem Exec.invariant {I : S → Prop} {P : S → A → Prop}
    (hstep : ∀ s a t, I s → P s a → step s a = some t → I t)
    {s t : S} {tr : List (S × A)} (h : Exec step s tr t) (h₀ : I s)
    (hP : ∀ x ∈ tr, P x.1 x.2) : (∀ x ∈ tr, I x.1) ∧ I t := by
  induction h with
  | nil s => exact ⟨fun x hx => absurd hx List.not_mem_nil, h₀⟩
  | @cons s t u a tr hs _ ih =>
      have ha : P s a := hP (s, a) List.mem_cons_self
      have ih' := ih (hstep s a t h₀ ha hs) fun x hx => hP x (List.mem_cons_of_mem _ hx)
      refine ⟨fun x hx => ?_, ih'.2⟩
      rcases List.mem_cons.mp hx with rfl | hx
      · exact h₀
      · exact ih'.1 x hx

/-- **The run rule with history.** An invariant may speak about the steps taken so far. -/
theorem Exec.history {I : List (S × A) → S → Prop}
    (hstep : ∀ pre s a t, I pre s → step s a = some t → I (pre ++ [(s, a)]) t)
    {s t : S} {tr : List (S × A)} (h : Exec step s tr t) (h₀ : I [] s) :
    (∀ pre x post, tr = pre ++ x :: post → I pre x.1) ∧ I tr t := by
  -- the steps before the run are carried along
  suffices hall : ∀ done, I done s → (∀ pre x post, tr = pre ++ x :: post → I (done ++ pre) x.1) ∧
      I (done ++ tr) t from hall [] h₀
  clear h₀
  induction h with
  | nil s =>
      intro done hs
      refine ⟨fun pre x post heq => ?_, by simpa using hs⟩
      simp at heq
  | @cons s t u a tr hs _ ih =>
      intro done hI
      have ih' := ih (done ++ [(s, a)]) (hstep done s a t hI hs)
      refine ⟨fun pre x post heq => ?_, by simpa using ih'.2⟩
      cases pre with
      | nil =>
          obtain ⟨rfl, -⟩ := List.cons.inj heq
          simpa using hI
      | cons y pre =>
          obtain ⟨rfl, rfl⟩ := List.cons.inj heq
          simpa using ih'.1 pre x post rfl

/-- Every pair of a trace is a step that was taken. -/
theorem Exec.step_of_mem {s t : S} {tr : List (S × A)} (h : Exec step s tr t) {x : S × A}
    (hx : x ∈ tr) : ∃ u, step x.1 x.2 = some u := by
  induction h with
  | nil s => exact absurd hx List.not_mem_nil
  | @cons s t u a tr hs _ ih =>
      rcases List.mem_cons.mp hx with rfl | hx
      · exact ⟨t, hs⟩
      · exact ih hx

/-- A run can be prolonged by a step. -/
theorem Exec.snoc {s t u : S} {a : A} {tr : List (S × A)} (h : Exec step s tr t)
    (hs : step t a = some u) : Exec step s (tr ++ [(t, a)]) u := by
  induction h with
  | nil s => exact .cons hs (.nil u)
  | cons hs' _ ih => exact .cons hs' (ih hs)

/-- A run whose first action is known. -/
theorem Exec.first {s u : S} {tr : List (S × A)} {a : A} {as : List A} (h : Exec step s tr u)
    (hacts : tr.map Prod.snd = a :: as) :
    ∃ t tr', step s a = some t ∧ Exec step t tr' u ∧ tr'.map Prod.snd = as := by
  cases h with
  | nil => cases hacts
  | @cons _ t _ b tr hs hrest =>
    obtain ⟨rfl, hrest'⟩ := List.cons.inj hacts
    exact ⟨t, tr, hs, hrest, hrest'⟩

/-- A run whose last action is known. -/
theorem Exec.last {s u : S} {tr : List (S × A)} {as : List A} {b : A} (h : Exec step s tr u)
    (hacts : tr.map Prod.snd = as ++ [b]) :
    ∃ t tr', Exec step s tr' t ∧ tr'.map Prod.snd = as ∧ step t b = some u := by
  induction as generalizing s tr with
  | nil =>
    obtain ⟨t, tr', hs, hrest, hnil⟩ := h.first hacts
    obtain rfl := List.map_eq_nil_iff.mp hnil
    cases hrest
    exact ⟨s, [], .nil s, rfl, hs⟩
  | cons a as ih =>
    obtain ⟨s₁, tr₁, hs, hrest, hacts'⟩ := h.first hacts
    obtain ⟨t, tr', hexec, htr', hlast⟩ := ih hrest hacts'
    exact ⟨t, (s, a) :: tr', .cons hs hexec, by rw [List.map_cons, htr'], hlast⟩

/-- One run after another. -/
theorem Exec.append {s t u : S} {tr tr' : List (S × A)} (h : Exec step s tr t)
    (h' : Exec step t tr' u) : Exec step s (tr ++ tr') u := by
  induction h with
  | nil => exact h'
  | cons hs _ ih => exact .cons hs (ih h')

/-- **A run, as somebody sees it.** Where the steps that are seen can be taken in what is seen of the
state, and the others change nothing of it, the steps that are seen make a run by themselves. -/
theorem Exec.purge (view : S → S) (I : S → Prop) (seen : S × A → Bool)
    (hseen : ∀ s a t, I s → seen (s, a) = true → step s a = some t → step (view s) a = some (view t))
    (hunseen : ∀ s a t, I s → seen (s, a) = false → step s a = some t → view t = view s)
    {s t : S} {tr : List (S × A)} (h : Exec step s tr t) (hI : ∀ x ∈ tr, I x.1) :
    Exec step (view s) ((tr.filter seen).map fun x => (view x.1, x.2)) (view t) := by
  induction h with
  | nil s => exact .nil _
  | @cons s t u a tr hs _ ih =>
    have ih' := ih fun x hx => hI x (List.mem_cons_of_mem _ hx)
    have hhead := hI (s, a) List.mem_cons_self
    rcases ha : seen (s, a) with _ | _
    · rw [List.filter_cons_of_neg (by simp [ha]), ← hunseen s a t hhead ha hs]
      exact ih'
    · rw [List.filter_cons_of_pos ha]
      exact .cons (hseen s a t hhead ha hs) ih'

/-- What a step of a run leads to is a state of the run. -/
theorem Exec.next_of_mem {s t u : S} {tr : List (S × A)} (h : Exec step s tr t) {x : S × A}
    (hx : x ∈ tr) (hu : step x.1 x.2 = some u) : u = t ∨ ∃ y ∈ tr, y.1 = u := by
  induction h with
  | nil s => exact absurd hx List.not_mem_nil
  | @cons s t' u' a tr hs hrest ih =>
      rcases List.mem_cons.mp hx with rfl | hx
      · obtain rfl := Option.some.inj (hs.symm.trans hu)
        cases hrest with
        | nil => exact .inl rfl
        | cons h' _ => exact .inr ⟨_, List.mem_cons_of_mem _ List.mem_cons_self, rfl⟩
      · rcases ih hx with heq | ⟨y, hy, heq⟩
        · exact .inl heq
        · exact .inr ⟨y, List.mem_cons_of_mem _ hy, heq⟩

/-- A run can be cut at any of its steps. -/
theorem Exec.split {pre post : List (S × A)} {x : S × A} {s t : S}
    (h : Exec step s (pre ++ x :: post) t) :
    ∃ u, Exec step s pre u ∧ Exec step x.1 (x :: post) t := by
  induction pre generalizing s with
  | nil =>
      cases h with
      | cons hs h => exact ⟨_, .nil _, .cons hs h⟩
  | cons y pre ih =>
      cases h with
      | cons hs h =>
          obtain ⟨u, hpre, hpost⟩ := ih h
          exact ⟨u, .cons hs hpre, hpost⟩

/-- The run of a list of actions, if all are enabled in turn. -/
def trace (step : S → A → Option S) : S → List A → Option (List (S × A) × S)
  | s, [] => some ([], s)
  | s, a :: as =>
      match step s a with
      | none => none
      | some t => (trace step t as).map fun x => ((s, a) :: x.1, x.2)

/-- A run of enabled actions: its trace and its last state. -/
def runOf (step : S → A → Option S) (s : S) (as : List A)
    (h : (trace step s as).isSome = true) : List (S × A) × S :=
  (trace step s as).get h

/-- A trace begins with its first step. -/
theorem trace_cons {a : A} {as : List A} {s : S} {x : List (S × A) × S}
    (h : trace step s (a :: as) = some x) :
    ∃ t y, step s a = some t ∧ trace step t as = some y ∧ x = ((s, a) :: y.1, y.2) := by
  rw [trace] at h
  rcases hs : step s a with _ | t
  · simp only [hs, reduceCtorEq] at h
  · simp only [hs, Option.map_eq_some_iff] at h
    obtain ⟨y, hy, rfl⟩ := h
    exact ⟨t, y, rfl, hy, rfl⟩

/-- A trace is a run. -/
theorem exec_of_trace {as : List A} {s : S} {x : List (S × A) × S}
    (h : trace step s as = some x) : Exec step s x.1 x.2 := by
  induction as generalizing s x with
  | nil =>
      obtain rfl : ([], s) = x := Option.some.inj h
      exact .nil s
  | cons a as ih =>
      obtain ⟨t, y, hs, hy, rfl⟩ := trace_cons h
      exact .cons hs (ih hy)

/-- The actions of a trace are the given ones. -/
theorem trace_actions {as : List A} {s : S} {x : List (S × A) × S}
    (h : trace step s as = some x) : x.1.map Prod.snd = as := by
  induction as generalizing s x with
  | nil =>
      obtain rfl : ([], s) = x := Option.some.inj h
      rfl
  | cons a as ih =>
      obtain ⟨t, y, -, hy, rfl⟩ := trace_cons h
      rw [List.map_cons, ih hy]

/-- The actions of a run are those that were asked for. -/
theorem mem_runOf {as : List A} {s : S} {h : (trace step s as).isSome = true} {x : S × A}
    (hx : x ∈ (runOf step s as h).1) : x.2 ∈ as := by
  rw [← trace_actions (Option.some_get h).symm]
  exact List.mem_map_of_mem hx

/-- Enabled actions make a run. -/
theorem exec_runOf {as : List A} {s : S} (h : (trace step s as).isSome = true) :
    Exec step s (runOf step s as h).1 (runOf step s as h).2 :=
  exec_of_trace (Option.some_get h).symm

end Conc
