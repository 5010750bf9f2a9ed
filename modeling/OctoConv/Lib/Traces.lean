import OctoConv.Lib.Program

/-!
# Programs against arbitrary answers

`Runs` is a run of a program of which nothing is known but its calls: an answer may be anything of its
type. `Always` is the weakest precondition of that semantics, and it is computed by recursion on the
program, so a fact about all runs is proved by walking through the program once. `Fails` is the same for
the runs that end with an error.

## Main results

* `always_iff` — `Always` speaks about all runs.
* `Always.andThen` — the rule for a sequence in which the first part may fail.
* `Fails.andThen` — a sequence fails in its first part or behind it.
-/

namespace Conc

namespace Prog

variable {C : Type} {R : C → Type} {α β ε ε' : Type}

/-- A call with its answer. -/
abbrev Event (C : Type) (R : C → Type) : Type := (c : C) × R c

/-- Equal words of one call have equal answers. -/
theorem Event.inj {c : C} {r r' : R c} (h : (⟨c, r⟩ : Event C R) = ⟨c, r'⟩) : r = r' :=
  eq_of_heq (Sigma.mk.inj h).2

/-- A run: the calls with their answers, and the result. -/
inductive Runs : Prog C R α → List (Event C R) → α → Prop where
  | ret (a : α) : Runs (ret a) [] a
  | call {c : C} {k : R c → Prog C R α} {r : R c} {tr : List (Event C R)} {a : α} :
      Runs (k r) tr a → Runs (call c k) (⟨c, r⟩ :: tr) a

/-- Every run ends with a trace and a result that satisfy `Q`. -/
def Always : Prog C R α → (List (Event C R) → α → Prop) → Prop
  | ret a, Q => Q [] a
  | call c k, Q => ∀ r, (k r).Always fun tr a => Q (⟨c, r⟩ :: tr) a

variable {p : Prog C R α} {f : α → Prog C R β} {Q : List (Event C R) → α → Prop}
  {Q' : List (Event C R) → β → Prop}

/-- A program that returns has said nothing. -/
@[simp] theorem always_ret {a : α} : (ret a : Prog C R α).Always Q ↔ Q [] a := Iff.rfl

/-- What is always so of a call is so of each answer. -/
@[simp] theorem always_call {c : C} {k : R c → Prog C R α} :
    (call c k).Always Q ↔ ∀ r, (k r).Always fun tr a => Q (⟨c, r⟩ :: tr) a := Iff.rfl

/-- `Always` speaks about all runs. -/
theorem always_iff : p.Always Q ↔ ∀ tr a, p.Runs tr a → Q tr a := by
  constructor
  · intro h tr a hrun
    induction hrun generalizing Q with
    | ret a => exact h
    | @call c k r tr a _ ih => exact ih (h r)
  · intro h
    induction p generalizing Q with
    | ret a => exact h [] a (.ret a)
    | call c k ih =>
      intro r
      apply ih r
      intro tr a hrun
      exact h _ a (.call hrun)

/-- A promise can be weakened. -/
theorem Always.mono {Q₂ : List (Event C R) → α → Prop} (h : p.Always Q)
    (himp : ∀ tr a, Q tr a → Q₂ tr a) : p.Always Q₂ := by
  rw [always_iff] at h ⊢
  exact fun tr a hrun => himp tr a (h tr a hrun)

/-- Two promises hold together. -/
theorem Always.and {Q₂ : List (Event C R) → α → Prop} (h : p.Always Q) (h₂ : p.Always Q₂) :
    p.Always fun tr a => Q tr a ∧ Q₂ tr a := by
  rw [always_iff] at h h₂ ⊢
  exact fun tr a hrun => ⟨h tr a hrun, h₂ tr a hrun⟩

/-- The rule for a sequence: the second part adds to the trace of the first. -/
theorem Always.bind (hp : p.Always Q)
    (hf : ∀ tr a, Q tr a → (f a).Always fun tr' b => Q' (tr ++ tr') b) :
    (p >>= f).Always Q' := by
  induction p generalizing Q Q' with
  | ret a => exact hf [] a hp
  | call c k ih =>
    intro r
    apply ih r (hp r)
    intro tr a h
    exact hf (⟨c, r⟩ :: tr) a h

/-- The rule for a sequence in which the first part may fail: it fails and so does the whole, or it
has a result and the rest runs on it. -/
theorem Always.andThen {p : Prog C R (Except ε α)} {f : α → Prog C R (Except ε β)}
    {Q : List (Event C R) → Except ε α → Prop} {Q' : List (Event C R) → Except ε β → Prop}
    (hp : p.Always Q) (herr : ∀ tr e, Q tr (.error e) → Q' tr (.error e))
    (hok : ∀ tr a, Q tr (.ok a) → (f a).Always fun tr' b => Q' (tr ++ tr') b) :
    (p.andThen f).Always Q' := by
  apply hp.bind
  intro tr r h
  rcases r with e | a
  · rw [always_ret, List.append_nil]
    exact herr tr e h
  · exact hok tr a h

/-- A changed error changes the promise accordingly. -/
theorem Always.mapError {p : Prog C R (Except ε α)} {g : ε → ε'}
    {Q : List (Event C R) → Except ε α → Prop} (hp : p.Always Q)
    (Q' : List (Event C R) → Except ε' α → Prop) (h : ∀ tr r, Q tr r → Q' tr (r.mapError g)) :
    (p.mapError g).Always Q' := by
  apply hp.bind
  intro tr r hr
  rw [always_ret, List.append_nil]
  exact h tr r hr

/-- What a program can call is what its traces show. -/
theorem Calls.always {P : C → Prop} {p : Prog C R α} (h : p.Calls P) :
    p.Always fun tr _ => ∀ x ∈ tr, P x.1 := by
  induction p with
  | ret a => exact fun x hx => absurd hx List.not_mem_nil
  | call c k ih =>
    intro r
    refine (ih r (h.2 r)).mono fun tr _ htr x hx => ?_
    rcases List.mem_cons.mp hx with rfl | hx
    · exact h.1
    · exact htr x hx

/-- What is called behind a first part may depend on its result. -/
theorem Calls.andThen_of {P : C → Prop} {K : α → Prop} {p : Prog C R (Except ε α)}
    {f : α → Prog C R (Except ε β)} (hp : p.Calls P)
    (hK : p.Always fun _ r => ∀ a, r = .ok a → K a) (hf : ∀ a, K a → (f a).Calls P) :
    (p.andThen f).Calls P := by
  induction p with
  | ret r =>
    rcases r with e | a
    · trivial
    · exact hf a (hK a rfl)
  | call c k ih => exact ⟨hp.1, fun r => ih r (hp.2 r) (hK r)⟩

/-- A result stays what it is when the errors are changed. -/
theorem Always.mapError_ok {K : List (Event C R) → α → Prop} {g : ε → ε'} {p : Prog C R (Except ε α)}
    (h : p.Always fun tr r => ∀ a, r = .ok a → K tr a) :
    (p.mapError g).Always fun tr r => ∀ a, r = .ok a → K tr a := by
  apply h.mapError
  intro tr r hr a ha
  rcases r with e | b
  · cases ha
  · obtain rfl := Except.ok.inj ha
    exact hr b rfl

/-! ## Failing -/

/-- If a program fails, then with a trace and an error that satisfy `S`. -/
def Fails (S : List (Event C R) → ε → Prop) (p : Prog C R (Except ε α)) : Prop :=
  p.Always fun tr r => ∀ e, r = .error e → S tr e

/-- A program that returns an error fails as the words before it show. -/
theorem Fails.error {S : List (Event C R) → ε → Prop} {e : ε} (h : S [] e) :
    Fails S (ret (.error e) : Prog C R (Except ε α)) := by
  intro e' he
  obtain rfl := Except.error.inj he
  exact h

/-- What follows a call fails behind its answer. -/
theorem Fails.perform_bind {S : List (Event C R) → ε → Prop} {c : C} {k : R c → Prog C R (Except ε α)}
    (h : ∀ r, Fails (fun tr e => S (⟨c, r⟩ :: tr) e) (k r)) : Fails S (perform c >>= k) := h

/-- A sequence fails in its first part, or in its second behind the trace of the first. -/
theorem Fails.andThen {S : List (Event C R) → ε → Prop} {p : Prog C R (Except ε α)}
    {f : α → Prog C R (Except ε β)} (hS : ∀ before tr e, S tr e → S (before ++ tr) e)
    (hp : Fails S p) (hf : ∀ a, Fails S (f a)) : Fails S (p.andThen f) := by
  apply Always.andThen hp
  · intro tr e h e' he
    obtain rfl := Except.error.inj he
    exact h e rfl
  · intro tr a _
    apply (hf a).mono
    intro tr' r h e he
    exact hS tr tr' e (h e he)

/-- A changed error fails as it did. -/
theorem Fails.mapError {S : List (Event C R) → ε → Prop} {S' : List (Event C R) → ε' → Prop}
    {g : ε → ε'} {p : Prog C R (Except ε α)} (hp : Fails S p)
    (h : ∀ tr e, S tr e → S' tr (g e)) : Fails S' (p.mapError g) := by
  apply Always.mapError hp
  intro tr r hr e he
  rcases r with e' | a
  · obtain rfl := Except.error.inj he
    exact h tr e' (hr e' rfl)
  · exact nomatch he

/-! ## Making runs -/

/-- A run of a sequence is one of each part. -/
theorem Runs.bind {tr tr' : List (Event C R)} {a : α} {b : β} (hp : p.Runs tr a)
    (hf : (f a).Runs tr' b) : (p >>= f).Runs (tr ++ tr') b := by
  induction hp with
  | ret a => exact hf
  | call _ ih => exact .call (ih hf)

/-- So is one of a sequence that passes errors on. -/
theorem Runs.andThen {p : Prog C R (Except ε α)} {f : α → Prog C R (Except ε β)}
    {tr tr' : List (Event C R)} {a : α} {b : Except ε β} (hp : p.Runs tr (.ok a))
    (hf : (f a).Runs tr' b) : (p.andThen f).Runs (tr ++ tr') b := Runs.bind hp hf

/-- An error is passed on. -/
theorem Runs.andThen_error {p : Prog C R (Except ε α)} {f : α → Prog C R (Except ε β)}
    {tr : List (Event C R)} {e : ε} (hp : p.Runs tr (.error e)) :
    (p.andThen f).Runs tr (.error e) := by
  have h : (p.andThen f).Runs (tr ++ []) (.error e) :=
    Runs.bind hp (.ret (Except.error e : Except ε β))
  rwa [List.append_nil] at h

/-- A changed error changes the result of the run only. -/
theorem Runs.mapError {p : Prog C R (Except ε α)} {g : ε → ε'} {tr : List (Event C R)}
    {r : Except ε α} (hp : p.Runs tr r) : (p.mapError g).Runs tr (r.mapError g) := by
  have h : (p.mapError g).Runs (tr ++ []) (r.mapError g) := Runs.bind hp (.ret (r.mapError g))
  rwa [List.append_nil] at h

/-- What a program can call holds of what its runs call. -/
theorem Runs.mem_calls {P : C → Prop} {tr : List (Event C R)} {a : α} (h : p.Runs tr a)
    (hp : p.Calls P) : ∀ x ∈ tr, P x.1 := by
  induction h with
  | ret a => exact fun x hx => absurd hx List.not_mem_nil
  | call _ ih =>
    intro x hx
    rcases List.mem_cons.mp hx with rfl | hx
    · exact hp.1
    · exact ih (hp.2 _) x hx

end Prog

end Conc
