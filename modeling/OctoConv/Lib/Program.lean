import Mathlib.Logic.Basic

/-!
# Programs that talk to a shared object one call at a time

A `Prog C R α` is a finite tree: it either returns a value of type `α` or performs one call
`c : C` and continues with the answer of type `R c`. Nothing is said about what a call does; that
is a *machine* (`Machine`), a function from a call, an observation of the outside world and a
state to an answer and a next state. So one program text has several readings, and each is
proved about the same tree:

* `Machine.run` executes a program alone, against an oracle that fixes the observation each call
  sees (no observation: the process dies there), and `Machine.Ends` is what holds at its end;
* an interleaving performs one call of one program at a time (`RelyGuarantee`).

`Prog.Calls` is the syntactic layer: every call the program can ever make satisfies a predicate,
whatever the answers are. `Prog.RunsIn` is one run with its calls and answers, in a world that
changes between the calls.
-/

namespace Conc

/-- A program over calls `C` with answers `R`. -/
inductive Prog (C : Type) (R : C → Type) (α : Type) : Type where
  /-- The program has returned. -/
  | ret (a : α)
  /-- The next thing the program does is the call `c`. -/
  | call (c : C) (k : R c → Prog C R α)

namespace Prog

variable {C : Type} {R : C → Type} {α β γ : Type}

/-- Sequencing: graft `f` onto the leaves. -/
def bind : Prog C R α → (α → Prog C R β) → Prog C R β
  | ret a, f => f a
  | call c k, f => call c fun r => (k r).bind f

instance : Monad (Prog C R) where
  pure := ret
  bind := bind

/-- The program that performs one call and returns its answer. -/
def perform (c : C) : Prog C R (R c) := call c ret

/-- The monad's `pure` is `ret`. -/
@[simp] theorem pure_eq (a : α) : (pure a : Prog C R α) = ret a := rfl

/-- A program that returns goes on with the next. -/
@[simp] theorem ret_bind (a : α) (f : α → Prog C R β) : (ret a : Prog C R α) >>= f = f a := rfl

/-- A call stays the first call of what is bound to it. -/
@[simp] theorem call_bind (c : C) (k : R c → Prog C R α) (f : α → Prog C R β) :
    call c k >>= f = call c fun r => k r >>= f := rfl

/-- One call, and what is done with its answer. -/
theorem perform_bind (c : C) (f : R c → Prog C R β) : perform c >>= f = call c f := rfl

/-- Binding is associative. -/
theorem bind_assoc (p : Prog C R α) (f : α → Prog C R β) (g : β → Prog C R γ) :
    p >>= f >>= g = p >>= fun a => f a >>= g := by
  induction p with
  | ret a => rfl
  | call c k ih => simp only [call_bind, ih]

/-! ## Programs that can fail -/

/-- Go on with the result of `p`, or return its error: `if err != nil { return err }`. -/
def andThen {ε : Type} (p : Prog C R (Except ε α)) (f : α → Prog C R (Except ε β)) :
    Prog C R (Except ε β) :=
  p >>= fun
    | .ok a => f a
    | .error e => ret (.error e)

/-- Return the result of `p` with its error changed. -/
def mapError {ε ε' : Type} (f : ε → ε') (p : Prog C R (Except ε α)) : Prog C R (Except ε' α) :=
  p >>= fun r => ret (r.mapError f)

/-- Error passing is associative. -/
theorem andThen_assoc {ε : Type} (p : Prog C R (Except ε α)) (f : α → Prog C R (Except ε β))
    (g : β → Prog C R (Except ε γ)) :
    (p.andThen f).andThen g = p.andThen fun a => (f a).andThen g := by
  unfold andThen
  rw [bind_assoc]
  congr 1
  funext r
  rcases r with e | a <;> rfl

/-! ## What a program can call -/

/-- Every call that `p` can make, on any answers, satisfies `P`. -/
def Calls (P : C → Prop) : Prog C R α → Prop
  | ret _ => True
  | call c k => P c ∧ ∀ r, (k r).Calls P

variable {P : C → Prop}

/-- A program that returns makes no calls. -/
@[simp] theorem calls_ret (a : α) : (ret a : Prog C R α).Calls P := trivial

/-- The calls of a program are its first and those behind it. -/
@[simp] theorem calls_call (c : C) (k : R c → Prog C R α) :
    (call c k).Calls P ↔ P c ∧ ∀ r, (k r).Calls P := Iff.rfl

/-- One call makes that call. -/
theorem Calls.perform {c : C} (h : P c) : (perform c : Prog C R (R c)).Calls P :=
  ⟨h, fun _ => trivial⟩

/-- A weaker promise about the calls holds too. -/
theorem Calls.mono {P' : C → Prop} (h : ∀ c, P c → P' c) {p : Prog C R α} (hp : p.Calls P) :
    p.Calls P' := by
  induction p with
  | ret a => trivial
  | call c k ih => exact ⟨h c hp.1, fun r => ih r (hp.2 r)⟩

/-- What holds of every call. -/
theorem Calls.of_all (h : ∀ c, P c) (p : Prog C R α) : p.Calls P := by
  induction p with
  | ret a => trivial
  | call c k ih => exact ⟨h c, ih⟩

/-- The calls of a sequence are those of its parts. -/
theorem Calls.bind {p : Prog C R α} {f : α → Prog C R β} (hp : p.Calls P)
    (hf : ∀ a, (f a).Calls P) : (p >>= f).Calls P := by
  induction p with
  | ret a => exact hf a
  | call c k ih => exact ⟨hp.1, fun r => ih r (hp.2 r)⟩

/-- So are they if errors are passed on. -/
theorem Calls.andThen {ε : Type} {p : Prog C R (Except ε α)}
    {f : α → Prog C R (Except ε β)} (hp : p.Calls P) (hf : ∀ a, (f a).Calls P) :
    (p.andThen f).Calls P := by
  refine hp.bind fun r => ?_
  cases r with
  | ok a => exact hf a
  | error e => trivial

/-- Changing an error makes no calls. -/
theorem Calls.mapError {ε ε' : Type} {f : ε → ε'} {p : Prog C R (Except ε α)} (hp : p.Calls P) :
    (p.mapError f).Calls P :=
  hp.bind fun _ => trivial

/-- The calls of a loop are those of its rounds. -/
theorem Calls.forM {ι : Type} {l : List ι} {f : ι → Prog C R PUnit}
    (hf : ∀ x ∈ l, (f x).Calls P) : (l.forM f).Calls P := by
  induction l with
  | nil => trivial
  | cons x l ih =>
      refine Calls.bind (hf x List.mem_cons_self) fun _ => ih fun y hy => ?_
      exact hf y (List.mem_cons_of_mem _ hy)

/-! ## Programs of a larger call type -/

variable {C' : Type} {R' : C' → Type}

/-- The same program, its calls seen as calls of another type. -/
def mapCalls (f : C → C') (g : ∀ c, R' (f c) → R c) : Prog C R α → Prog C' R' α
  | ret a => ret a
  | call c k => call (f c) fun r => (k (g c r)).mapCalls f g

/-! ## Runs while the world changes -/

/-- `p` runs while the outside world changes: between two calls a state of the world becomes another by
`Env`, and `Answers` says what a call may return in the state it meets. -/
inductive RunsIn {σ : Type} (Env : σ → σ → Prop) (Answers : σ → (c : C) → R c → Prop) :
    σ → Prog C R α → List (σ × (c : C) × R c) → α → Prop where
  | ret (s : σ) (a : α) : RunsIn Env Answers s (ret a) [] a
  | call {s t : σ} {c : C} {k : R c → Prog C R α} {r : R c} {tr : List (σ × (c : C) × R c)} {a : α} :
      Env s t → Answers t c r → RunsIn Env Answers t (k r) tr a →
        RunsIn Env Answers s (call c k) ((t, ⟨c, r⟩) :: tr) a

section

variable {σ : Type} {Env : σ → σ → Prop} {Answers : σ → (c : C) → R c → Prop} {s : σ}
  {p : Prog C R α} {f : α → Prog C R β} {tr : List (σ × (c : C) × R c)} {b : β}

/-- A program that returns has said nothing. -/
theorem RunsIn.ret_inv {a a' : α} (h : RunsIn Env Answers s (Prog.ret a : Prog C R α) tr a') :
    tr = [] ∧ a' = a := by
  cases h
  exact ⟨rfl, rfl⟩

/-- A run of a call begins with an answer to it. -/
theorem RunsIn.call_inv {c : C} {k : R c → Prog C R α} {a : α}
    (h : RunsIn Env Answers s (Prog.call c k) tr a) :
    ∃ t r tr', tr = (t, ⟨c, r⟩) :: tr' ∧ Env s t ∧ Answers t c r ∧
      RunsIn Env Answers t (k r) tr' a := by
  cases h with
  | call hst hans h => exact ⟨_, _, _, rfl, hst, hans, h⟩

/-- A run of a sequence is a run of its first part and one of the rest. -/
theorem RunsIn.bind_inv (h : RunsIn Env Answers s (p >>= f) tr b) :
    ∃ tr₁ a tr₂ t, tr = tr₁ ++ tr₂ ∧ RunsIn Env Answers s p tr₁ a ∧
      RunsIn Env Answers t (f a) tr₂ b := by
  induction p generalizing s tr with
  | ret a => exact ⟨[], a, tr, s, rfl, .ret s a, h⟩
  | call c k ih =>
      obtain ⟨t, r, tr', rfl, hst, hans, hrest⟩ := RunsIn.call_inv h
      obtain ⟨tr₁, a, tr₂, u, rfl, hp, hf⟩ := ih r hrest
      exact ⟨(t, ⟨c, r⟩) :: tr₁, a, tr₂, u, rfl, .call hst hans hp, hf⟩

/-- The first part fails and its error is returned, or the rest runs on its result. -/
theorem RunsIn.andThen_inv {ε : Type} {p : Prog C R (Except ε α)} {f : α → Prog C R (Except ε β)}
    {b : Except ε β} (h : RunsIn Env Answers s (p.andThen f) tr b) :
    (∃ e, RunsIn Env Answers s p tr (.error e)) ∨
      ∃ tr₁ a tr₂ t, tr = tr₁ ++ tr₂ ∧ RunsIn Env Answers s p tr₁ (.ok a) ∧
        RunsIn Env Answers t (f a) tr₂ b := by
  obtain ⟨tr₁, r, tr₂, t, rfl, hp, hf⟩ := RunsIn.bind_inv h
  cases r with
  | error e =>
      obtain ⟨rfl, -⟩ := RunsIn.ret_inv hf
      rw [List.append_nil]
      exact .inl ⟨e, hp⟩
  | ok a => exact .inr ⟨tr₁, a, tr₂, t, rfl, hp, hf⟩

/-- What a program can call holds of what its runs call. -/
theorem RunsIn.mem_calls {P : C → Prop} {a : α} (h : RunsIn Env Answers s p tr a) (hp : p.Calls P) :
    ∀ x ∈ tr, P x.2.1 := by
  induction h with
  | ret s a => exact fun x hx => absurd hx List.not_mem_nil
  | call _ _ _ ih =>
      intro x hx
      rcases List.mem_cons.mp hx with rfl | hx
      · exact hp.1
      · exact ih (hp.2 _) x hx

/-- The states that the calls meet follow each other. -/
theorem RunsIn.chain {a : α} (h : RunsIn Env Answers s p tr a)
    (htrans : ∀ s t u, Env s t → Env t u → Env s u) : (s :: tr.map Prod.fst).Pairwise Env := by
  induction h with
  | ret s a => exact List.pairwise_singleton Env s
  | call hst _ _ ih =>
      rw [List.map_cons, List.pairwise_cons]
      refine ⟨fun x hx => ?_, ih⟩
      rcases List.mem_cons.mp hx with rfl | hx
      · exact hst
      · exact htrans _ _ _ hst (List.rel_of_pairwise_cons ih hx)

end

end Prog

/-! ## Machines and solitary runs -/

/-- How the shared object answers a call: given an observation of the outside world (a fault, a
reply from a remote party), the answer and the next state. -/
structure Machine (C : Type) (R : C → Type) (O σ : Type) where
  /-- One call. -/
  exec : (c : C) → O → σ → R c × σ

namespace Machine

variable {C : Type} {R : C → Type} {O σ α β : Type} (M : Machine C R O σ)

/-- Run a program alone. The oracle gives the observation each call sees; where it gives none the
process dies before the call, and the run has no result. -/
def run (o : C → Option O) : Prog C R α → σ → Option α × σ
  | .ret a, s => (some a, s)
  | .call c k, s =>
      match o c with
      | none => (none, s)
      | some x => run o (k (M.exec c x s).1) (M.exec c x s).2

variable {M} {o : C → Option O}

/-- To run a program that returns does nothing. -/
@[simp] theorem run_ret (a : α) (s : σ) : M.run o (.ret a) s = (some a, s) := rfl

/-- To run a call is to make it, if it is answered, and to run the rest. -/
theorem run_call (c : C) (k : R c → Prog C R α) (s : σ) :
    M.run o (.call c k) s =
      match o c with
      | none => (none, s)
      | some x => M.run o (k (M.exec c x s).1) (M.exec c x s).2 := by
  rw [run]

/-- A run of a sequence is a run of its first part and, if that returns, of the rest. -/
theorem run_bind (p : Prog C R α) (f : α → Prog C R β) (s : σ) :
    M.run o (p >>= f) s =
      match M.run o p s with
      | (some a, s') => M.run o (f a) s'
      | (none, s') => (none, s') := by
  induction p generalizing s with
  | ret a => rfl
  | call c k ih =>
      rw [Prog.call_bind, run_call, run_call]
      rcases o c with _ | x
      · rfl
      · exact ih _ _

/-! ## The rules of solitary runs -/

variable (M o) in
/-- The run of `p` from `s` ends with a result (`none` if the process died on the way) and a state
that satisfy `Q`. -/
def Ends (p : Prog C R α) (s : σ) (Q : Option α → σ → Prop) : Prop :=
  Q (M.run o p s).1 (M.run o p s).2

variable {p : Prog C R α} {s : σ} {Q : Option α → σ → Prop}

/-- A program that returns ends as it is. -/
theorem Ends.ret {a : α} (h : Q (some a) s) : M.Ends o (.ret a) s Q := h

/-- The process dies before the call, or the call is made and the rest runs on its answer. -/
theorem Ends.call {c : C} {k : R c → Prog C R α} (hdies : o c = none → Q none s)
    (hgo : ∀ x, o c = some x → M.Ends o (k (M.exec c x s).1) (M.exec c x s).2 Q) :
    M.Ends o (.call c k) s Q := by
  unfold Ends
  rw [run_call]
  rcases hx : o c with _ | x
  · exact hdies hx
  · exact hgo x hx

/-- The end of a program can be weakened. -/
theorem Ends.mono {Q' : Option α → σ → Prop} (h : M.Ends o p s Q)
    (himp : ∀ r s', Q r s' → Q' r s') : M.Ends o p s Q' := himp _ _ h

/-- The first part dies and so does the whole, or it returns and the rest runs on. -/
theorem Ends.bind {f : α → Prog C R β} {Q' : Option β → σ → Prop} (h : M.Ends o p s Q)
    (hdies : ∀ s', Q none s' → Q' none s')
    (hgo : ∀ a s', Q (some a) s' → M.Ends o (f a) s' Q') : M.Ends o (p >>= f) s Q' := by
  unfold Ends at h ⊢
  rw [run_bind]
  rcases hr : M.run o p s with ⟨_ | a, s'⟩
  · rw [hr] at h
    exact hdies s' h
  · rw [hr] at h
    exact hgo a s' h

/-- The first part dies or fails and so does the whole, or it has a result and the rest runs on. -/
theorem Ends.andThen {ε : Type} {p : Prog C R (Except ε α)} {f : α → Prog C R (Except ε β)}
    {Q : Option (Except ε α) → σ → Prop} {Q' : Option (Except ε β) → σ → Prop}
    (h : M.Ends o p s Q) (hdies : ∀ s', Q none s' → Q' none s')
    (hfails : ∀ e s', Q (some (.error e)) s' → Q' (some (.error e)) s')
    (hgo : ∀ a s', Q (some (.ok a)) s' → M.Ends o (f a) s' Q') : M.Ends o (p.andThen f) s Q' := by
  refine h.bind hdies fun r s' hQ => ?_
  rcases r with e | a
  · exact hfails e s' hQ
  · exact hgo a s' hQ

/-- What every call of a program keeps, the program keeps. -/
theorem Ends.of_calls {P : C → Prop} {I : σ → Prop} (hp : p.Calls P)
    (hstep : ∀ c x s, P c → I s → I (M.exec c x s).2) (h : I s) :
    M.Ends o p s fun _ s' => I s' := by
  induction p generalizing s with
  | ret a => exact Ends.ret h
  | call c k ih => exact Ends.call (fun _ => h) fun x _ => ih _ (hp.2 _) (hstep c x s hp.1 h)

/-- Changing the error of a program changes how it ends accordingly. -/
theorem Ends.mapError {ε ε' : Type} {f : ε → ε'} {p : Prog C R (Except ε α)}
    {Q : Option (Except ε α) → σ → Prop} {Q' : Option (Except ε' α) → σ → Prop}
    (h : M.Ends o p s Q) (hQ : ∀ r s', Q r s' → Q' (r.map (·.mapError f)) s') :
    M.Ends o (p.mapError f) s Q' :=
  h.bind (fun s' h' => hQ none s' h') fun r s' h' => hQ (some r) s' h'

end Machine

end Conc
