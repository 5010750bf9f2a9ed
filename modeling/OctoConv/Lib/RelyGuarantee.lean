import OctoConv.Lib.Program

/-!
# Rely and guarantee for programs that share an object

Many programs run against one shared state, one call at a time, in any order. A `Spec` fixes what
one program needs to know about all the others:

* `Exec c s r s'` — what a call may do;
* `Rely` — how the state may change between two calls of the same program (a preorder);
* `Inv` — an invariant of the shared state;
* `Pre c` — what must hold when a program performs the call `c`.

The one proof obligation of a `Spec`, `guar`, says that a call performed when its precondition
holds is itself a `Rely` step and keeps the invariant. Then `Safe` — a program performs its calls
only under their preconditions, and what it returns satisfies `Q` — can be proved for each program
by itself and survives every interleaving: `Safe.stable` (a step of somebody else) and `Safe.step`
(a step of its own).
-/

namespace Conc

/-- What programs may assume about the shared state, and what each call owes to the others. -/
structure Spec (C : Type) (R : C → Type) (σ : Type) where
  /-- What a call may do. -/
  Exec : (c : C) → σ → R c → σ → Prop
  /-- How the state may change between two calls of a program. -/
  Rely : σ → σ → Prop
  /-- The invariant of the shared state. -/
  Inv : σ → Prop
  /-- What must hold when the call is performed. -/
  Pre : C → σ → Prop
  rely_refl : ∀ s, Rely s s
  rely_trans : ∀ s t u, Rely s t → Rely t u → Rely s u
  /-- A call performed under its precondition is a `Rely` step and keeps the invariant. -/
  guar : ∀ c s r s', Inv s → Pre c s → Exec c s r s' → Rely s s' ∧ Inv s'

variable {C : Type} {R : C → Type} {σ α β ι : Type} (S : Spec C R σ)

/-- From `s` on, whatever the others do in between, `p` performs its calls only under their
preconditions and returns only values that satisfy `Q`. -/
def Safe (Q : α → σ → Prop) : Prog C R α → σ → Prop
  | .ret a, s => ∀ s', S.Rely s s' → S.Inv s' → Q a s'
  | .call c k, s => ∀ s', S.Rely s s' → S.Inv s' →
      S.Pre c s' ∧ ∀ r s'', S.Exec c s' r s'' → Safe Q (k r) s''

variable {S} {Q : α → σ → Prop}

/-- Safety survives what the others do. -/
theorem Safe.stable {p : Prog C R α} {s t : σ} (h : Safe S Q p s) (hst : S.Rely s t) :
    Safe S Q p t := by
  cases p with
  | ret a => exact fun u htu hu => h u (S.rely_trans _ _ _ hst htu) hu
  | call c k => exact fun u htu hu => h u (S.rely_trans _ _ _ hst htu) hu

/-- The call a safe program is about to perform is under its precondition. -/
theorem Safe.pre {c : C} {k : R c → Prog C R α} {s : σ} (h : Safe S Q (.call c k) s)
    (hs : S.Inv s) : S.Pre c s :=
  (h s (S.rely_refl s) hs).1

/-- **One step of a safe program** leaves the invariant standing, is a `Rely` step for everybody
else, and leaves the rest of the program safe. -/
theorem Safe.step {c : C} {k : R c → Prog C R α} {s s' : σ} {r : R c}
    (h : Safe S Q (.call c k) s) (hs : S.Inv s) (he : S.Exec c s r s') :
    S.Rely s s' ∧ S.Inv s' ∧ Safe S Q (k r) s' := by
  have hpre := h s (S.rely_refl s) hs
  have hg := S.guar c s r s' hs hpre.1 he
  exact ⟨hg.1, hg.2, hpre.2 r s' he⟩

/-- What a finished safe program returned satisfies `Q`. -/
theorem Safe.result {a : α} {s : σ} (h : Safe S Q (.ret a) s) (hs : S.Inv s) : Q a s :=
  h s (S.rely_refl s) hs

/-! ## Rules for proving a program safe -/

/-- Knowledge `K` that the others cannot destroy. -/
def Stable (S : Spec C R σ) (K : σ → Prop) : Prop := ∀ s t, K s → S.Rely s t → K t

/-- Two facts that are stable are so together. -/
theorem Stable.and {K L : σ → Prop} (hK : Stable S K) (hL : Stable S L) :
    Stable S fun s => K s ∧ L s :=
  fun s t h hst => ⟨hK s t h.1 hst, hL s t h.2 hst⟩

/-- The trivial fact is stable. -/
theorem Stable.true : Stable S fun _ => True := fun _ _ _ _ => trivial

/-- A program may return on a fact that is stable. -/
theorem Safe.ret_of {K : σ → Prop} (hK : Stable S K) {a : α} {s : σ} (hs : K s)
    (h : ∀ t, K t → S.Inv t → Q a t) : Safe S Q (.ret a) s :=
  fun t hst ht => h t (hK s t hs hst) ht

/-- The rule for one call: carry stable knowledge up to it and past it, show the precondition, and
go on from whatever the call leaves. -/
theorem Safe.call_of {K : σ → Prop} (hK : Stable S K) {c : C} {k : R c → Prog C R α} {s : σ}
    (hs : K s) (hpre : ∀ t, K t → S.Inv t → S.Pre c t)
    (hk : ∀ t r u, K t → S.Inv t → S.Exec c t r u → K u → S.Inv u → Safe S Q (k r) u) :
    Safe S Q (.call c k) s := by
  intro t hst ht
  have hKt := hK s t hs hst
  refine ⟨hpre t hKt ht, fun r u he => ?_⟩
  obtain ⟨htu, hu⟩ := S.guar c t r u ht (hpre t hKt ht) he
  exact hk t r u hKt ht he (hK t u hKt htu) hu

/-- The rule for a program that is one call. -/
theorem Safe.perform_of {K : σ → Prop} {c : C} {L : R c → σ → Prop} (hK : Stable S K)
    (hL : ∀ r, Stable S (L r)) {s : σ} (hs : K s) (hpre : ∀ t, K t → S.Inv t → S.Pre c t)
    (hq : ∀ t r u, K t → S.Inv t → S.Exec c t r u → L r u) :
    Safe S L (Prog.perform c) s :=
  Safe.call_of hK hs hpre fun t r u hKt ht he _ _ =>
    Safe.ret_of (hL r) (hq t r u hKt ht he) fun _ h _ => h

/-- Sequencing. -/
theorem Safe.bind {p : Prog C R α} {f : α → Prog C R β} {Q' : β → σ → Prop} {s : σ}
    (hp : Safe S (fun a t => Safe S Q' (f a) t) p s) : Safe S Q' (p >>= f) s := by
  induction p generalizing s with
  | ret a =>
      have h : ∀ t, S.Rely s t → S.Inv t → Safe S Q' (f a) t := hp
      show Safe S Q' (f a) s
      cases hfa : f a with
      | ret b =>
          intro t hst ht
          exact (hfa ▸ h t hst ht : Safe S Q' (.ret b) t).result ht
      | call c k =>
          intro t hst ht
          exact (hfa ▸ h t hst ht : Safe S Q' (.call c k) t) t (S.rely_refl t) ht
  | call c k ih =>
      intro t hst ht
      have h := hp t hst ht
      exact ⟨h.1, fun r u he => ih r (h.2 r u he)⟩

/-- A promise can be weakened. -/
theorem Safe.mono {Q' : α → σ → Prop} (hQ : ∀ a s, S.Inv s → Q a s → Q' a s) {p : Prog C R α}
    {s : σ} (h : Safe S Q p s) : Safe S Q' p s := by
  induction p generalizing s with
  | ret a => exact fun t hst ht => hQ a t ht (h t hst ht)
  | call c k ih =>
      intro t hst ht
      have h' := h t hst ht
      exact ⟨h'.1, fun r u he => ih r (h'.2 r u he)⟩

/-- Sequencing with stable knowledge: what `p` establishes for its result is carried to the rest. -/
theorem Safe.bind_of {K : α → σ → Prop} {p : Prog C R α} {f : α → Prog C R β}
    {Q' : β → σ → Prop} {s : σ} (hp : Safe S K p s)
    (hf : ∀ a t, S.Inv t → K a t → Safe S Q' (f a) t) : Safe S Q' (p >>= f) s :=
  Safe.bind (hp.mono hf)

/-- Changing the error of a program. -/
theorem Safe.mapError {ε ε' : Type} {f : ε → ε'} {p : Prog C R (Except ε α)}
    {Q' : Except ε' α → σ → Prop} {s : σ} (hp : Safe S (fun r t => Q' (r.mapError f) t) p s) :
    Safe S Q' (p.mapError f) s := by
  refine Safe.bind ?_
  induction p generalizing s with
  | ret r => exact fun t hst ht u htu hu => hp u (S.rely_trans _ _ _ hst htu) hu
  | call c k ih =>
      intro t hst ht
      have h := hp t hst ht
      exact ⟨h.1, fun r u he => ih r (h.2 r u he)⟩

/-- A loop over a list keeps stable knowledge. -/
theorem Safe.forM_of {K : σ → Prop} (hK : Stable S K) {l : List ι} {f : ι → Prog C R PUnit}
    {s : σ} (hinv : S.Inv s) (hs : K s)
    (hf : ∀ x ∈ l, ∀ t, S.Inv t → K t → Safe S (fun _ u => K u) (f x) t) :
    Safe S (fun _ u => K u) (l.forM f) s := by
  induction l generalizing s with
  | nil => exact Safe.ret_of hK hs fun t ht _ => ht
  | cons x l ih =>
      refine Safe.bind_of (K := fun _ u => K u) ?_ fun _ t ht hKt => ?_
      · exact hf x List.mem_cons_self s hinv hs
      · exact ih ht hKt fun y hy => hf y (List.mem_cons_of_mem _ hy)

/-- A program whose calls need no precondition is safe. -/
theorem Safe.of_calls {p : Prog C R α} (hp : p.Calls fun c => ∀ t, S.Inv t → S.Pre c t) (s : σ) :
    Safe S (fun _ _ => True) p s := by
  induction p generalizing s with
  | ret a => exact fun _ _ _ => trivial
  | call c k ih => exact fun t _ ht => ⟨hp.1 t ht, fun r u _ => ih r (hp.2 r) u⟩

/-- What is safe under one specification is safe under a stricter one, if the calls that the program can
make need no more there. -/
theorem Safe.refine (T : Spec C R σ) {p : Prog C R α} {s : σ} (h : Safe S Q p s)
    (hp : p.Calls fun c => ∀ t, T.Inv t → S.Pre c t → T.Pre c t)
    (hrely : ∀ s t, T.Rely s t → S.Rely s t) (hinv : ∀ s, T.Inv s → S.Inv s)
    (hexec : ∀ c s r s', T.Exec c s r s' → S.Exec c s r s') : Safe T Q p s := by
  induction p generalizing s with
  | ret a => exact fun t hst ht => h t (hrely s t hst) (hinv t ht)
  | call c k ih =>
      intro t hst ht
      obtain ⟨hpre, hk⟩ := h t (hrely s t hst) (hinv t ht)
      exact ⟨hp.1 t ht hpre, fun r u he => ih r (hk r u (hexec c t r u he)) (hp.2 r)⟩

/-- Stable knowledge survives a safe program. -/
theorem Safe.frame {K : σ → Prop} (hK : Stable S K) {p : Prog C R α} {s : σ} (hs : K s)
    (h : Safe S Q p s) : Safe S (fun a t => K t ∧ Q a t) p s := by
  induction p generalizing s with
  | ret a => exact fun t hst ht => ⟨hK s t hs hst, h t hst ht⟩
  | call c k ih =>
      intro t hst ht
      obtain ⟨hpre, hk⟩ := h t hst ht
      refine ⟨hpre, fun r u he => ih r ?_ (hk r u he)⟩
      exact hK t u (hK s t hs hst) (S.guar c t r u ht hpre he).1

/-- Step over a part whose calls need no precondition, with stable knowledge in hand. -/
theorem Safe.skip {K : σ → Prop} (hK : Stable S K) {p : Prog C R α} {f : α → Prog C R β}
    {Q' : β → σ → Prop} {s : σ} (hs : K s) (hp : p.Calls fun c => ∀ t, S.Inv t → S.Pre c t)
    (hf : ∀ a t, S.Inv t → K t → Safe S Q' (f a) t) : Safe S Q' (p >>= f) s :=
  Safe.bind_of (Safe.frame hK hs (Safe.of_calls hp s)) fun a t ht hKt => hf a t ht hKt.1

/-- Sequencing of programs that can fail: an error is returned at once. -/
theorem Safe.andThen {ε : Type} {K : α → σ → Prop} {p : Prog C R (Except ε α)}
    {f : α → Prog C R (Except ε β)} {Q' : Except ε β → σ → Prop} {s : σ}
    (hp : Safe S (fun r t => ∀ a, r = .ok a → K a t) p s)
    (hf : ∀ a t, S.Inv t → K a t → Safe S Q' (f a) t)
    (he : ∀ e t, S.Inv t → Q' (.error e) t) : Safe S Q' (p.andThen f) s := by
  refine Safe.bind_of hp fun r t ht hr => ?_
  cases r with
  | ok a => exact hf a t ht (hr a rfl)
  | error e => exact fun u _ hu => he e u hu

/-- Step over a part that can fail and whose calls need no precondition. -/
theorem Safe.skipThen {ε : Type} {K : σ → Prop} (hK : Stable S K) {p : Prog C R (Except ε α)}
    {f : α → Prog C R (Except ε β)} {Q' : Except ε β → σ → Prop} {s : σ} (hs : K s)
    (hp : p.Calls fun c => ∀ t, S.Inv t → S.Pre c t)
    (hf : ∀ a t, S.Inv t → K t → Safe S Q' (f a) t)
    (he : ∀ e t, S.Inv t → Q' (.error e) t) : Safe S Q' (p.andThen f) s := by
  refine Safe.skip hK hs hp fun r t ht hKt => ?_
  cases r with
  | ok a => exact hf a t ht hKt
  | error e => exact fun u _ hu => he e u hu

end Conc
