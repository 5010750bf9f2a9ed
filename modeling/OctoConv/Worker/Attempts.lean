import OctoConv.Worker.Handlers

/-!
# A task and its retry budget

asynq executes a task until its handler succeeds or its retry budget is used up. `attempts` is such a
series for a task that nobody else interferes with: each attempt runs the handler against its own
outside world, and may die at any call.

## Main results

* `attemptTask_cases` — what an attempt can do to its task.
* `read_ends`, `write_ends` — what a call of a handler does in such a run.
-/

namespace OctoConv

open Conc

/-- What asynq makes of a task whose handler has returned this. -/
def TaskInfo.settle : Option GoError → TaskInfo → TaskInfo
  | none, i => { i with state := .completed }
  | some err, i => i.fail (err.is .skipRetry)

namespace Worker

/-- The circumstances of an attempt: how long after the last one it starts, how the outside world
behaves during each call (with none, the worker dies before the call), and whether the worker dies
at its end, before asynq hears of it. -/
structure Try where
  delay : Nat
  outside : Call → Option Obs
  dies : Bool

/-- One attempt at a task. -/
def attemptTask (env : Env) (t : Try) (x : TaskInfo × World) : TaskInfo × World :=
  let r := machine.run t.outside (handle env x.1) { x.2 with now := x.2.now + t.delay }
  match r.1 with
  | some err => (if t.dies then x.1.fail false else x.1.settle err, r.2)
  | none => (x.1.fail false, r.2)

/-- The attempts at a task, until it is finished. -/
def attempts (env : Env) : List Try → TaskInfo × World → TaskInfo × World
  | [], x => x
  | t :: ts, x => if x.1.unfinished then attempts env ts (attemptTask env t x) else x

/-- asynq has used up the retry budget of the task and given it up. -/
def Exhausted (i : TaskInfo) : Prop := i.state = .archived ∧ i.retried = i.task.maxRetry

instance (i : TaskInfo) : Decidable (Exhausted i) := by
  unfold Exhausted
  infer_instance

/-! ## What becomes of the task -/

variable {env : Env} {t : Try} {i : TaskInfo} {w : World}

/-- A failed attempt uses up one retry, or is the last one. -/
theorem fail_cases (skip : Bool) (i : TaskInfo) :
    i.fail skip = { i with state := .archived } ∨
    (i.retried < i.task.maxRetry ∧
      i.fail skip = { i with state := .retry, retried := i.retried + 1 }) := by
  unfold TaskInfo.fail
  split
  · exact .inl rfl
  · rename_i hgo
    simp only [Bool.or_eq_true, decide_eq_true_eq, not_or, Nat.not_le] at hgo
    exact .inr ⟨hgo.2, rfl⟩

/-- **What an attempt can do to its task**: finish it, or use up one retry. -/
theorem attemptTask_cases (env : Env) (t : Try) (i : TaskInfo) (w : World) :
    (attemptTask env t (i, w)).1 = { i with state := .completed } ∨
    (attemptTask env t (i, w)).1 = { i with state := .archived } ∨
    (i.retried < i.task.maxRetry ∧
      (attemptTask env t (i, w)).1 = { i with state := .retry, retried := i.retried + 1 }) := by
  simp only [attemptTask]
  split
  · rename_i err _
    split
    · exact .inr (fail_cases _ i)
    · rcases err with _ | err
      · exact .inl rfl
      · exact .inr (fail_cases _ i)
  · exact .inr (fail_cases _ i)

/-- An attempt leaves the task what it is. -/
theorem attemptTask_task (env : Env) (t : Try) (i : TaskInfo) (w : World) :
    (attemptTask env t (i, w)).1.task = i.task := by
  rcases attemptTask_cases env t i w with h | h | ⟨-, h⟩ <;> rw [h]

/-- An attempt leaves the world in which its handler ends. -/
theorem attemptTask_world (env : Env) (t : Try) (i : TaskInfo) (w : World) :
    (attemptTask env t (i, w)).2 =
      (machine.run t.outside (handle env i) { w with now := w.now + t.delay }).2 := by
  simp only [attemptTask]
  split <;> rfl

/-- The attempts at a task that is finished are over. -/
theorem attempts_finished (ts : List Try) (h : i.unfinished = false) :
    attempts env ts (i, w) = (i, w) := by
  rcases ts with _ | ⟨t, ts⟩
  · rfl
  · simp [attempts, h]

/-- The attempts at a task that is not finished go on. -/
theorem attempts_cons (ts : List Try) (h : i.unfinished = true) :
    attempts env (t :: ts) (i, w) = attempts env ts (attemptTask env t (i, w)) := by
  simp [attempts, h]

/-! ## Runs of single calls -/

variable {outside : Call → Option Obs}

/-- The call is made and answers without an error. -/
def answers : Option Obs → Bool
  | some o => o.fault = .none
  | none => false

/-- The call is made and takes effect. -/
def takesEffect : Option Obs → Bool
  | some o => match o.fault with
    | .aborted _ => false
    | _ => true
  | none => false

/-- A call that takes no effect is not answered. -/
theorem answers_of_takesEffect {x : Option Obs} (h : takesEffect x = false) : answers x = false := by
  rcases x with _ | o
  · rfl
  · simp only [takesEffect] at h
    simp only [answers, decide_eq_false_iff_not]
    intro hf
    rw [hf] at h
    cases h

/-- How a call ends: the process dies before it, or the call answers, or is aborted, or takes effect
unheard. -/
inductive AskEnds (outside : Call → Option Obs) (w : World) (c : Call) :
    Option c.Result → World → Prop
  | died (h : outside c = none) : AskEnds outside w c none w
  | answered {o : Obs} (h : outside c = some o) (hf : o.fault = .none) :
      AskEnds outside w c (some (c.effect o w).1) (c.effect o w).2
  | aborted {o : Obs} {err : GoError} (h : outside c = some o) (hf : o.fault = .aborted err) :
      AskEnds outside w c (some (.error err)) (c.aborted w)
  | lost {o : Obs} {err : GoError} (h : outside c = some o) (hf : o.fault = .lost err) :
      AskEnds outside w c (some (.error err)) (c.lost o w)

/-- **A run of one call.** -/
theorem ask_ends (outside : Call → Option Obs) (c : Call) (w : World) :
    machine.Ends outside (ask c) w (AskEnds outside w c) := by
  refine Machine.Ends.call .died fun o ho => Machine.Ends.ret ?_
  show AskEnds outside w c (some (c.exec o w).1) (c.exec o w).2
  unfold Call.exec
  split
  · exact .answered ho (by assumption)
  · exact .aborted ho (by assumption)
  · exact .lost ho (by assumption)

/-- How a write ends: it takes effect, whether or not the caller hears of it, or nothing happens. -/
inductive WriteEnds (outside : Call → Option Obs) (w : World) (c : Call) :
    Option c.Result → World → Prop
  | died (h : takesEffect (outside c) = false) : WriteEnds outside w c none w
  | aborted (err : GoError) (h : takesEffect (outside c) = false) :
      WriteEnds outside w c (some (.error err)) w
  | answered (o : Obs) (h : takesEffect (outside c) = true) (ha : answers (outside c) = true) :
      WriteEnds outside w c (some (c.effect o w).1) (c.effect o w).2
  | lost (o : Obs) (err : GoError) (h : takesEffect (outside c) = true)
      (ha : answers (outside c) = false) :
      WriteEnds outside w c (some (.error err)) (c.effect o w).2

/-- **A run of a call that writes.** -/
theorem write_ends {c : Call} (haborted : c.aborted w = w)
    (hlost : ∀ o, c.lost o w = (c.effect o w).2) :
    machine.Ends outside (ask c) w (WriteEnds outside w c) := by
  refine (ask_ends outside c w).mono fun r w' h => ?_
  rcases h with h | @⟨o, h, hf⟩ | @⟨o, err, h, hf⟩ | @⟨o, err, h, hf⟩
  · exact .died (by simp [h, takesEffect])
  · exact .answered o (by simp [h, takesEffect, hf]) (by simp [h, answers, hf])
  · rw [haborted]
    exact .aborted err (by simp [h, takesEffect, hf])
  · rw [hlost o]
    exact .lost o err (by simp [h, takesEffect, hf]) (by simp [h, answers, hf])

/-- How a read ends: the world stays, and there is a result exactly if the call is answered and the
answer is not itself an error. -/
inductive ReadEnds (outside : Call → Option Obs) (w : World) (c : Call) :
    Option c.Result → World → Prop
  | died (h : answers (outside c) = false) : ReadEnds outside w c none w
  | failed (err : GoError)
      (h : answers (outside c) = true → ∃ o err', (c.effect o w).1 = .error err') :
      ReadEnds outside w c (some (.error err)) w
  | answered {o : Obs} {a : c.Answer} (h : answers (outside c) = true) (ho : outside c = some o)
      (ha : (c.effect o w).1 = .ok a) : ReadEnds outside w c (some (.ok a)) w

/-- **A run of a call that reads.** -/
theorem read_ends {c : Call} (hread : ∀ o, (c.effect o w).2 = w) (haborted : c.aborted w = w)
    (hlost : ∀ o, c.lost o w = w) :
    machine.Ends outside (ask c) w (ReadEnds outside w c) := by
  refine (ask_ends outside c w).mono fun r w' h => ?_
  rcases h with h | @⟨o, h, hf⟩ | @⟨o, err, h, hf⟩ | @⟨o, err, h, hf⟩
  · exact .died (by simp [h, answers])
  · rw [hread o]
    rcases ha : (c.effect o w).1 with err | a
    · exact .failed err fun _ => ⟨o, err, ha⟩
    · exact .answered (by simp [h, answers, hf]) h ha
  · rw [haborted]
    exact .failed err fun ha => by simp [h, answers, hf] at ha
  · rw [hlost o]
    exact .failed err fun ha => by simp [h, answers, hf] at ha

/-- A read whose error is wrapped. -/
theorem read_mapError_ends {c : Call} (f : GoError → GoError) (hread : ∀ o, (c.effect o w).2 = w)
    (haborted : c.aborted w = w) (hlost : ∀ o, c.lost o w = w) :
    machine.Ends outside ((ask c).mapError f) w (ReadEnds outside w c) := by
  refine (read_ends hread haborted hlost).mapError fun r w' h => ?_
  rcases h with h | ⟨err, h⟩ | ⟨h, ho, ha⟩
  · exact .died h
  · exact .failed _ h
  · exact .answered h ho ha

end Worker

end OctoConv
