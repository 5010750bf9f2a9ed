import OctoConv.Worker.Handlers

/-!
# The sweep of the reconciler

One tick of the sweeper, as a program over the shared world: the scan for stranded jobs, then the
scan for webhooks that were never enqueued. A job under the recovery cap is enqueued first and
requeued only if its enqueue was accepted; a job at the cap is failed.

The advisory lock that elects one sweeper and the metrics are left out: a run may have any number
of sweeps in flight.

Source: `internal/reconciler/reconciler.go` sweep.
-/

namespace OctoConv.Reconciler

open Conc Worker

/-- The code with which the reconciler fails a job.

Source: `reconciler.go` sweep -/
def exhaustedCode : String := "reconciler_exhausted"

/-- The status change of a job at the recovery cap.

Source: `reconciler.go` sweep -/
def exhaustedWrite : Write :=
  .markFailed exhaustedCode "recovery attempts exhausted" (some [("action", "reconciler_exhausted")])

/-- Fail a job at the cap and send its webhook. The error of the status change is discarded. -/
def exhaust (env : Env) (j : StaleJob) : P Unit := do
  let job ← ask (.get j.id)
  let _ ← ask (.write j.id exhaustedWrite)
  match job with
  | .ok job => notify env job j.id
  | .error _ => .ret ()

/-- The requeue of a recovered job, tried once more if it fails. -/
def requeue (j : StaleJob) : P Unit := do
  match ← ask (.write j.id (.requeueStale ("stale_" ++ j.status.text))) with
  | .ok () => .ret ()
  | .error _ =>
      let _ ← ask (.write j.id (.requeueStale ("stale_" ++ j.status.text)))
      .ret ()

/-- Recover a job under the cap, enqueue first; an engine without a queue is skipped. -/
def recover (env : Env) (j : StaleJob) : P Unit :=
  match env.client.convertTask j.engine j.id with
  | none => .ret ()
  | some task => do
      match ← ask (.enqueue task) with
      | .error _ => .ret ()
      | .ok () => requeue j

/-- One job of the first scan. -/
def sweepStale (env : Env) (j : StaleJob) : P Unit := do
  match ← ask (.recoveryCount j.id) with
  | .error _ => .ret ()
  | .ok n => if env.maxRecoveries ≤ n then exhaust env j else recover env j

/-- One job of the second scan. -/
def sweepGap (env : Env) (g : WebhookGapJob) : P Unit := do
  match ← ask (.enqueue (env.client.webhookTask g.id)) with
  | .error _ => .ret ()
  | .ok () =>
      let _ ← ask (.recordWebhookGapRecovered g.id g.status)
      .ret ()

/-- The second scan. -/
def sweepGaps (env : Env) : P Unit := do
  match ← ask (.findWebhookGaps env.activeStaleAfter) with
  | .error _ => .ret ()
  | .ok gaps => gaps.forM (sweepGap env)

/-- One tick.

Source: `reconciler.go` sweep -/
def sweep (env : Env) : P Unit := do
  match ← ask (.findStale env.queuedStaleAfter env.activeStaleAfter) with
  | .error _ => .ret ()
  | .ok stale =>
      stale.forM (sweepStale env)
      sweepGaps env

/-! ## What a sweep calls -/

/-- The calls of a sweep. -/
inductive SweepCall (env : Env) : Call → Prop
  | findStale : SweepCall env (.findStale env.queuedStaleAfter env.activeStaleAfter)
  | recoveryCount (id : UUID) : SweepCall env (.recoveryCount id)
  | get (id : UUID) : SweepCall env (.get id)
  | exhaust (id : UUID) : SweepCall env (.write id exhaustedWrite)
  | requeue (id : UUID) (reason : String) : SweepCall env (.write id (.requeueStale reason))
  | convert {engine : Engine} {id : UUID} {t : Task}
      (h : env.client.convertTask engine id = some t) : SweepCall env (.enqueue t)
  | webhook (id : UUID) : SweepCall env (.enqueue (env.client.webhookTask id))
  | findWebhookGaps : SweepCall env (.findWebhookGaps env.activeStaleAfter)
  | gap (id : UUID) (status : Status) : SweepCall env (.recordWebhookGapRecovered id status)

/-- Treating a job of the first scan makes the calls of a sweep. -/
theorem sweepStale_calls (env : Env) (j : StaleJob) : (sweepStale env j).Calls (SweepCall env) := by
  refine (ask_calls (.recoveryCount j.id)).bind fun r => ?_
  cases r with
  | error _ => trivial
  | ok n =>
      show Prog.Calls _ (if env.maxRecoveries ≤ n then exhaust env j else recover env j)
      split
      · refine (ask_calls (.get j.id)).bind fun job => (ask_calls (.exhaust j.id)).bind fun _ => ?_
        cases job with
        | ok job => exact notify_calls (.webhook j.id)
        | error _ => trivial
      · unfold recover
        split
        · trivial
        · rename_i t ht
          refine (ask_calls (.convert ht)).bind fun r => ?_
          cases r with
          | error _ => trivial
          | ok _ =>
              refine (ask_calls (.requeue j.id _)).bind fun r => ?_
              cases r with
              | ok _ => trivial
              | error _ => exact (ask_calls (.requeue j.id _)).bind fun _ => trivial

/-- So does the second scan. -/
theorem sweepGaps_calls (env : Env) : (sweepGaps env).Calls (SweepCall env) := by
  refine (ask_calls .findWebhookGaps).bind fun r => ?_
  cases r with
  | error _ => trivial
  | ok gaps =>
      refine Prog.Calls.forM fun g _ => (ask_calls (.webhook g.id)).bind fun r => ?_
      cases r with
      | error _ => trivial
      | ok _ => exact (ask_calls (.gap g.id g.status)).bind fun _ => trivial

/-- So does the sweep. -/
theorem sweep_calls (env : Env) : (sweep env).Calls (SweepCall env) := by
  refine (ask_calls .findStale).bind fun r => ?_
  cases r with
  | error _ => trivial
  | ok stale =>
      exact (Prog.Calls.forM fun j _ => sweepStale_calls env j).bind fun _ => sweepGaps_calls env

end OctoConv.Reconciler
