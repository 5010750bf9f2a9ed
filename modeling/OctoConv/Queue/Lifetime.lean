import OctoConv.Base.Environ
import OctoConv.Queue.Client
import Mathlib.Algebra.BigOperators.Group.Finset.Basic
import Mathlib.Algebra.Order.Ring.Int
import Mathlib.Tactic.Ring
import Mathlib.Tactic.Linarith

/-!
# How long a unique lock has to last

A convert task may be attempted once more than it has retries, each attempt up to the bound of the
worker that runs it, with a backoff before each retry. The lock of the task is taken with a
lifetime that the queue client derives from its own reading of the retry budget and of the bound.
The worker replaces a bound of zero by two minutes, and asynq counts a negative budget as none.

Main results:

* `backoffSum_eq_sum` : the backoff of a lifetime is the sum of the delays before the retries;
* `newClient_convertTask` : the lifetime and the budget of the task of an engine class;
* `uniqueTTL_covers_iff` : the lifetime covers every attempt and every delay exactly when the bound
  is not zero or there is no retry, and a negative budget times the bound is at most two minutes.

Source: `internal/queue/client.go`, `internal/queue/queue.go`, `internal/worker/worker.go` and
`cmd/*/main.go`.
-/

namespace OctoConv

/-! ## The two processes -/

/-- The queue client of a process.

Source: `client.go` NewClient, `queue.go` RedisOpt -/
def newClient (env : Environ) : Except GoError Client :=
  if env "REDIS_ADDR" = "" then .error (GoError.new "REDIS_ADDR must be set")
  else
    let imageMaxRetry := envInt env "IMAGE_MAX_RETRY" 4
    let engineTimeout := envDuration env "ENGINE_TIMEOUT" (120 * second)
    let documentMaxRetry := envInt env "DOCUMENT_MAX_RETRY" 3
    let documentEngineTimeout := envDuration env "DOCUMENT_ENGINE_TIMEOUT" (300 * second)
    let htmlMaxRetry := envInt env "HTML_MAX_RETRY" 3
    let htmlEngineTimeout := envDuration env "HTML_ENGINE_TIMEOUT" (60 * second)
    let audioMaxRetry := envInt env "AUDIO_MAX_RETRY" 3
    let audioEngineTimeout := envDuration env "AUDIO_ENGINE_TIMEOUT" (600 * second)
    let avMaxRetry := envInt env "AV_MAX_RETRY" 2
    let avEngineTimeout := envDuration env "AV_ENGINE_TIMEOUT" (600 * second)
    .ok
      { imageMaxRetry := imageMaxRetry
        imageUniqueTTL := imageUniqueTTL imageMaxRetry engineTimeout
        webhookUniqueTTL := webhookUniqueTTL webhookMaxRetry webhookPerAttemptTimeout
        documentMaxRetry := documentMaxRetry
        documentUniqueTTL := documentUniqueTTL documentMaxRetry documentEngineTimeout
        htmlMaxRetry := htmlMaxRetry
        htmlUniqueTTL := htmlUniqueTTL htmlMaxRetry htmlEngineTimeout
        audioMaxRetry := audioMaxRetry
        audioUniqueTTL := audioUniqueTTL audioMaxRetry audioEngineTimeout
        avMaxRetry := avMaxRetry
        avUniqueTTL := avUniqueTTL avMaxRetry avEngineTimeout }

/-- The client of an environment that sets nothing but the address is the default one. -/
example :
    newClient (fun key => if key = "REDIS_ADDR" then "redis:6379" else "") = .ok Client.default := by
  rfl

/-- The retry budget of an engine class, as the client reads it.

Source: `client.go` NewClient -/
def maxRetryVar (env : Environ) : Engine → Int
  | .image => envInt env "IMAGE_MAX_RETRY" 4
  | .document => envInt env "DOCUMENT_MAX_RETRY" 3
  | .html => envInt env "HTML_MAX_RETRY" 3
  | .audio => envInt env "AUDIO_MAX_RETRY" 3
  | .av => envInt env "AV_MAX_RETRY" 2
  | .cad | .archive | .probe => 0

/-- The bound that the worker process of an engine class hands to its handler.

Source: `cmd/worker/main.go`, `cmd/document-worker/main.go`, `cmd/chromium-worker/main.go`,
`cmd/audio-worker/main.go`, `cmd/av-worker/main.go` main -/
def engineTimeoutVar (env : Environ) : Engine → Int
  | .image => envDuration env "ENGINE_TIMEOUT" (120 * second)
  | .document => envDuration env "DOCUMENT_ENGINE_TIMEOUT" (300 * second)
  | .html => envDuration env "HTML_ENGINE_TIMEOUT" (60 * second)
  | .audio => envDuration env "AUDIO_ENGINE_TIMEOUT" (600 * second)
  | .av => envDuration env "AV_ENGINE_TIMEOUT" (600 * second)
  | .cad | .archive | .probe => 0

/-- The bound of an attempt that a handler uses.

Source: `worker.go` NewHandler -/
def handlerTimeout (engineTimeout : Int) : Int :=
  if engineTimeout = 0 then 120 * second else engineTimeout

/-- The delay before retry `n` of a task. The jitter of the webhook schedule is random.

Source: `queue.go` RetryDelayFunc -/
def retryDelayFunc (typename : TaskType) (jitter : Int) (n : Int) : Int :=
  match typename with
  | .imageConvert => retryDelay imageRetrySchedule n
  | .webhookDeliver => max 0 (retryDelay webhookRetrySchedule n + jitter)
  | .documentConvert => retryDelay documentRetrySchedule n
  | .htmlConvert => retryDelay htmlRetrySchedule n
  | .audioConvert => retryDelay audioRetrySchedule n
  | .avConvert => retryDelay avRetrySchedule n

/-! ## The derivation -/

/-- The total backoff is the sum of the delays before the retries. -/
theorem backoffSum_eq_sum (schedule : List Int) (maxRetry : Int) :
    backoffSum schedule maxRetry =
      ∑ i ∈ Finset.range maxRetry.toNat, retryDelay schedule (i : Int) := by
  unfold backoffSum
  induction maxRetry.toNat with
  | zero => rfl
  | succ n ih =>
    rw [List.range_succ, List.foldl_append, ih, Finset.sum_range_succ]
    rfl

/-- The backoff schedule of an engine class. -/
def scheduleOf : Engine → List Int
  | .image => imageRetrySchedule
  | .document => documentRetrySchedule
  | .html => htmlRetrySchedule
  | .audio => audioRetrySchedule
  | .av => avRetrySchedule
  | .cad | .archive | .probe => []

/-- What the task of an engine class carries: the budget as asynq counts it, and a lifetime derived
from the two variables of the class. -/
theorem newClient_convertTask {env : Environ} {c : Client} {engine : Engine} {jobID : UUID}
    {t : Task} (hc : newClient env = .ok c) (ht : c.convertTask engine jobID = some t) :
    t.maxRetry = (maxRetryVar env engine).toNat ∧
      t.uniqueTTL =
        uniqueTTL (scheduleOf engine) (maxRetryVar env engine) (engineTimeoutVar env engine) ∧
      ∀ jitter n, retryDelayFunc t.typename jitter n = retryDelay (scheduleOf engine) n := by
  unfold newClient at hc
  split at hc
  · cases hc
  · obtain rfl := Except.ok.inj hc
    cases engine <;> cases ht <;> exact ⟨rfl, rfl, fun _ _ => rfl⟩

/-- The values of the two variables with which a lifetime covers all attempts: a bound of zero goes
with no retry, and a negative budget times the bound stays within the margin. -/
def Covered (maxRetry engineTimeout : Int) : Prop :=
  (engineTimeout = 0 → maxRetry ≤ 0) ∧ (maxRetry < 0 → -(2 * minute) ≤ maxRetry * engineTimeout)

instance (maxRetry engineTimeout : Int) : Decidable (Covered maxRetry engineTimeout) := by
  unfold Covered
  infer_instance

/-- Without the backoff, which stands on both sides: the lifetime leaves room for the attempts of a
budget exactly when the two variables are covered. -/
theorem attempts_le_iff (maxRetry engineTimeout : Int) :
    ((maxRetry.toNat : Int) + 1) * handlerTimeout engineTimeout ≤
      (maxRetry + 1) * engineTimeout + 2 * minute ↔ Covered maxRetry engineTimeout := by
  have hs : (2 * minute : Int) = 120 * second := by decide
  have hpos : (0 : Int) < 120 * second := by decide
  unfold handlerTimeout Covered
  rw [hs]
  by_cases hz : engineTimeout = 0
  · rw [if_pos hz, hz]
    simp only [mul_zero, zero_add, true_imp_iff]
    constructor
    · intro h
      have hle : (maxRetry.toNat : Int) + 1 ≤ 1 := by nlinarith
      omega
    · rintro ⟨hm, -⟩
      have hr : (maxRetry.toNat : Int) = 0 := by omega
      rw [hr]
      omega
  · rw [if_neg hz]
    obtain hm | hm := lt_or_ge maxRetry 0
    · -- a negative budget is counted as none
      have hr : (maxRetry.toNat : Int) = 0 := by omega
      rw [hr, zero_add, one_mul, add_mul, one_mul]
      constructor
      · intro h
        exact ⟨fun h0 => absurd h0 hz, fun _ => by linarith⟩
      · rintro ⟨-, h⟩
        have hc := h hm
        linarith
    · have hr : (maxRetry.toNat : Int) = maxRetry := by omega
      rw [hr]
      constructor
      · intro _
        exact ⟨fun h0 => absurd h0 hz, fun hn => by omega⟩
      · intro _
        linarith

/-- The lifetime of a task's lock covers every attempt that asynq makes of it, each up to the bound
of the worker, and every delay between them, exactly when the two variables are covered. -/
theorem uniqueTTL_covers_iff {env : Environ} {c : Client} {engine : Engine} {jobID : UUID}
    {t : Task} (jitter : Nat → Int) (hc : newClient env = .ok c)
    (ht : c.convertTask engine jobID = some t) :
    ((t.maxRetry : Int) + 1) * handlerTimeout (engineTimeoutVar env engine) +
        ∑ i ∈ Finset.range t.maxRetry, retryDelayFunc t.typename (jitter i) (i : Int) ≤ t.uniqueTTL ↔
      Covered (maxRetryVar env engine) (engineTimeoutVar env engine) := by
  obtain ⟨hr, httl, hdelay⟩ := newClient_convertTask hc ht
  simp only [hdelay]
  rw [hr, httl, uniqueTTL, backoffSum_eq_sum, uniqueTTLSafetyMargin, ← attempts_le_iff]
  constructor
  · intro h
    linarith
  · intro h
    linarith

/-- The environment of the examples: an address, and one more variable. -/
def exampleEnviron (key value : String) : Environ :=
  fun k => if k = "REDIS_ADDR" then "redis:6379" else if k = key then value else ""

/-- The exact condition, for an image task under an engine timeout of 90 seconds. -/
theorem uniqueTTL_covers_image : ∃ c t, newClient (exampleEnviron "ENGINE_TIMEOUT" "90s # fast") =
      .ok c ∧ c.convertTask .image 7 = some t ∧
    (((t.maxRetry : Int) + 1) *
          handlerTimeout (engineTimeoutVar (exampleEnviron "ENGINE_TIMEOUT" "90s # fast") .image) +
        ∑ i ∈ Finset.range t.maxRetry, retryDelayFunc t.typename 0 (i : Int) ≤ t.uniqueTTL ↔
      Covered (maxRetryVar (exampleEnviron "ENGINE_TIMEOUT" "90s # fast") .image)
        (engineTimeoutVar (exampleEnviron "ENGINE_TIMEOUT" "90s # fast") .image)) :=
  ⟨_, _, rfl, rfl, uniqueTTL_covers_iff (fun _ => 0) rfl rfl⟩

/-- With a negative retry budget the lock of a document task does not outlive one attempt. -/
theorem uniqueTTL_short : ¬ ∀ (env : Environ) (c : Client) (engine : Engine) (jobID : UUID)
    (t : Task) (jitter : Nat → Int), newClient env = .ok c → c.convertTask engine jobID = some t →
      ((t.maxRetry : Int) + 1) * handlerTimeout (engineTimeoutVar env engine) +
          ∑ i ∈ Finset.range t.maxRetry, retryDelayFunc t.typename (jitter i) (i : Int) ≤
        t.uniqueTTL := by
  intro h
  have hle := h (exampleEnviron "DOCUMENT_MAX_RETRY" "-1") _ .document 7 _ (fun _ => 0) rfl rfl
  revert hle
  decide

end OctoConv
