import OctoConv.Base.Floats
import OctoConv.Lib.Wrap
import OctoConv.Queue.Lifetime
import Mathlib.Algebra.Order.BigOperators.Group.Finset
import Mathlib.Algebra.Order.Field.Rat
import Mathlib.Data.List.GetD
import Mathlib.Tactic.Positivity

/-!
# The jitter of the webhook schedule

The delay before a retry of a webhook is random: the schedule, up to a quarter more or less. The
lifetime of the lock is derived from the largest delays, by a loop of its own over the schedule.
Both are `time.Duration`s of 64 bits. The jitter is computed in exact arithmetic here.

Main results:

* `webhookDelaySum_le` : no outcome of the jitter exceeds the largest backoff;
* `webhookBackoffSum_eq`, `webhookUniqueTTL_eq` : the backoff and the lifetime are the exact ones,
  cut to 64 bits;
* `webhook_lifetime_covers_iff` : they cover every outcome of the jitter exactly when the exact ones
  fit.

Source: `internal/queue/queue.go`.
-/

namespace OctoConv

/-! ## The delay before a retry -/

/-- The delay before retry `n`; `sample` is what `rand.Float64()` returns.

Source: `queue.go` WebhookRetryDelay -/
def webhookRetryDelay (n : Int) (sample : Rat) : Int :=
  let idx := if n < 0 then 0 else n
  let idx := if idx ≥ webhookRetrySchedule.length then (webhookRetrySchedule.length : Int) - 1 else idx
  let base := webhookRetrySchedule.getD idx.toNat 0
  let jitterRange := (base : Rat) * (1 / 4)
  let jitter := (sample * 2 - 1) * jitterRange
  let delay := truncate (base + jitter)
  if delay < 0 then 0 else delay

/-- The outcomes of the jitter: `rand.Float64()` is in the half-open interval from 0 to 1. -/
def Samples (samples : Nat → Rat) : Prop := ∀ i, 0 ≤ samples i ∧ samples i < 1

/-- The delays before the first retries, added up.

Source: `queue.go` WebhookRetryDelay -/
def webhookDelaySum (samples : Nat → Rat) (maxRetry : Int) : Int :=
  ∑ i ∈ Finset.range maxRetry.toNat, webhookRetryDelay (i : Int) (samples i)

/-- The largest backoff, as a whole number without a bound. -/
def exactBackoff (maxRetry : Int) : Int :=
  backoffSum (webhookRetrySchedule.map webhookJitterCeiling) maxRetry

/-- The entry of the schedule that retry `n` goes by. -/
theorem retryDelay_mem {schedule : List Int} (hne : schedule ≠ []) (n : Int) :
    retryDelay schedule n ∈ schedule := by
  have hpos : 0 < schedule.length := List.length_pos_iff.mpr hne
  have hlt : min n.toNat (schedule.length - 1) < schedule.length := by omega
  rw [retryDelay, List.getD_eq_getElem _ _ hlt]
  exact List.getElem_mem hlt

/-- A schedule can be mapped before the delay is taken, or after. -/
theorem retryDelay_map {schedule : List Int} (hne : schedule ≠ []) (f : Int → Int) (n : Int) :
    retryDelay (schedule.map f) n = f (retryDelay schedule n) := by
  have hpos : 0 < schedule.length := List.length_pos_iff.mpr hne
  have hlt : min n.toNat (schedule.length - 1) < schedule.length := by omega
  have hlt' : min n.toNat ((schedule.map f).length - 1) < (schedule.map f).length := by
    rwa [List.length_map]
  unfold retryDelay
  rw [List.getD_eq_getElem _ _ hlt', List.getD_eq_getElem _ _ hlt, List.getElem_map]
  simp only [List.length_map]

/-- The index of the source, clamped at both ends. -/
theorem webhookRetryDelay_eq (n : Int) (sample : Rat) :
    webhookRetryDelay n sample =
      let base := retryDelay webhookRetrySchedule n
      let delay := truncate (base + (sample * 2 - 1) * ((base : Rat) * (1 / 4)))
      if delay < 0 then 0 else delay := by
  have hlength : webhookRetrySchedule.length = 6 := rfl
  have hidx : (if (if n < 0 then 0 else n) ≥ (webhookRetrySchedule.length : Int) then
      (webhookRetrySchedule.length : Int) - 1 else if n < 0 then 0 else n).toNat =
      min n.toNat (webhookRetrySchedule.length - 1) := by
    rw [hlength]
    split_ifs <;> omega
  unfold webhookRetryDelay
  dsimp only
  rw [hidx]
  rfl

/-- Every delay of the schedule is positive and a multiple of four nanoseconds, at most a quarter of an
hour. -/
theorem webhookRetrySchedule_quarters (n : Int) :
    ∃ q : Int, retryDelay webhookRetrySchedule n = 4 * q ∧ 0 < q ∧ q ≤ 225 * second := by
  have hall : ∀ d ∈ webhookRetrySchedule, d = 4 * (d / 4) ∧ 0 < d / 4 ∧ d / 4 ≤ 225 * second := by
    decide
  obtain ⟨heq, hpos, hle⟩ := hall _ (retryDelay_mem (by decide) n)
  exact ⟨_, heq, hpos, hle⟩

section Delay

variable {n q : Int} {sample : Rat}

/-- The delay in quarters of the schedule's: three of them, and up to two more. -/
theorem webhookRetryDelay_quarters (hq : retryDelay webhookRetrySchedule n = 4 * q) (hpos : 0 < q)
    (hsample : 0 ≤ sample) :
    webhookRetryDelay n sample = (3 * (q : Rat) + 2 * sample * q).floor := by
  have hq' : (0 : Rat) < q := Int.cast_pos.mpr hpos
  have hsum : ((4 * q : Int) : Rat) + (sample * 2 - 1) * (((4 * q : Int) : Rat) * (1 / 4)) =
      3 * (q : Rat) + 2 * sample * q := by
    push_cast
    ring
  have hnonneg : (0 : Rat) ≤ 3 * (q : Rat) + 2 * sample * q := by positivity
  rw [webhookRetryDelay_eq, hq]
  dsimp only
  rw [hsum, truncate, if_pos hnonneg, if_neg]
  rw [not_lt, Rat.le_floor_iff]
  exact hnonneg

/-- The delay is below the largest. -/
theorem webhookRetryDelay_lt (hq : retryDelay webhookRetrySchedule n = 4 * q) (hpos : 0 < q)
    (hsample : 0 ≤ sample ∧ sample < 1) : webhookRetryDelay n sample < 5 * q := by
  have hq' : (0 : Rat) < q := Int.cast_pos.mpr hpos
  rw [webhookRetryDelay_quarters hq hpos hsample.1, Rat.floor_lt_iff]
  push_cast
  nlinarith [mul_lt_mul_of_pos_right hsample.2 hq']

/-- A sample that is close to 1 brings the delay within a nanosecond of the largest. -/
theorem le_webhookRetryDelay (hq : retryDelay webhookRetrySchedule n = 4 * q) (hpos : 0 < q)
    (hsample : 0 ≤ sample) (hnear : 2 * (1 - sample) * q ≤ 1) :
    5 * q - 1 ≤ webhookRetryDelay n sample := by
  rw [webhookRetryDelay_quarters hq hpos hsample, Rat.le_floor_iff]
  push_cast
  linarith

end Delay

/-- A delay is not negative. -/
theorem webhookRetryDelay_nonneg (n : Int) (sample : Rat) : 0 ≤ webhookRetryDelay n sample := by
  rw [webhookRetryDelay_eq]
  dsimp only
  split_ifs
  · rfl
  · omega

/-! ## Adding the delays up -/

/-- The largest backoff is the sum of the largest delays. -/
theorem exactBackoff_eq_sum (maxRetry : Int) :
    exactBackoff maxRetry =
      ∑ i ∈ Finset.range maxRetry.toNat,
        webhookJitterCeiling (retryDelay webhookRetrySchedule (i : Int)) := by
  rw [exactBackoff, backoffSum_eq_sum]
  apply Finset.sum_congr rfl
  intro i _
  exact retryDelay_map (by decide) _ _

/-- The ceiling of the jitter is a quarter above, exactly. -/
theorem webhookJitterCeiling_quarters (q : Int) : webhookJitterCeiling (4 * q) = 5 * q := by
  unfold webhookJitterCeiling
  omega

/-- The largest delay is the one that the source computes, in exact arithmetic. -/
theorem webhookJitterCeiling_eq {d : Int} (hd : 0 ≤ d) :
    webhookJitterCeiling d = truncate ((d : Rat) * (5 / 4)) := by
  have hnonneg : (0 : Rat) ≤ (d : Rat) * (5 / 4) := by
    have hcast : (0 : Rat) ≤ d := Int.cast_nonneg hd
    positivity
  rw [truncate, if_pos hnonneg, eq_comm]
  apply le_antisymm
  · rw [← Int.lt_add_one_iff, Rat.floor_lt_iff]
    have hdiv : d * 5 < (d * 5 / 4 + 1) * 4 := by omega
    have hcast : (d : Rat) * 5 < ((d * 5 / 4 + 1 : Int) : Rat) * 4 := by exact_mod_cast hdiv
    unfold webhookJitterCeiling
    linarith
  · rw [Rat.le_floor_iff]
    have hdiv : d * 5 / 4 * 4 ≤ d * 5 := by omega
    have hcast : ((d * 5 / 4 : Int) : Rat) * 4 ≤ (d : Rat) * 5 := by exact_mod_cast hdiv
    unfold webhookJitterCeiling
    linarith

/-- **No outcome of the jitter exceeds the largest backoff.** -/
theorem webhookDelaySum_le {samples : Nat → Rat} (h : Samples samples) (maxRetry : Int) :
    webhookDelaySum samples maxRetry ≤ exactBackoff maxRetry := by
  rw [exactBackoff_eq_sum]
  apply Finset.sum_le_sum
  intro i _
  obtain ⟨q, hq, hpos, -⟩ := webhookRetrySchedule_quarters (i : Int)
  rw [hq, webhookJitterCeiling_quarters]
  exact (webhookRetryDelay_lt hq hpos (h i)).le

/-- A sample so close to 1 that no delay is more than a nanosecond from the largest. -/
def nearOne : Rat := 1 - 1 / (450 * second)

/-- A sample near one is a sample. -/
theorem samples_nearOne : Samples fun _ => nearOne := by
  intro _
  unfold nearOne second
  norm_num

/-- Close to 1, a backoff is within a nanosecond for each retry of the largest. -/
theorem exactBackoff_sub_le (maxRetry : Int) :
    exactBackoff maxRetry - maxRetry.toNat ≤ webhookDelaySum (fun _ => nearOne) maxRetry := by
  have hsub : exactBackoff maxRetry - maxRetry.toNat = ∑ i ∈ Finset.range maxRetry.toNat,
      (webhookJitterCeiling (retryDelay webhookRetrySchedule (i : Int)) - 1) := by
    rw [Finset.sum_sub_distrib, Finset.sum_const, Finset.card_range, exactBackoff_eq_sum, nsmul_one]
  rw [hsub]
  apply Finset.sum_le_sum
  intro i _
  obtain ⟨q, hq, hpos, hle⟩ := webhookRetrySchedule_quarters (i : Int)
  rw [hq, webhookJitterCeiling_quarters]
  apply le_webhookRetryDelay hq hpos (samples_nearOne i).1
  have hle' : (q : Rat) ≤ 225 * second := by exact_mod_cast hle
  unfold nearOne
  have hsecond : (0 : Rat) < 450 * second := by
    unfold second
    norm_num
  rw [sub_sub_cancel, mul_one_div, div_mul_eq_mul_div, div_le_one hsecond]
  linarith

/-! ## Cut to 64 bits -/

/-- The loop of the source computes the largest backoff, cut to 64 bits. -/
theorem webhookBackoffSum_eq (maxRetry : Int) :
    webhookBackoffSum maxRetry = (exactBackoff maxRetry).bmod (2 ^ 64) := by
  rw [exactBackoff_eq_sum]
  unfold webhookBackoffSum
  induction maxRetry.toNat with
  | zero => rfl
  | succ n ih =>
    have hidx : (if n ≥ webhookRetrySchedule.length then webhookRetrySchedule.length - 1 else n) =
        min (n : Int).toNat (webhookRetrySchedule.length - 1) := by
      have hlength : webhookRetrySchedule.length = 6 := rfl
      rw [hlength]
      split_ifs <;> omega
    rw [List.range_succ, List.foldl_append, ih, Finset.sum_range_succ, List.foldl_cons, List.foldl_nil]
    dsimp only
    rw [hidx, Int.bmod_add_bmod]
    rfl

/-- The lifetime as a whole number without a bound. -/
def exactLifetime (maxRetry perAttemptTimeout : Int) : Int :=
  uniqueTTL (webhookRetrySchedule.map webhookJitterCeiling) maxRetry perAttemptTimeout

/-- The lifetime without rounding, written out. -/
theorem exactLifetime_eq (maxRetry perAttemptTimeout : Int) :
    exactLifetime maxRetry perAttemptTimeout =
      (maxRetry + 1) * perAttemptTimeout + exactBackoff maxRetry + uniqueTTLSafetyMargin := rfl

/-- So is the lifetime. -/
theorem webhookUniqueTTL_eq (maxRetry perAttemptTimeout : Int) :
    webhookUniqueTTL maxRetry perAttemptTimeout =
      (exactLifetime maxRetry perAttemptTimeout).bmod (2 ^ 64) := by
  rw [exactLifetime_eq]
  unfold webhookUniqueTTL
  dsimp only
  rw [webhookBackoffSum_eq, Int.bmod_mul_bmod, Int.add_bmod_bmod, Int.bmod_add_bmod, add_assoc,
    Int.bmod_add_bmod, add_assoc]

/-! ## When it fits -/

/-- The ceiling of the jitter is not negative. -/
theorem webhookJitterCeiling_nonneg (n : Int) :
    0 ≤ webhookJitterCeiling (retryDelay webhookRetrySchedule n) := by
  obtain ⟨q, hq, hpos, -⟩ := webhookRetrySchedule_quarters n
  rw [hq, webhookJitterCeiling_quarters]
  omega

/-- More attempts back off longer. -/
theorem exactBackoff_mono {m n : Int} (h : m ≤ n) : exactBackoff m ≤ exactBackoff n := by
  rw [exactBackoff_eq_sum, exactBackoff_eq_sum]
  apply Finset.sum_le_sum_of_subset_of_nonneg
  · exact Finset.range_mono (Int.toNat_le_toNat h)
  · intro i _ _
    exact webhookJitterCeiling_nonneg i

/-- From the sixth retry on, each retry adds the last delay of the schedule. -/
theorem exactBackoff_six_add (k : Nat) :
    exactBackoff (6 + k) = 2287500000000 + k * 1125000000000 := by
  have hcount : ((6 : Int) + k).toNat = 6 + k := by omega
  rw [exactBackoff_eq_sum, hcount]
  induction k with
  | zero => decide
  | succ k ih =>
    have hlast : webhookJitterCeiling (retryDelay webhookRetrySchedule ((6 + k : Nat) : Int)) =
        1125000000000 := by
      have hidx : min ((6 + k : Nat) : Int).toNat (webhookRetrySchedule.length - 1) = 5 := by
        have hlength : webhookRetrySchedule.length = 6 := rfl
        omega
      rw [retryDelay, hidx]
      rfl
    rw [← Nat.add_assoc, Finset.sum_range_succ, hlast, ih (by omega)]
    push_cast
    ring

/-- The largest backoff fits into 64 bits up to 8198556 retries. -/
theorem exactBackoff_lt_iff (maxRetry : Int) : exactBackoff maxRetry < 2 ^ 63 ↔ maxRetry ≤ 8198556 := by
  have hbound : exactBackoff 8198556 < 2 ^ 63 := by
    rw [show (8198556 : Int) = 6 + (8198550 : Nat) by norm_num, exactBackoff_six_add]
    norm_num
  have hbeyond : 2 ^ 63 ≤ exactBackoff 8198557 := by
    rw [show (8198557 : Int) = 6 + (8198551 : Nat) by norm_num, exactBackoff_six_add]
    norm_num
  constructor
  · intro h
    by_contra hgt
    have hmono := exactBackoff_mono (show (8198557 : Int) ≤ maxRetry by omega)
    omega
  · intro h
    exact (exactBackoff_mono h).trans_lt hbound

/-! ## What the lifetime covers -/

/-- The backoff of a webhook bounds what the retries wait, and its lifetime covers the attempts and what
the retries wait, with the margin. -/
def CoversWebhook (samples : Nat → Rat) (maxRetry perAttemptTimeout : Int) : Prop :=
  webhookDelaySum samples maxRetry ≤ webhookBackoffSum maxRetry ∧
    (maxRetry + 1) * perAttemptTimeout + webhookDelaySum samples maxRetry + uniqueTTLSafetyMargin ≤
      webhookUniqueTTL maxRetry perAttemptTimeout

variable {maxRetry perAttemptTimeout : Int} {samples : Nat → Rat}

/-- What fits into 64 bits is covered. -/
theorem coversWebhook_of_fits (hbackoff : exactBackoff maxRetry < 2 ^ 63)
    (hlifetime : exactLifetime maxRetry perAttemptTimeout < 2 ^ 63) (h : Samples samples) :
    CoversWebhook samples maxRetry perAttemptTimeout := by
  have hsum := webhookDelaySum_le h maxRetry
  constructor
  · rw [webhookBackoffSum_eq]
    exact hsum.trans (Wrap.le_bmod_of_lt (by decide) (by omega))
  · have hcut : exactLifetime maxRetry perAttemptTimeout ≤
        (exactLifetime maxRetry perAttemptTimeout).bmod (2 ^ 64) :=
      Wrap.le_bmod_of_lt (by decide) (by omega)
    rw [webhookUniqueTTL_eq]
    rw [exactLifetime_eq] at hcut ⊢
    linarith

/-- What does not fit is not covered for samples close to 1. -/
theorem fits_of_coversWebhook (hint : maxRetry < 2 ^ 63)
    (h : CoversWebhook (fun _ => nearOne) maxRetry perAttemptTimeout) :
    exactBackoff maxRetry < 2 ^ 63 ∧ exactLifetime maxRetry perAttemptTimeout < 2 ^ 63 := by
  obtain ⟨hbackoff, hlifetime⟩ := h
  have hnear := exactBackoff_sub_le maxRetry
  rw [webhookBackoffSum_eq] at hbackoff
  rw [webhookUniqueTTL_eq] at hlifetime
  constructor
  · by_contra hlarge
    have hcut : (exactBackoff maxRetry).bmod (2 ^ 64) ≤ exactBackoff maxRetry - (2 ^ 64 : Nat) :=
      Wrap.bmod_le_sub (by decide) (by omega)
    omega
  · by_contra hlarge
    have hcut : (exactLifetime maxRetry perAttemptTimeout).bmod (2 ^ 64) ≤
        exactLifetime maxRetry perAttemptTimeout - (2 ^ 64 : Nat) :=
      Wrap.bmod_le_sub (by decide) (by omega)
    rw [exactLifetime_eq] at hcut hlifetime
    omega

/-- **The backoff and the lifetime cover every outcome of the jitter** exactly when they fit into 64
bits. -/
theorem webhook_lifetime_covers_iff (hint : maxRetry < 2 ^ 63) :
    (∀ samples, Samples samples → CoversWebhook samples maxRetry perAttemptTimeout) ↔
      maxRetry ≤ 8198556 ∧
        (maxRetry + 1) * perAttemptTimeout + exactBackoff maxRetry +
          uniqueTTLSafetyMargin < 2 ^ 63 := by
  rw [← exactBackoff_lt_iff, ← exactLifetime_eq]
  constructor
  · intro h
    exact fits_of_coversWebhook hint (h _ samples_nearOne)
  · rintro ⟨hbackoff, hlifetime⟩ samples h
    exact coversWebhook_of_fits hbackoff hlifetime h

/-- The lifetime with which webhook tasks are enqueued. -/
example : webhookUniqueTTL webhookMaxRetry webhookPerAttemptTimeout = 2477500000000 := by decide

/-- The budget and the bound of the webhook tasks. -/
theorem webhook_lifetime_covers_six :
    (∀ samples, Samples samples →
        CoversWebhook samples webhookMaxRetry webhookPerAttemptTimeout) ↔
      webhookMaxRetry ≤ 8198556 ∧ (webhookMaxRetry + 1) * webhookPerAttemptTimeout +
        exactBackoff webhookMaxRetry + uniqueTTLSafetyMargin < 2 ^ 63 :=
  webhook_lifetime_covers_iff (by decide)

/-- With 8198557 retries the backoff wraps around, and is negative. -/
theorem webhook_backoff_wraps : ¬ ∀ (maxRetry perAttemptTimeout : Int) (samples : Nat → Rat),
    -2 ^ 63 ≤ maxRetry → maxRetry < 2 ^ 63 → -2 ^ 63 ≤ perAttemptTimeout →
      perAttemptTimeout < 2 ^ 63 → Samples samples →
      CoversWebhook samples maxRetry perAttemptTimeout := by
  intro h
  have hsamples : Samples fun _ => 1 / 2 := fun _ => by norm_num
  obtain ⟨hbackoff, -⟩ := h 8198557 webhookPerAttemptTimeout (fun _ => 1 / 2) (by decide) (by decide)
    (by decide) (by decide) hsamples
  have hsum : 0 ≤ webhookDelaySum (fun _ => 1 / 2) 8198557 :=
    Finset.sum_nonneg fun i _ => webhookRetryDelay_nonneg i _
  have hexact : exactBackoff 8198557 = 9223372162500000000 := by
    rw [show (8198557 : Int) = 6 + (8198551 : Nat) by norm_num, exactBackoff_six_add]
    norm_num
  have hcut : (9223372162500000000 : Int).bmod (2 ^ 64) < 0 := by decide
  rw [webhookBackoffSum_eq, hexact] at hbackoff
  omega

end OctoConv
