import AudioServer.Jobs.Effects
import Mathlib.Algebra.Order.Ring.Int
import Mathlib.Tactic.Linarith

/-! The delays of a retry policy, and the calls that a delay out of range aborts. -/

namespace AudioServer.Jobs.Backoff

open AudioServer.Foundations.Outcomes
open AudioServer.Db.Models AudioServer.Activity.Repository AudioServer.Jobs.Queue
open AudioServer.Jobs.Effects

def Representable (policy : RetryPolicy) : Prop := policy.baseDelay * 2 ^ 30 ≤ timedeltaMax

instance (policy : RetryPolicy) : Decidable (Representable policy) := inferInstanceAs (Decidable (_ ≤ _))

def longestDelay (policy : RetryPolicy) : Duration := min (policy.baseDelay * 2 ^ 30) policy.maxDelay

structure BoundedDelays (policy : RetryPolicy) : Prop where
  returns : ∀ n, 1 ≤ n → ∃ delay, policy.delayAfter n = .ok delay ∧
    policy.baseDelay ≤ delay ∧ delay ≤ policy.maxDelay
  monotone : ∀ m n d e, 1 ≤ m → m ≤ n → policy.delayAfter m = .ok d →
    policy.delayAfter n = .ok e → d ≤ e

structure NeverAborted (queue : JobQueue) (now : Instant) : Prop where
  fail : ∀ claim failure row db, queue.fail claim failure now row db ≠ .error .overflowError
  recoverExpired : ∀ limit locked rows db,
    queue.recoverExpired now limit locked rows db ≠ .error .overflowError

section Delays

variable {policy : RetryPolicy}

lemma product_le (policy : RetryPolicy) {m n : ℕ} (hmn : m ≤ n) :
    policy.baseDelay * 2 ^ m ≤ policy.baseDelay * 2 ^ n := by
  have hpow : (2 : ℤ) ^ m ≤ 2 ^ n := pow_le_pow_right₀ (by decide) hmn
  exact Int.mul_le_mul_of_nonneg_left hpow policy.base_positive.le

lemma shift_le {m n : ℕ} (hmn : m ≤ n) : min (m - 1) 30 ≤ min (n - 1) 30 := by omega

lemma delayAfter_ok {n : ℕ} {delay : Duration} (h : policy.delayAfter n = .ok delay) :
    delay = min (policy.baseDelay * 2 ^ min (n - 1) 30) policy.maxDelay := by
  obtain ⟨_, _, h⟩ := bind_ok h
  obtain ⟨_, _, h⟩ := bind_ok h
  cases h
  rfl

lemma delayAfter_returns {n : ℕ} (hn : 1 ≤ n)
    (hfits : policy.baseDelay * 2 ^ min (n - 1) 30 ≤ timedeltaMax) :
    policy.delayAfter n = .ok (min (policy.baseDelay * 2 ^ min (n - 1) 30) policy.maxDelay) := by
  rw [RetryPolicy.delayAfter, require_of hn, ok_bind]
  dsimp only
  rw [require_of hfits, ok_bind]

lemma delayAfter_overflows {n : ℕ} (hn : 1 ≤ n)
    (hfits : ¬ policy.baseDelay * 2 ^ min (n - 1) 30 ≤ timedeltaMax) :
    policy.delayAfter n = .error .overflowError := by
  rw [RetryPolicy.delayAfter, require_of hn, ok_bind]
  dsimp only
  rw [require_of_not hfits]
  rfl

lemma representable_fits (h : Representable policy) (n : ℕ) :
    policy.baseDelay * 2 ^ min (n - 1) 30 ≤ timedeltaMax :=
  (product_le policy (Nat.min_le_right _ _)).trans h

lemma delayAfter_le_longest {n : ℕ} {delay : Duration} (h : policy.delayAfter n = .ok delay) :
    delay ≤ longestDelay policy := by
  rw [delayAfter_ok h]
  exact min_le_min_right _ (product_le policy (Nat.min_le_right _ _))

lemma representable_bounded (h : Representable policy) : BoundedDelays policy where
  returns n hn := by
    refine ⟨_, delayAfter_returns hn (representable_fits h n), le_min ?_ policy.base_le_max,
      min_le_right _ _⟩
    have hproduct := product_le policy (Nat.zero_le (min (n - 1) 30))
    rwa [pow_zero, mul_one] at hproduct
  monotone m n d e _ hmn hd he := by
    rw [delayAfter_ok hd, delayAfter_ok he]
    exact min_le_min_right _ (product_le policy (shift_le hmn))

lemma longest_at_limit (policy : RetryPolicy) : policy.delayAfter 31 =
    if Representable policy then .ok (longestDelay policy) else .error .overflowError := by
  by_cases h : Representable policy
  · rw [if_pos h, delayAfter_returns (by decide) (representable_fits h 31)]
    rfl
  · rw [if_neg h, delayAfter_overflows (by decide) h]

lemma bounded_representable (h : BoundedDelays policy) : Representable policy := by
  obtain ⟨delay, hdelay, _⟩ := h.returns 31 (by decide)
  by_contra hnot
  rw [longest_at_limit, if_neg hnot] at hdelay
  cases hdelay

end Delays

section Aborts

variable {queue : JobQueue} {now : Instant}

lemma activity_fits {db : Database} {id : Option RecordingId}
    {event : RecordingId → ProcessingActivity} :
    appendJobActivity db id event ≠ .error .overflowError := by
  intro h
  obtain ⟨_, h⟩ := appendJobActivity_raises h
  cases h

lemma followUp_fits {db : Database} {job : ProcessingJob} {row : RowDefaults} :
    queueFollowUp db job row now ≠ .error .overflowError := by
  unfold queueFollowUp
  split
  · refine bind_avoids ?_ (fun _ _ => activity_fits)
    unfold Database.insertJob
    split_ifs <;> exact nofun
  · exact nofun

lemma retry_fits {γ : Type} (h : Representable queue.retryPolicy)
    (hrange : now + longestDelay queue.retryPolicy ≤ datetimeMax) (n : ℕ)
    {k : Instant → Except Exn γ} (hk : ∀ t, k t ≠ .error .overflowError) :
    (do
      let delay ← queue.retryPolicy.delayAfter n
      let availableAt ← later now delay
      k availableAt) ≠ .error .overflowError := by
  refine bind_avoids ?_ (fun delay hdelay => bind_avoids ?_ (fun t _ => hk t))
  · refine bind_avoids (require_avoids nofun) (fun _ _ => ?_)
    dsimp only
    rw [require_of (representable_fits h n)]
    exact nofun
  · have hle := delayAfter_le_longest hdelay
    rw [later, require_of (by linarith)]
    exact nofun

lemma fail_fits (h : Representable queue.retryPolicy)
    (hrange : now + longestDelay queue.retryPolicy ≤ datetimeMax) (claim : ClaimedJob)
    (failure : JobFailure) (row : RowDefaults) (db : Database) :
    queue.fail claim failure now row db ≠ .error .overflowError := by
  refine bind_avoids (found_avoids nofun) (fun job _ => bind_avoids ?_ (fun again _ => ?_))
  · exact bind_avoids (require_avoids nofun) (fun _ _ => nofun)
  cases again with
  | true => exact retry_fits h hrange _ (fun _ => bind_avoids activity_fits (fun _ _ => nofun))
  | false =>
    refine bind_avoids activity_fits (fun _ _ => bind_avoids ?_ (fun _ _ => nofun))
    split_ifs
    · exact nofun
    · exact followUp_fits

lemma recoverJob_fits (h : Representable queue.retryPolicy)
    (hrange : now + longestDelay queue.retryPolicy ≤ datetimeMax) (rows : JobId → RowDefaults)
    (acc : RecoverySummary × Database) (job : ProcessingJob) :
    recoverJob queue now rows acc job ≠ .error .overflowError := by
  refine bind_avoids ?_ (fun again _ => ?_)
  · exact bind_avoids (require_avoids nofun) (fun _ _ => nofun)
  cases again with
  | true => exact retry_fits h hrange _ (fun _ => bind_avoids activity_fits (fun _ _ => nofun))
  | false =>
    refine bind_avoids activity_fits (fun _ _ => bind_avoids ?_ (fun _ _ => nofun))
    split_ifs
    · exact nofun
    · exact followUp_fits

lemma representable_never_aborted (h : Representable queue.retryPolicy)
    (hrange : now + longestDelay queue.retryPolicy ≤ datetimeMax) : NeverAborted queue now where
  fail := fail_fits h hrange
  recoverExpired _ _ rows _ :=
    bind_avoids (require_avoids nofun)
      (fun _ _ => foldlM_avoids (fun acc job _ => recoverJob_fits h hrange rows acc job) _)

def manyAttempts (queue : JobQueue) (now : Instant) : ProcessingJob :=
  claimRow queue 7 (now - queue.leaseDuration)
    { newJob 1 (some 1) none .full none 32 now now with attemptCount := 30 }

def withJobs (jobs : List ProcessingJob) : Database := { Database.empty none with jobs := jobs }

lemma manyAttempts_expired (queue : JobQueue) (now : Instant) :
    expiredJobs (withJobs [manyAttempts queue now]) now 100 [] = [manyAttempts queue now] := by
  have hexpired : Expired now (manyAttempts queue now) := by
    refine ⟨rfl, ?_⟩
    intro lease hlease
    cases hlease
    exact (sub_add_cancel now queue.leaseDuration).le
  have hkept : Expired now (manyAttempts queue now) ∧ (manyAttempts queue now).id ∉ ([] : List JobId) :=
    ⟨hexpired, List.not_mem_nil⟩
  have hfilter : [manyAttempts queue now].filter (fun j => Expired now j ∧ j.id ∉ ([] : List JobId)) =
      [manyAttempts queue now] := List.filter_cons_of_pos (decide_eq_true hkept)
  show (([manyAttempts queue now].filter _).insertionSort ExpiryOrder).take 100 = _
  rw [hfilter]
  rfl

lemma recover_aborted (h : Representable queue.retryPolicy)
    (hrange : ¬ now + longestDelay queue.retryPolicy ≤ datetimeMax) (rows : JobId → RowDefaults) :
    queue.recoverExpired now 100 [] rows (withJobs [manyAttempts queue now]) =
      .error .overflowError := by
  have hdelay : queue.retryPolicy.delayAfter 31 = .ok (longestDelay queue.retryPolicy) := by
    rw [longest_at_limit, if_pos h]
  have hlater : later now (longestDelay queue.retryPolicy) = .error .overflowError := by
    rw [later, require_of_not hrange]
    rfl
  have hjob : recoverJob queue now rows (⟨0, 0⟩, withJobs [manyAttempts queue now])
      (manyAttempts queue now) = .error .overflowError := by
    show (queue.retryPolicy.delayAfter 31 >>= _) = _
    rw [hdelay, ok_bind, hlater]
    rfl
  rw [JobQueue.recoverExpired, require_of (by decide), ok_bind, manyAttempts_expired,
    List.foldlM_cons, hjob]
  rfl

end Aborts

theorem delays_never_block_iff (queue : JobQueue) (now : Instant) :
    BoundedDelays queue.retryPolicy ∧ NeverAborted queue now ↔
      Representable queue.retryPolicy ∧ now + longestDelay queue.retryPolicy ≤ datetimeMax := by
  constructor
  · rintro ⟨hbounded, hnever⟩
    have h := bounded_representable hbounded
    refine ⟨h, ?_⟩
    by_contra hrange
    exact hnever.recoverExpired 100 [] (fun _ => ⟨2, now⟩) _ (recover_aborted h hrange _)
  · rintro ⟨h, hrange⟩
    exact ⟨representable_bounded h, representable_never_aborted h hrange⟩

def dailyQueue : JobQueue where
  workerId := "worker".toList
  leaseDuration := 60000000
  retryPolicy := ⟨86400000000, 172800000000, by decide, by decide, by decide⟩
  lease_positive := by decide

def firstAttempt : ProcessingJob :=
  claimRow dailyQueue 8 (-dailyQueue.leaseDuration) (newJob 2 (some 2) none .full none 3 0 0)

theorem one_delay_aborts_recovery :
    dailyQueue.retryPolicy.delayAfter 31 = .error .overflowError ∧
      dailyQueue.recoverExpired 0 100 [] (fun _ => ⟨3, 0⟩)
        (withJobs [manyAttempts dailyQueue 0, firstAttempt]) = .error .overflowError ∧
      (∃ db, dailyQueue.recoverExpired 0 100 [] (fun _ => ⟨3, 0⟩) (withJobs [firstAttempt]) =
        .ok (⟨1, 0⟩, db)) ∧
      ¬ (BoundedDelays dailyQueue.retryPolicy ∧ NeverAborted dailyQueue 0) := by
  have hdelay : dailyQueue.retryPolicy.delayAfter 31 = .error .overflowError := rfl
  refine ⟨hdelay, rfl, ⟨_, rfl⟩, ?_⟩
  rintro ⟨hbounded, _⟩
  obtain ⟨delay, hreturns, _⟩ := hbounded.returns 31 (by decide)
  rw [hdelay] at hreturns
  cases hreturns

end AudioServer.Jobs.Backoff
