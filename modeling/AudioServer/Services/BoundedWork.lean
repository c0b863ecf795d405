import AudioServer.Foundations.Budgets
import AudioServer.Services.FollowUp
import Mathlib.Algebra.Order.BigOperators.Group.List

/-! How much work a request can cause, and that the queue always finishes it. -/

namespace AudioServer.Services.BoundedWork

open AudioServer.Foundations.Outcomes AudioServer.Foundations.Runs AudioServer.Foundations.Budgets
open AudioServer.Foundations.Strings AudioServer.Db.Models AudioServer.Activity.Repository
open AudioServer.Jobs.Queue AudioServer.Jobs.Effects
open AudioServer.Jobs.Calls AudioServer.Services.Recordings AudioServer.Services.Transactions
open AudioServer.Services.Consistency AudioServer.Services.FollowUp

/-- The attempts a row can still cause: its own, and those of the jobs chained after it. -/
def attemptsOwed (job : ProcessingJob) : ℕ :=
  if job.active then
    job.maxAttempts - job.attemptCount + job.maxAttempts * (chainFrom job.followUpKind).length
  else 0

def attemptsLeft (db : Database) : ℕ := (db.jobs.map attemptsOwed).sum

def claimsMade (e : Event Database ServerCall) : ℕ :=
  match e.label with
  | .queue call =>
    match call.exec e.before with
    | .ok (.claimed (some _), _) => 1
    | _ => 0
  | _ => 0

def attemptsAsked : ServerCall → ℕ
  | .create service .. => service.maxAttempts * 3
  | .retry service .. => service.maxAttempts * 3
  | .reprocess service .. => service.maxAttempts * 3
  | .reprocessAnalysis service .. => service.maxAttempts
  | .reprocessTranslation service .. => service.maxAttempts
  | .dailySummary _ maxAttempts _ _ => maxAttempts
  | .queue _ | .deleteRecording _ | .switches _ => 0

def attemptsGranted (e : Event Database ServerCall) : ℕ :=
  match e.label.exec e.before with
  | .ok _ => attemptsAsked e.label
  | .error _ => 0

lemma attemptsOwed_ended {job : ProcessingJob} (h : ¬ job.active) : attemptsOwed job = 0 := if_neg h

lemma attemptsOwed_active {job : ProcessingJob} (h : job.active) :
    attemptsOwed job = job.maxAttempts - job.attemptCount +
      job.maxAttempts * (chainFrom job.followUpKind).length := if_pos h

lemma attemptsOwed_new (id : JobId) (recordingId : Option RecordingId) (day : Option Day)
    (kind : JobKind) (followUp : Option JobKind) (maxAttempts : ℕ) (availableAt createdAt : Instant) :
    attemptsOwed (newJob id recordingId day kind followUp maxAttempts availableAt createdAt) =
      maxAttempts + maxAttempts * (chainFrom followUp).length := by
  rw [attemptsOwed_active rfl]
  simp [newJob]

lemma handedOn_owed {settings : Option ProcessingSettings} {job job' : ProcessingJob}
    (hok : RowOk job) (row : RowDefaults) (now : Instant) :
    ((handedOn settings job job' row now).map attemptsOwed).sum ≤
      job.maxAttempts * (chainFrom job.followUpKind).length := by
  rcases handedOn_cases settings job job' row now with hnone | ⟨kind, _, hkind, hone⟩
  · rw [hnone]
    exact Nat.zero_le _
  · rw [followUpOf_first hok.chain] at hkind
    have hlen := (chainFrom_step hkind).length_le
    have howed : attemptsOwed (followUpJob job kind row now) =
        job.maxAttempts * (kind :: chainFrom (chainedFollowUp kind)).length := by
      rw [followUpJob, attemptsOwed_new, List.length_cons, Nat.mul_succ, Nat.add_comm]
    rw [hone, List.map_singleton, List.sum_singleton, howed]
    exact Nat.mul_le_mul_left _ hlen

lemma quiet_owed {settings : Option ProcessingSettings} {job job' : ProcessingJob}
    (h : ¬ HandsOn job job') (weight : ProcessingJob → ℕ) (row : RowDefaults) (now : Instant) :
    ((handedOn settings job job' row now).map weight).sum = 0 := by
  rw [handedOn_of_not h]
  rfl

lemma moves_owed {db db' : Database} {job job' : ProcessingJob} {row : RowDefaults} {now : Instant}
    (hok : RowOk job) (h : Moves db job job' row now db') :
    attemptsOwed job' + ((handedOn db.settings job job' row now).map attemptsOwed).sum +
      (if job.status = .queued then 1 else 0) ≤ attemptsOwed job := by
  have howed := attemptsOwed_active h.step.active
  have hnew : ((handedOn db.settings job job' row now).map attemptsOwed).sum ≤
      job.maxAttempts * (chainFrom job.followUpKind).length := handedOn_owed hok row now
  cases h.step with
  | claimed queue token at_ hs =>
    have hwaiting := hok.waiting hs
    rw [quiet_owed (by simp [HandsOn, claimRow]), attemptsOwed_active rfl, if_pos hs, howed]
    simp only [claimRow]
    omega
  | renewed stage at_ lease hs =>
    have hsame : attemptsOwed (renewRow stage at_ lease job) = attemptsOwed job := rfl
    rw [quiet_owed (by simp [HandsOn, renewRow, hs]), hsame, hs]
    simp
  | completed at_ hs =>
    have hended : ¬ (completeRow at_ job).active := Bool.false_ne_true
    rw [attemptsOwed_ended hended, hs, howed]
    simp only [reduceCtorEq, if_false]
    omega
  | retried availableAt at_ stage code errorType message hs hlt =>
    rw [quiet_owed (by simp [HandsOn, retryRow]), attemptsOwed_active rfl, hs, howed]
    simp [retryRow, releaseRow]
  | failed at_ stage code errorType message hs =>
    have hended : ¬ (failedRow at_ (releaseRow stage code errorType message at_ job)).active :=
      Bool.false_ne_true
    rw [attemptsOwed_ended hended, hs, howed]
    simp only [reduceCtorEq, if_false]
    omega

lemma moves_weight (weight : ProcessingJob → ℕ) {db db' : Database} {job job' : ProcessingJob}
    {row : RowDefaults} {now : Instant} {spent : ℕ} (hids : UniqueJobIds db)
    (h : Moves db job job' row now db')
    (hstep : weight job' + ((handedOn db.settings job job' row now).map weight).sum + spent ≤
      weight job) : (db'.jobs.map weight).sum + spent ≤ (db.jobs.map weight).sum := by
  have hsum : (((db.putJob job').jobs).map weight).sum + weight job =
      (db.jobs.map weight).sum + weight job' := sum_replace weight hids h.stored h.step.same.1
  rw [h.jobs, List.map_append, List.sum_append]
  omega

lemma moves_attempts {db db' : Database} {job job' : ProcessingJob} {row : RowDefaults}
    {now : Instant} (hok : StatusInvariant db) (h : Moves db job job' row now db') :
    attemptsLeft db' + (if job.status = .queued then 1 else 0) ≤ attemptsLeft db :=
  moves_weight attemptsOwed hok.jobIds h (moves_owed (hok.rows job h.stored) h)

lemma claimsMade_other {db db' : Database} {call : QueueCall} (h : call.token = none) :
    claimsMade ⟨db, .queue call, db'⟩ = 0 := by
  cases call with
  | claimNext => cases h
  | heartbeat queue claim now =>
    simp only [claimsMade, QueueCall.exec]
    cases queue.heartbeat claim now db <;> rfl
  | advanceStage queue claim stage now =>
    simp only [claimsMade, QueueCall.exec]
    cases queue.advanceStage claim stage now db <;> rfl
  | complete queue claim persister now row =>
    simp only [claimsMade, QueueCall.exec]
    cases queue.complete claim persister now row db <;> rfl
  | fail queue claim failure now row =>
    simp only [claimsMade, QueueCall.exec]
    cases queue.fail claim failure now row db <;> rfl
  | recoverExpired queue now limit locked rows =>
    simp only [claimsMade, QueueCall.exec]
    cases queue.recoverExpired now limit locked rows db <;> rfl

lemma queueStep_attempts {db db' : Database} {call : QueueCall} (hok : StatusInvariant db)
    (h : QueueStep db call db') : attemptsLeft db' ≤ attemptsLeft db := by
  have hboth : StatusInvariant db' ∧ attemptsLeft db' ≤ attemptsLeft db := by
    apply h.keeps (fun t => StatusInvariant t ∧ attemptsLeft t ≤ attemptsLeft db) ?_ hok.jobIds
      ⟨hok, Nat.le_refl _⟩
    rintro s t ⟨hs, hle⟩ hmoved
    refine ⟨moved_consistent hs hmoved, ?_⟩
    obtain ⟨job, job', row, now, hm, _⟩ := hmoved
    have hspent := moves_attempts hs hm
    omega
  exact hboth.2

lemma claimNext_attempts {db db' : Database} {queue : JobQueue} {now : Instant} {token : ClaimToken}
    {kinds : Option (List JobKind)} {locked : List JobId} (hok : StatusInvariant db)
    (h : QueueStep db (.claimNext queue now token kinds locked) db') :
    attemptsLeft db' + claimsMade ⟨db, .queue (.claimNext queue now token kinds locked), db'⟩ ≤
      attemptsLeft db := by
  cases hc : queue.claimNext now token kinds locked db with
  | error e =>
    rw [QueueStep, QueueCall.exec, hc] at h
    rw [h]
    simp [claimsMade, QueueCall.exec, hc, settled, Except.map]
  | ok result =>
    obtain ⟨claim, t⟩ := result
    rw [QueueStep, QueueCall.exec, hc] at h
    have ht : db' = t := h
    rw [ht]
    rcases claimNext_ok hc ⟨0, 0⟩ with ⟨hnone, hsame⟩ | ⟨job, hnext, hclaim, hmoves, _⟩
    · rw [hsame, hnone] at hc
      simp [claimsMade, QueueCall.exec, hc, hsame, Except.map]
    · have hspent := moves_attempts hok hmoves
      rw [if_pos (nextClaimable_some hnext).2.1] at hspent
      rw [hclaim] at hc
      simpa [claimsMade, QueueCall.exec, hc, Except.map] using hspent

lemma attemptsLeft_snoc {db db' : Database} {job : ProcessingJob} (h : db'.jobs = db.jobs ++ [job]) :
    attemptsLeft db' = attemptsLeft db + attemptsOwed job := by
  rw [attemptsLeft, h, List.map_append, List.sum_append]
  rfl

lemma attemptsGranted_ok {db db' : Database} {call : ServerCall} (h : call.exec db = .ok ((), db')) :
    attemptsGranted ⟨db, call, db'⟩ = attemptsAsked call := by
  simp only [attemptsGranted, h]

lemma enqueued_attempts {service : RecordingService} {id : RecordingId}
    {allowed : List RecordingStatus} {code message : String} {kind : JobKind} {needsTranscript : Bool}
    {row : RowDefaults} {now : Instant} {db db' : Database} {job : ProcessingJob}
    (h : enqueueProcessing service id allowed code message kind needsTranscript row now db =
      .ok (job, db')) :
    attemptsLeft db' ≤ attemptsLeft db + service.maxAttempts * (if kind = .full then 3 else 1) := by
  obtain ⟨rfl, _, _, hjobs, _⟩ := enqueueProcessing_ok h
  rw [attemptsLeft_snoc hjobs, enqueuedJob, attemptsOwed_new]
  by_cases hk : kind = .full
  · have hchain : (chainFrom (chainedFollowUp .full)).length = 2 := rfl
    simp only [hk, if_true, hchain]
    omega
  · have hchain : (chainFrom none).length = 0 := rfl
    simp only [hk, if_false, hchain]
    omega

lemma request_attempts {db db' : Database} {call : ServerCall} (hrequest : ∀ q, call ≠ .queue q)
    (h : call.exec db = .ok ((), db')) : attemptsLeft db' ≤ attemptsLeft db + attemptsAsked call := by
  cases call with
  | queue q => exact absurd rfl (hrequest q)
  | create service recording row now =>
    obtain ⟨_, hc⟩ := forget_ok h
    obtain ⟨_, _, _, hjobs, _⟩ := createRecordingAndJob_ok hc
    have hchain : (chainFrom (chainedFollowUp .full)).length = 2 := rfl
    rw [attemptsLeft_snoc hjobs, initialJob, attemptsOwed_new, hchain, attemptsAsked]
    omega
  | retry service id row now =>
    obtain ⟨_, hc⟩ := forget_ok h
    exact enqueued_attempts hc
  | reprocess service id row now =>
    obtain ⟨_, hc⟩ := forget_ok h
    exact enqueued_attempts hc
  | reprocessAnalysis service id row now =>
    obtain ⟨_, hc⟩ := forget_ok h
    simpa [attemptsAsked] using enqueued_attempts hc
  | reprocessTranslation service id row now =>
    obtain ⟨_, hc⟩ := forget_ok h
    simpa [attemptsAsked] using enqueued_attempts hc
  | deleteRecording id =>
    obtain ⟨_, _, hjobs, _⟩ := deleteRecording_ok h
    rw [attemptsLeft, hjobs]
    exact (List.filter_sublist.map attemptsOwed).sum_le_sum (fun _ _ => Nat.zero_le _)
  | dailySummary day maxAttempts availableAt row =>
    obtain ⟨rfl, _⟩ := createDailySummaryJob_ok (dailySummary_exec h)
    rw [attemptsLeft_snoc rfl, attemptsOwed_new]
    exact Nat.le_refl _
  | switches settings =>
    cases h
    exact Nat.le_refl _

lemma serverStep_attempts {db db' : Database} {call : ServerCall} (hok : StatusInvariant db)
    (h : ServerStep db call db') :
    attemptsLeft db' + claimsMade ⟨db, call, db'⟩ ≤
      attemptsLeft db + attemptsGranted ⟨db, call, db'⟩ := by
  by_cases hqueue : ∃ q, call = .queue q
  · obtain ⟨q, rfl⟩ := hqueue
    have hstep := queueStep_of_server h
    refine Nat.le_trans ?_ (Nat.le_add_right _ _)
    cases q with
    | claimNext => exact claimNext_attempts hok hstep
    | heartbeat | advanceStage | complete | fail | recoverExpired =>
      rw [claimsMade_other rfl]
      exact queueStep_attempts hok hstep
  · have hrequest : ∀ q, call ≠ .queue q := fun q hq => hqueue ⟨q, hq⟩
    have hnone : claimsMade ⟨db, call, db'⟩ = 0 := by
      cases call with
      | queue q => exact absurd rfl (hrequest q)
      | _ => rfl
    rw [hnone]
    rcases serverStep_cases h with hexec | rfl
    · rw [attemptsGranted_ok hexec]
      exact request_attempts hrequest hexec
    · exact Nat.le_add_right _ _

/-- No job is retried without end: the attempts a server ever starts are paid for, request by
request, by the chains those requests were accepted for. -/
theorem attempts_within_requests {settings : Option ProcessingSettings} {db : Database}
    {es : List (Event Database ServerCall)} (hrun : ServerRun (Database.empty settings) es db) :
    attemptsLeft db + total claimsMade es ≤ total attemptsGranted es := by
  have hempty : attemptsLeft (Database.empty settings) = 0 := rfl
  have hbudget := run_within StatusInvariant attemptsLeft claimsMade attemptsGranted
    (fun _ _ _ => serverStep_consistent) (fun _ _ _ => serverStep_attempts) hrun
    (empty_consistent settings)
  omega

theorem attempts_within_requests_after_expiry :
    let create := ServerCall.create exampleService exampleRecording ⟨1, 0⟩ 0
    let claim := ServerCall.queue (.claimNext exampleWorker 0 7 none [])
    let recover := ServerCall.queue (.recoverExpired exampleWorker 100 10 [] (fun _ => ⟨2, 0⟩))
    let db₁ := settled (Database.empty none) (create.exec (Database.empty none))
    let db₂ := settled db₁ (claim.exec db₁)
    let db₃ := settled db₂ (recover.exec db₂)
    let es := [⟨Database.empty none, create, db₁⟩, ⟨db₁, claim, db₂⟩, ⟨db₂, recover, db₃⟩]
    attemptsLeft db₃ = 5 ∧ total claimsMade es = 1 ∧ total attemptsGranted es = 6 ∧
      attemptsLeft db₃ + total claimsMade es ≤ total attemptsGranted es := by
  intro create claim recover db₁ db₂ db₃ es
  refine ⟨by decide, by decide, by decide, ?_⟩
  have hrun : ServerRun (Database.empty none) es db₃ := .cons rfl (.cons rfl (.single rfl))
  exact attempts_within_requests hrun

end AudioServer.Services.BoundedWork
