import AudioServer.Activity.Repository
import Mathlib.Data.List.Sort

/-! Queue primitives with lease fencing. Every operation is one transaction: it
commits a new database or raises and leaves the old one. -/

namespace AudioServer.Jobs.Queue

open AudioServer.Foundations.Outcomes AudioServer.Foundations.Strings
open AudioServer.Db.Models AudioServer.Activity.Repository

structure ClaimedJob where
  id : JobId
  recordingId : Option RecordingId
  kind : JobKind
  claimToken : ClaimToken
  workerId : Text
  attemptCount : ℕ
  maxAttempts : ℕ
  stage : JobStage
  summaryDate : Option Day
deriving DecidableEq

structure JobFailure where
  code : Text
  errorType : Text
  message : Text
  retryable : Bool
  stage : Option JobStage
  code_nonblank : ¬ Blank code
  errorType_nonblank : ¬ Blank errorType
  message_nonblank : ¬ Blank message

structure RecoverySummary where
  requeued : ℕ
  failed : ℕ
deriving DecidableEq

/-- `timedelta.max`: 999999999 days and one microsecond less than another. -/
def timedeltaMax : Duration := 1000000000 * 86400 * 1000000 - 1

structure RetryPolicy where
  baseDelay : Duration
  maxDelay : Duration
  base_positive : 0 < baseDelay
  base_le_max : baseDelay ≤ maxDelay
  max_representable : maxDelay ≤ timedeltaMax

def RetryPolicy.delayAfter (policy : RetryPolicy) (attemptCount : ℕ) : Except Exn Duration := do
  require (1 ≤ attemptCount) (.valueError "attempt_count must be at least one")
  let multiplier := 2 ^ min (attemptCount - 1) 30
  -- The product is a `timedelta` of its own before `min` caps it.
  require (policy.baseDelay * multiplier ≤ timedeltaMax) .overflowError
  .ok (min (policy.baseDelay * multiplier) policy.maxDelay)

/-- `datetime.max`: the last microsecond of 9999-12-31. -/
def datetimeMax : Instant := 2932897 * 86400 * 1000000 - 1

def later (now : Instant) (delay : Duration) : Except Exn Instant := do
  require (now + delay ≤ datetimeMax) .overflowError
  .ok (now + delay)

def RetryPolicy.canRetry (retryable : Bool) (attemptCount maxAttempts : ℕ) : Except Exn Bool := do
  require (1 ≤ maxAttempts) (.valueError "invalid attempt counts")
  .ok (retryable && decide (attemptCount < maxAttempts))

structure JobQueue where
  workerId : Text
  leaseDuration : Duration
  retryPolicy : RetryPolicy
  lease_positive : 0 < leaseDuration

def JobQueue.create (workerId : Text) (leaseDuration : Duration) (retryPolicy : RetryPolicy) :
    Except Exn JobQueue :=
  if h : 0 < leaseDuration then
    if Blank workerId then .error (.valueError "worker_id cannot be empty")
    else .ok ⟨boundedIdentifier workerId "worker".toList, leaseDuration, retryPolicy, h⟩
  else .error (.valueError "lease_duration must be positive")

/-- The event fields every call site fills; the error fields stay at their defaults. -/
def jobEvent (jobId : JobId) (kind : JobKind) (attemptCount maxAttempts : ℕ)
    (eventType : ProcessingActivityType) (status : JobStatus) (stage : JobStage)
    (occurredAt : Instant) (recordingId : RecordingId) : ProcessingActivity where
  recordingId := recordingId
  jobId := jobId
  jobKind := kind
  eventType := eventType
  jobStatus := some status
  stage := some stage
  attemptCount := attemptCount
  maxAttempts := maxAttempts
  errorCode := none
  errorType := none
  safeMessage := none
  retryScheduled := false
  nextAttemptAt := none
  occurredAt := occurredAt

def appendJobActivity (db : Database) (recordingId : Option RecordingId)
    (event : RecordingId → ProcessingActivity) : Except Exn Database :=
  match recordingId with
  | none => .ok db
  | some id => appendActivity db (event id)

def claimedStage : JobKind → JobStage
  | .analysis => .analyzing
  | .dailySummary => .analyzing
  | .translation => .translating
  | .full => .preprocessing

def chainedFollowUp : JobKind → Option JobKind
  | .full => some .analysis
  | .analysis => some .translation
  | .translation => none
  | .dailySummary => none

structure AutomaticFollowUps where
  analysis : Bool
  translation : Bool
deriving DecidableEq

def AutomaticFollowUps.runs (automatic : AutomaticFollowUps) : JobKind → Bool
  | .analysis => automatic.analysis
  | .translation => automatic.translation
  | .full => false
  | .dailySummary => false

/-- A missing row carries on as before the switches existed. -/
def readAutomaticFollowUps : Option ProcessingSettings → AutomaticFollowUps
  | none => ⟨true, true⟩
  | some settings => ⟨settings.autoAnalysis, settings.autoTranslation⟩

/-- The `while` loop of `_queue_follow_up`, unrolled along the chain. -/
def passOver (automatic : AutomaticFollowUps) : ℕ → JobKind → Option JobKind
  | 0, _ => none
  | n + 1, kind =>
    if automatic.runs kind then some kind
    else (chainedFollowUp kind).bind (passOver automatic n)

/-- The chain has at most three kinds, so four rounds always reach its end. -/
def firstRunning (automatic : AutomaticFollowUps) (kind : JobKind) : Option JobKind :=
  passOver automatic 4 kind

lemma firstRunning_loop (automatic : AutomaticFollowUps) (kind : JobKind) :
    firstRunning automatic kind =
      if automatic.runs kind then some kind
      else (chainedFollowUp kind).bind (firstRunning automatic) := by
  cases kind <;> rfl

def newJob (id : JobId) (recordingId : Option RecordingId) (summaryDate : Option Day)
    (kind : JobKind) (followUpKind : Option JobKind) (maxAttempts : ℕ)
    (availableAt createdAt : Instant) : ProcessingJob where
  id := id
  recordingId := recordingId
  summaryDate := summaryDate
  kind := kind
  followUpKind := followUpKind
  status := .queued
  stage := .queued
  attemptCount := 0
  maxAttempts := maxAttempts
  availableAt := availableAt
  workerId := none
  claimToken := none
  claimedAt := none
  heartbeatAt := none
  leaseExpiresAt := none
  failedStage := none
  errorCode := none
  errorType := none
  errorMessage := none
  errorAt := none
  startedAt := none
  finishedAt := none
  createdAt := createdAt

/-- What the database supplies to a new row: its identifier and `now()`. -/
structure RowDefaults where
  id : JobId
  createdAt : Instant

def followUpOf (settings : Option ProcessingSettings) (job : ProcessingJob) : Option JobKind :=
  job.followUpKind.bind (firstRunning (readAutomaticFollowUps settings))

def followUpJob (job : ProcessingJob) (kind : JobKind) (row : RowDefaults)
    (occurredAt : Instant) : ProcessingJob :=
  newJob row.id job.recordingId none kind (chainedFollowUp kind) job.maxAttempts
    (occurredAt + 1) row.createdAt

def queueFollowUp (db : Database) (job : ProcessingJob) (row : RowDefaults)
    (occurredAt : Instant) : Except Exn Database :=
  match job.recordingId, followUpOf db.settings job with
  | some recordingId, some kind => do
    let followUp := followUpJob job kind row occurredAt
    let db ← db.insertJob followUp
    appendJobActivity db (some recordingId)
      (jobEvent followUp.id kind 0 followUp.maxAttempts .jobQueued .queued .queued (occurredAt + 1))
  | _, _ => .ok db

def transition (db : Database) (job : ProcessingJob) (status : RecordingStatus) : Database :=
  if job.kind = .full then (db.putJob job).setProcessingStatus job.recordingId status
  else db.putJob job

def createDailySummaryJob (db : Database) (summaryDate : Day) (maxAttempts : ℕ)
    (availableAt : Instant) (row : RowDefaults) : Except Exn Database := do
  require (1 ≤ maxAttempts) (.valueError "max_attempts must be positive")
  require (db.activeDayJob summaryDate = none) (.other "InvalidRetryStateError")
  db.insertJob (newJob row.id none (some summaryDate) .dailySummary none maxAttempts availableAt
    row.createdAt)

def Claimable (now : Instant) (kinds : Option (List JobKind)) (job : ProcessingJob) : Prop :=
  job.status = .queued ∧ job.availableAt ≤ now ∧ ∀ ks ∈ kinds, job.kind ∈ ks

instance (now : Instant) (kinds : Option (List JobKind)) (job : ProcessingJob) :
    Decidable (Claimable now kinds job) := inferInstanceAs (Decidable (_ ∧ _))

/-- `ORDER BY available_at, created_at, id`. -/
def ClaimOrder (a b : ProcessingJob) : Prop :=
  a.availableAt < b.availableAt ∨ (a.availableAt = b.availableAt ∧
    (a.createdAt < b.createdAt ∨ (a.createdAt = b.createdAt ∧ a.id ≤ b.id)))

instance : DecidableRel ClaimOrder := fun _ _ => inferInstanceAs (Decidable (_ ∨ _))

/-- `locked` are the rows another transaction holds, which `SKIP LOCKED` passes over. -/
def nextClaimable (db : Database) (now : Instant) (kinds : Option (List JobKind))
    (locked : List JobId) : Option ProcessingJob :=
  ((db.jobs.filter (fun j => Claimable now kinds j ∧ j.id ∉ locked)).insertionSort ClaimOrder).head?

def claimRow (queue : JobQueue) (token : ClaimToken) (claimedAt : Instant) (job : ProcessingJob) :
    ProcessingJob :=
  { job with
    status := .processing
    stage := claimedStage job.kind
    attemptCount := job.attemptCount + 1
    workerId := some queue.workerId
    claimToken := some token
    claimedAt := some claimedAt
    heartbeatAt := some claimedAt
    leaseExpiresAt := some (claimedAt + queue.leaseDuration)
    startedAt := some (job.startedAt.getD claimedAt)
    finishedAt := none
    failedStage := none
    errorCode := none
    errorType := none
    errorMessage := none
    errorAt := none }

def claimOf (queue : JobQueue) (token : ClaimToken) (job : ProcessingJob) : ClaimedJob where
  id := job.id
  recordingId := job.recordingId
  kind := job.kind
  claimToken := token
  workerId := queue.workerId
  attemptCount := job.attemptCount
  maxAttempts := job.maxAttempts
  stage := job.stage
  summaryDate := job.summaryDate

def JobQueue.claimNext (queue : JobQueue) (now : Instant) (token : ClaimToken)
    (kinds : Option (List JobKind)) (locked : List JobId) (db : Database) :
    Except Exn (Option ClaimedJob × Database) :=
  match nextClaimable db now kinds locked with
  | none => .ok (none, db)
  | some job => do
    let job := claimRow queue token now job
    let db := transition db job .processing
    let db ← appendJobActivity db job.recordingId
      (jobEvent job.id job.kind job.attemptCount job.maxAttempts .processingStarted .processing
        job.stage now)
    .ok (some (claimOf queue token job), db)

def Owns (claim : ClaimedJob) (job : ProcessingJob) : Prop :=
  job.id = claim.id ∧ job.status = .processing ∧ job.claimToken = some claim.claimToken ∧
    job.workerId = some claim.workerId

instance (claim : ClaimedJob) (job : ProcessingJob) : Decidable (Owns claim job) :=
  inferInstanceAs (Decidable (_ ∧ _))

def ownedJob (db : Database) (claim : ClaimedJob) : Option ProcessingJob :=
  db.jobs.find? (Owns claim ·)

def lockOwnedJob (db : Database) (claim : ClaimedJob) : Except Exn ProcessingJob :=
  found (ownedJob db claim)
    (.claimLost "processing job lease is no longer owned by this worker")

def JobQueue.heartbeat (queue : JobQueue) (claim : ClaimedJob) (now : Instant) (db : Database) :
    Except Exn (Unit × Database) := do
  let job ← found (ownedJob db claim)
    (.claimLost "processing job lease is no longer owned by this worker")
  .ok ((), db.putJob { job with
    heartbeatAt := some now
    leaseExpiresAt := some (now + queue.leaseDuration) })

def JobQueue.advanceStage (queue : JobQueue) (claim : ClaimedJob) (stage : JobStage)
    (now : Instant) (db : Database) : Except Exn (Unit × Database) := do
  require (stage ≠ .queued ∧ stage ≠ .completed)
    (.valueError "queued/completed stages are controlled by queue lifecycle methods")
  let job ← found (ownedJob db claim) (.claimLost "cannot update stage after losing the job lease")
  let db := db.putJob { job with
    stage := stage
    heartbeatAt := some now
    leaseExpiresAt := some (now + queue.leaseDuration) }
  let db ← appendJobActivity db claim.recordingId
    (jobEvent claim.id claim.kind claim.attemptCount claim.maxAttempts .stageStarted .processing
      stage now)
  .ok ((), db)

abbrev ResultPersister := Database → Except Exn (RecordingId → Document)

def persistResults (persister : Option ResultPersister) (db : Database) : Except Exn Database :=
  match persister with
  | none => .ok db
  | some persist => do
    let documents ← persist db
    .ok { db with documents := documents }

def completeRow (completedAt : Instant) (job : ProcessingJob) : ProcessingJob :=
  { job with
    status := .completed
    stage := .completed
    finishedAt := some completedAt
    heartbeatAt := some completedAt
    leaseExpiresAt := none
    claimToken := none }

def JobQueue.complete (_queue : JobQueue) (claim : ClaimedJob) (persister : Option ResultPersister)
    (now : Instant) (row : RowDefaults) (db : Database) : Except Exn (Unit × Database) := do
  let job ← lockOwnedJob db claim
  let db ← persistResults persister db
  let job := completeRow now job
  let db := transition db job .completed
  let db ← appendJobActivity db job.recordingId
    (jobEvent job.id job.kind job.attemptCount job.maxAttempts .processingCompleted .completed
      .completed now)
  let db ← queueFollowUp db job row now
  .ok ((), db)

/-- What both `fail` and `recover_expired` write before they choose between a retry and the end. -/
def releaseRow (failedStage : JobStage) (code errorType message : Text) (at_ : Instant)
    (job : ProcessingJob) : ProcessingJob :=
  { job with
    failedStage := some failedStage
    errorCode := some code
    errorType := some errorType
    errorMessage := some message
    errorAt := some at_
    claimToken := none
    workerId := none
    claimedAt := none
    heartbeatAt := none
    leaseExpiresAt := none }

def retryRow (availableAt : Instant) (job : ProcessingJob) : ProcessingJob :=
  { job with status := .queued, stage := .queued, availableAt := availableAt }

def failedRow (finishedAt : Instant) (job : ProcessingJob) : ProcessingJob :=
  { job with status := .failed, finishedAt := some finishedAt }

def failureEvent (job : ProcessingJob) (eventType : ProcessingActivityType) (stage : JobStage)
    (occurredAt : Instant) (nextAttemptAt : Option Instant) (recordingId : RecordingId) :
    ProcessingActivity :=
  { jobEvent job.id job.kind job.attemptCount job.maxAttempts eventType job.status stage occurredAt
      recordingId with
    errorCode := job.errorCode
    errorType := job.errorType
    safeMessage := job.errorMessage
    retryScheduled := nextAttemptAt.isSome
    nextAttemptAt := nextAttemptAt }

def JobQueue.fail (queue : JobQueue) (claim : ClaimedJob) (failure : JobFailure) (now : Instant)
    (row : RowDefaults) (db : Database) : Except Exn (Bool × Database) := do
  let job ← lockOwnedJob db claim
  let failedStage := failure.stage.getD job.stage
  let willRetry ← RetryPolicy.canRetry failure.retryable job.attemptCount job.maxAttempts
  let job := releaseRow failedStage (boundedIdentifier failure.code "processing_failed".toList)
    (boundedIdentifier failure.errorType "ProcessingError".toList) (boundedMessage failure.message)
    now job
  if willRetry then do
    let delay ← queue.retryPolicy.delayAfter job.attemptCount
    let availableAt ← later now delay
    let job := retryRow availableAt job
    let db := transition db job .queued
    let db ← appendJobActivity db job.recordingId
      (failureEvent job .retryScheduled failedStage now (some job.availableAt))
    .ok (true, db)
  else do
    let job := failedRow now job
    let db := transition db job .failed
    let db ← appendJobActivity db job.recordingId
      (failureEvent job .processingFailed failedStage now none)
    -- A transcription that failed committed no transcript for the chain to work from.
    let db ← (if job.kind = .full then .ok db else queueFollowUp db job row now)
    .ok (false, db)

def Expired (now : Instant) (job : ProcessingJob) : Prop :=
  job.status = .processing ∧ ∀ lease ∈ job.leaseExpiresAt, lease ≤ now

instance (now : Instant) (job : ProcessingJob) : Decidable (Expired now job) :=
  inferInstanceAs (Decidable (_ ∧ _))

/-- `ORDER BY lease_expires_at, created_at`, with missing leases last. -/
def ExpiryOrder (a b : ProcessingJob) : Prop :=
  match a.leaseExpiresAt, b.leaseExpiresAt with
  | some x, some y => x < y ∨ (x = y ∧ a.createdAt ≤ b.createdAt)
  | some _, none => True
  | none, some _ => False
  | none, none => a.createdAt ≤ b.createdAt

instance : DecidableRel ExpiryOrder := fun a b => by
  unfold ExpiryOrder
  cases a.leaseExpiresAt <;> cases b.leaseExpiresAt <;> infer_instance

def expiredJobs (db : Database) (now : Instant) (limit : ℕ) (locked : List JobId) :
    List ProcessingJob :=
  ((db.jobs.filter (fun j => Expired now j ∧ j.id ∉ locked)).insertionSort ExpiryOrder).take limit

/-- One round of the recovery loop. `rows` names the row defaults of each successor by its cause. -/
def recoverJob (queue : JobQueue) (now : Instant) (rows : JobId → RowDefaults)
    (acc : RecoverySummary × Database) (job : ProcessingJob) :
    Except Exn (RecoverySummary × Database) := do
  let (summary, db) := acc
  let failedStage := job.stage
  let job := releaseRow failedStage "worker_lease_expired".toList "WorkerLeaseExpired".toList
    "The processing worker stopped renewing its lease.".toList now job
  let canRetry ← RetryPolicy.canRetry true job.attemptCount job.maxAttempts
  if canRetry then do
    let delay ← queue.retryPolicy.delayAfter job.attemptCount
    let availableAt ← later now delay
    let job := retryRow availableAt job
    let db := transition db job .queued
    let db ← appendJobActivity db job.recordingId
      (failureEvent job .leaseRecovered failedStage now (some job.availableAt))
    .ok ({ summary with requeued := summary.requeued + 1 }, db)
  else do
    let job := failedRow now job
    let db := transition db job .failed
    let db ← appendJobActivity db job.recordingId
      (failureEvent job .leaseRecovered failedStage now none)
    let db ← (if job.kind = .full then .ok db else queueFollowUp db job (rows job.id) now)
    .ok ({ summary with failed := summary.failed + 1 }, db)

def JobQueue.recoverExpired (queue : JobQueue) (now : Instant) (limit : ℕ) (locked : List JobId)
    (rows : JobId → RowDefaults) (db : Database) : Except Exn (RecoverySummary × Database) := do
  require (1 ≤ limit) (.valueError "recovery limit must be positive")
  (expiredJobs db now limit locked).foldlM (recoverJob queue now rows) (⟨0, 0⟩, db)

end AudioServer.Jobs.Queue
