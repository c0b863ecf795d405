import AudioServer.Api.Schemas

/-! The tables the workers and the services share. Identifiers are UUIDs, read
as the numbers they are compared as; instants count microseconds. -/

namespace AudioServer.Db.Models

open AudioServer.Foundations.Strings AudioServer.Api.Schemas

abbrev RecordingId := ℕ
abbrev JobId := ℕ
abbrev SegmentId := ℕ
abbrev ClaimToken := ℕ
abbrev Instant := ℤ
abbrev Duration := ℤ
abbrev Day := ℤ

inductive RecordingStatus
  | uploaded | queued | processing | completed | failed
deriving DecidableEq

inductive JobStatus
  | queued | processing | completed | failed
deriving DecidableEq

inductive JobKind
  | full | analysis | translation | dailySummary
deriving DecidableEq

inductive JobStage
  | queued | preprocessing | transcribing | diarizing | merging | translating | analyzing | completed
deriving DecidableEq

inductive AnalysisStatus
  | completed | skipped | failed | stale
deriving DecidableEq

inductive TranslationSource
  | llm | manual
deriving DecidableEq

inductive BookmarkKind
  | expression | highlight
deriving DecidableEq

inductive ProcessingActivityType
  | jobQueued | processingStarted | stageStarted | retryScheduled | leaseRecovered
  | processingCompleted | processingFailed | manualRetryQueued
deriving DecidableEq

inductive Constraint
  | recordingsPkey | recordingsDeviceSha256 | recordingsStorageKey
  | jobsPkey | jobsOneActiveRecording | jobsOneActiveDay | jobsScope
  | segmentsPkey | transcriptRecordingSequence
  | translationsPkey | translationRecordingStart
deriving DecidableEq

inductive Exn
  | claimLost (message : String)
  | valueError (message : String)
  | overflowError
  | integrityError (constraint : Constraint)
  | processing (code message : String) (retryable : Bool)
  | recordingService (code message : String) (statusCode : ℕ)
  | storageConflict
  | fileNotFound
  | other (errorType : String)
deriving DecidableEq

/-- `recordings/{YYYY/mm/dd}/{id}/original.{extension}`, by its three parts. -/
structure StorageKey where
  day : Day
  recordingId : RecordingId
  extension : Text
deriving DecidableEq

structure Recording where
  id : RecordingId
  deviceId : Text
  sha256 : Text
  fileSize : ℕ
  storageKey : StorageKey
  startedAt : Instant
  durationSeconds : Seconds
  processingStatus : RecordingStatus
deriving DecidableEq

structure ProcessingJob where
  id : JobId
  recordingId : Option RecordingId
  summaryDate : Option Day
  kind : JobKind
  followUpKind : Option JobKind
  status : JobStatus
  stage : JobStage
  attemptCount : ℕ
  maxAttempts : ℕ
  availableAt : Instant
  workerId : Option Text
  claimToken : Option ClaimToken
  claimedAt : Option Instant
  heartbeatAt : Option Instant
  leaseExpiresAt : Option Instant
  failedStage : Option JobStage
  errorCode : Option Text
  errorType : Option Text
  errorMessage : Option Text
  errorAt : Option Instant
  startedAt : Option Instant
  finishedAt : Option Instant
  createdAt : Instant
deriving DecidableEq

/-- `status IN ('queued', 'processing')`, the predicate of the partial indexes. -/
def JobStatus.active : JobStatus → Bool
  | .queued | .processing => true
  | .completed | .failed => false

abbrev ProcessingJob.active (j : ProcessingJob) : Bool := j.status.active

def JobStatus.recordingStatus : JobStatus → RecordingStatus
  | .queued => .queued
  | .processing => .processing
  | .completed => .completed
  | .failed => .failed

structure ProcessingActivity where
  recordingId : RecordingId
  jobId : JobId
  jobKind : JobKind
  eventType : ProcessingActivityType
  jobStatus : Option JobStatus
  stage : Option JobStage
  attemptCount : ℕ
  maxAttempts : ℕ
  errorCode : Option Text
  errorType : Option Text
  safeMessage : Option Text
  retryScheduled : Bool
  nextAttemptAt : Option Instant
  occurredAt : Instant
deriving DecidableEq

structure ProcessingSettings where
  autoAnalysis : Bool
  autoTranslation : Bool
deriving DecidableEq

structure TranscriptSegment where
  id : SegmentId
  sequence : ℤ
  speakerLabel : Text
  startTime : Seconds
  endTime : Seconds
  text : Text
  language : Option Text
  confidence : Option ℚ
  hasOverlap : Bool
deriving DecidableEq

structure TranscriptTranslation where
  id : ℕ
  startSegmentId : Option SegmentId
  endSegmentId : Option SegmentId
  sourceJa : Text
  textZhHk : Text
  source : TranslationSource
  stale : Bool
  createdAt : Instant
deriving DecidableEq

structure Analysis where
  jobId : JobId
  provider : Text
  model : Option Text
  schemaVersion : Text
  status : AnalysisStatus
  result : Option AnalysisResultV2
  errorCode : Option Text
  errorMessage : Option Text
  completedAt : Option Instant
deriving DecidableEq

structure SourceRevision where
  recordingId : RecordingId
  analysisRevision : ℕ
deriving DecidableEq

structure DailySummary where
  summaryDate : Day
  provider : Text
  model : Option Text
  schemaVersion : Text
  status : AnalysisStatus
  result : Option DailySummaryResultV1
  sourceRevisions : List SourceRevision
  errorCode : Option Text
  errorMessage : Option Text
deriving DecidableEq

structure Bookmark where
  id : ℕ
  userId : ℕ
  kind : BookmarkKind
  sourceDigest : Text
  originalJa : Text
  translationZhHk : Text
  noteJa : Text
  noteZhHk : Text
  speakerLabel : Text
  startTime : Seconds
  endTime : Option Seconds
  recordingId : Option RecordingId
  sourceLabel : Text
  sourceDeletedAt : Option Instant
deriving DecidableEq

/-- The rows that hang off one recording and the revision counters of its row.
`uq_analyses_recording` leaves room for one analysis. -/
structure Document where
  transcriptRevision : ℕ
  analysisRevision : ℕ
  translationRevision : ℕ
  segments : List TranscriptSegment
  translations : List TranscriptTranslation
  analysis : Option Analysis
deriving DecidableEq

def Document.empty : Document := ⟨0, 0, 0, [], [], none⟩

structure Database where
  recordings : List Recording
  jobs : List ProcessingJob
  activity : List ProcessingActivity
  settings : Option ProcessingSettings
  documents : RecordingId → Document

def Database.empty (settings : Option ProcessingSettings) : Database :=
  ⟨[], [], [], settings, fun _ => .empty⟩

def Database.recording (db : Database) (id : RecordingId) : Option Recording :=
  db.recordings.find? (fun r => r.id = id)

def Database.job (db : Database) (id : JobId) : Option ProcessingJob :=
  db.jobs.find? (fun j => j.id = id)

def Database.putJob (db : Database) (job : ProcessingJob) : Database :=
  { db with jobs := db.jobs.map (fun j => if j.id = job.id then job else j) }

def Database.setProcessingStatus (db : Database) (id : Option RecordingId)
    (status : RecordingStatus) : Database :=
  { db with recordings := db.recordings.map (fun r =>
      if some r.id = id then { r with processingStatus := status } else r) }

def Database.activeJob (db : Database) (id : RecordingId) : Option ProcessingJob :=
  db.jobs.find? (fun j => j.recordingId = some id ∧ j.active)

def Database.activeDayJob (db : Database) (day : Day) : Option ProcessingJob :=
  db.jobs.find? (fun j => j.summaryDate = some day ∧ j.active)

/-- The insert of a job row, against its primary key, its scope check and the two partial indexes. -/
def Database.insertJob (db : Database) (job : ProcessingJob) : Except Exn Database :=
  if db.jobs.any (fun j => j.id = job.id) then .error (.integrityError .jobsPkey)
  else if job.recordingId.isSome = job.summaryDate.isSome then .error (.integrityError .jobsScope)
  else if job.active ∧ job.recordingId.isSome ∧
      db.jobs.any (fun j => j.active ∧ j.recordingId = job.recordingId) then
    .error (.integrityError .jobsOneActiveRecording)
  else if job.active ∧ job.summaryDate.isSome ∧
      db.jobs.any (fun j => j.active ∧ j.summaryDate = job.summaryDate) then
    .error (.integrityError .jobsOneActiveDay)
  else .ok { db with jobs := db.jobs ++ [job] }

end AudioServer.Db.Models
