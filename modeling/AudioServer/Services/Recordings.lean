import AudioServer.Foundations.Dicts
import AudioServer.Jobs.Effects
import AudioServer.Services.Days
import Mathlib.Logic.Function.Basic

/-! The transactions of the recording service that create, enqueue and delete. -/

namespace AudioServer.Services.Recordings

open AudioServer.Foundations.Outcomes AudioServer.Foundations.Strings AudioServer.Foundations.Dicts
open AudioServer.Api.Schemas
open AudioServer.Db.Models AudioServer.Activity.Repository AudioServer.Jobs.Queue
open AudioServer.Jobs.Effects AudioServer.Services.Days

structure RecordingService where
  maxUploadBytes : ℕ
  maxAudioDurationSeconds : Seconds
  maxAttempts : ℕ

def recordingNotFound : Exn :=
  .recordingService "recording_not_found" "Recording was not found." 404

def insertRecording (db : Database) (recording : Recording) : Except Exn Database :=
  if db.recordings.any (fun r => r.id = recording.id) then .error (.integrityError .recordingsPkey)
  else if db.recordings.any (fun r =>
      r.deviceId = recording.deviceId ∧ r.sha256 = recording.sha256) then
    .error (.integrityError .recordingsDeviceSha256)
  else if db.recordings.any (fun r => r.storageKey = recording.storageKey) then
    .error (.integrityError .recordingsStorageKey)
  else .ok { db with
    recordings := db.recordings ++ [recording]
    documents := Function.update db.documents recording.id .empty }

def initialJob (service : RecordingService) (recording : Recording) (row : RowDefaults)
    (now : Instant) : ProcessingJob :=
  newJob row.id (some recording.id) none .full (chainedFollowUp .full) service.maxAttempts now
    row.createdAt

/-- The transaction of `_create_recording_and_job` and of `_create_web_recording_and_job`. -/
def createRecordingAndJob (service : RecordingService) (recording : Recording) (row : RowDefaults)
    (now : Instant) (db : Database) : Except Exn (Recording × Database) := do
  let recording := { recording with processingStatus := .queued }
  let job := initialJob service recording row now
  let db ← insertRecording db recording
  let db ← db.insertJob job
  let db ← appendActivity db
    (jobEvent job.id .full 0 job.maxAttempts .jobQueued .queued .queued now recording.id)
  .ok (recording, db)

/-- The row `_enqueue_processing` adds. Only transcription hands its work on. -/
def enqueuedJob (service : RecordingService) (id : RecordingId) (kind : JobKind) (row : RowDefaults)
    (now : Instant) : ProcessingJob :=
  newJob row.id (some id) none kind (if kind = .full then chainedFollowUp kind else none)
    service.maxAttempts now row.createdAt

def enqueueProcessing (service : RecordingService) (id : RecordingId)
    (allowedStatuses : List RecordingStatus) (disallowedCode disallowedMessage : String)
    (kind : JobKind) (requireTranscript : Bool) (row : RowDefaults) (now : Instant) (db : Database) :
    Except Exn (ProcessingJob × Database) := do
  let recording ← found (db.recording id) recordingNotFound
  require (recording.processingStatus ∈ allowedStatuses)
    (.recordingService disallowedCode disallowedMessage 409)
  require (db.activeJob id = none)
    (.recordingService "job_already_active"
      "A processing job is already active for this recording." 409)
  require (requireTranscript → (db.documents id).segments ≠ [])
    (.recordingService "transcript_not_ready" "Transcript is not available yet." 409)
  let job := enqueuedJob service recording.id kind row now
  let db := if kind = .full then db.setProcessingStatus (some recording.id) .queued else db
  let db ← db.insertJob job
  let db ← appendActivity db
    (jobEvent job.id kind 0 job.maxAttempts .manualRetryQueued .queued .queued now recording.id)
  .ok (job, db)

def retry (service : RecordingService) (id : RecordingId) (row : RowDefaults) (now : Instant) :
    Transaction Database Exn ProcessingJob :=
  enqueueProcessing service id [.failed] "recording_not_retryable"
    "Only a failed recording can be retried." .full false row now

def reprocess (service : RecordingService) (id : RecordingId) (row : RowDefaults) (now : Instant) :
    Transaction Database Exn ProcessingJob :=
  enqueueProcessing service id [.completed, .failed] "recording_not_reprocessable"
    "Only a completed or failed recording can be reprocessed." .full false row now

def reprocessAnalysis (service : RecordingService) (id : RecordingId) (row : RowDefaults)
    (now : Instant) : Transaction Database Exn ProcessingJob :=
  enqueueProcessing service id [.completed] "analysis_not_reprocessable"
    "Analysis can be queued after transcription completes." .analysis false row now

def reprocessTranslation (service : RecordingService) (id : RecordingId) (row : RowDefaults)
    (now : Instant) : Transaction Database Exn ProcessingJob :=
  enqueueProcessing service id [.completed] "translation_not_reprocessable"
    "Translation can be queued after transcription completes." .translation true row now

/-- The database side of `delete_recording`; the rows without a delete of their own cascade. The day is
that of the summary it deletes, which is not among these tables. -/
def deleteRecording (id : RecordingId) (db : Database) : Except Exn (Unit × Database) := do
  let recording ← found (db.recording id) recordingNotFound
  require (db.activeJob id = none)
    (.recordingService "recording_delete_active"
      "A queued or processing recording cannot be deleted." 409)
  let _ ← dayOf recording.startedAt
  .ok ((), { db with
    recordings := db.recordings.filter (fun r => r.id ≠ id)
    jobs := db.jobs.filter (fun j => j.recordingId ≠ some id)
    activity := db.activity.filter (fun a => a.recordingId ≠ id)
    documents := Function.update db.documents id .empty })

def rejectActiveJob (db : Database) (id : RecordingId) : Except Exn Unit :=
  require (db.activeJob id = none)
    (.recordingService "job_already_active"
      "Wait for the active processing job to finish before saving edits." 409)

lemma recording_some {db : Database} {id : RecordingId} {recording : Recording}
    (h : db.recording id = some recording) : recording ∈ db.recordings ∧ recording.id = id :=
  ⟨List.mem_of_find?_eq_some h, by simpa using List.find?_some h⟩

lemma recording_of_mem {db : Database} {r : Recording} (hids : (db.recordings.map (·.id)).Nodup)
    (hr : r ∈ db.recordings) : db.recording r.id = some r := find_key hids hr

lemma activeJob_none {db : Database} {id : RecordingId} :
    db.activeJob id = none ↔ ∀ j ∈ db.jobs, j.active → j.recordingId ≠ some id := by
  simp only [Database.activeJob, List.find?_eq_none, decide_eq_true_eq, not_and]
  exact ⟨fun h j hj ha hr => h j hj hr ha, fun h j hj hr ha => h j hj ha hr⟩

lemma insertRecording_ok {db db' : Database} {recording : Recording}
    (h : insertRecording db recording = .ok db') :
    db' = { db with
      recordings := db.recordings ++ [recording]
      documents := Function.update db.documents recording.id .empty } ∧
    (∀ r ∈ db.recordings, r.id ≠ recording.id) ∧
    (∀ r ∈ db.recordings, r.deviceId = recording.deviceId → r.sha256 ≠ recording.sha256) ∧
    ∀ r ∈ db.recordings, r.storageKey ≠ recording.storageKey := by
  simp only [insertRecording] at h
  split at h
  · cases h
  split at h
  · cases h
  split at h
  · cases h
  rename_i hid hcontent hkey
  simp only [List.any_eq_true, decide_eq_true_eq, not_exists, not_and] at hid hcontent hkey
  cases h
  exact ⟨rfl, hid, hcontent, hkey⟩

lemma createRecordingAndJob_ok {service : RecordingService} {recording created : Recording}
    {row : RowDefaults} {now : Instant} {db db' : Database}
    (h : createRecordingAndJob service recording row now db = .ok (created, db')) :
    created = { recording with processingStatus := .queued } ∧
    insertRecording db created = .ok { db with
      recordings := db.recordings ++ [created]
      documents := Function.update db.documents recording.id .empty } ∧
    db'.recordings = db.recordings ++ [created] ∧
    db'.jobs = db.jobs ++ [initialJob service created row now] ∧
    db'.settings = db.settings ∧
    db'.documents = Function.update db.documents recording.id .empty ∧
    1 ≤ service.maxAttempts ∧ ∀ j ∈ db.jobs, j.id ≠ row.id := by
  obtain ⟨db₁, hr, h⟩ := bind_ok h
  obtain ⟨db₂, hj, h⟩ := bind_ok h
  obtain ⟨db₃, ha, h⟩ := bind_ok h
  cases h
  have hmax : 1 ≤ service.maxAttempts := by
    obtain ⟨_, hm, _⟩ := bind_ok ha
    exact require_ok.mp hm
  obtain ⟨hrec, hjobs, hset, hdocs⟩ := appendActivity_frame ha
  obtain ⟨rfl, hid, _⟩ := insertJob_ok hj
  obtain ⟨rfl, _⟩ := insertRecording_ok hr
  exact ⟨rfl, hr, hrec, hjobs, hset, hdocs, hmax, hid⟩

lemma enqueueProcessing_ok {service : RecordingService} {id : RecordingId}
    {allowed : List RecordingStatus} {code message : String} {kind : JobKind} {needsTranscript : Bool}
    {row : RowDefaults} {now : Instant} {db db' : Database} {job : ProcessingJob}
    (h : enqueueProcessing service id allowed code message kind needsTranscript row now db =
      .ok (job, db')) :
    job = enqueuedJob service id kind row now ∧ (∃ r ∈ db.recordings, r.id = id) ∧
    db.activeJob id = none ∧ db'.jobs = db.jobs ++ [job] ∧
    db'.recordings = (if kind = .full then (db.setProcessingStatus (some id) .queued).recordings
      else db.recordings) ∧
    db'.settings = db.settings ∧ db'.documents = db.documents ∧
    1 ≤ service.maxAttempts ∧ ∀ j ∈ db.jobs, j.id ≠ row.id := by
  obtain ⟨recording, hr, h⟩ := bind_ok h
  obtain ⟨hmem, rfl⟩ := recording_some (found_ok.mp hr)
  obtain ⟨_, _, h⟩ := bind_ok h
  obtain ⟨_, hidle, h⟩ := bind_ok h
  obtain ⟨_, _, h⟩ := bind_ok h
  obtain ⟨db₁, hj, h⟩ := bind_ok h
  obtain ⟨db₂, ha, h⟩ := bind_ok h
  cases h
  have hmax : 1 ≤ service.maxAttempts := by
    obtain ⟨_, hm, _⟩ := bind_ok ha
    exact require_ok.mp hm
  obtain ⟨hrec, hjobs, hset, hdocs⟩ := appendActivity_frame ha
  obtain ⟨rfl, hid, _⟩ := insertJob_ok hj
  refine ⟨rfl, ⟨recording, hmem, rfl⟩, require_ok.mp hidle, ?_⟩
  by_cases hk : kind = .full
  · simp only [hk, if_true] at hrec hjobs hset hdocs hid ⊢
    exact ⟨hjobs, hrec, hset, hdocs, hmax, hid⟩
  · simp only [hk, if_false] at hrec hjobs hset hdocs hid ⊢
    exact ⟨hjobs, hrec, hset, hdocs, hmax, hid⟩

lemma deleteRecording_ok {id : RecordingId} {db db' : Database} {u : Unit}
    (h : deleteRecording id db = .ok (u, db')) :
    db.activeJob id = none ∧ db'.recordings = db.recordings.filter (fun r => r.id ≠ id) ∧
    db'.jobs = db.jobs.filter (fun j => j.recordingId ≠ some id) ∧ db'.settings = db.settings ∧
    db'.documents = Function.update db.documents id .empty := by
  obtain ⟨_, _, h⟩ := bind_ok h
  obtain ⟨_, hidle, h⟩ := bind_ok h
  obtain ⟨_, _, h⟩ := bind_ok h
  cases h
  exact ⟨require_ok.mp hidle, rfl, rfl, rfl, rfl⟩

lemma createDailySummaryJob_ok {db db' : Database} {day : Day} {maxAttempts : ℕ}
    {availableAt : Instant} {row : RowDefaults}
    (h : createDailySummaryJob db day maxAttempts availableAt row = .ok db') :
    db' = { db with jobs := db.jobs ++ [newJob row.id none (some day) .dailySummary none maxAttempts
      availableAt row.createdAt] } ∧ 1 ≤ maxAttempts ∧ ∀ j ∈ db.jobs, j.id ≠ row.id := by
  obtain ⟨_, hmax, h⟩ := bind_ok h
  obtain ⟨_, _, h⟩ := bind_ok h
  obtain ⟨rfl, hid, _⟩ := insertJob_ok h
  exact ⟨rfl, require_ok.mp hmax, hid⟩

end AudioServer.Services.Recordings
