import AudioServer.Services.Recordings

/-! What the routes of a recording answer with, read off the rows. -/

namespace AudioServer.Api.Responses

open AudioServer.Foundations.Outcomes AudioServer.Foundations.Strings
open AudioServer.Api.Schemas AudioServer.Db.Models AudioServer.Services.Recordings

structure JobStatusResponse where
  kind : JobKind
  status : JobStatus
deriving DecidableEq

structure RecordingStatusResponse where
  recordingId : RecordingId
  status : RecordingStatus
  job : Option JobStatusResponse
deriving DecidableEq

structure RecordingSummary where
  id : RecordingId
  processingStatus : RecordingStatus
deriving DecidableEq

structure RecordingNeighboursResponse where
  recordingId : RecordingId
  previousId : Option RecordingId
  nextId : Option RecordingId
deriving DecidableEq

structure TranscriptResponse where
  recordingId : RecordingId
  status : RecordingStatus
  revision : ℕ
  segments : List TranscriptSegment
  translations : List TranscriptTranslation
  translationRevision : ℕ
deriving DecidableEq

structure AnalysisResponse where
  recordingId : RecordingId
  status : AnalysisStatus
  provider : Text
  model : Option Text
  schemaVersion : Text
  revision : ℕ
  result : Option AnalysisResultV2
  error : Option (Text × Text)
deriving DecidableEq

def newestJob (jobs : List ProcessingJob) : Option ProcessingJob :=
  (jobs.insertionSort
    (fun a b => b.createdAt < a.createdAt ∨ (a.createdAt = b.createdAt ∧ b.id ≤ a.id))).head?

def getRecording (id : RecordingId) (db : Database) : Except Exn RecordingSummary := do
  let recording ← found (db.recording id) recordingNotFound
  .ok ⟨recording.id, recording.processingStatus⟩

def getRecordingStatus (id : RecordingId) (db : Database) : Except Exn RecordingStatusResponse := do
  let recording ← found (db.recording id) recordingNotFound
  let job := newestJob (db.jobs.filter (fun j => j.recordingId = some id))
  .ok ⟨recording.id, recording.processingStatus, job.map (fun j => ⟨j.kind, j.status⟩)⟩

def analysisResponse (id : RecordingId) (revision : ℕ) (analysis : Analysis) : AnalysisResponse where
  recordingId := id
  status := analysis.status
  provider := analysis.provider
  model := analysis.model
  schemaVersion := analysis.schemaVersion
  revision := revision
  result := analysis.result
  error :=
    match analysis.errorCode, analysis.errorMessage with
    | some code, some message => if code = [] ∨ message = [] then none else some (code, message)
    | _, _ => none

/-- `get_analysis_state` once the recording is read: its row gave the revision, and the analysis is
selected after it. -/
def getAnalysis (id : RecordingId) (revision : ℕ) (db : Database) : Except Exn AnalysisResponse :=
  match (db.documents id).analysis with
  | some analysis => .ok (analysisResponse id revision analysis)
  | none =>
    let job := newestJob (db.jobs.filter (fun j => j.recordingId = some id ∧ j.kind = .analysis))
    match job.filter (fun j => j.status = .failed) with
    | some job => .error (.recordingService "analysis_failed"
        (String.ofList ((job.errorMessage.filter (· ≠ [])).getD
          "Analysis could not be completed.".toList)) 409)
    | none => .error (.recordingService "analysis_not_ready" "Analysis is not available yet." 409)

lemma getAnalysis_ok {id : RecordingId} {revision : ℕ} {db : Database} {r : AnalysisResponse}
    (h : getAnalysis id revision db = .ok r) :
    ∃ analysis, (db.documents id).analysis = some analysis ∧ r = analysisResponse id revision analysis := by
  rw [getAnalysis] at h
  split at h
  · rename_i analysis hanalysis
    cases h
    exact ⟨analysis, hanalysis, rfl⟩
  · dsimp only at h
    split at h <;> cases h

end AudioServer.Api.Responses
