import AudioServer.Foundations.Scripts
import AudioServer.Worker.DaySummaries
import AudioServer.Worker.RunOnce

/-! What a worker asks of the providers, the storage and the database while it processes one job. -/

namespace AudioServer.Worker.JobProcessor

open AudioServer.Foundations.Outcomes AudioServer.Foundations.Scripts AudioServer.Foundations.Strings
open AudioServer.Db.Models AudioServer.Jobs.Queue AudioServer.Processing.Contracts
open AudioServer.Processing.Merge AudioServer.Services.Daily AudioServer.Worker.DaySummaries
open AudioServer.Worker.RunOnce

inductive ProcessingStage
  | preprocessing | transcribing | diarizing | merging | translating | analyzing | completed
deriving DecidableEq

def ProcessingStage.value : ProcessingStage → Text
  | .preprocessing => "preprocessing".toList
  | .transcribing => "transcribing".toList
  | .diarizing => "diarizing".toList
  | .merging => "merging".toList
  | .translating => "translating".toList
  | .analyzing => "analyzing".toList
  | .completed => "completed".toList

def normalizeStage : ProcessingStage → JobStage
  | .preprocessing => .preprocessing
  | .transcribing => .transcribing
  | .diarizing => .diarizing
  | .merging => .merging
  | .translating => .translating
  | .analyzing => .analyzing
  | .completed => .completed

inductive Ask
  | notify (stage : ProcessingStage)
  | makeWorkDir | probe | normalize | transcribe | diarize
  | storageKey (recordingId : RecordingId)
  | workDirectory (jobId : JobId) (claimToken : ClaimToken)
  | materialize (key : Text)
  | removeWorkDir
  | readTranscript (recordingId : RecordingId)
  | analyze (transcript : List MergedTranscriptSegment)
  | translate (segments : List MergedTranscriptSegment)
  | collectDigests (day : Day)
  | summarize (day : Day) (digests : List DailyRecordingDigest)

def Ask.Answer : Ask → Type
  | .transcribe => TranscriptionResult
  | .diarize => DiarizationResult
  | .storageKey _ => Option Text
  | .readTranscript _ => List MergedTranscriptSegment
  | .analyze _ => AnalysisResult
  | .translate _ => TranslationResult
  | .collectDigests _ => List DailyRecordingDigest × List SourceRevision
  | .summarize .. => DailyResult
  | _ => Unit

abbrev Dialogue (α : Type) := Script Ask.Answer Raised α

abbrev Reply := Exchange Ask.Answer Raised

def permanent (code message : String) : Raised :=
  .processing code.toList "PermanentProcessingError".toList message.toList false none

def errorCode : ProcessingStage → Option Text
  | .preprocessing => some "audio_preprocessing_failed".toList
  | .transcribing => some "transcription_failed".toList
  | .diarizing => some "diarization_failed".toList
  | .merging => some "merge_failed".toList
  | .completed => some "processing_completion_failed".toList
  | .translating | .analyzing => none

def stageFailed (stage : ProcessingStage) : Text :=
  "The ".toList ++ stage.value ++ " stage failed.".toList

/-- The `except` clauses of `_execute_stage`. A stage without a code of its own is a `KeyError`. -/
def atStage (stage : ProcessingStage) (retryableUnknown : Bool) : Raised → Raised
  | .processing code errorType message retryable reported =>
    .processing code errorType message retryable (reported.orElse fun _ => some (normalizeStage stage))
  | .interrupt => .interrupt
  | .claimLost | .exception _ =>
    match errorCode stage with
    | none => .exception "KeyError".toList
    | some code =>
      let errorType := if retryableUnknown then "RetryableProcessingError" else "PermanentProcessingError"
      .processing code errorType.toList (stageFailed stage) retryableUnknown (some (normalizeStage stage))

def executeStage {α : Type} (stage : ProcessingStage) (operation : Dialogue α)
    (retryableUnknown : Bool) : Dialogue α :=
  operation.rescue (fun raised => .fail (atStage stage retryableUnknown raised))

def notify (stage : ProcessingStage) : Dialogue Unit := .call (Ask.notify stage)

structure ProcessingPipeline where
  merger : TimestampTranscriptMerger

def preprocess : Dialogue Unit := do
  let () ← Script.call Ask.makeWorkDir
  let () ← Script.call Ask.probe
  Script.call Ask.normalize

def ProcessingPipeline.run (pipeline : ProcessingPipeline) : Dialogue PipelineResult := do
  notify .preprocessing
  executeStage .preprocessing preprocess true
  notify .transcribing
  let transcription ← executeStage .transcribing (.call Ask.transcribe) true
  notify .diarizing
  let diarization ← executeStage .diarizing (.call Ask.diarize) true
  notify .merging
  let transcript ← executeStage .merging
    (.ofExcept ((pipeline.merger.merge transcription diarization).mapError raisedOf)) false
  notify .completed
  return ⟨transcript⟩

inductive Produced
  | transcript (result : PipelineResult)
  | analysis (result : AnalysisResult)
  | translations (result : TranslationResult)
  | summary (day : Day) (result : DailyResult) (revisions : List SourceRevision)

/-- `osError` tells the types below `OSError`; without a `pipeline` or a `dailyService` the jobs that
need it are refused. -/
structure PipelineJobProcessor where
  pipeline : Option ProcessingPipeline
  dailyService : Bool
  osError : Text → Bool

def recordingScope (claim : ClaimedJob) : Dialogue RecordingId :=
  match claim.recordingId with
  | some id => .done id
  | none => .fail (permanent "recording_scope_missing" "The processing job does not name a recording.")

def fileNotFoundError : Text := "FileNotFoundError".toList

def audioMissing : Raised → Raised
  | .exception errorType =>
    if errorType = fileNotFoundError then
      permanent "original_audio_missing" "The original audio file is unavailable."
    else .exception errorType
  | raised => raised

def failedAnswer (code message : String) (errorCode errorMessage : Option Text) : Raised :=
  permanent (orDefault code errorCode) (orDefault message errorMessage)

def hear (pipeline : ProcessingPipeline) (key : Text) : Dialogue PipelineResult := do
  let () ← Script.call (Ask.materialize key)
  pipeline.run

namespace PipelineJobProcessor

variable (processor : PipelineJobProcessor)

def removed : Raised → Dialogue Unit
  | .exception errorType =>
    if errorType = fileNotFoundError ∨ processor.osError errorType then .done ()
    else .fail (.exception errorType)
  | raised => .fail raised

def cleanUp : Dialogue Unit := (Script.call Ask.removeWorkDir).rescue processor.removed

def hearInWorkDir (claim : ClaimedJob) (pipeline : ProcessingPipeline) (key : Text) :
    Dialogue Produced := do
  let () ← Script.call (Ask.workDirectory claim.id claim.claimToken)
  let result ← ((hear pipeline key).rescue (fun raised => .fail (audioMissing raised))).ensure
    processor.cleanUp
  return .transcript result

def processFull (claim : ClaimedJob) : Dialogue Produced :=
  match processor.pipeline with
  | none => .fail (permanent "transcription_worker_unavailable"
      "This worker does not process transcription jobs.")
  | some pipeline => do
    let recordingId ← recordingScope claim
    let key ← Script.call (Ask.storageKey recordingId)
    match key with
    | none => .fail (permanent "recording_missing" "The recording metadata is unavailable.")
    | some key => processor.hearInWorkDir claim pipeline key

def processTranslation (claim : ClaimedJob) : Dialogue Produced := do
  let recordingId ← recordingScope claim
  let segments ← Script.call (Ask.readTranscript recordingId)
  let result ← Script.call (Ask.translate segments)
  if result.status = .failed then
    .fail (failedAnswer "translation_failed" "Transcript translation failed." result.errorCode
      result.errorMessage)
  else return .translations result

def processAnalysis (claim : ClaimedJob) : Dialogue Produced := do
  let recordingId ← recordingScope claim
  let transcript ← Script.call (Ask.readTranscript recordingId)
  let result ← Script.call (Ask.analyze transcript)
  if result.status = .failed then
    .fail (failedAnswer "analysis_failed" "Transcript analysis failed." result.errorCode
      result.errorMessage)
  else return .analysis result

def processDailySummary (claim : ClaimedJob) : Dialogue Produced :=
  match claim.summaryDate with
  | none => .fail (permanent "daily_summary_scope_missing"
      "The day summary job does not name a day.")
  | some day =>
    if processor.dailyService then do
      let collected ← Script.call (Ask.collectDigests day)
      let result ← Script.call (Ask.summarize day collected.1)
      if result.status = .failed then
        .fail (failedAnswer "daily_summary_failed" "The day summary could not be produced."
          result.errorCode result.errorMessage)
      else return .summary day result collected.2
    else .fail (permanent "daily_summary_worker_unavailable"
      "This worker does not process day summary jobs.")

def call (claim : ClaimedJob) : Dialogue Produced :=
  match claim.kind with
  | .analysis => processAnalysis claim
  | .translation => processTranslation claim
  | .dailySummary => processor.processDailySummary claim
  | .full => processor.processFull claim

end PipelineJobProcessor

end AudioServer.Worker.JobProcessor
