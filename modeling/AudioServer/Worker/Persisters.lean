import AudioServer.Processing.Analysis
import AudioServer.Processing.Merge
import AudioServer.Processing.Translation
import AudioServer.Services.Editing

/-! What the worker reads before a job runs, and what it writes when the job commits. -/

namespace AudioServer.Worker.Persisters

open AudioServer.Foundations.Outcomes AudioServer.Foundations.Strings AudioServer.Foundations.Dicts
open AudioServer.Api.Schemas AudioServer.Db.Models AudioServer.Jobs.Queue
open AudioServer.Processing.Contracts AudioServer.Processing.Sentences AudioServer.Services.Editing

def mergedSegment (row : TranscriptSegment) : Except Exn MergedTranscriptSegment :=
  MergedTranscriptSegment.make row.sequence row.speakerLabel row.startTime row.endTime row.text
    row.language row.confidence row.hasOverlap

def readTranscript (doc : Document) : Except Exn (List MergedTranscriptSegment) :=
  (orderedSegments doc.segments).mapM mergedSegment

def recordingMissing : Exn :=
  .processing "recording_missing" "The recording metadata is unavailable." false

structure PreservedTranslation where
  sourceJa : Text
  startTime : Option Seconds
  textZhHk : Text

def captureManualTranslations (doc : Document) : Except Exn (List PreservedTranslation) := do
  let rows := doc.translations.filter (fun t => t.source = .manual)
  if rows = [] then .ok []
  else do
    let transcript ← readTranscript doc
    let sentences ← groupSentences transcript maxSentenceChars
    let sequenceOf (id : SegmentId) := (dictGet (·.id) doc.segments id).map (·.sequence)
    let startTimeOf (sequence : ℤ) := (dictGet (·.startSequence) sentences sequence).map (·.startTime)
    .ok (rows.map (fun row =>
      ⟨row.sourceJa, (row.startSegmentId.bind sequenceOf).bind startTimeOf, row.textZhHk⟩))

def sameUtteranceSeconds : Seconds := 3 / 4

def countWithin (moments : List Seconds) (startTime : Seconds) : ℕ :=
  moments.countP (fun moment => |moment - startTime| ≤ sameUtteranceSeconds)

def uniqueMatch (sentences : List TranscriptSentence) (startTime : Seconds) :
    Option TranscriptSentence :=
  match sentences.filter (fun s => |s.startTime - startTime| ≤ sameUtteranceSeconds) with
  | [sentence] => some sentence
  | _ => none

def writtenAt (preserved : List PreservedTranslation) (sourceJa : Text) : List Seconds :=
  (preserved.filter (fun p => p.sourceJa = sourceJa)).filterMap (·.startTime)

/-- The sentence a rendering is restored onto, when each of the two points at the other alone. -/
def matchOf (sentences : List TranscriptSentence) (preserved : List PreservedTranslation)
    (p : PreservedTranslation) : Option TranscriptSentence :=
  (p.startTime.bind (uniqueMatch (sentences.filter (fun s => s.text = p.sourceJa)))).filter
    (fun s => countWithin (writtenAt preserved p.sourceJa) s.startTime = 1)

def carriedRow (segments : List TranscriptSegment) (sentences : List TranscriptSentence)
    (preserved : List PreservedTranslation) (p : PreservedTranslation) (id : ℕ) (now : Instant) :
    TranscriptTranslation :=
  let bySequence (sequence : ℤ) := (dictGet (·.sequence) segments sequence).map (·.id)
  let matched := matchOf sentences preserved p
  let startId := matched.bind (fun s => bySequence s.startSequence)
  let endId := matched.bind (fun s => bySequence s.endSequence)
  let attached := startId.isSome && endId.isSome
  { id := id
    startSegmentId := if attached then startId else none
    endSegmentId := if attached then endId else none
    sourceJa := p.sourceJa
    textZhHk := p.textZhHk
    source := .manual
    stale := !attached
    createdAt := now }

/-- The flush of new translation rows, against the primary key and `uq_translation_recording_start`. -/
def flushTranslations (rows : List TranscriptTranslation) : Except Exn (List TranscriptTranslation) := do
  require (rows.map (·.id)).Nodup (.integrityError .translationsPkey)
  require (rows.filterMap (·.startSegmentId)).Nodup (.integrityError .translationRecordingStart)
  .ok rows

/-- `_carry_manual_translations`, onto a transcript whose rows are already written. -/
def carryManualTranslations (segments : List TranscriptSegment)
    (transcript : List MergedTranscriptSegment) (preserved : List PreservedTranslation)
    (rowIds : ℕ → ℕ) (now : Instant) : Except Exn (List TranscriptTranslation) :=
  if preserved.isEmpty then .ok []
  else do
    let sentences ← groupSentences transcript maxSentenceChars
    flushTranslations
      (preserved.zipIdx.map (fun p => carriedRow segments sentences preserved p.1 (rowIds p.2) now))

def newSegment (id : SegmentId) (m : MergedTranscriptSegment) : TranscriptSegment where
  id := id
  sequence := m.sequence
  speakerLabel := m.speakerLabel
  startTime := m.start
  endTime := m.end_
  text := m.text
  language := m.language
  confidence := m.confidence
  hasOverlap := m.hasOverlap

def newSegments (segmentIds : ℕ → SegmentId) (transcript : List MergedTranscriptSegment) :
    List TranscriptSegment :=
  transcript.zipIdx.map (fun p => newSegment (segmentIds p.2) p.1)

def staleCompleted (doc : Document) : Document :=
  match doc.analysis with
  | some analysis =>
    if analysis.status = .completed then
      { doc with
        analysis := some { analysis with status := .stale }
        analysisRevision := doc.analysisRevision + 1 }
    else doc
  | none => doc

structure FreshIds where
  segmentIds : ℕ → SegmentId
  rowIds : ℕ → ℕ

def persistTranscript (result : PipelineResult) (ids : FreshIds) (now : Instant) (doc : Document) :
    Except Exn Document := do
  let preserved ← captureManualTranslations doc
  let segments := newSegments ids.segmentIds result.transcript
  require (segments.map (·.id)).Nodup (.integrityError .segmentsPkey)
  require (segments.map (·.sequence)).Nodup (.integrityError .transcriptRecordingSequence)
  let doc := staleCompleted { doc with
    segments := segments
    translations := []
    transcriptRevision := doc.transcriptRevision + 1 }
  let rows ← carryManualTranslations segments result.transcript preserved ids.rowIds now
  .ok { doc with translations := rows, translationRevision := doc.translationRevision + 1 }

/-- One round of `_write_translations`. `stored` are the rows the loop started from. -/
def writeTranslation (segments : List TranscriptSegment) (stored : List TranscriptTranslation)
    (now : Instant) (rows : List TranscriptTranslation) (t : SentenceTranslation) (id : ℕ) :
    List TranscriptTranslation :=
  let bySequence (sequence : ℤ) := (dictGet (·.sequence) segments sequence).map (·.id)
  match bySequence t.startSequence, bySequence t.endSequence with
  | some startId, some endId =>
    match dictGet (·.startSegmentId) stored (some startId) with
    | none => rows ++ [{ id := id
                         startSegmentId := some startId
                         endSegmentId := some endId
                         sourceJa := t.sourceJa
                         textZhHk := t.textZhHk
                         source := .llm
                         stale := false
                         createdAt := now }]
    | some current =>
      if current.source = .manual then rows
      else replaceRow (·.id) { current with
        endSegmentId := some endId
        sourceJa := t.sourceJa
        textZhHk := t.textZhHk
        source := .llm
        stale := false } rows
  -- The transcript moved under this result.
  | _, _ => rows

def writeTranslations (result : TranslationResult) (rowIds : ℕ → ℕ) (now : Instant)
    (doc : Document) : Except Exn (List TranscriptTranslation) :=
  if result.status ≠ .completed then .ok doc.translations
  else flushTranslations (result.translations.zipIdx.foldl
    (fun rows t => writeTranslation doc.segments doc.translations now rows t.1 (rowIds t.2))
    doc.translations)

def persistTranslations (result : TranslationResult) (ids : FreshIds) (now : Instant)
    (doc : Document) : Except Exn Document := do
  let rows ← writeTranslations result ids.rowIds now doc
  .ok { doc with translations := rows, translationRevision := doc.translationRevision + 1 }

def storedStatus : PipelineAnalysisStatus → AnalysisStatus
  | .completed => .completed
  | .skipped => .skipped
  | .failed => .failed

def storedAnalysis (claim : ClaimedJob) (result : AnalysisResult) (now : Instant) : Analysis where
  jobId := claim.id
  provider := result.provider
  model := result.model
  schemaVersion := (toString result.schemaVersion).toList
  status := storedStatus result.status
  result := result.data
  errorCode := result.errorCode
  errorMessage := result.errorMessage
  completedAt := some now

/-- A run that produced no reading must not erase the one the recording already has. -/
def persistAnalysis (claim : ClaimedJob) (result : AnalysisResult) (now : Instant)
    (doc : Document) : Except Exn Document :=
  if result.status ≠ .completed ∧ (doc.analysis.bind (·.result)).isSome then .ok doc
  else .ok { doc with
    analysis := some (storedAnalysis claim result now)
    analysisRevision := doc.analysisRevision + 1 }

def recordingPersister (claim : ClaimedJob) (persist : Document → Except Exn Document) :
    ResultPersister := fun db => do
  let id ← found claim.recordingId
    (.processing "recording_scope_missing" "The processing job does not name a recording." false)
  let _ ← found (db.recording id) recordingMissing
  let doc ← persist (db.documents id)
  .ok (Function.update db.documents id doc)

end AudioServer.Worker.Persisters
