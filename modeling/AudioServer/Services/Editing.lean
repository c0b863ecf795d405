import AudioServer.Foundations.Dicts
import AudioServer.Services.Recordings
import Mathlib.Data.List.Sort

/-! The editors of the recording service: transcript, analysis and translations. -/

namespace AudioServer.Services.Editing

open AudioServer.Foundations.Outcomes AudioServer.Foundations.Strings AudioServer.Foundations.Dicts
open AudioServer.Api.Schemas AudioServer.Db.Models AudioServer.Services.Recordings

def orderedSegments (segments : List TranscriptSegment) : List TranscriptSegment :=
  segments.insertionSort (fun a b => a.sequence ≤ b.sequence)

def spanText (segments : List TranscriptSegment) (start end_ : Option ℤ) : Option Text :=
  match start, end_ with
  | some start, some end_ =>
    let text := strip ((segments.filter
      (fun s => start ≤ s.sequence ∧ s.sequence ≤ end_)).flatMap (·.text))
    if text = [] then none else some text
  | _, _ => none

/-- `(start_time, end_time, str(id))`; the canonical text of a UUID orders as its number. -/
def UpdateOrder (a b : TranscriptSegmentUpdate) : Prop :=
  a.startTime < b.startTime ∨ (a.startTime = b.startTime ∧
    (a.endTime < b.endTime ∨ (a.endTime = b.endTime ∧ a.id ≤ b.id)))

instance : DecidableRel UpdateOrder := fun _ _ => inferInstanceAs (Decidable (_ ∨ _))

/-- The sweep of `_overlap_flags`. `maxEndBefore` is `-inf` before the first item. -/
def overlapFlags : Option Seconds → List TranscriptSegmentUpdate → List Bool
  | _, [] => []
  | maxEndBefore, item :: rest =>
    let overlapsEarlier := maxEndBefore.any (fun e => item.startTime < e)
    let overlapsLater := rest.head?.any (fun next => next.startTime < item.endTime)
    (overlapsEarlier || overlapsLater) ::
      overlapFlags (some (maxEndBefore.elim item.endTime (max · item.endTime))) rest

structure Placement where
  item : TranscriptSegmentUpdate
  hasOverlap : Bool
  sequence : ℕ

def placements (ordered : List TranscriptSegmentUpdate) : List Placement :=
  ((ordered.zip (overlapFlags none ordered)).zipIdx).map (fun p => ⟨p.1.1, p.1.2, p.2⟩)

def placeSegment (placed : List Placement) (segment : TranscriptSegment) : TranscriptSegment :=
  match placed.find? (fun p => p.item.id = segment.id) with
  | none => segment
  | some p => { segment with
      sequence := p.sequence
      speakerLabel := p.item.speakerLabel
      startTime := p.item.startTime
      endTime := p.item.endTime
      text := p.item.text
      confidence := none
      hasOverlap := p.hasOverlap }

def staleTranslations (doc : Document) : Document :=
  if doc.translations = [] then doc
  else { doc with
    translations := doc.translations.map (fun t => { t with stale := true })
    translationRevision := doc.translationRevision + 1 }

def staleAnalysis (doc : Document) : Document :=
  match doc.analysis with
  | none => doc
  | some analysis => { doc with
      analysis := some { analysis with status := .stale, errorCode := none, errorMessage := none }
      analysisRevision := doc.analysisRevision + 1 }

def editTranscript (durationSeconds : Seconds) (updates : List TranscriptSegmentUpdate)
    (doc : Document) : Except Exn Document := do
  let updateIds : List SegmentId := updates.map (·.id)
  let existingIds : List SegmentId := doc.segments.map (·.id)
  require (updateIds.Nodup ∧ updateIds ⊆ existingIds ∧ existingIds ⊆ updateIds)
    (.recordingService "transcript_segments_incomplete"
      "The complete current transcript segment list is required." 422)
  let ordered := updates.insertionSort UpdateOrder
  require (∀ item ∈ ordered, item.endTime ≤ durationSeconds)
    (.recordingService "transcript_time_out_of_range"
      "Transcript timestamps must stay within the recording duration." 422)
  let doc := { doc with
    segments := doc.segments.map (placeSegment (placements ordered))
    transcriptRevision := doc.transcriptRevision + 1 }
  .ok (staleAnalysis (staleTranslations doc))

def groundResultQuote (segments : List TranscriptSegment) (q : AnalysisQuote) :
    Except Exn AnalysisQuote :=
  match dictGet (·.sequence) segments q.segmentSequence with
  | some segment =>
    if Occurs q.originalJa segment.text then
      .ok { q with startTime := segment.startTime, speakerLabel := segment.speakerLabel }
    else .error (.recordingService "analysis_quote_not_grounded"
      "Every Japanese quote must occur in its referenced transcript segment." 422)
  | none => .error (.recordingService "analysis_quote_not_grounded"
      "Every Japanese quote must occur in its referenced transcript segment." 422)

def groundAnalysisResult (segments : List TranscriptSegment) (result : AnalysisResultV2) :
    Except Exn AnalysisResultV2 := do
  let naturalExpressions ← result.naturalExpressions.mapM (groundResultQuote segments)
  let highlights ← result.highlights.mapM (groundResultQuote segments)
  let grounded := { result with naturalExpressions := naturalExpressions, highlights := highlights }
  require grounded.Valid (.other "ValidationError")
  .ok grounded

def manualAnalysis (jobId : JobId) (result : AnalysisResultV2) (now : Instant) : Analysis where
  jobId := jobId
  provider := "manual".toList
  model := none
  schemaVersion := "2".toList
  status := .completed
  result := some result
  errorCode := none
  errorMessage := none
  completedAt := some now

/-- `latestJob` is the recording's newest job, which a first analysis written by hand is filed under. -/
def editAnalysis (latestJob : Option JobId) (result : AnalysisResultV2) (now : Instant)
    (doc : Document) : Except Exn Document := do
  let grounded ← groundAnalysisResult doc.segments result
  let jobId ← (match doc.analysis with
    | some analysis => .ok analysis.jobId
    | none => found latestJob
        (.recordingService "analysis_not_ready" "Analysis is not available yet." 409))
  .ok { doc with
    analysis := some (manualAnalysis jobId grounded now)
    analysisRevision := doc.analysisRevision + 1 }

def currentJa (segments : List TranscriptSegment) (row : TranscriptTranslation) : Option Text :=
  let sequenceOf (id : SegmentId) := (dictGet (·.id) segments id).map (·.sequence)
  spanText segments (row.startSegmentId.bind sequenceOf) (row.endSegmentId.bind sequenceOf)

def saveTranslation (segments : List TranscriptSegment) (rows : List TranscriptTranslation)
    (update : TranslationUpdate) : Except Exn (List TranscriptTranslation) := do
  let row ← found (dictGet (·.startSegmentId) rows (some update.startSegmentId))
    (.recordingService "translation_not_found"
      "A submitted translation does not belong to this recording." 422)
  let current ← found (currentJa segments row)
    (.recordingService "translation_span_missing"
      "The transcript no longer contains the sentence this translation covers." 422)
  .ok (replaceRow (·.id)
    { row with textZhHk := update.textZhHk, sourceJa := current, source := .manual, stale := false }
    rows)

def editTranslations (updates : List TranslationUpdate) (doc : Document) : Except Exn Document := do
  let rows ← updates.foldlM (saveTranslation (orderedSegments doc.segments)) doc.translations
  .ok { doc with translations := rows, translationRevision := doc.translationRevision + 1 }

/-- The transaction the three editors share: the recording is locked, the revision compared, and
the edit refused while a job is active. -/
def editDocument (id : RecordingId) (revision : Document → ℕ) (expectedRevision : ℕ)
    (conflict : Exn) (edit : Recording → Document → Except Exn Document) (db : Database) :
    Except Exn (Unit × Database) := do
  let recording ← found (db.recording id) recordingNotFound
  require (revision (db.documents id) = expectedRevision) conflict
  rejectActiveJob db id
  let doc ← edit recording (db.documents id)
  .ok ((), { db with documents := Function.update db.documents id doc })

def updateTranscript (id : RecordingId) (expectedRevision : ℕ)
    (updates : List TranscriptSegmentUpdate) : Transaction Database Exn Unit :=
  editDocument id (·.transcriptRevision) expectedRevision
    (.recordingService "transcript_revision_conflict"
      "The transcript changed in another session. Reload before saving." 409)
    (fun recording => editTranscript recording.durationSeconds updates)

/-- `ORDER BY created_at DESC, id DESC LIMIT 1`. -/
def latestJob (db : Database) (id : RecordingId) : Option JobId :=
  (((db.jobs.filter (fun j => j.recordingId = some id)).insertionSort
    (fun a b => b.createdAt < a.createdAt ∨ (a.createdAt = b.createdAt ∧ b.id ≤ a.id))).head?).map (·.id)

def updateAnalysis (id : RecordingId) (expectedRevision : ℕ) (result : AnalysisResultV2)
    (now : Instant) : Transaction Database Exn Unit := fun db =>
  editDocument id (·.analysisRevision) expectedRevision
    (.recordingService "analysis_revision_conflict"
      "The analysis changed in another session. Reload before saving." 409)
    (fun _ => editAnalysis (latestJob db id) result now) db

def updateTranslations (id : RecordingId) (expectedRevision : ℕ) (updates : List TranslationUpdate) :
    Transaction Database Exn Unit :=
  editDocument id (·.translationRevision) expectedRevision
    (.recordingService "translation_revision_conflict"
      "The translations changed in another session. Reload before saving." 409)
    (fun _ => editTranslations updates)

lemma editDocument_succeeds {id : RecordingId} {revision : Document → ℕ} {conflict : Exn}
    {edit : Recording → Document → Except Exn Document} {db : Database} {recording : Recording}
    {doc : Document} (hrecording : db.recording id = some recording) (hidle : db.activeJob id = none)
    (hedit : edit recording (db.documents id) = .ok doc) :
    editDocument id revision (revision (db.documents id)) conflict edit db =
      .ok ((), { db with documents := Function.update db.documents id doc }) := by
  rw [editDocument, hrecording, found_some, ok_bind, require_of rfl, ok_bind, rejectActiveJob,
    require_of hidle, ok_bind, hedit]
  rfl

lemma editDocument_ok {id : RecordingId} {revision : Document → ℕ} {expectedRevision : ℕ}
    {conflict : Exn} {edit : Recording → Document → Except Exn Document} {db db' : Database} {u : Unit}
    (h : editDocument id revision expectedRevision conflict edit db = .ok (u, db')) :
    ∃ recording doc, db.recording id = some recording ∧
      revision (db.documents id) = expectedRevision ∧ db.activeJob id = none ∧
      edit recording (db.documents id) = .ok doc ∧
      db' = { db with documents := Function.update db.documents id doc } := by
  obtain ⟨recording, hr, h⟩ := bind_ok h
  obtain ⟨_, hrevision, h⟩ := bind_ok h
  obtain ⟨_, hidle, h⟩ := bind_ok h
  obtain ⟨doc, hdoc, h⟩ := bind_ok h
  cases h
  exact ⟨recording, doc, found_ok.mp hr, require_ok.mp hrevision, require_ok.mp hidle, hdoc, rfl⟩

end AudioServer.Services.Editing
