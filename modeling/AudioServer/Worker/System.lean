import AudioServer.Services.Leases
import AudioServer.Worker.CommittedResults

/-! The whole server: the database, the claims its workers were given, and the
transcripts they read for them and still work from. -/

namespace AudioServer.Worker.System

open AudioServer.Foundations.Outcomes AudioServer.Foundations.Strings AudioServer.Foundations.Runs
open AudioServer.Api.Schemas AudioServer.Db.Models AudioServer.Jobs.Queue AudioServer.Jobs.Effects
open AudioServer.Jobs.Calls AudioServer.Services.Recordings AudioServer.Services.Transactions
open AudioServer.Services.Consistency AudioServer.Services.Leases AudioServer.Services.Editing
open AudioServer.Processing.Contracts AudioServer.Processing.Sentences AudioServer.Processing.Analysis
open AudioServer.Processing.Translation AudioServer.Processing.Merge
open AudioServer.Worker.Persisters AudioServer.Worker.DocumentInvariant
open AudioServer.Worker.CommittedResults

structure Loaded where
  claim : ClaimedJob
  transcript : List MergedTranscriptSegment
deriving DecidableEq

structure World where
  db : Database
  claims : List ClaimedJob
  loaded : List Loaded

def World.init (settings : Option ProcessingSettings) : World := ⟨.empty settings, [], []⟩

def docAt (id : RecordingId) (w : World) : Document := w.db.documents id

inductive Work
  | transcript (result : PipelineResult) (ids : FreshIds) (now : Instant)
  | analysis (result : AnalysisResult) (now : Instant)
  | translations (result : TranslationResult) (ids : FreshIds) (now : Instant)

def Work.persist (claim : ClaimedJob) : Work → Document → Except Exn Document
  | .transcript result ids now => persistTranscript result ids now
  | .analysis result now => persistAnalysis claim result now
  | .translations result ids now => persistTranslations result ids now

/-- The dispatch of the processor: an analysis and a translation are computed from a transcript
that was loaded for the same claim, whatever the model answers. -/
def Work.Computed (w : World) (claim : ClaimedJob) : Work → Prop
  | .transcript result _ _ => claim.kind = .full ∧
      ∃ merger transcription diarization, pipelineRun merger transcription diarization = .ok result
  | .analysis result _ => claim.kind = .analysis ∧ ∃ l ∈ w.loaded, l.claim = claim ∧
      ∃ provider answer, AnalysisProvider.analyze provider answer l.transcript = .ok result
  | .translations result _ _ => claim.kind = .translation ∧ ∃ l ∈ w.loaded, l.claim = claim ∧
      ∃ provider identifier render,
        TranslationProvider.translate provider identifier render l.transcript = .ok result

inductive Act
  | server (call : ServerCall)
  | load (claim : ClaimedJob)
  | commit (queue : JobQueue) (claim : ClaimedJob) (work : Work) (now : Instant) (row : RowDefaults)
  | updateTranscript (id : RecordingId) (expectedRevision : ℕ)
      (updates : List TranscriptSegmentUpdate)
  | updateAnalysis (id : RecordingId) (expectedRevision : ℕ) (result : AnalysisResultV2)
      (now : Instant)
  | updateTranslations (id : RecordingId) (expectedRevision : ℕ) (updates : List TranslationUpdate)

def Act.transaction : Act → Database → Except Exn (Unit × Database)
  | .server call => call.exec
  | .load _ => fun db => .ok ((), db)
  | .commit queue claim work now row =>
    queue.complete claim (some (recordingPersister claim (work.persist claim))) now row
  | .updateTranscript id expectedRevision updates =>
    Services.Editing.updateTranscript id expectedRevision updates
  | .updateAnalysis id expectedRevision result now =>
    Services.Editing.updateAnalysis id expectedRevision result now
  | .updateTranslations id expectedRevision updates =>
    Services.Editing.updateTranslations id expectedRevision updates

def Act.handedOut (act : Act) (db : Database) : List ClaimedJob :=
  match act with
  | .server (.queue call) =>
    match call.exec db with
    | .ok (.claimed (some claim), _) => [claim]
    | _ => []
  | _ => []

def Act.read (act : Act) (db : Database) : List Loaded :=
  match act with
  | .load claim =>
    match claim.recordingId.map (fun id => readTranscript (db.documents id)) with
    | some (.ok transcript) => [⟨claim, transcript⟩]
    | _ => []
  | _ => []

def perform (w : World) (act : Act) : World where
  db := settled w.db (act.transaction w.db)
  claims := act.handedOut w.db ++ w.claims
  loaded := act.read w.db ++ w.loaded

/-- A worker acts on the claims it was given, and `uuid4()` never repeats a token. The summary of
a day is stored apart from the recordings. -/
def QueueCallAllowed (w : World) : QueueCall → Prop
  | .claimNext _ _ token _ _ => ∀ c ∈ w.claims, c.claimToken ≠ token
  | .heartbeat _ claim _ => claim ∈ w.claims
  | .advanceStage _ claim _ _ => claim ∈ w.claims
  | .complete _ claim persister _ _ =>
    claim ∈ w.claims ∧ claim.kind = .dailySummary ∧ persister = none
  | .fail _ claim _ _ _ => claim ∈ w.claims
  | .recoverExpired .. => True

def Act.Allowed (w : World) : Act → Prop
  | .server (.queue call) => QueueCallAllowed w call
  | .load claim => claim ∈ w.claims
  | .commit _ claim work _ _ => claim ∈ w.claims ∧ work.Computed w claim
  | _ => True

def WorldStep (w : World) (act : Act) (w' : World) : Prop := act.Allowed w ∧ w' = perform w act

abbrev WorldRun (w : World) (es : List (Event World Act)) (w' : World) : Prop := Run WorldStep w es w'

def Accepted (w : World) (act : Act) : Prop := ∃ db, act.transaction w.db = .ok ((), db)

lemma perform_db (w : World) (act : Act) :
    (act.transaction w.db = .ok ((), (perform w act).db)) ∨
      ((perform w act).db = w.db ∧ ¬ Accepted w act) := by
  rcases settled_cases w.db (act.transaction w.db) with ⟨_, t, hok, hs⟩ | ⟨e, he, hs⟩
  · exact .inl (hok.trans (congrArg (fun t => Except.ok ((), t)) hs.symm))
  · refine .inr ⟨hs, ?_⟩
    rintro ⟨t, ht⟩
    rw [he] at ht
    cases ht

lemma accepted_db {w : World} {act : Act} (h : Accepted w act) :
    act.transaction w.db = .ok ((), (perform w act).db) :=
  (perform_db w act).resolve_right (fun hrefused => hrefused.2 h)

def Absent (db : Database) (id : RecordingId) : Prop := ∀ r ∈ db.recordings, r.id ≠ id

instance (db : Database) (id : RecordingId) : Decidable (Absent db id) :=
  inferInstanceAs (Decidable (∀ r ∈ db.recordings, r.id ≠ id))

lemma absent_iff {db : Database} {id : RecordingId} :
    Absent db id ↔ id ∉ db.recordings.map (·.id) := by
  simp [Absent]

lemma absent_of_ids {db db' : Database} {id : RecordingId}
    (h : db'.recordings.map (·.id) = db.recordings.map (·.id)) : Absent db' id ↔ Absent db id := by
  rw [absent_iff, absent_iff, h]

lemma recording_absent {db : Database} {id : RecordingId} {recording : Recording}
    (h : db.recording id = some recording) : ¬ Absent db id := by
  obtain ⟨hmem, hid⟩ := recording_some h
  exact fun habsent => habsent recording hmem hid

inductive Housekept (db : Database) (id : RecordingId) (call : ServerCall) (db' : Database) : Prop
  | kept (hdocs : db'.documents id = db.documents id) (habsent : Absent db' id → Absent db id)
  | cleared (hdocs : db'.documents id = .empty) (hidle : db.activeJob id = none)
      (hlife : Absent db id ∨ (call = .deleteRecording id ∧ Absent db' id))

lemma moved_ids {token : Option ClaimToken} {db db' : Database} (h : Moved token db db') :
    db'.recordings.map (·.id) = db.recordings.map (·.id) := by
  obtain ⟨job, job', row, now, hm, _⟩ := h
  rw [hm.recordings, movedRecordings_ids]

lemma queueStep_ids {db db' : Database} {call : QueueCall} (hids : UniqueJobIds db)
    (h : QueueStep db call db') : db'.recordings.map (·.id) = db.recordings.map (·.id) := by
  apply h.keeps (fun t => t.recordings.map (·.id) = db.recordings.map (·.id)) ?_ hids rfl
  exact fun s t hs hm => (moved_ids hm).trans hs

def WithoutResults : ServerCall → Prop
  | .queue (.complete _ _ persister _ _) => persister = none
  | _ => True

lemma exec_kept {call : QueueCall} {db db' : Database} {answer : Answer} (hids : UniqueJobIds db)
    (hnone : WithoutResults (.queue call)) (h : call.exec db = .ok (answer, db')) :
    db'.documents = db.documents := by
  let row : RowDefaults := ⟨0, 0⟩
  cases call with
  | claimNext queue now token kinds locked =>
    obtain ⟨_, h, _⟩ := map_ok h
    rcases claimNext_ok h row with ⟨_, rfl⟩ | ⟨_, _, _, _, hd⟩
    · rfl
    · exact hd
  | heartbeat queue claim now =>
    obtain ⟨_, h, _⟩ := map_ok h
    obtain ⟨_, _, _, _, _, hd⟩ := heartbeat_ok h row
    exact hd
  | advanceStage queue claim stage now =>
    obtain ⟨_, h, _⟩ := map_ok h
    obtain ⟨_, _, _, _, _, hd⟩ := advanceStage_ok h row
    exact hd
  | complete queue claim persister now row =>
    obtain ⟨_, h, _⟩ := map_ok h
    obtain ⟨_, _, _, stored, hstored, hd⟩ := complete_ok h
    cases persister with
    | some persist => cases hnone
    | none =>
      cases hstored
      exact hd
  | fail queue claim failure now row =>
    obtain ⟨_, h, _⟩ := map_ok h
    obtain ⟨_, _, _, _, _, _, hd⟩ := fail_ok h
    exact hd
  | recoverExpired queue now limit locked rows =>
    obtain ⟨_, h, _⟩ := map_ok h
    exact recovers_documents (recoverExpired_ok hids h)

lemma enqueued_housekept (call : ServerCall) {service : RecordingService} {id other : RecordingId}
    {allowed : List RecordingStatus} {code message : String} {kind : JobKind} {needsTranscript : Bool}
    {row : RowDefaults} {now : Instant} {db db' : Database} {job : ProcessingJob}
    (h : enqueueProcessing service id allowed code message kind needsTranscript row now db =
      .ok (job, db')) : Housekept db other call db' := by
  obtain ⟨_, _, _, _, hrecs, _, hdocs, _⟩ := enqueueProcessing_ok h
  refine .kept (congrFun hdocs other) ?_
  have hids : db'.recordings.map (·.id) = db.recordings.map (·.id) := by
    rw [hrecs]
    split
    · exact setProcessingStatus_ids db _ _
    · rfl
  exact (absent_of_ids hids).mp

lemma serverStep_housekept {db db' : Database} {call : ServerCall} (hok : StatusInvariant db)
    (hnone : WithoutResults call) (h : ServerStep db call db') (id : RecordingId) :
    Housekept db id call db' := by
  rcases serverStep_cases h with hexec | rfl
  · cases call with
    | queue call =>
      obtain ⟨answer, hc⟩ := forget_ok hexec
      refine .kept (congrFun (exec_kept hok.jobIds hnone hc) id) ?_
      exact (absent_of_ids (queueStep_ids hok.jobIds (queueStep_of_server h))).mp
    | create service recording row now =>
      obtain ⟨_, hc⟩ := forget_ok hexec
      obtain ⟨rfl, hinsert, hrecs, _, _, hdocs, _⟩ := createRecordingAndJob_ok hc
      obtain ⟨_, hnew, _⟩ := insertRecording_ok hinsert
      by_cases he : recording.id = id
      · subst he
        refine .cleared (by rw [hdocs, Function.update_self]) ?_ (.inl hnew)
        apply activeJob_none.mpr
        intro j hj _ hr
        exact absent_iff.mp hnew (hok.references j hj _ hr)
      · refine .kept (by rw [hdocs, Function.update_of_ne (Ne.symm he)]) ?_
        intro habsent r hr
        exact habsent r (hrecs ▸ List.mem_append_left _ hr)
    | retry service id row now =>
      obtain ⟨_, hc⟩ := forget_ok hexec
      exact enqueued_housekept _ hc
    | reprocess service id row now =>
      obtain ⟨_, hc⟩ := forget_ok hexec
      exact enqueued_housekept _ hc
    | reprocessAnalysis service id row now =>
      obtain ⟨_, hc⟩ := forget_ok hexec
      exact enqueued_housekept _ hc
    | reprocessTranslation service id row now =>
      obtain ⟨_, hc⟩ := forget_ok hexec
      exact enqueued_housekept _ hc
    | deleteRecording gone =>
      obtain ⟨hidle, hrecs, _, _, hdocs⟩ := deleteRecording_ok hexec
      by_cases he : id = gone
      · subst he
        refine .cleared (by rw [hdocs, Function.update_self]) hidle (.inr ⟨rfl, ?_⟩)
        simp [Absent, hrecs]
      · refine .kept (by rw [hdocs, Function.update_of_ne he]) ?_
        intro habsent r hr hid
        refine habsent r ?_ hid
        simp [hrecs, hr, hid, he]
    | dailySummary day maxAttempts availableAt row =>
      obtain ⟨rfl, _⟩ := createDailySummaryJob_ok (dailySummary_exec hexec)
      exact .kept rfl (fun h => h)
    | switches settings =>
      cases hexec
      exact .kept rfl (fun h => h)
  · exact .kept rfl (fun h => h)

end AudioServer.Worker.System
