import AudioServer.Jobs.Fence
import AudioServer.Services.Transactions
import Mathlib.Data.List.Count

/-! The batch that queues the analysis of several recordings, each in a transaction
of its own. Between the checks of a transaction and its insert, and between two
transactions, anything else may be committed. -/

namespace AudioServer.Services.Batches

open AudioServer.Foundations.Outcomes AudioServer.Foundations.Runs AudioServer.Foundations.Strings
open AudioServer.Db.Models AudioServer.Activity.Repository AudioServer.Jobs.Queue
open AudioServer.Jobs.Effects AudioServer.Services.Recordings AudioServer.Services.Transactions

section Diagnostics

inductive Dialect
  | postgresql | sqlite
deriving DecidableEq

/-- What `IntegrityError.orig` shows: `diag.constraint_name`, and the text of the driver's error. -/
structure DriverError where
  constraintName : Option Text
  message : Text

def constraintName : Constraint → Text
  | .recordingsPkey => "recordings_pkey".toList
  | .recordingsDeviceSha256 => "uq_recordings_device_sha256".toList
  | .recordingsStorageKey => "uq_recordings_storage_key".toList
  | .jobsPkey => "processing_jobs_pkey".toList
  | .jobsOneActiveRecording => "uq_processing_jobs_one_active_recording".toList
  | .jobsOneActiveDay => "uq_processing_jobs_one_active_day".toList
  | .jobsScope => "processing_job_scope".toList
  | .segmentsPkey => "transcript_segments_pkey".toList
  | .transcriptRecordingSequence => "uq_transcript_recording_sequence".toList
  | .translationsPkey => "transcript_translations_pkey".toList
  | .translationRecordingStart => "uq_translation_recording_start".toList

def sqliteMessage : Constraint → Text
  | .recordingsPkey => "UNIQUE constraint failed: recordings.id".toList
  | .recordingsDeviceSha256 =>
    "UNIQUE constraint failed: recordings.device_id, recordings.sha256".toList
  | .recordingsStorageKey => "UNIQUE constraint failed: recordings.storage_key".toList
  | .jobsPkey => "UNIQUE constraint failed: processing_jobs.id".toList
  | .jobsOneActiveRecording => "UNIQUE constraint failed: processing_jobs.recording_id".toList
  | .jobsOneActiveDay => "UNIQUE constraint failed: processing_jobs.summary_date".toList
  | .jobsScope => "CHECK constraint failed: processing_job_scope".toList
  | .segmentsPkey => "UNIQUE constraint failed: transcript_segments.id".toList
  | .transcriptRecordingSequence =>
    "UNIQUE constraint failed: transcript_segments.recording_id, transcript_segments.sequence".toList
  | .translationsPkey => "UNIQUE constraint failed: transcript_translations.id".toList
  | .translationRecordingStart => ("UNIQUE constraint failed: transcript_translations.recording_id, ".toList
      ++ "transcript_translations.start_segment_id".toList)

def driverError : Dialect → Constraint → DriverError
  | .postgresql, c => ⟨some (constraintName c), "violates constraint ".toList ++ constraintName c⟩
  | .sqlite, c => ⟨none, sqliteMessage c⟩

def lostActiveJobRace (original : DriverError) : Bool :=
  match original.constraintName.filter (· ≠ []) with
  | some name => name = "uq_processing_jobs_one_active_recording".toList
  | none => Occurs "UNIQUE constraint failed: processing_jobs.recording_id".toList original.message

lemma lostActiveJobRace_iff (dialect : Dialect) (c : Constraint) :
    lostActiveJobRace (driverError dialect c) ↔ c = .jobsOneActiveRecording := by
  cases dialect <;> cases c <;> decide +kernel

end Diagnostics

def checkQueueable (id : RecordingId) (allowedStatuses : List RecordingStatus)
    (disallowedCode disallowedMessage : String) (requireTranscript : Bool) (db : Database) :
    Except Exn Recording := do
  let recording ← found (db.recording id) recordingNotFound
  require (recording.processingStatus ∈ allowedStatuses)
    (.recordingService disallowedCode disallowedMessage 409)
  require (db.activeJob id = none)
    (.recordingService "job_already_active"
      "A processing job is already active for this recording." 409)
  require (requireTranscript → (db.documents id).segments ≠ [])
    (.recordingService "transcript_not_ready" "Transcript is not available yet." 409)
  .ok recording

def insertQueued (service : RecordingService) (recording : Recording) (kind : JobKind)
    (row : RowDefaults) (now : Instant) (db : Database) : Except Exn (ProcessingJob × Database) := do
  let job := enqueuedJob service recording.id kind row now
  let db := if kind = .full then db.setProcessingStatus (some recording.id) .queued else db
  let db ← db.insertJob job
  let db ← appendActivity db
    (jobEvent job.id kind 0 job.maxAttempts .manualRetryQueued .queued .queued now recording.id)
  .ok (job, db)

lemma enqueueProcessing_split (service : RecordingService) (id : RecordingId)
    (allowed : List RecordingStatus) (code message : String) (kind : JobKind) (needsTranscript : Bool)
    (row : RowDefaults) (now : Instant) (db : Database) :
    enqueueProcessing service id allowed code message kind needsTranscript row now db = (do
      let recording ← checkQueueable id allowed code message needsTranscript db
      insertQueued service recording kind row now db) := by
  simp only [checkQueueable, bind_assoc]
  rfl

def checkAnalysis (id : RecordingId) (db : Database) : Except Exn Recording :=
  checkQueueable id [.completed] "analysis_not_reprocessable"
    "Analysis can be queued after transcription completes." false db

/-- A call of `reprocess_analyses`. `held` is the recording at the head of `waiting` once the checks
on it have passed, with the call's clock. -/
structure Batch where
  waiting : List RecordingId
  held : Option (Recording × Instant)
  jobs : List ProcessingJob
  skipped : ℕ
  raised : Option Exn

def Batch.start (ids : List RecordingId) : Batch := ⟨ids, none, [], 0, none⟩

def isRefusal (dialect : Dialect) : Exn → Bool
  | .recordingService _ _ _ => true
  | .integrityError c => lostActiveJobRace (driverError dialect c)
  | _ => false

def Batch.refused (dialect : Dialect) (exn : Exn) (b : Batch) : Batch :=
  if isRefusal dialect exn then
    { b with waiting := b.waiting.tail, held := none, skipped := b.skipped + 1 }
  else { b with held := none, raised := some exn }

structure World where
  db : Database
  batch : Batch

/-- `checks` and `inserts` are the two halves of the batch's next transaction. -/
inductive Act
  | other (call : ServerCall)
  | checks (now : Instant)
  | inserts (row : RowDefaults)

def checksStep (dialect : Dialect) (now : Instant) (w : World) : World :=
  match w.batch.raised, w.batch.held, w.batch.waiting with
  | none, none, id :: _ =>
    match checkAnalysis id w.db with
    | .ok recording => { w with batch := { w.batch with held := some (recording, now) } }
    | .error exn => { w with batch := w.batch.refused dialect exn }
  | _, _, _ => w

def insertsStep (dialect : Dialect) (service : RecordingService) (row : RowDefaults) (w : World) :
    World :=
  match w.batch.held with
  | some (recording, now) =>
    match insertQueued service recording .analysis row now w.db with
    | .ok (job, db) => ⟨db, { w.batch with
        waiting := w.batch.waiting.tail
        held := none
        jobs := w.batch.jobs ++ [job] }⟩
    | .error exn => { w with batch := w.batch.refused dialect exn }
  | none => w

def perform (dialect : Dialect) (service : RecordingService) (w : World) : Act → World
  | .other call => { w with db := settled w.db (call.exec w.db) }
  | .checks now => checksStep dialect now w
  | .inserts row => insertsStep dialect service row w

def BatchStep (dialect : Dialect) (service : RecordingService) (w : World) (a : Act) (w' : World) :
    Prop := w' = perform dialect service w a

def Batch.Returned (b : Batch) : Prop := b.waiting = [] ∧ b.raised = none

instance (b : Batch) : Decidable b.Returned := inferInstanceAs (Decidable (_ ∧ _))

def committedBy (e : Event World Act) : List ProcessingJob :=
  match e.label with
  | .inserts _ => e.after.db.jobs.drop e.before.db.jobs.length
  | _ => []

section Spec

variable {dialect : Dialect} {service : RecordingService} {w w' : World} {a : Act}

lemma insertQueued_ok {recording : Recording} {row : RowDefaults} {now : Instant} {db db' : Database}
    {job : ProcessingJob} (h : insertQueued service recording .analysis row now db = .ok (job, db')) :
    job = enqueuedJob service recording.id .analysis row now ∧ db'.jobs = db.jobs ++ [job] ∧
      db'.recordings = db.recordings ∧ db'.documents = db.documents ∧
      ∀ j ∈ db.jobs, j.active → j.recordingId ≠ job.recordingId := by
  obtain ⟨db₁, hinsert, h⟩ := bind_ok h
  obtain ⟨db₂, happend, h⟩ := bind_ok h
  cases h
  obtain ⟨hrecordings, hjobs, _, hdocuments⟩ := appendActivity_frame happend
  obtain ⟨rfl, _, _, hactive⟩ := insertJob_ok hinsert
  exact ⟨rfl, hjobs, hrecordings, hdocuments, hactive rfl rfl⟩

lemma insertQueued_error (hservice : 1 ≤ service.maxAttempts) {recording : Recording}
    {row : RowDefaults} {now : Instant} {db : Database} {exn : Exn}
    (h : insertQueued service recording .analysis row now db = .error exn) :
    db.insertJob (enqueuedJob service recording.id .analysis row now) = .error exn := by
  rcases bind_error h with h | ⟨db₁, _, h⟩
  · exact h
  rcases bind_error h with h | ⟨_, _, h⟩
  · obtain ⟨_, happend⟩ := appendActivity_total (show 1 ≤ (jobEvent row.id .analysis 0
      service.maxAttempts .manualRetryQueued .queued .queued now recording.id).maxAttempts
      from hservice) rfl
    cases happend.symm.trans h
  · cases h

lemma insertJob_idle {db : Database} {job : ProcessingJob} {id : RecordingId}
    (hrecording : job.recordingId = some id) (hday : job.summaryDate = none)
    (hfresh : ∀ j ∈ db.jobs, j.id ≠ job.id) (hidle : db.activeJob id = none) :
    db.insertJob job = .ok { db with jobs := db.jobs ++ [job] } := by
  have hid : ¬ db.jobs.any (fun j => j.id = job.id) := by simpa using hfresh
  have hactive : ¬ db.jobs.any (fun j => j.active ∧ j.recordingId = job.recordingId) := by
    simpa [hrecording] using activeJob_none.mp hidle
  rw [Database.insertJob, if_neg hid, if_neg (by simp [hrecording, hday]),
    if_neg (fun h => hactive h.2.2), if_neg (fun h => by simp [hday] at h)]

lemma insertQueued_succeeds (hservice : 1 ≤ service.maxAttempts) {recording : Recording}
    {row : RowDefaults} {db : Database} (now : Instant) (hfresh : ∀ j ∈ db.jobs, j.id ≠ row.id)
    (hidle : db.activeJob recording.id = none) :
    ∃ db', insertQueued service recording .analysis row now db =
      .ok (enqueuedJob service recording.id .analysis row now, db') := by
  have hinsert : db.insertJob (enqueuedJob service recording.id .analysis row now) = _ :=
    insertJob_idle rfl rfl hfresh hidle
  cases h : insertQueued service recording .analysis row now db with
  | ok saved =>
    obtain ⟨job, db'⟩ := saved
    obtain ⟨rfl, _⟩ := insertQueued_ok h
    exact ⟨db', rfl⟩
  | error exn => cases hinsert.symm.trans (insertQueued_error hservice h)

lemma insertJob_error {db : Database} {job : ProcessingJob} {exn : Exn}
    (h : db.insertJob job = .error exn) : ∃ c, exn = .integrityError c := by
  simp only [Database.insertJob] at h
  split at h
  · cases h; exact ⟨_, rfl⟩
  split at h
  · cases h; exact ⟨_, rfl⟩
  split at h
  · cases h; exact ⟨_, rfl⟩
  split at h
  · cases h; exact ⟨_, rfl⟩
  · cases h

lemma checkAnalysis_ok {id : RecordingId} {db : Database} {recording : Recording}
    (h : checkAnalysis id db = .ok recording) : db.recording id = some recording ∧
      recording.processingStatus = .completed ∧ db.activeJob id = none := by
  obtain ⟨r, hr, h⟩ := bind_ok h
  obtain ⟨_, hstatus, h⟩ := bind_ok h
  obtain ⟨_, hidle, h⟩ := bind_ok h
  obtain ⟨_, _, h⟩ := bind_ok h
  cases h
  exact ⟨found_ok.mp hr, by simpa using require_ok.mp hstatus, require_ok.mp hidle⟩

lemma checkAnalysis_error {id : RecordingId} {db : Database} {exn : Exn}
    (h : checkAnalysis id db = .error exn) : isRefusal dialect exn := by
  rcases bind_error h with h | ⟨_, _, h⟩
  · cases hr : db.recording id with
    | none =>
      rw [hr] at h
      cases h
      rfl
    | some r =>
      rw [hr] at h
      cases h
  rcases bind_error h with h | ⟨_, _, h⟩
  · rw [require_error h]
    rfl
  rcases bind_error h with h | ⟨_, _, h⟩
  · rw [require_error h]
    rfl
  rcases bind_error h with h | ⟨_, _, h⟩
  · rw [require_error h]
    rfl
  · cases h

lemma step_cases (h : BatchStep dialect service w a w') :
    (w'.batch = w.batch ∧ ∀ row, a = .inserts row → w'.db = w.db) ∨
    (∃ recording now, w.batch.waiting.head? = some recording.id ∧ w.batch.raised = none ∧
      w' = ⟨w.db, { w.batch with held := some (recording, now) }⟩) ∨
    (∃ exn, (w.batch.waiting ≠ [] ∨ w.batch.held.isSome) ∧ w' = ⟨w.db, w.batch.refused dialect exn⟩ ∧
      (isRefusal dialect exn ∨ ∃ row recording now, a = .inserts row ∧
        w.batch.held = some (recording, now) ∧
        insertQueued service recording .analysis row now w.db = .error exn)) ∨
    ∃ row recording now job db, a = .inserts row ∧ w.batch.held = some (recording, now) ∧
      insertQueued service recording .analysis row now w.db = .ok (job, db) ∧
      w' = ⟨db, { w.batch with
        waiting := w.batch.waiting.tail
        held := none
        jobs := w.batch.jobs ++ [job] }⟩ := by
  subst h
  cases a with
  | other call => exact .inl ⟨rfl, fun row hrow => by cases hrow⟩
  | checks now =>
    rw [perform, checksStep]
    split
    · rename_i id rest hraised hheld hwaiting
      cases hc : checkAnalysis id w.db with
      | ok recording =>
        have hid : recording.id = id := (recording_some (checkAnalysis_ok hc).1).2
        exact .inr (.inl ⟨recording, now, by rw [hwaiting, hid]; rfl, hraised, rfl⟩)
      | error exn =>
        exact .inr (.inr (.inl ⟨exn, .inl (by simp [hwaiting]), rfl, .inl (checkAnalysis_error hc)⟩))
    · exact .inl ⟨rfl, fun row hrow => by cases hrow⟩
  | inserts row =>
    rw [perform, insertsStep]
    split
    · rename_i recording now hheld
      cases hi : insertQueued service recording .analysis row now w.db with
      | ok saved =>
        exact .inr (.inr (.inr ⟨row, recording, now, saved.1, saved.2, rfl, hheld, hi, rfl⟩))
      | error exn =>
        exact .inr (.inr (.inl ⟨exn, .inr (by rw [hheld]; rfl), rfl,
          .inr ⟨row, recording, now, rfl, hheld, hi⟩⟩))
    · exact .inl ⟨rfl, fun _ _ => rfl⟩

structure Progress (ids : List RecordingId) (b : Batch) : Prop where
  place : ∃ done, ids = done ++ b.waiting ∧ b.jobs.length + b.skipped = done.length ∧
    (b.jobs.map (·.recordingId)).Sublist (done.map some)
  held : ∀ recording now, b.held = some (recording, now) → b.waiting.head? = some recording.id
  kinds : ∀ j ∈ b.jobs, j.kind = .analysis

lemma start_progress (ids : List RecordingId) : Progress ids (.start ids) where
  place := ⟨[], rfl, rfl, .slnil⟩
  held _ _ h := by cases h
  kinds _ h := absurd h List.not_mem_nil

lemma Progress.refused {ids : List RecordingId} {b : Batch} (h : Progress ids b) (exn : Exn)
    (hwaiting : b.waiting ≠ []) : Progress ids (b.refused dialect exn) := by
  obtain ⟨done, hids, hcount, hjobs⟩ := h.place
  rw [Batch.refused]
  split
  · obtain ⟨id, rest, hcons⟩ := List.exists_cons_of_ne_nil hwaiting
    refine ⟨⟨done ++ [id], ?_, ?_, ?_⟩, fun _ _ hheld => (by cases hheld), h.kinds⟩
    · rw [hids, hcons, List.append_assoc]
      rfl
    · rw [List.length_append, List.length_singleton, ← hcount]
      rfl
    · rw [List.map_append]
      exact hjobs.trans (List.sublist_append_left _ _)
  · exact ⟨⟨done, hids, hcount, hjobs⟩, fun _ _ hheld => (by cases hheld), h.kinds⟩

lemma step_progress {ids : List RecordingId} (h : Progress ids w.batch)
    (hstep : BatchStep dialect service w a w') : Progress ids w'.batch := by
  rcases step_cases hstep with ⟨hbatch, _⟩ | ⟨recording, now, hhead, _, rfl⟩ |
      ⟨exn, hwaiting, rfl, _⟩ | ⟨row, recording, now, job, db, _, hheld, hinsert, rfl⟩
  · rw [hbatch]
    exact h
  · refine ⟨h.place, ?_, h.kinds⟩
    intro r t ht
    cases ht
    exact hhead
  · refine h.refused exn ?_
    rcases hwaiting with hwaiting | hheld
    · exact hwaiting
    · obtain ⟨⟨recording, now⟩, hheld⟩ := Option.isSome_iff_exists.mp hheld
      intro hnil
      have hhead := h.held recording now hheld
      rw [hnil] at hhead
      cases hhead
  · obtain ⟨done, hids, hcount, hjobs⟩ := h.place
    obtain ⟨rest, hcons⟩ := List.head?_eq_some_iff.mp (h.held recording now hheld)
    obtain ⟨rfl, _⟩ := insertQueued_ok hinsert
    refine ⟨⟨done ++ [recording.id], ?_, ?_, ?_⟩, fun _ _ ht => (by cases ht), ?_⟩
    · rw [hids, hcons, List.append_assoc]
      rfl
    · rw [List.length_append, List.length_append, List.length_singleton, List.length_singleton, ← hcount]
      exact Nat.add_right_comm _ _ _
    · rw [List.map_append, List.map_append]
      exact hjobs.append (List.Sublist.refl [some recording.id])
    · intro j hj
      rcases List.mem_append.mp hj with hj | hj
      · exact h.kinds j hj
      · rw [List.mem_singleton.mp hj]
        rfl

lemma step_committed (h : BatchStep dialect service w a w') :
    w'.batch.jobs = w.batch.jobs ++ committedBy ⟨w, a, w'⟩ := by
  have hnone : w'.batch.jobs = w.batch.jobs → (∀ row, a = .inserts row → w'.db = w.db) →
      w'.batch.jobs = w.batch.jobs ++ committedBy ⟨w, a, w'⟩ := by
    intro hjobs hdb
    rw [hjobs, committedBy]
    split
    · rename_i row hrow
      rw [hdb row hrow, List.drop_length, List.append_nil]
    · rw [List.append_nil]
  rcases step_cases h with ⟨hbatch, hdb⟩ | ⟨recording, now, _, _, rfl⟩ | ⟨exn, _, rfl, _⟩ |
      ⟨row, recording, now, job, db, rfl, _, hinsert, rfl⟩
  · exact hnone (by rw [hbatch]) hdb
  · exact hnone rfl (fun _ _ => rfl)
  · refine hnone ?_ (fun _ _ => rfl)
    dsimp only
    rw [Batch.refused]
    split <;> rfl
  · obtain ⟨_, hjobs, _⟩ := insertQueued_ok hinsert
    rw [committedBy, hjobs, List.drop_left]

lemma run_committed {es : List (Event World Act)} (h : Run (BatchStep dialect service) w es w') :
    w'.batch.jobs = w.batch.jobs ++ es.flatMap committedBy := by
  induction h with
  | nil w => simp
  | cons hstep _ ih => rw [ih, step_committed hstep, List.flatMap_cons, List.append_assoc]

lemma committed_idle (h : BatchStep dialect service w a w') {job : ProcessingJob}
    (hjob : job ∈ committedBy ⟨w, a, w'⟩) :
    ∀ j ∈ w.db.jobs, j.active → j.recordingId ≠ job.recordingId := by
  rcases step_cases h with ⟨_, hdb⟩ | ⟨recording, now, _, _, rfl⟩ | ⟨exn, _, rfl, _⟩ |
      ⟨row, recording, now, new, db, rfl, _, hinsert, rfl⟩
  · rw [committedBy] at hjob
    split at hjob
    · rename_i row hrow
      rw [hdb row hrow, List.drop_length] at hjob
      cases hjob
    · cases hjob
  · rw [committedBy] at hjob
    split at hjob
    · rw [List.drop_length] at hjob
      cases hjob
    · cases hjob
  · rw [committedBy] at hjob
    split at hjob
    · rw [List.drop_length] at hjob
      cases hjob
    · cases hjob
  · obtain ⟨_, hjobs, _, _, hidle⟩ := insertQueued_ok hinsert
    rw [committedBy, hjobs, List.drop_left, List.mem_singleton] at hjob
    rw [hjob]
    exact hidle

def FailedInsert (service : RecordingService) (e : Event World Act) (exn : Exn) : Prop :=
  ∃ row recording now c, e.label = .inserts row ∧ e.before.batch.held = some (recording, now) ∧
    exn = .integrityError c ∧ c ≠ .jobsOneActiveRecording ∧
    e.before.db.insertJob (enqueuedJob service recording.id .analysis row now) = .error exn

lemma step_raised (hservice : 1 ≤ service.maxAttempts) (h : BatchStep dialect service w a w')
    {exn : Exn} (hraised : w'.batch.raised = some exn) :
    w.batch.raised = some exn ∨ FailedInsert service ⟨w, a, w'⟩ exn := by
  rcases step_cases h with ⟨hbatch, _⟩ | ⟨recording, now, _, hnone, rfl⟩ |
      ⟨exn', _, rfl, horigin⟩ | ⟨row, recording, now, job, db, _, _, _, rfl⟩
  · exact .inl (hbatch ▸ hraised)
  · exact .inl hraised
  · simp only [Batch.refused] at hraised
    split at hraised
    · exact .inl hraised
    · rename_i hnot
      cases hraised
      obtain ⟨row, recording, now, rfl, hheld, hinsert⟩ := horigin.resolve_left hnot
      have hjob := insertQueued_error hservice hinsert
      obtain ⟨c, rfl⟩ := insertJob_error hjob
      exact .inr ⟨row, recording, now, c, rfl, hheld, rfl,
        fun hc => hnot ((lostActiveJobRace_iff dialect c).mpr hc), hjob⟩
  · exact .inl hraised

lemma run_raised (hservice : 1 ≤ service.maxAttempts) {es : List (Event World Act)}
    (h : Run (BatchStep dialect service) w es w') {exn : Exn} (hraised : w'.batch.raised = some exn) :
    w.batch.raised = some exn ∨ ∃ e ∈ es, FailedInsert service e exn := by
  induction h with
  | nil w => exact .inl hraised
  | cons hstep _ ih =>
    rcases ih hraised with hmid | ⟨e, he, hfailed⟩
    · rcases step_raised hservice hstep hmid with hbefore | hfailed
      · exact .inl hbefore
      · exact .inr ⟨_, List.mem_cons_self, hfailed⟩
    · exact .inr ⟨e, List.mem_cons_of_mem _ he, hfailed⟩

end Spec

theorem batch_accounts_for_recordings {dialect : Dialect} {service : RecordingService}
    (hservice : 1 ≤ service.maxAttempts) {db : Database} {ids : List RecordingId}
    {es : List (Event World Act)} {w : World}
    (hrun : Run (BatchStep dialect service) ⟨db, .start ids⟩ es w) :
    (w.batch.Returned → w.batch.jobs.length + w.batch.skipped = ids.length) ∧
      (w.batch.jobs = es.flatMap committedBy ∧ ∀ job ∈ w.batch.jobs, job.kind = .analysis) ∧
      (∀ id, (w.batch.jobs.map (·.recordingId)).count (some id) ≤ ids.count id) ∧
      (∀ e ∈ es, ∀ job ∈ committedBy e, ∀ j ∈ e.before.db.jobs, j.active →
        j.recordingId ≠ job.recordingId) ∧
      ∀ exn, w.batch.raised = some exn → ∃ e ∈ es, FailedInsert service e exn := by
  have hprogress := hrun.keeps (fun w => Progress ids w.batch)
    (fun _ _ _ h hstep => step_progress h hstep) (start_progress ids)
  obtain ⟨done, hids, hcount, hjobs⟩ := hprogress.place
  refine ⟨?_, ⟨run_committed hrun, hprogress.kinds⟩, ?_, ?_, ?_⟩
  · rintro ⟨hwaiting, _⟩
    rw [hcount, hids, hwaiting, List.append_nil]
  · intro id
    calc (w.batch.jobs.map (·.recordingId)).count (some id)
        ≤ (done.map some).count (some id) := hjobs.count_le _
      _ = done.count id := List.count_map_of_injective _ _ (Option.some_injective _) _
      _ ≤ ids.count id := by
        rw [hids, List.count_append]
        exact Nat.le_add_right _ _
  · intro e he job hjob
    exact committed_idle (hrun.event_step he) hjob
  · intro exn hraised
    exact (run_raised hservice hrun hraised).resolve_left (by rintro ⟨⟩)

lemma acts_run (dialect : Dialect) (service : RecordingService) (w : World) (acts : List Act) :
    Run (BatchStep dialect service) w (trail (perform dialect service) w acts)
      (acts.foldl (perform dialect service) w) := by
  induction acts generalizing w with
  | nil => exact .nil w
  | cons a acts ih => exact .cons rfl (ih _)

def pairService : RecordingService := ⟨2000, 90, 2⟩

def transcribedAt (id : RecordingId) : Database where
  recordings := [⟨id, "pendant".toList, "5f".toList, 12, ⟨2, id, "m4a".toList⟩, 7, 30, .completed⟩]
  jobs := []
  activity := []
  settings := none
  documents := fun _ => .empty

def firstClaim : ClaimedJob where
  id := 51
  recordingId := some 5
  kind := .analysis
  claimToken := 9
  workerId := Jobs.Fence.exampleQueue.workerId
  attemptCount := 1
  maxAttempts := 2
  stage := .analyzing
  summaryDate := none

def repeatedActs : List Act :=
  [.checks 1, .inserts ⟨51, 1⟩, .other (.queue (.claimNext Jobs.Fence.exampleQueue 2 9 none [])),
    .other (.queue (.complete Jobs.Fence.exampleQueue firstClaim none 3 ⟨52, 3⟩)),
    .checks 4, .inserts ⟨53, 4⟩]

def repeatedWorld : World :=
  repeatedActs.foldl (perform .postgresql pairService) ⟨transcribedAt 5, .start [5, 5]⟩

theorem repeated_recording_queued_twice :
    repeatedWorld.batch.Returned ∧
      repeatedWorld.batch.jobs.map (·.recordingId) = [some 5, some 5] ∧
      ¬ ∀ (dialect : Dialect) (service : RecordingService) (db : Database) (ids : List RecordingId)
        (es : List (Event World Act)) (w : World), 1 ≤ service.maxAttempts →
        Run (BatchStep dialect service) ⟨db, .start ids⟩ es w → w.batch.Returned →
        ∀ id, (w.batch.jobs.map (·.recordingId)).count (some id) ≤ 1 := by
  have hreturned : repeatedWorld.batch.Returned := by decide +kernel
  have hjobs : repeatedWorld.batch.jobs.map (·.recordingId) = [some 5, some 5] := by decide +kernel
  refine ⟨hreturned, hjobs, ?_⟩
  intro h
  have hcount := h .postgresql pairService (transcribedAt 5) [5, 5] _ repeatedWorld (by decide)
    (acts_run _ _ _ repeatedActs) hreturned 5
  rw [hjobs] at hcount
  exact absurd hcount (by decide)

theorem batch_accounts_for_recordings_repeated :
    repeatedWorld.batch.jobs.length + repeatedWorld.batch.skipped = 2 ∧
      (repeatedWorld.batch.jobs.map (·.recordingId)).count (some 5) ≤ 2 := by
  obtain ⟨hcount, _, hids, _⟩ := batch_accounts_for_recordings (by decide)
    (acts_run .postgresql pairService ⟨transcribedAt 5, .start [5, 5]⟩ repeatedActs)
  exact ⟨hcount (by decide +kernel), hids 5⟩

end AudioServer.Services.Batches
