import AudioServer.Services.RowRules
import AudioServer.Worker.TimelineOnce

/-! The timeline of a job read as a log: replaying its rows leads to the state its row is in. -/

namespace AudioServer.Worker.TimelineReplay

open AudioServer.Foundations.Outcomes AudioServer.Foundations.Runs AudioServer.Foundations.Journals
open AudioServer.Foundations.Strings AudioServer.Db.Models AudioServer.Activity.Repository
open AudioServer.Activity.Timeline AudioServer.Jobs.Queue AudioServer.Jobs.Effects
open AudioServer.Jobs.Calls AudioServer.Jobs.Transitions AudioServer.Services.Transactions
open AudioServer.Services.Consistency AudioServer.Services.Openings AudioServer.Services.RowRules
open AudioServer.Services.RecordedAttempts AudioServer.Worker.System AudioServer.Worker.Invariant
open AudioServer.Worker.ClaimedAttempts AudioServer.Worker.TimelineOnce

structure JobState where
  status : JobStatus
  attemptCount : ℕ
  errorCode : Option Text
  errorType : Option Text
  errorMessage : Option Text
  nextAttemptAt : Option Instant
deriving DecidableEq

def JobState.released (s : JobState) (status : JobStatus) (row : ProcessingActivity) : JobState :=
  ⟨status, s.attemptCount, row.errorCode, row.errorType, row.safeMessage, row.nextAttemptAt⟩

/-- One row of a log. A row that does not fit the state it is read in makes the log unreadable. -/
def replayRow (s : Option JobState) (row : ProcessingActivity) : Option JobState :=
  match row.eventType, s with
  | .jobQueued, none => some ⟨.queued, 0, none, none, none, none⟩
  | .manualRetryQueued, none => some ⟨.queued, 0, none, none, none, none⟩
  | .processingStarted, some s =>
    if s.status = .queued then some ⟨.processing, s.attemptCount + 1, none, none, none, none⟩ else none
  | .stageStarted, some s =>
    if s.status = .processing ∧ row.attemptCount = s.attemptCount then some s else none
  | .retryScheduled, some s => if s.status = .processing then some (s.released .queued row) else none
  | .leaseRecovered, some s =>
    if s.status = .processing then
      some (s.released (if row.retryScheduled then .queued else .failed) row)
    else none
  | .processingCompleted, some s =>
    if s.status = .processing then some { s with status := .completed } else none
  | .processingFailed, some s => if s.status = .processing then some (s.released .failed row) else none
  | _, _ => none

def replay (rows : List ProcessingActivity) : Option JobState := rows.foldl replayRow none

/-- The state a row is in, its errors as the timeline stores them. -/
def stateOf (job : ProcessingJob) : JobState where
  status := job.status
  attemptCount := job.attemptCount
  errorCode := job.errorCode.map (boundedIdentifier · "processing_error".toList)
  errorType := job.errorType.map (boundedIdentifier · "processing_error".toList)
  errorMessage := job.errorMessage.map boundedMessage
  nextAttemptAt := if job.status = .queued ∧ 0 < job.attemptCount then some job.availableAt else none

def Unfailed (job : ProcessingJob) : Prop :=
  job.errorCode = none ∧ job.errorType = none ∧ job.errorMessage = none

structure ErrorsEarned (job : ProcessingJob) : Prop where
  untried : job.attemptCount = 0 → Unfailed job
  tried : job.status ≠ .queued → 0 < job.attemptCount

lemma errorsEarned_rule : RowRule ErrorsEarned where
  fresh _ _ _ _ _ _ _ _ := ⟨fun _ => ⟨rfl, rfl, rfl⟩, fun hs => absurd rfl hs⟩
  step job job' h hstep := by
    have htried : job.status = .processing → 0 < job.attemptCount := by
      intro hs
      apply h.tried
      rw [hs]
      nofun
    cases hstep with
    | claimed queue token now hs => exact ⟨fun _ => ⟨rfl, rfl, rfl⟩, fun _ => Nat.succ_pos _⟩
    | renewed stage now lease hs => exact ⟨h.untried, fun _ => htried hs⟩
    | completed now hs => exact ⟨h.untried, fun _ => htried hs⟩
    | retried availableAt now stage code errorType message hs hlt =>
      exact ⟨fun hzero => absurd hzero (htried hs).ne', fun _ => htried hs⟩
    | failed now stage code errorType message hs =>
      exact ⟨fun hzero => absurd hzero (htried hs).ne', fun _ => htried hs⟩

def attemptedState (job : ProcessingJob) : JobState :=
  if job.attemptCount = 0 then ⟨job.status, 0, none, none, none, none⟩ else stateOf job

lemma attemptedState_of {job : ProcessingJob} (h : ErrorsEarned job) :
    attemptedState job = stateOf job := by
  rw [attemptedState]
  split
  · rename_i hzero
    obtain ⟨hcode, htype, hmessage⟩ := h.untried hzero
    simp [stateOf, hzero, hcode, htype, hmessage]
  · rfl

def Replays (rows : List ProcessingActivity) (job : ProcessingJob) : Prop :=
  replay (rowsOf rows job.id) = some (attemptedState job)

lemma attemptedState_status (job : ProcessingJob) : (attemptedState job).status = job.status := by
  rw [attemptedState]
  split <;> rfl

lemma attemptedState_attempts (job : ProcessingJob) :
    (attemptedState job).attemptCount = job.attemptCount := by
  rw [attemptedState]
  split
  · rename_i hzero
    exact hzero.symm
  · rfl

section Moving

variable {rows : List ProcessingActivity} {job job' : ProcessingJob} {row : ProcessingActivity}

lemma replay_appended (h : Replays rows job) (hid : job'.id = job.id) (hrow : row.jobId = job.id)
    (hfresh : mark row ∉ marksOf rows job.id)
    (hnext : replayRow (some (attemptedState job)) row = some (attemptedState job')) :
    Replays (record rows row) job' := by
  rw [Replays, hid, marks_record hrow hfresh, replay, List.foldl_append, List.foldl_cons,
    List.foldl_nil, ← replay, h, hnext]

lemma replay_started (hrecorded : Recorded rows job) (h : Replays rows job) (hid : job'.id = job.id)
    (hrow : row.jobId = job.id) (hs : job.status = .queued) (htype : row.eventType = .processingStarted)
    (hattempt : row.attemptCount = job.attemptCount + 1)
    (hstate : attemptedState job' = ⟨.processing, job.attemptCount + 1, none, none, none, none⟩) :
    Replays (record rows row) job' := by
  have hmark : mark row = .started (job.attemptCount + 1) := by rw [mark, htype, ← hattempt]
  apply replay_appended h hid hrow
  · rw [hmark, hrecorded.started]
    omega
  · simp only [replayRow, htype, hstate, attemptedState_status, attemptedState_attempts, hs, if_true]

lemma replay_staged (h : Replays rows job) (hid : job'.id = job.id)
    (hrow : row.jobId = job.id) (hs : job.status = .processing)
    (htype : row.eventType = .stageStarted) (hattempt : row.attemptCount = job.attemptCount)
    (hstate : attemptedState job' = attemptedState job) :
    Replays (record rows row) job' := by
  by_cases hknown : mark row ∈ marksOf rows job.id
  · have hmark : mark row = .staged row.attemptCount row.stage := by rw [mark, htype]
    rw [record_staged hmark (by rwa [hrow]), Replays, hid, hstate]
    exact h
  · apply replay_appended h hid hrow hknown
    simp only [replayRow, htype, hstate, attemptedState_status, attemptedState_attempts, hs, hattempt,
      and_self, if_true]

lemma replay_closed (hrecorded : Recorded rows job) (h : Replays rows job) (hid : job'.id = job.id)
    (hrow : row.jobId = job.id) (hs : job.status = .processing)
    (hmark : mark row = .closed job.attemptCount)
    (hnext : replayRow (some (attemptedState job)) row = some (attemptedState job')) :
    Replays (record rows row) job' := by
  apply replay_appended h hid hrow ?_ hnext
  rw [hmark, hrecorded.closed]
  exact fun hover => hover.2.2 rfl hs

end Moving

lemma attempted_running {rows : List ProcessingActivity} {job : ProcessingJob}
    (hrecorded : Recorded rows job) (hs : job.status = .processing) : job.attemptCount ≠ 0 :=
  Nat.ne_of_gt (hrecorded.running hs)

lemma replay_turned {rows : List ProcessingActivity} {job job' : ProcessingJob} {call : QueueCall}
    {now : Instant} {event : Option (RecordingId → ProcessingActivity)}
    (hrecorded : Recorded rows job) (h : Replays rows job) (hid : job'.id = job.id)
    (hturn : Transition job call now job' event) (id : RecordingId) :
    Replays (recordAll rows (lines (some id) event)) job' := by
  cases hturn with
  | started queue _ token kinds locked hclaimable =>
    exact replay_started hrecorded h hid rfl hclaimable.1 rfl rfl rfl
  | renewed queue claim _ howns => exact h
  | advanced queue claim stage _ howns hanswers =>
    exact replay_staged h hid howns.1.symm howns.2.1 rfl hanswers.attempt rfl
  | completed queue claim persister _ row howns =>
    have hne := attempted_running hrecorded howns.2.1
    apply replay_closed hrecorded h hid rfl howns.2.1 rfl
    simp [replayRow, attemptedState, hne, stateOf, completeRow, howns.2.1, jobEvent, bounded]
  | retried queue claim failure _ row delay stage code errorType message howns hdelay =>
    have hne := attempted_running hrecorded howns.2.1
    apply replay_closed hrecorded h hid rfl howns.2.1 rfl
    simp [replayRow, attemptedState, hne, stateOf, retryRow, releaseRow, howns.2.1,
      failureEvent, jobEvent, bounded, JobState.released, Nat.pos_of_ne_zero hne]
  | failed queue claim failure _ row stage code errorType message howns =>
    have hne := attempted_running hrecorded howns.2.1
    apply replay_closed hrecorded h hid rfl howns.2.1 rfl
    simp [replayRow, attemptedState, hne, stateOf, failedRow, releaseRow, howns.2.1,
      failureEvent, jobEvent, bounded, JobState.released]
  | requeued queue _ limit locked rows delay stage code errorType message hexpired hdelay =>
    have hne := attempted_running hrecorded hexpired.1
    apply replay_closed hrecorded h hid rfl hexpired.1 rfl
    simp [replayRow, attemptedState, hne, stateOf, retryRow, releaseRow, hexpired.1,
      failureEvent, jobEvent, bounded, JobState.released, Nat.pos_of_ne_zero hne]
  | abandoned queue _ limit locked rows stage code errorType message hexpired =>
    have hne := attempted_running hrecorded hexpired.1
    apply replay_closed hrecorded h hid rfl hexpired.1 rfl
    simp [replayRow, attemptedState, hne, stateOf, failedRow, releaseRow, hexpired.1,
      failureEvent, jobEvent, bounded, JobState.released]

def AllReplay (jobs : List ProcessingJob) (rows : List ProcessingActivity) : Prop :=
  ∀ j ∈ jobs, j.recordingId.isSome → Replays rows j

lemma Replays.frame {rows rows' : List ProcessingActivity} {job : ProcessingJob}
    (h : Replays rows job) (hsame : rowsOf rows' job.id = rowsOf rows job.id) : Replays rows' job := by
  rw [Replays, hsame]
  exact h

lemma turned_replay {db : Database} {job job' : ProcessingJob} {call : QueueCall} {now : Instant}
    {event : Option (RecordingId → ProcessingActivity)}
    (h : TimelineInvariant db.jobs db.activity) (hp : AllReplay db.jobs db.activity)
    (hjob : job ∈ db.jobs) (hsame : SameJob job job') (hturn : Transition job call now job' event) :
    AllReplay (db.putJob job').jobs (recordAll db.activity (lines job.recordingId event)) := by
  intro j hj hsome
  rcases mem_putJob_cases hj with rfl | ⟨hold, hne⟩
  · obtain ⟨id, hid⟩ := Option.isSome_iff_exists.mp hsome
    have hrec : job.recordingId = some id := hsame.2.1.symm.trans hid
    have hscope : job.recordingId.isSome := by simp [hrec]
    rw [hrec]
    exact replay_turned (h.recorded job hjob hscope) (hp job hjob hscope) hsame.1 hturn id
  · apply (hp j hold hsome).frame
    apply entriesOf_notes
    intro a ha
    rw [(transition_lines hturn _ a ha).1, ← hsame.1]
    exact hne.symm

lemma opened_replay {jobs : List ProcessingJob} {rows : List ProcessingActivity} {job : ProcessingJob}
    {eventType : ProcessingActivityType} (h : TimelineInvariant jobs rows) (hp : AllReplay jobs rows)
    (hnew : Unclaimed job) (htype : Queues eventType) (hfresh : ∀ j ∈ jobs, j.id ≠ job.id) :
    AllReplay (jobs ++ [job]) (recordAll rows (queuedLines eventType job)) := by
  intro j hj hsome
  rcases List.mem_append.mp hj with hold | hlast
  · apply (hp j hold hsome).frame
    apply entriesOf_notes
    intro a ha
    rw [(queuedLines_owned a ha).1]
    exact (hfresh j hold).symm
  · obtain rfl := List.mem_singleton.mp hlast
    obtain ⟨id, hid⟩ := Option.isSome_iff_exists.mp hsome
    have hnone : rowsOf rows j.id = [] := h.unknown hfresh
    have hstate : attemptedState j = ⟨.queued, 0, none, none, none, none⟩ := by
      rw [attemptedState, if_pos hnew.attempts, hnew.status]
    rw [queuedLines, hid, lines_some, recordAll, List.foldl_cons, List.foldl_nil, Replays,
      marks_record rfl (by simp [marksOf, hnone]), hnone, List.nil_append, hstate]
    rcases htype with rfl | rfl <;> rfl

lemma erased_replay {jobs : List ProcessingJob} {rows : List ProcessingActivity}
    (h : TimelineInvariant jobs rows) (hp : AllReplay jobs rows) (id : RecordingId) :
    AllReplay (jobs.filter (fun j => j.recordingId ≠ some id))
      (rows.filter (fun a => a.recordingId ≠ id)) := by
  intro j hj hsome
  obtain ⟨hj, hkept⟩ := List.mem_filter.mp hj
  apply (hp j hj hsome).frame
  apply entriesOf_filter
  intro a ha hid
  have hrec := h.recordingId ha hj hid
  simpa [hrec] using hkept

lemma noted_replay {call : QueueCall} {db db' : Database} (h : TimelineInvariant db.jobs db.activity)
    (hp : AllReplay db.jobs db.activity) (hnoted : Noted call db db') :
    AllReplay db'.jobs db'.activity := by
  apply noted_induct AllReplay ?_ ?_ h hnoted
  · intro job job' event row now hmoves hturn
    exact turned_replay h hp hmoves.stored hmoves.step.same hturn
  · intro jobs rows job hok hrows hnew hfresh
    exact opened_replay hok hrows hnew (.inl rfl) hfresh

lemma notedRun_replay {call : QueueCall} {db db' : Database}
    (h : TimelineInvariant db.jobs db.activity) (hp : AllReplay db.jobs db.activity)
    (hrun : NotedRun call db db') : AllReplay db'.jobs db'.activity := by
  induction hrun with
  | refl => exact hp
  | tail hrest hnoted ih => exact noted_replay (notedRun_keeps h hrest) ih hnoted

lemma booked_replay {gone : Option RecordingId} {db db' : Database}
    (h : TimelineInvariant db.jobs db.activity) (hp : AllReplay db.jobs db.activity)
    (hbooked : Booked gone db db') : AllReplay db'.jobs db'.activity := by
  cases hbooked with
  | same hjobs hrows =>
    rw [hjobs, hrows]
    exact hp
  | opened job eventType hnew htype hfresh hjobs hrows =>
    rw [hjobs, hrows]
    exact opened_replay h hp hnew htype hfresh
  | erased id _ hjobs hrows =>
    rw [hjobs, hrows]
    exact erased_replay h hp id

lemma perform_earned {w : World} (hok : StatusInvariant w.db) (h : AllRows ErrorsEarned w.db)
    (act : Act) : AllRows ErrorsEarned (perform w act).db := by
  rcases perform_tables w act with ⟨_, _, hstep⟩ | ⟨_, _, hstep⟩ | ⟨_, hdb⟩
  · exact errorsEarned_rule.serverStep hok.jobIds h hstep
  · exact errorsEarned_rule.queueStep hok.jobIds h hstep
  · rw [hdb]
    exact h

structure LogInvariant (w : World) : Prop where
  history : HistoryInvariant w
  replayed : AllReplay w.db.jobs w.db.activity
  earned : AllRows ErrorsEarned w.db

lemma step_log {w w' : World} {act : Act} (h : LogInvariant w) (hstep : WorldStep w act w') :
    LogInvariant w' := by
  refine ⟨step_history h.history hstep, ?_, ?_⟩
  · obtain ⟨hallowed, rfl⟩ := hstep
    obtain ⟨hworld, hnumbered, htimeline⟩ := h.history
    cases hcall : queueCall act with
    | some call =>
      exact notedRun_replay htimeline h.replayed (perform_noted hworld hnumbered hallowed hcall)
    | none => exact booked_replay htimeline h.replayed (perform_booked hcall)
  · obtain ⟨_, rfl⟩ := hstep
    exact perform_earned h.history.world.statuses h.earned act

lemma init_log (settings : Option ProcessingSettings) : LogInvariant (World.init settings) :=
  ⟨init_history settings, fun _ hj => absurd hj List.not_mem_nil, fun _ hj => absurd hj List.not_mem_nil⟩

/-- The timeline of a recording's job is enough to know the job's state and last error. -/
theorem timeline_replays {settings : Option ProcessingSettings} {w : World}
    {es : List (Event World Act)} (h : WorldRun (World.init settings) es w) :
    ∀ j ∈ w.db.jobs, j.recordingId.isSome → replay (rowsOf w.db.activity j.id) = some (stateOf j) := by
  have hlog := h.keeps LogInvariant (fun _ _ _ => step_log) (init_log settings)
  intro j hj hsome
  rw [← attemptedState_of (hlog.earned j hj)]
  exact hlog.replayed j hj hsome

theorem timeline_replays_retried :
    (∀ j ∈ (twoAttempts.foldl perform (World.init none)).db.jobs, j.recordingId.isSome →
      replay (rowsOf (twoAttempts.foldl perform (World.init none)).db.activity j.id) =
        some (stateOf j)) ∧
    (twoAttempts.foldl perform (World.init none)).db.jobs.map (fun j => (j.status, j.errorCode)) =
      [(.failed, some "worker_lease_expired".toList)] :=
  ⟨timeline_replays (run_trail _ _ twoAttempts_allowed), by decide +kernel⟩

end AudioServer.Worker.TimelineReplay
