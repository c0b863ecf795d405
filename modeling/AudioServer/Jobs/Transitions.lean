import AudioServer.Activity.Timeline
import AudioServer.Jobs.Calls
import Mathlib.Order.Lattice

/-! What each queue operation writes into the timeline, said once: a row moves, its line is
recorded, and its successor is recorded as queued. -/

namespace AudioServer.Jobs.Transitions

open AudioServer.Foundations.Outcomes AudioServer.Foundations.Strings AudioServer.Foundations.Journals
open AudioServer.Db.Models AudioServer.Activity.Repository AudioServer.Activity.Timeline
open AudioServer.Jobs.Queue AudioServer.Jobs.Effects AudioServer.Jobs.Calls

structure Answers (claim : ClaimedJob) (job : ProcessingJob) : Prop where
  recording : claim.recordingId = job.recordingId
  attempt : claim.attemptCount = job.attemptCount

inductive Transition (job : ProcessingJob) : QueueCall → Instant → ProcessingJob →
    Option (RecordingId → ProcessingActivity) → Prop
  | started (queue : JobQueue) (now : Instant) (token : ClaimToken) (kinds : Option (List JobKind))
      (locked : List JobId) (hclaimable : Claimable now kinds job) :
      Transition job (.claimNext queue now token kinds locked) now (claimRow queue token now job)
        (some (jobEvent job.id job.kind (job.attemptCount + 1) job.maxAttempts .processingStarted
          .processing (claimedStage job.kind) now))
  | renewed (queue : JobQueue) (claim : ClaimedJob) (now : Instant) (howns : Owns claim job) :
      Transition job (.heartbeat queue claim now) now
        (renewRow job.stage now (now + queue.leaseDuration) job) none
  | advanced (queue : JobQueue) (claim : ClaimedJob) (stage : JobStage) (now : Instant)
      (howns : Owns claim job) (hanswers : Answers claim job) :
      Transition job (.advanceStage queue claim stage now) now
        (renewRow stage now (now + queue.leaseDuration) job)
        (some (jobEvent claim.id claim.kind claim.attemptCount claim.maxAttempts .stageStarted
          .processing stage now))
  | completed (queue : JobQueue) (claim : ClaimedJob) (persister : Option ResultPersister)
      (now : Instant) (row : RowDefaults) (howns : Owns claim job) :
      Transition job (.complete queue claim persister now row) now (completeRow now job)
        (some (jobEvent job.id job.kind job.attemptCount job.maxAttempts .processingCompleted
          .completed .completed now))
  | retried (queue : JobQueue) (claim : ClaimedJob) (failure : JobFailure) (now : Instant)
      (row : RowDefaults) (delay : Duration) (stage : JobStage) (code errorType message : Text)
      (howns : Owns claim job) (hdelay : 0 < delay) :
      Transition job (.fail queue claim failure now row) now
        (retryRow (now + delay) (releaseRow stage code errorType message now job))
        (some (failureEvent (retryRow (now + delay) (releaseRow stage code errorType message now job))
          .retryScheduled stage now (some (now + delay))))
  | failed (queue : JobQueue) (claim : ClaimedJob) (failure : JobFailure) (now : Instant)
      (row : RowDefaults) (stage : JobStage) (code errorType message : Text) (howns : Owns claim job) :
      Transition job (.fail queue claim failure now row) now
        (failedRow now (releaseRow stage code errorType message now job))
        (some (failureEvent (failedRow now (releaseRow stage code errorType message now job))
          .processingFailed stage now none))
  | requeued (queue : JobQueue) (now : Instant) (limit : ℕ) (locked : List JobId)
      (rows : JobId → RowDefaults) (delay : Duration) (stage : JobStage)
      (code errorType message : Text) (hexpired : Expired now job) (hdelay : 0 < delay) :
      Transition job (.recoverExpired queue now limit locked rows) now
        (retryRow (now + delay) (releaseRow stage code errorType message now job))
        (some (failureEvent (retryRow (now + delay) (releaseRow stage code errorType message now job))
          .leaseRecovered stage now (some (now + delay))))
  | abandoned (queue : JobQueue) (now : Instant) (limit : ℕ) (locked : List JobId)
      (rows : JobId → RowDefaults) (stage : JobStage) (code errorType message : Text)
      (hexpired : Expired now job) :
      Transition job (.recoverExpired queue now limit locked rows) now
        (failedRow now (releaseRow stage code errorType message now job))
        (some (failureEvent (failedRow now (releaseRow stage code errorType message now job))
          .leaseRecovered stage now none))

def queuedLines (eventType : ProcessingActivityType) (job : ProcessingJob) : List ProcessingActivity :=
  lines job.recordingId (some (jobEvent job.id job.kind 0 job.maxAttempts eventType .queued .queued
    job.availableAt))

def Noted (call : QueueCall) (db db' : Database) : Prop :=
  ∃ job job' event row now, Moves db job job' row now db' ∧ Transition job call now job' event ∧
    db'.activity = recordAll db.activity (lines job.recordingId event ++
      (handedOn db.settings job job' row now).flatMap (queuedLines .jobQueued))

lemma appendJobActivity_rows {db db' : Database} {id : Option RecordingId}
    {event : RecordingId → ProcessingActivity} (h : appendJobActivity db id event = .ok db') :
    db'.activity = recordAll db.activity (lines id (some event)) := by
  cases id with
  | none =>
    cases h
    rfl
  | some id =>
    rw [appendActivity_rows h]
    rfl

@[simp] lemma transition_activity (db : Database) (job : ProcessingJob) (s : RecordingStatus) :
    (transition db job s).activity = db.activity := by
  rw [transition]
  split <;> rfl

lemma queueFollowUp_rows {db db' : Database} {job : ProcessingJob} {row : RowDefaults} {now : Instant}
    (h : queueFollowUp db job row now = .ok db') :
    db'.activity = recordAll db.activity
      ((handOff db.settings job row now).flatMap (queuedLines .jobQueued)) := by
  simp only [queueFollowUp] at h
  simp only [handOff]
  cases hr : job.recordingId with
  | none =>
    simp only [hr, Except.ok.injEq] at h
    subst h
    simp
  | some id =>
    cases hk : followUpOf db.settings job with
    | none =>
      simp only [hr, hk, Except.ok.injEq] at h
      subst h
      simp
    | some kind =>
      simp only [hr, hk] at h
      obtain ⟨after, hi, h⟩ := bind_ok h
      obtain ⟨rfl, _⟩ := insertJob_ok hi
      rw [appendJobActivity_rows h]
      simp [queuedLines, followUpJob, newJob, hr]

lemma later_ok {now availableAt : Instant} {delay : Duration} (h : later now delay = .ok availableAt) :
    availableAt = now + delay := by
  obtain ⟨_, _, h⟩ := bind_ok h
  cases h
  rfl

lemma delayAfter_pos {policy : RetryPolicy} {attemptCount : ℕ} {delay : Duration}
    (h : policy.delayAfter attemptCount = .ok delay) : 0 < delay := by
  obtain ⟨_, _, h⟩ := bind_ok h
  obtain ⟨_, _, h⟩ := bind_ok h
  cases h
  have hmax : 0 < policy.maxDelay := lt_of_lt_of_le policy.base_positive policy.base_le_max
  have hproduct : 0 < policy.baseDelay * 2 ^ min (attemptCount - 1) 30 :=
    Int.mul_pos policy.base_positive (Int.pow_pos (by decide))
  exact lt_min hproduct hmax

lemma quiet_noted {call : QueueCall} {db db' : Database} {job job' : ProcessingJob}
    {event : Option (RecordingId → ProcessingActivity)} {row : RowDefaults} {now : Instant}
    (hmoves : Moves db job job' row now db') (hturn : Transition job call now job' event)
    (hquiet : ¬ HandsOn job job')
    (hrows : db'.activity = recordAll db.activity (lines job.recordingId event)) :
    Noted call db db' := by
  refine ⟨job, job', event, row, now, hmoves, hturn, ?_⟩
  rw [handedOn_of_not hquiet, List.flatMap_nil, List.append_nil, hrows]

lemma ended_noted {call : QueueCall} {db db₁ db₂ db' : Database} {job job' : ProcessingJob}
    {event : RecordingId → ProcessingActivity} {row : RowDefaults} {now : Instant}
    {status : RecordingStatus} (hmoves : Moves db job job' row now db')
    (hturn : Transition job call now job' (some event)) (hends : HandsOn job job')
    (hbefore : db₁.activity = db.activity) (hsettings : db₁.settings = db.settings)
    (ha : appendJobActivity (transition db₁ job' status) job.recordingId event = .ok db₂)
    (hq : queueFollowUp db₂ job' row now = .ok db') : Noted call db db' := by
  refine ⟨job, job', some event, row, now, hmoves, hturn, ?_⟩
  obtain ⟨_, _, hset, _⟩ := appendJobActivity_frame ha
  rw [transition_settings, hsettings] at hset
  rw [queueFollowUp_rows hq, appendJobActivity_rows ha, transition_activity, hbefore, hset,
    handOff_same hmoves.step.same, ← handedOn_of hends, recordAll, recordAll, recordAll,
    ← List.foldl_append]

lemma failed_noted {call : QueueCall} {db db₁ db' : Database} {job : ProcessingJob} {now : Instant}
    {stage : JobStage} {code errorType message : Text} {event : RecordingId → ProcessingActivity}
    {row : RowDefaults} (hm : job ∈ db.jobs) (hs : job.status = .processing)
    (hturn : Transition job call now
      (failedRow now (releaseRow stage code errorType message now job)) (some event))
    (h : appendJobActivity
      (transition db (failedRow now (releaseRow stage code errorType message now job)) .failed)
      job.recordingId event = .ok db₁)
    (hq : (if job.kind = .full then .ok db₁ else
      queueFollowUp db₁ (failedRow now (releaseRow stage code errorType message now job)) row now) =
      .ok db') : Noted call db db' := by
  obtain ⟨hmoves, _⟩ := failed_moves hm hs h hq
  by_cases hk : job.kind = .full
  · rw [if_pos hk] at hq
    cases hq
    apply quiet_noted hmoves hturn
    · simp [HandsOn, failedRow, hk]
    · rw [appendJobActivity_rows h, transition_activity]
  · rw [if_neg hk] at hq
    exact ended_noted hmoves hturn (.inr ⟨rfl, hk⟩) rfl rfl h hq

lemma retried_noted {call : QueueCall} {db db' : Database} {job : ProcessingJob}
    {availableAt now : Instant} {stage : JobStage} {code errorType message : Text}
    {event : RecordingId → ProcessingActivity} (hm : job ∈ db.jobs) (hs : job.status = .processing)
    (hlt : job.attemptCount < job.maxAttempts)
    (hturn : Transition job call now
      (retryRow availableAt (releaseRow stage code errorType message now job)) (some event))
    (h : appendJobActivity
      (transition db (retryRow availableAt (releaseRow stage code errorType message now job)) .queued)
      job.recordingId event = .ok db') : Noted call db db' := by
  obtain ⟨hmoves, _⟩ := retried_moves hm hs hlt h ⟨0, 0⟩
  apply quiet_noted hmoves hturn
  · simp [HandsOn, retryRow]
  · rw [appendJobActivity_rows h, transition_activity]

lemma claimNext_noted {queue : JobQueue} {now : Instant} {token : ClaimToken}
    {kinds : Option (List JobKind)} {locked : List JobId} {db db' : Database}
    {result : Option ClaimedJob}
    (h : queue.claimNext now token kinds locked db = .ok (result, db')) :
    db' = db ∨ Noted (.claimNext queue now token kinds locked) db db' := by
  rcases claimNext_ok h ⟨0, 0⟩ with ⟨_, hsame⟩ | ⟨job, hn, _, hmoves, _⟩
  · exact .inl hsame
  · right
    simp only [JobQueue.claimNext, hn] at h
    obtain ⟨db₁, ha, h⟩ := bind_ok h
    cases h
    apply quiet_noted hmoves (.started queue now token kinds locked (nextClaimable_some hn).2)
    · simp [HandsOn, claimRow]
    · rw [appendJobActivity_rows ha, transition_activity]
      rfl

lemma heartbeat_noted {queue : JobQueue} {claim : ClaimedJob} {now : Instant} {db db' : Database}
    {u : Unit} (h : queue.heartbeat claim now db = .ok (u, db')) :
    Noted (.heartbeat queue claim now) db db' := by
  obtain ⟨job, hj, h⟩ := bind_ok h
  rw [found_ok] at hj
  cases h
  have howns := (ownedJob_some hj).2
  obtain ⟨hmoves, _⟩ := renewed_moves hj job.stage now (now + queue.leaseDuration) ⟨0, 0⟩
    ⟨rfl, rfl, rfl, rfl⟩
  apply quiet_noted hmoves (.renewed queue claim now howns)
  · simp [HandsOn, renewRow, howns.2.1]
  · simp [Database.putJob]

lemma advanceStage_noted {queue : JobQueue} {claim : ClaimedJob} {stage : JobStage} {now : Instant}
    {db db' : Database} {u : Unit} (hanswers : ∀ j ∈ db.jobs, Owns claim j → Answers claim j)
    (h : queue.advanceStage claim stage now db = .ok (u, db')) :
    Noted (.advanceStage queue claim stage now) db db' := by
  obtain ⟨_, _, h⟩ := bind_ok h
  obtain ⟨job, hj, h⟩ := bind_ok h
  rw [found_ok] at hj
  obtain ⟨db₁, ha, h⟩ := bind_ok h
  cases h
  obtain ⟨hm, howns⟩ := ownedJob_some hj
  have hfit := hanswers job hm howns
  obtain ⟨hmoves, _⟩ := renewed_moves hj stage now (now + queue.leaseDuration) ⟨0, 0⟩
    (appendJobActivity_frame ha)
  apply quiet_noted hmoves (.advanced queue claim stage now howns hfit)
  · simp [HandsOn, renewRow, howns.2.1]
  · rw [appendJobActivity_rows ha, hfit.recording]
    rfl

lemma complete_noted {queue : JobQueue} {claim : ClaimedJob} {persister : Option ResultPersister}
    {now : Instant} {row : RowDefaults} {db db' : Database} {u : Unit}
    (h : queue.complete claim persister now row db = .ok (u, db')) :
    Noted (.complete queue claim persister now row) db db' := by
  obtain ⟨owned, howned, hmoves, _⟩ := complete_ok h
  obtain ⟨job, hj, h⟩ := bind_ok h
  rw [lockOwnedJob, found_ok, howned] at hj
  cases hj
  obtain ⟨stored, hp, h⟩ := bind_ok h
  obtain ⟨db₁, ha, h⟩ := bind_ok h
  obtain ⟨db₂, hq, h⟩ := bind_ok h
  cases h
  obtain ⟨docs, rfl⟩ := persistResults_ok hp
  have hrows : ({ db with documents := docs } : Database).activity = db.activity := rfl
  exact ended_noted hmoves (.completed queue claim persister now row (ownedJob_some howned).2)
    (.inl rfl) hrows rfl ha hq

lemma fail_noted {queue : JobQueue} {claim : ClaimedJob} {failure : JobFailure} {now : Instant}
    {row : RowDefaults} {db db' : Database} {again : Bool}
    (h : queue.fail claim failure now row db = .ok (again, db')) :
    Noted (.fail queue claim failure now row) db db' := by
  obtain ⟨job, hj, h⟩ := bind_ok h
  rw [lockOwnedJob, found_ok] at hj
  obtain ⟨hm, howns⟩ := ownedJob_some hj
  obtain ⟨willRetry, hw, h⟩ := bind_ok h
  have hretry := canRetry_ok hw
  cases willRetry with
  | true =>
    obtain ⟨delay, hd, h⟩ := bind_ok h
    obtain ⟨availableAt, hlater, h⟩ := bind_ok h
    obtain rfl := later_ok hlater
    obtain ⟨db₁, ha, h⟩ := bind_ok h
    cases h
    have hlt := hretry.symm
    rw [Bool.and_eq_true, decide_eq_true_eq] at hlt
    exact retried_noted hm howns.2.1 hlt.2
      (.retried queue claim failure now row delay _ _ _ _ howns (delayAfter_pos hd)) ha
  | false =>
    obtain ⟨db₁, ha, h⟩ := bind_ok h
    obtain ⟨db₂, hq, h⟩ := bind_ok h
    cases h
    exact failed_noted hm howns.2.1 (.failed queue claim failure now row _ _ _ _ howns) ha hq

lemma recoverJob_noted {queue : JobQueue} {now : Instant} {limit : ℕ} {locked : List JobId}
    {rows : JobId → RowDefaults} {acc acc' : RecoverySummary × Database} {job : ProcessingJob}
    (hm : job ∈ acc.2.jobs) (hexpired : Expired now job)
    (h : recoverJob queue now rows acc job = .ok acc') :
    Noted (.recoverExpired queue now limit locked rows) acc.2 acc'.2 := by
  obtain ⟨again, hw, h⟩ := bind_ok h
  have hretry := canRetry_ok hw
  cases again with
  | true =>
    obtain ⟨delay, hd, h⟩ := bind_ok h
    obtain ⟨availableAt, hlater, h⟩ := bind_ok h
    obtain rfl := later_ok hlater
    obtain ⟨db₁, ha, h⟩ := bind_ok h
    cases h
    have hlt := hretry.symm
    rw [Bool.and_eq_true, decide_eq_true_eq] at hlt
    exact retried_noted hm hexpired.1 hlt.2
      (.requeued queue now limit locked rows delay _ _ _ _ hexpired (delayAfter_pos hd)) ha
  | false =>
    obtain ⟨db₁, ha, h⟩ := bind_ok h
    obtain ⟨db₂, hq, h⟩ := bind_ok h
    cases h
    exact failed_noted hm hexpired.1 (.abandoned queue now limit locked rows _ _ _ _ hexpired) ha hq

abbrev NotedRun (call : QueueCall) : Database → Database → Prop := Relation.ReflTransGen (Noted call)

lemma foldlM_noted {queue : JobQueue} {now : Instant} {limit : ℕ} {locked : List JobId}
    {rows : JobId → RowDefaults} {jobs : List ProcessingJob}
    {acc acc' : RecoverySummary × Database} (hids : (jobs.map (·.id)).Nodup)
    (hm : ∀ j ∈ jobs, j ∈ acc.2.jobs ∧ Expired now j)
    (h : jobs.foldlM (recoverJob queue now rows) acc = .ok acc') :
    NotedRun (.recoverExpired queue now limit locked rows) acc.2 acc'.2 :=
  foldlM_recover (P := fun db _ db' => NotedRun (.recoverExpired queue now limit locked rows) db db')
    (fun _ => .refl) (fun hjob hexpired h₁ hrest => .head (recoverJob_noted hjob hexpired h₁) hrest)
    hids hm h

lemma exec_noted {call : QueueCall} {db db' : Database} {answer : Answer} (hids : UniqueJobIds db)
    (hanswers : ∀ claim, call.claim = some claim → ∀ j ∈ db.jobs, Owns claim j → Answers claim j)
    (h : call.exec db = .ok (answer, db')) : NotedRun call db db' := by
  cases call with
  | claimNext queue now token kinds locked =>
    obtain ⟨_, h, _⟩ := map_ok h
    rcases claimNext_noted h with rfl | hnoted
    · exact .refl
    · exact .single hnoted
  | heartbeat queue claim now =>
    obtain ⟨_, h, _⟩ := map_ok h
    exact .single (heartbeat_noted h)
  | advanceStage queue claim stage now =>
    obtain ⟨_, h, _⟩ := map_ok h
    exact .single (advanceStage_noted (hanswers claim rfl) h)
  | complete queue claim persister now row =>
    obtain ⟨_, h, _⟩ := map_ok h
    exact .single (complete_noted h)
  | fail queue claim failure now row =>
    obtain ⟨_, h, _⟩ := map_ok h
    exact .single (fail_noted h)
  | recoverExpired queue now limit locked rows =>
    obtain ⟨_, h, _⟩ := map_ok h
    obtain ⟨_, _, h⟩ := bind_ok h
    exact foldlM_noted (expiredJobs_ids hids now limit locked) (fun _ => mem_expiredJobs) h

lemma queueStep_noted {call : QueueCall} {db db' : Database} (hids : UniqueJobIds db)
    (hanswers : ∀ claim, call.claim = some claim → ∀ j ∈ db.jobs, Owns claim j → Answers claim j)
    (h : QueueStep db call db') : NotedRun call db db' := by
  rcases settled_cases db (call.exec db) with ⟨answer, t, hok, hs⟩ | ⟨_, _, hs⟩
  · rw [h, hs]
    exact exec_noted hids hanswers hok
  · rw [h, hs]

end AudioServer.Jobs.Transitions
