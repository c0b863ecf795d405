import AudioServer.Jobs.Queue

/-! What each queue operation does to the tables of jobs and recordings, said
once: a row moves, its recording follows, and at most one successor is added. -/

namespace AudioServer.Jobs.Effects

open AudioServer.Foundations.Outcomes AudioServer.Foundations.Strings
open AudioServer.Db.Models AudioServer.Activity.Repository AudioServer.Jobs.Queue

def SameJob (a b : ProcessingJob) : Prop :=
  b.id = a.id ∧ b.recordingId = a.recordingId ∧ b.summaryDate = a.summaryDate ∧ b.kind = a.kind ∧
    b.followUpKind = a.followUpKind ∧ b.maxAttempts = a.maxAttempts ∧ b.createdAt = a.createdAt

def renewRow (stage : JobStage) (now lease : Instant) (job : ProcessingJob) : ProcessingJob :=
  { job with stage := stage, heartbeatAt := some now, leaseExpiresAt := some lease }

inductive RowStep (job : ProcessingJob) : ProcessingJob → Prop
  | claimed (queue : JobQueue) (token : ClaimToken) (now : Instant) (hs : job.status = .queued) :
      RowStep job (claimRow queue token now job)
  | renewed (stage : JobStage) (now lease : Instant) (hs : job.status = .processing) :
      RowStep job (renewRow stage now lease job)
  | completed (now : Instant) (hs : job.status = .processing) : RowStep job (completeRow now job)
  | retried (availableAt now : Instant) (stage : JobStage) (code errorType message : Text)
      (hs : job.status = .processing) (hlt : job.attemptCount < job.maxAttempts) :
      RowStep job (retryRow availableAt (releaseRow stage code errorType message now job))
  | failed (now : Instant) (stage : JobStage) (code errorType message : Text)
      (hs : job.status = .processing) :
      RowStep job (failedRow now (releaseRow stage code errorType message now job))

lemma RowStep.same {job job' : ProcessingJob} (h : RowStep job job') : SameJob job job' := by
  cases h <;> exact ⟨rfl, rfl, rfl, rfl, rfl, rfl, rfl⟩

lemma RowStep.active {job job' : ProcessingJob} (h : RowStep job job') : job.active := by
  cases h with
  | claimed _ _ _ hs => simp [ProcessingJob.active, hs, JobStatus.active]
  | renewed _ _ _ hs => simp [ProcessingJob.active, hs, JobStatus.active]
  | completed _ hs => simp [ProcessingJob.active, hs, JobStatus.active]
  | retried _ _ _ _ _ _ hs _ => simp [ProcessingJob.active, hs, JobStatus.active]
  | failed _ _ _ _ _ hs => simp [ProcessingJob.active, hs, JobStatus.active]

def movedRecordings (db : Database) (job job' : ProcessingJob) : List Recording :=
  if job'.kind = .full ∧ job'.status ≠ job.status then
    (db.setProcessingStatus job'.recordingId job'.status.recordingStatus).recordings
  else db.recordings

lemma setProcessingStatus_ids (db : Database) (id : Option RecordingId) (status : RecordingStatus) :
    (db.setProcessingStatus id status).recordings.map (·.id) = db.recordings.map (·.id) := by
  rw [Database.setProcessingStatus, List.map_map]
  apply List.map_congr_left
  intro r _
  simp only [Function.comp_apply]
  split <;> rfl

def handOff (settings : Option ProcessingSettings) (job : ProcessingJob) (row : RowDefaults)
    (occurredAt : Instant) : List ProcessingJob :=
  match job.recordingId, followUpOf settings job with
  | some _, some kind => [followUpJob job kind row occurredAt]
  | _, _ => []

lemma handOff_same {settings : Option ProcessingSettings} {a b : ProcessingJob} (h : SameJob a b)
    (row : RowDefaults) (now : Instant) : handOff settings b row now = handOff settings a row now := by
  obtain ⟨_, hr, _, _, hf, hm, _⟩ := h
  simp only [handOff, followUpOf, followUpJob, hr, hf, hm]

def HandsOn (job job' : ProcessingJob) : Prop :=
  job'.status = .completed ∨ (job'.status = .failed ∧ job.kind ≠ .full)

instance (job job' : ProcessingJob) : Decidable (HandsOn job job') :=
  inferInstanceAs (Decidable (_ ∨ _))

def handedOn (settings : Option ProcessingSettings) (job job' : ProcessingJob) (row : RowDefaults)
    (now : Instant) : List ProcessingJob :=
  if HandsOn job job' then handOff settings job row now else []

lemma handedOn_of {settings : Option ProcessingSettings} {job job' : ProcessingJob}
    (h : HandsOn job job') (row : RowDefaults) (now : Instant) :
    handedOn settings job job' row now = handOff settings job row now := if_pos h

lemma handedOn_of_not {settings : Option ProcessingSettings} {job job' : ProcessingJob}
    (h : ¬ HandsOn job job') (row : RowDefaults) (now : Instant) :
    handedOn settings job job' row now = [] := if_neg h

structure Moves (db : Database) (job job' : ProcessingJob) (row : RowDefaults) (now : Instant)
    (db' : Database) : Prop where
  stored : job ∈ db.jobs
  step : RowStep job job'
  jobs : db'.jobs = (db.putJob job').jobs ++ handedOn db.settings job job' row now
  fresh : ∀ n ∈ handedOn db.settings job job' row now, ∀ j ∈ db.jobs, j.id ≠ n.id
  recordings : db'.recordings = movedRecordings db job job'
  settings : db'.settings = db.settings

def OnlyActivity (db db' : Database) : Prop :=
  db'.recordings = db.recordings ∧ db'.jobs = db.jobs ∧ db'.settings = db.settings ∧
    db'.documents = db.documents

lemma appendActivity_frame {db db' : Database} {event : ProcessingActivity}
    (h : appendActivity db event = .ok db') : OnlyActivity db db' := by
  obtain ⟨_, _, h⟩ := bind_ok h
  obtain ⟨_, _, h⟩ := bind_ok h
  split at h
  all_goals
    cases h
    exact ⟨rfl, rfl, rfl, rfl⟩

lemma appendJobActivity_frame {db db' : Database} {id : Option RecordingId}
    {event : RecordingId → ProcessingActivity} (h : appendJobActivity db id event = .ok db') :
    OnlyActivity db db' := by
  cases id with
  | none => cases h; exact ⟨rfl, rfl, rfl, rfl⟩
  | some id => exact appendActivity_frame h

lemma appendActivity_total {db : Database} {event : ProcessingActivity}
    (hattempts : 1 ≤ event.maxAttempts) (hretry : event.retryScheduled = false) :
    ∃ db', appendActivity db event = .ok db' := by
  have hnext : event.retryScheduled → event.nextAttemptAt.isSome := fun h => by
    rw [hretry] at h
    cases h
  rw [appendActivity, require_of hattempts, ok_bind, require_of hnext, ok_bind]
  split
  · exact ⟨_, rfl⟩
  · exact ⟨_, rfl⟩

lemma appendActivity_raises {db : Database} {event : ProcessingActivity} {e : Exn}
    (h : appendActivity db event = .error e) : ∃ message, e = .valueError message := by
  rcases bind_error h with h | ⟨_, _, h⟩
  · exact ⟨_, require_error h⟩
  rcases bind_error h with h | ⟨_, _, h⟩
  · exact ⟨_, require_error h⟩
  split at h <;> cases h

lemma appendJobActivity_raises {db : Database} {id : Option RecordingId}
    {event : RecordingId → ProcessingActivity} {e : Exn} (h : appendJobActivity db id event = .error e) :
    ∃ message, e = .valueError message := by
  cases id with
  | none => cases h
  | some id => exact appendActivity_raises h

lemma insertJob_ok {db db' : Database} {job : ProcessingJob} (h : db.insertJob job = .ok db') :
    db' = { db with jobs := db.jobs ++ [job] } ∧ (∀ j ∈ db.jobs, j.id ≠ job.id) ∧
      (job.recordingId.isSome ≠ job.summaryDate.isSome) ∧
      (job.active → job.recordingId.isSome →
        ∀ j ∈ db.jobs, j.active → j.recordingId ≠ job.recordingId) := by
  simp only [Database.insertJob] at h
  split at h
  · cases h
  split at h
  · cases h
  split at h
  · cases h
  split at h
  · cases h
  rename_i hid hscope hactive _
  simp only [List.any_eq_true, decide_eq_true_eq, not_exists, not_and] at hid hactive
  cases h
  refine ⟨rfl, hid, hscope, ?_⟩
  intro ha hr j hj hja hjr
  exact hactive ha hr j hj hja hjr

lemma queueFollowUp_ok {db db' : Database} {job : ProcessingJob} {row : RowDefaults} {now : Instant}
    (h : queueFollowUp db job row now = .ok db') :
    db'.recordings = db.recordings ∧ db'.jobs = db.jobs ++ handOff db.settings job row now ∧
      db'.settings = db.settings ∧ db'.documents = db.documents ∧
      ∀ n ∈ handOff db.settings job row now, ∀ j ∈ db.jobs, j.id ≠ n.id := by
  simp only [queueFollowUp] at h
  simp only [handOff]
  cases hr : job.recordingId with
  | none =>
    simp only [hr, Except.ok.injEq] at h
    subst h
    simp
  | some id =>
    cases hk : followUpOf db.settings job with
    | none =>
      simp only [hr, hk, Except.ok.injEq] at h
      subst h
      simp
    | some kind =>
      simp only [hr, hk] at h
      obtain ⟨after, hi, h⟩ := bind_ok h
      obtain ⟨h₁, h₂, h₃, h₄⟩ := appendJobActivity_frame h
      obtain ⟨rfl, hid, _⟩ := insertJob_ok hi
      exact ⟨h₁, h₂, h₃, h₄, by simpa using hid⟩

@[simp] lemma transition_jobs (db : Database) (job : ProcessingJob) (s : RecordingStatus) :
    (transition db job s).jobs = (db.putJob job).jobs := by
  unfold transition
  split <;> rfl

@[simp] lemma transition_settings (db : Database) (job : ProcessingJob) (s : RecordingStatus) :
    (transition db job s).settings = db.settings := by
  unfold transition
  split <;> rfl

@[simp] lemma transition_documents (db : Database) (job : ProcessingJob) (s : RecordingStatus) :
    (transition db job s).documents = db.documents := by
  unfold transition
  split <;> rfl

lemma transition_recordings (db : Database) (job job' : ProcessingJob)
    (hs : job'.status ≠ job.status) :
    (transition db job' job'.status.recordingStatus).recordings = movedRecordings db job job' := by
  unfold transition movedRecordings
  by_cases hk : job'.kind = .full
  · simp [hk, hs, Database.setProcessingStatus, Database.putJob]
  · simp [hk, Database.putJob]

lemma ownedJob_some {db : Database} {claim : ClaimedJob} {job : ProcessingJob}
    (h : ownedJob db claim = some job) : job ∈ db.jobs ∧ Owns claim job :=
  ⟨List.mem_of_find?_eq_some h, by simpa using List.find?_some h⟩

lemma owns_active {claim : ClaimedJob} {job : ProcessingJob} (h : Owns claim job) : job.active := by
  simp [ProcessingJob.active, h.2.1, JobStatus.active]

lemma nextClaimable_some {db : Database} {now : Instant} {kinds : Option (List JobKind)}
    {locked : List JobId} {job : ProcessingJob} (h : nextClaimable db now kinds locked = some job) :
    job ∈ db.jobs ∧ Claimable now kinds job := by
  have hm : job ∈ ((db.jobs.filter (fun j => Claimable now kinds j ∧ j.id ∉ locked)).insertionSort
      ClaimOrder) := List.mem_of_head? h
  rw [List.mem_insertionSort, List.mem_filter, decide_eq_true_eq] at hm
  exact ⟨hm.1, hm.2.1⟩

lemma mem_expiredJobs {db : Database} {now : Instant} {limit : ℕ} {locked : List JobId}
    {job : ProcessingJob} (h : job ∈ expiredJobs db now limit locked) :
    job ∈ db.jobs ∧ Expired now job := by
  have hm := List.mem_of_mem_take h
  rw [List.mem_insertionSort, List.mem_filter, decide_eq_true_eq] at hm
  exact ⟨hm.1, hm.2.1⟩

lemma putJob_ids {db : Database} {job' : ProcessingJob} :
    (db.putJob job').jobs.map (·.id) = db.jobs.map (·.id) := by
  simp only [Database.putJob, List.map_map]
  apply List.map_congr_left
  intro j _
  by_cases hj : j.id = job'.id <;> simp [hj]

lemma mem_putJob {db : Database} {job' j : ProcessingJob} (hj : j ∈ db.jobs) (hne : j.id ≠ job'.id) :
    j ∈ (db.putJob job').jobs :=
  List.mem_map.mpr ⟨j, hj, if_neg hne⟩

lemma mem_putJob_cases {db : Database} {job' j : ProcessingJob} (hj : j ∈ (db.putJob job').jobs) :
    j = job' ∨ (j ∈ db.jobs ∧ j.id ≠ job'.id) := by
  obtain ⟨k, hk, rfl⟩ := List.mem_map.mp hj
  by_cases he : k.id = job'.id
  · exact .inl (if_pos he)
  · rw [if_neg he]
    exact .inr ⟨hk, he⟩

lemma quiet_moves {db db' : Database} {job job' : ProcessingJob} (hm : job ∈ db.jobs)
    (hstep : RowStep job job') (hquiet : ¬ HandsOn job job') (row : RowDefaults) (now : Instant)
    (hjobs : db'.jobs = (db.putJob job').jobs)
    (hrec : db'.recordings = movedRecordings db job job') (hset : db'.settings = db.settings) :
    Moves db job job' row now db' := by
  have hnone : handedOn db.settings job job' row now = [] := handedOn_of_not hquiet row now
  refine ⟨hm, hstep, ?_, ?_, hrec, hset⟩
  · rw [hnone, hjobs, List.append_nil]
  · rw [hnone]
    intro n hn
    cases hn

lemma ended_moves {db db₁ db' : Database} {job job' : ProcessingJob} {row : RowDefaults}
    {now : Instant} (hm : job ∈ db.jobs) (hstep : RowStep job job') (hends : HandsOn job job')
    (hs : job'.status ≠ job.status)
    (hact : OnlyActivity (transition db job' job'.status.recordingStatus) db₁)
    (hq : queueFollowUp db₁ job' row now = .ok db') :
    Moves db job job' row now db' ∧ db'.documents = db.documents := by
  obtain ⟨hr, hj, hset, hd⟩ := hact
  obtain ⟨hr', hj', hset', hd', hfresh⟩ := queueFollowUp_ok hq
  rw [transition_settings] at hset
  rw [transition_jobs] at hj
  rw [hset, handOff_same hstep.same, ← handedOn_of hends] at hj' hfresh
  refine ⟨⟨hm, hstep, by rw [hj', hj], ?_, ?_, hset'.trans hset⟩, ?_⟩
  · intro n hn j hj₁ he
    have hid : j.id ∈ db₁.jobs.map (·.id) := by
      rw [hj, putJob_ids]
      exact List.mem_map_of_mem hj₁
    obtain ⟨k, hk, hke⟩ := List.mem_map.mp hid
    exact hfresh n hn k hk (hke.trans he)
  · rw [hr', hr, transition_recordings db job job' hs]
  · rw [hd', hd, transition_documents]

lemma released_moves {db db' : Database} {job job' : ProcessingJob} (hm : job ∈ db.jobs)
    (hstep : RowStep job job') (hquiet : ¬ HandsOn job job') (hs : job'.status ≠ job.status)
    (row : RowDefaults) (now : Instant)
    (hact : OnlyActivity (transition db job' job'.status.recordingStatus) db') :
    Moves db job job' row now db' ∧ db'.documents = db.documents := by
  obtain ⟨hr, hj, hset, hd⟩ := hact
  rw [transition_settings] at hset
  rw [transition_jobs] at hj
  rw [transition_documents] at hd
  exact ⟨quiet_moves hm hstep hquiet row now hj (hr.trans (transition_recordings db job job' hs)) hset,
    hd⟩

lemma claimNext_ok {queue : JobQueue} {now : Instant} {token : ClaimToken}
    {kinds : Option (List JobKind)} {locked : List JobId} {db db' : Database}
    {result : Option ClaimedJob} (h : queue.claimNext now token kinds locked db = .ok (result, db'))
    (row : RowDefaults) :
    (result = none ∧ db' = db) ∨
    ∃ job, nextClaimable db now kinds locked = some job ∧
      result = some (claimOf queue token (claimRow queue token now job)) ∧
      Moves db job (claimRow queue token now job) row now db' ∧ db'.documents = db.documents := by
  simp only [JobQueue.claimNext] at h
  cases hn : nextClaimable db now kinds locked with
  | none =>
    simp only [hn, Except.ok.injEq, Prod.mk.injEq] at h
    exact .inl ⟨h.1.symm, h.2.symm⟩
  | some job =>
    simp only [hn] at h
    obtain ⟨db₁, ha, h⟩ := bind_ok h
    cases h
    obtain ⟨hm, hc⟩ := nextClaimable_some hn
    have hs : (claimRow queue token now job).status ≠ job.status := by simp [claimRow, hc.1]
    have hquiet : ¬ HandsOn job (claimRow queue token now job) := by simp [HandsOn, claimRow]
    exact .inr ⟨job, rfl, rfl, released_moves hm (.claimed queue token now hc.1) hquiet hs row now
      (appendJobActivity_frame ha)⟩

lemma renewed_moves {db db' : Database} {claim : ClaimedJob} {job : ProcessingJob}
    (hj : ownedJob db claim = some job) (stage : JobStage) (now lease : Instant) (row : RowDefaults)
    (h : OnlyActivity (db.putJob (renewRow stage now lease job)) db') :
    Moves db job (renewRow stage now lease job) row now db' ∧ db'.documents = db.documents := by
  obtain ⟨hm, ho⟩ := ownedJob_some hj
  obtain ⟨hr, hjobs, hset, hd⟩ := h
  refine ⟨quiet_moves hm (.renewed stage now lease ho.2.1) ?_ row now hjobs ?_ hset, hd⟩
  · simp [HandsOn, renewRow, ho.2.1]
  · simp [movedRecordings, renewRow, hr, Database.putJob]

lemma heartbeat_ok {queue : JobQueue} {claim : ClaimedJob} {now : Instant} {db db' : Database}
    {u : Unit} (h : queue.heartbeat claim now db = .ok (u, db')) (row : RowDefaults) :
    ∃ job job', ownedJob db claim = some job ∧ job'.status = .processing ∧
      Moves db job job' row now db' ∧ db'.documents = db.documents := by
  obtain ⟨job, hj, h⟩ := bind_ok h
  rw [found_ok] at hj
  cases h
  exact ⟨job, renewRow job.stage now (now + queue.leaseDuration) job, hj, (ownedJob_some hj).2.2.1,
    renewed_moves hj job.stage now (now + queue.leaseDuration) row ⟨rfl, rfl, rfl, rfl⟩⟩

lemma advanceStage_ok {queue : JobQueue} {claim : ClaimedJob} {stage : JobStage} {now : Instant}
    {db db' : Database} {u : Unit} (h : queue.advanceStage claim stage now db = .ok (u, db'))
    (row : RowDefaults) :
    ∃ job job', ownedJob db claim = some job ∧ job'.status = .processing ∧
      Moves db job job' row now db' ∧ db'.documents = db.documents := by
  obtain ⟨_, _, h⟩ := bind_ok h
  obtain ⟨job, hj, h⟩ := bind_ok h
  rw [found_ok] at hj
  obtain ⟨db₁, ha, h⟩ := bind_ok h
  cases h
  exact ⟨job, renewRow stage now (now + queue.leaseDuration) job, hj, (ownedJob_some hj).2.2.1,
    renewed_moves hj stage now (now + queue.leaseDuration) row (appendJobActivity_frame ha)⟩

lemma persistResults_ok {persister : Option ResultPersister} {db stored : Database}
    (h : persistResults persister db = .ok stored) : ∃ docs, stored = { db with documents := docs } := by
  cases persister with
  | none => cases h; exact ⟨db.documents, rfl⟩
  | some persist =>
    obtain ⟨docs, _, h⟩ := bind_ok h
    cases h
    exact ⟨docs, rfl⟩

lemma complete_ok {queue : JobQueue} {claim : ClaimedJob} {persister : Option ResultPersister}
    {now : Instant} {row : RowDefaults} {db db' : Database} {u : Unit}
    (h : queue.complete claim persister now row db = .ok (u, db')) :
    ∃ job, ownedJob db claim = some job ∧ Moves db job (completeRow now job) row now db' ∧
      ∃ stored, persistResults persister db = .ok stored ∧ db'.documents = stored.documents := by
  obtain ⟨job, hj, h⟩ := bind_ok h
  rw [lockOwnedJob, found_ok] at hj
  obtain ⟨stored, hp, h⟩ := bind_ok h
  obtain ⟨db₁, ha, h⟩ := bind_ok h
  obtain ⟨db₂, hq, h⟩ := bind_ok h
  cases h
  obtain ⟨hm, ho⟩ := ownedJob_some hj
  obtain ⟨docs, rfl⟩ := persistResults_ok hp
  have hs : (completeRow now job).status ≠ job.status := by simp [completeRow, ho.2.1]
  have hjob : job ∈ ({ db with documents := docs } : Database).jobs := hm
  obtain ⟨hmoves, hd⟩ := ended_moves hjob (.completed now ho.2.1) (.inl rfl) hs
    (appendJobActivity_frame ha) hq
  exact ⟨job, hj, ⟨hm, hmoves.step, hmoves.jobs, hmoves.fresh, hmoves.recordings, hmoves.settings⟩,
    _, hp, hd⟩

lemma retried_moves {db db' : Database} {job : ProcessingJob} {availableAt now : Instant}
    {stage : JobStage} {code errorType message : Text} {event : RecordingId → ProcessingActivity}
    (hm : job ∈ db.jobs) (hs : job.status = .processing) (hlt : job.attemptCount < job.maxAttempts)
    (h : appendJobActivity
      (transition db (retryRow availableAt (releaseRow stage code errorType message now job)) .queued)
      job.recordingId event = .ok db') (row : RowDefaults) :
    Moves db job (retryRow availableAt (releaseRow stage code errorType message now job)) row now db' ∧
      db'.documents = db.documents := by
  have hne : (retryRow availableAt (releaseRow stage code errorType message now job)).status ≠
      job.status := by simp [retryRow, hs]
  have hquiet : ¬ HandsOn job
      (retryRow availableAt (releaseRow stage code errorType message now job)) := by
    simp [HandsOn, retryRow]
  exact released_moves hm (.retried availableAt now stage code errorType message hs hlt) hquiet hne
    row now (appendJobActivity_frame h)

lemma failed_moves {db db₁ db' : Database} {job : ProcessingJob} {now : Instant} {stage : JobStage}
    {code errorType message : Text} {event : RecordingId → ProcessingActivity} {row : RowDefaults}
    (hm : job ∈ db.jobs) (hs : job.status = .processing)
    (h : appendJobActivity
      (transition db (failedRow now (releaseRow stage code errorType message now job)) .failed)
      job.recordingId event = .ok db₁)
    (hq : (if job.kind = .full then .ok db₁ else
      queueFollowUp db₁ (failedRow now (releaseRow stage code errorType message now job)) row now) =
      .ok db') :
    Moves db job (failedRow now (releaseRow stage code errorType message now job)) row now db' ∧
      db'.documents = db.documents := by
  have hstep : RowStep job (failedRow now (releaseRow stage code errorType message now job)) :=
    .failed now stage code errorType message hs
  have hne : (failedRow now (releaseRow stage code errorType message now job)).status ≠
      job.status := by simp [failedRow, hs]
  by_cases hk : job.kind = .full
  · rw [if_pos hk] at hq
    cases hq
    have hquiet : ¬ HandsOn job
        (failedRow now (releaseRow stage code errorType message now job)) := by
      simp [HandsOn, failedRow, hk]
    exact released_moves hm hstep hquiet hne row now (appendJobActivity_frame h)
  · rw [if_neg hk] at hq
    exact ended_moves hm hstep (.inr ⟨rfl, hk⟩) hne (appendJobActivity_frame h) hq

lemma canRetry_ok {retryable again : Bool} {attemptCount maxAttempts : ℕ}
    (h : RetryPolicy.canRetry retryable attemptCount maxAttempts = .ok again) :
    again = (retryable && decide (attemptCount < maxAttempts)) := by
  obtain ⟨_, _, h⟩ := bind_ok h
  cases h
  rfl

lemma fail_ok {queue : JobQueue} {claim : ClaimedJob} {failure : JobFailure} {now : Instant}
    {row : RowDefaults} {db db' : Database} {retried : Bool}
    (h : queue.fail claim failure now row db = .ok (retried, db')) :
    ∃ job job', ownedJob db claim = some job ∧ job'.claimToken = none ∧
      job'.status = (if retried then .queued else .failed) ∧
      Moves db job job' row now db' ∧ db'.documents = db.documents := by
  obtain ⟨job, hj, h⟩ := bind_ok h
  rw [lockOwnedJob, found_ok] at hj
  obtain ⟨hm, ho⟩ := ownedJob_some hj
  obtain ⟨willRetry, hw, h⟩ := bind_ok h
  have hretry := canRetry_ok hw
  cases willRetry with
  | true =>
    obtain ⟨delay, _, h⟩ := bind_ok h
    obtain ⟨availableAt, _, h⟩ := bind_ok h
    obtain ⟨db₁, ha, h⟩ := bind_ok h
    cases h
    have hlt := hretry.symm
    rw [Bool.and_eq_true, decide_eq_true_eq] at hlt
    exact ⟨job, _, hj, rfl, rfl, retried_moves hm ho.2.1 hlt.2 ha row⟩
  | false =>
    obtain ⟨db₁, ha, h⟩ := bind_ok h
    obtain ⟨db₂, hq, h⟩ := bind_ok h
    cases h
    exact ⟨job, _, hj, rfl, rfl, failed_moves hm ho.2.1 ha hq⟩

lemma recoverJob_ok {queue : JobQueue} {now : Instant} {rows : JobId → RowDefaults}
    {acc acc' : RecoverySummary × Database} {job : ProcessingJob}
    (hm : job ∈ acc.2.jobs) (hs : job.status = .processing)
    (h : recoverJob queue now rows acc job = .ok acc') :
    ∃ job', job'.claimToken = none ∧ job'.status ≠ .processing ∧
      Moves acc.2 job job' (rows job.id) now acc'.2 ∧ acc'.2.documents = acc.2.documents := by
  obtain ⟨again, hw, h⟩ := bind_ok h
  have hretry := canRetry_ok hw
  cases again with
  | true =>
    obtain ⟨delay, _, h⟩ := bind_ok h
    obtain ⟨availableAt, _, h⟩ := bind_ok h
    obtain ⟨db₁, ha, h⟩ := bind_ok h
    cases h
    have hlt := hretry.symm
    rw [Bool.and_eq_true, decide_eq_true_eq] at hlt
    exact ⟨_, rfl, by simp [retryRow], retried_moves hm hs hlt.2 ha (rows job.id)⟩
  | false =>
    obtain ⟨db₁, ha, h⟩ := bind_ok h
    obtain ⟨db₂, hq, h⟩ := bind_ok h
    cases h
    exact ⟨_, rfl, by simp [failedRow], failed_moves hm hs ha hq⟩

inductive Recovers (rows : JobId → RowDefaults) (now : Instant) :
    Database → List ProcessingJob → Database → Prop
  | nil (db) : Recovers rows now db [] db
  | cons {db job job' jobs db₁ db₂} (hexp : Expired now job) (htoken : job'.claimToken = none)
      (hstatus : job'.status ≠ .processing)
      (hmoves : Moves db job job' (rows job.id) now db₁) (hdocs : db₁.documents = db.documents)
      (hrest : Recovers rows now db₁ jobs db₂) : Recovers rows now db (job :: jobs) db₂

lemma Moves.keeps_other {db db' : Database} {job job' : ProcessingJob} {row : RowDefaults}
    {now : Instant} (h : Moves db job job' row now db') {j : ProcessingJob} (hj : j ∈ db.jobs)
    (hne : j.id ≠ job.id) : j ∈ db'.jobs := by
  rw [h.jobs]
  apply List.mem_append_left
  exact mem_putJob hj (by rwa [h.step.same.1])

lemma Moves.origin {db db' : Database} {job job' : ProcessingJob} {row : RowDefaults} {now : Instant}
    (h : Moves db job job' row now db') {j : ProcessingJob} (hj : j ∈ db'.jobs) :
    (j ∈ db.jobs ∧ j.id ≠ job.id) ∨ j = job' ∨ j ∈ handedOn db.settings job job' row now := by
  rw [h.jobs, List.mem_append] at hj
  rcases hj with hj | hnew
  · rcases mem_putJob_cases hj with rfl | hold
    · exact .inr (.inl rfl)
    · rw [h.step.same.1] at hold
      exact .inl hold
  · exact .inr (.inr hnew)

lemma Moves.mem_moved {db db' : Database} {job job' : ProcessingJob} {row : RowDefaults}
    {now : Instant} (h : Moves db job job' row now db') : job' ∈ db'.jobs := by
  rw [h.jobs]
  apply List.mem_append_left
  exact List.mem_map.mpr ⟨job, h.stored, if_pos h.step.same.1.symm⟩

lemma foldlM_recover {queue : JobQueue} {now : Instant} {rows : JobId → RowDefaults}
    {P : Database → List ProcessingJob → Database → Prop} (hnil : ∀ db, P db [] db)
    (hcons : ∀ {acc acc₁ : RecoverySummary × Database} {job jobs db}, job ∈ acc.2.jobs →
      Expired now job → recoverJob queue now rows acc job = .ok acc₁ → P acc₁.2 jobs db →
      P acc.2 (job :: jobs) db) {jobs : List ProcessingJob} {acc acc' : RecoverySummary × Database}
    (hids : (jobs.map (·.id)).Nodup) (hm : ∀ j ∈ jobs, j ∈ acc.2.jobs ∧ Expired now j)
    (h : jobs.foldlM (recoverJob queue now rows) acc = .ok acc') : P acc.2 jobs acc'.2 := by
  induction jobs generalizing acc with
  | nil =>
    cases h
    exact hnil _
  | cons job jobs ih =>
    rw [List.foldlM_cons] at h
    obtain ⟨acc₁, h₁, h₂⟩ := bind_ok h
    obtain ⟨hjob, hrest⟩ := List.forall_mem_cons.mp hm
    obtain ⟨hnot, hids⟩ := List.nodup_cons.mp hids
    obtain ⟨_, _, _, hmoves, _⟩ := recoverJob_ok hjob.1 hjob.2.1 h₁
    refine hcons hjob.1 hjob.2 h₁ (ih hids ?_ h₂)
    intro j hj
    have hne : j.id ≠ job.id := fun he => hnot (List.mem_map.mpr ⟨j, hj, he⟩)
    exact ⟨hmoves.keeps_other (hrest j hj).1 hne, (hrest j hj).2⟩

lemma foldlM_recovers {queue : JobQueue} {now : Instant} {rows : JobId → RowDefaults}
    {jobs : List ProcessingJob} {acc acc' : RecoverySummary × Database}
    (hids : (jobs.map (·.id)).Nodup) (hm : ∀ j ∈ jobs, j ∈ acc.2.jobs ∧ Expired now j)
    (h : jobs.foldlM (recoverJob queue now rows) acc = .ok acc') :
    Recovers rows now acc.2 jobs acc'.2 := by
  refine foldlM_recover (P := Recovers rows now) .nil (fun hjob hexpired h₁ hrest => ?_) hids hm h
  obtain ⟨_, htoken, hstatus, hmoves, hdocs⟩ := recoverJob_ok hjob hexpired.1 h₁
  exact .cons hexpired htoken hstatus hmoves hdocs hrest

abbrev UniqueJobIds (db : Database) : Prop := (db.jobs.map (·.id)).Nodup

lemma expiredJobs_ids {db : Database} (hids : UniqueJobIds db) (now : Instant) (limit : ℕ)
    (locked : List JobId) : ((expiredJobs db now limit locked).map (·.id)).Nodup := by
  have hfilter : ((db.jobs.filter (fun j => Expired now j ∧ j.id ∉ locked)).map (·.id)).Nodup :=
    hids.sublist (List.filter_sublist.map _)
  have hsorted := ((List.perm_insertionSort ExpiryOrder _).map (·.id)).nodup_iff.mpr hfilter
  exact hsorted.sublist ((List.take_sublist _ _).map _)

lemma recoverExpired_ok {queue : JobQueue} {now : Instant} {limit : ℕ} {locked : List JobId}
    {rows : JobId → RowDefaults} {db db' : Database} {summary : RecoverySummary}
    (hids : UniqueJobIds db)
    (h : queue.recoverExpired now limit locked rows db = .ok (summary, db')) :
    Recovers rows now db (expiredJobs db now limit locked) db' := by
  obtain ⟨_, _, h⟩ := bind_ok h
  have hrun := foldlM_recovers (expiredJobs_ids hids now limit locked) (fun _ => mem_expiredJobs) h
  exact hrun

end AudioServer.Jobs.Effects
