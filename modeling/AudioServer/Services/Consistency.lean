import AudioServer.Jobs.Fence
import AudioServer.Services.Transactions

/-! What the tables of recordings and jobs always satisfy together. -/

namespace AudioServer.Services.Consistency

open AudioServer.Foundations.Outcomes AudioServer.Foundations.Runs AudioServer.Db.Models
open AudioServer.Jobs.Queue AudioServer.Jobs.Effects AudioServer.Jobs.Calls
open AudioServer.Services.Recordings AudioServer.Services.Transactions

def isFullOf (id : RecordingId) (job : ProcessingJob) : Bool :=
  job.kind = .full && job.recordingId = some id

def latestFull (db : Database) (id : RecordingId) : Option ProcessingJob :=
  (db.jobs.filter (isFullOf id)).getLast?

structure RowOk (job : ProcessingJob) : Prop where
  scope : job.recordingId.isSome ≠ job.summaryDate.isSome
  claimed : job.status = .processing ↔ job.claimToken.isSome ∧ job.leaseExpiresAt.isSome
  budget : job.attemptCount ≤ job.maxAttempts
  waiting : job.status = .queued → job.attemptCount < job.maxAttempts
  positive : 1 ≤ job.maxAttempts
  kindScope : job.recordingId = none → job.kind = .dailySummary
  chain : job.followUpKind = none ∨ job.followUpKind = chainedFollowUp job.kind

structure StatusInvariant (db : Database) : Prop where
  jobIds : UniqueJobIds db
  recordingIds : (db.recordings.map (·.id)).Nodup
  rows : ∀ j ∈ db.jobs, RowOk j
  references : ∀ j ∈ db.jobs, ∀ id, j.recordingId = some id → id ∈ db.recordings.map (·.id)
  oneActive : ∀ a ∈ db.jobs, ∀ b ∈ db.jobs, a.active → b.active → a.recordingId.isSome →
    a.recordingId = b.recordingId → a = b
  latest : ∀ r ∈ db.recordings, ∃ j, latestFull db r.id = some j ∧
    r.processingStatus = j.status.recordingStatus
  activeFull : ∀ j ∈ db.jobs, j.active → ∀ id, isFullOf id j → latestFull db id = some j

lemma isFullOf_iff {id : RecordingId} {job : ProcessingJob} :
    isFullOf id job ↔ job.kind = .full ∧ job.recordingId = some id := by
  simp [isFullOf]

lemma latestFull_mem {db : Database} {id : RecordingId} {job : ProcessingJob}
    (h : latestFull db id = some job) : job ∈ db.jobs ∧ isFullOf id job :=
  List.mem_filter.mp (List.mem_of_getLast? h)

lemma latestFull_append {db db' : Database} {id : RecordingId} {new : List ProcessingJob}
    (hjobs : db'.jobs = db.jobs ++ new) (hnew : ∀ n ∈ new, ¬ isFullOf id n) :
    latestFull db' id = latestFull db id := by
  have hnone : new.filter (isFullOf id) = [] := List.filter_eq_nil_iff.mpr hnew
  rw [latestFull, hjobs, List.filter_append, hnone, List.append_nil]
  rfl

lemma latestFull_snoc {db db' : Database} {id : RecordingId} {job : ProcessingJob}
    (hjobs : db'.jobs = db.jobs ++ [job]) (hfull : isFullOf id job) :
    latestFull db' id = some job := by
  rw [latestFull, hjobs, List.filter_append]
  simp [hfull]

lemma latestFull_putJob {db : Database} {id : RecordingId} {job job' : ProcessingJob}
    (hids : UniqueJobIds db) (hm : job ∈ db.jobs) (hsame : SameJob job job') :
    latestFull (db.putJob job') id =
      (latestFull db id).map (fun j => if j.id = job'.id then job' else j) := by
  rw [latestFull, latestFull, ← List.getLast?_map, Database.putJob, List.filter_map]
  congr 2
  apply List.filter_congr
  intro j hj
  by_cases he : j.id = job'.id
  · have hj' : j = job := List.inj_on_of_nodup_map hids hj hm (he.trans hsame.1)
    subst hj'
    simp [he, isFullOf, hsame.2.1, hsame.2.2.2.1]
  · simp [he]

lemma followUpOf_kind {settings : Option ProcessingSettings} {job : ProcessingJob} {kind : JobKind}
    (h : followUpOf settings job = some kind) : kind = .analysis ∨ kind = .translation := by
  obtain ⟨first, _, hfirst⟩ := Option.bind_eq_some_iff.mp h
  have hruns : (readAutomaticFollowUps settings).runs kind := by
    have hpass : ∀ n k, passOver (readAutomaticFollowUps settings) n k = some kind →
        (readAutomaticFollowUps settings).runs kind := by
      intro n
      induction n with
      | zero => exact nofun
      | succ n ih =>
        intro k hk
        rw [passOver] at hk
        split at hk
        · rename_i hrun
          cases hk
          exact hrun
        · obtain ⟨k', _, hk'⟩ := Option.bind_eq_some_iff.mp hk
          exact ih k' hk'
    exact hpass 4 first hfirst
  cases kind with
  | analysis => exact .inl rfl
  | translation => exact .inr rfl
  | full => cases hruns
  | dailySummary => cases hruns

lemma handedOn_mem {settings : Option ProcessingSettings} {job job' n : ProcessingJob}
    {row : RowDefaults} {now : Instant} (h : n ∈ handedOn settings job job' row now) :
    HandsOn job job' ∧ job.recordingId.isSome ∧
      ∃ kind, followUpOf settings job = some kind ∧ n = followUpJob job kind row now := by
  by_cases hends : HandsOn job job'
  · rw [handedOn_of hends] at h
    cases hr : job.recordingId with
    | none => simp [handOff, hr] at h
    | some id =>
      cases hk : followUpOf settings job with
      | none => simp [handOff, hr, hk] at h
      | some kind =>
        simp only [handOff, hr, hk, List.mem_singleton] at h
        exact ⟨hends, rfl, kind, rfl, h⟩
  · rw [handedOn_of_not hends] at h
    cases h

lemma handedOn_not_full {settings : Option ProcessingSettings} {job job' n : ProcessingJob}
    {row : RowDefaults} {now : Instant} {id : RecordingId}
    (h : n ∈ handedOn settings job job' row now) : ¬ isFullOf id n := by
  obtain ⟨_, _, kind, hk, rfl⟩ := handedOn_mem h
  rw [isFullOf_iff]
  rintro ⟨hfull, _⟩
  rcases followUpOf_kind hk with rfl | rfl
  · cases hfull
  · cases hfull

lemma handsOn_ended {job job' : ProcessingJob} (h : HandsOn job job') : ¬ job'.active := by
  rcases h with h | ⟨h, _⟩
  · simp [ProcessingJob.active, h, JobStatus.active]
  · simp [ProcessingJob.active, h, JobStatus.active]

lemma newJob_ok {id : JobId} {recordingId : Option RecordingId} {day : Option Day} {kind : JobKind}
    {followUp : Option JobKind} {maxAttempts : ℕ} {availableAt createdAt : Instant}
    (hscope : recordingId.isSome ≠ day.isSome) (hmax : 1 ≤ maxAttempts)
    (hkind : recordingId = none → kind = .dailySummary)
    (hchain : followUp = none ∨ followUp = chainedFollowUp kind) :
    RowOk (newJob id recordingId day kind followUp maxAttempts availableAt createdAt) := by
  refine ⟨hscope, ?_, Nat.zero_le _, fun _ => hmax, hmax, hkind, hchain⟩
  simp [newJob]

lemma rowStep_ok {job job' : ProcessingJob} (h : RowStep job job') (hok : RowOk job) : RowOk job' := by
  obtain ⟨hscope, hclaimed, hbudget, hwaiting, hpositive, hkind, hchain⟩ := hok
  cases h with
  | claimed queue token now hs =>
    refine ⟨hscope, ?_, hwaiting hs, fun hq => absurd hq (by simp [claimRow]), hpositive, hkind, hchain⟩
    simp [claimRow]
  | renewed stage now lease hs =>
    refine ⟨hscope, ?_, hbudget, ?_, hpositive, hkind, hchain⟩
    · simp [renewRow, hs, (hclaimed.mp hs).1]
    · intro hq
      rw [renewRow, hs] at hq
      cases hq
  | completed now hs =>
    refine ⟨hscope, ?_, hbudget, fun hq => absurd hq (by simp [completeRow]), hpositive, hkind, hchain⟩
    simp [completeRow]
  | retried availableAt now stage code errorType message hs hlt =>
    refine ⟨hscope, ?_, hbudget, fun _ => hlt, hpositive, hkind, hchain⟩
    simp [retryRow, releaseRow]
  | failed now stage code errorType message hs =>
    refine ⟨hscope, ?_, hbudget, fun hq => absurd hq (by simp [failedRow]), hpositive, hkind, hchain⟩
    simp [failedRow, releaseRow]

lemma StatusInvariant.unique {db : Database} (h : StatusInvariant db) {a b : ProcessingJob}
    (ha : a ∈ db.jobs) (hb : b ∈ db.jobs) (he : a.id = b.id) : a = b :=
  List.inj_on_of_nodup_map h.jobIds ha hb he

lemma movedRecordings_ids {db : Database} {job job' : ProcessingJob} :
    (movedRecordings db job job').map (·.id) = db.recordings.map (·.id) := by
  rw [movedRecordings]
  split
  · exact setProcessingStatus_ids db _ _
  · rfl

lemma moves_latestFull {db db' : Database} {job job' : ProcessingJob} {row : RowDefaults}
    {now : Instant} (hok : StatusInvariant db) (h : Moves db job job' row now db')
    (id : RecordingId) : latestFull db' id =
      (latestFull db id).map (fun j => if j.id = job.id then job' else j) := by
  have hsame := h.step.same
  rw [latestFull_append h.jobs (fun n hn => handedOn_not_full hn),
    latestFull_putJob hok.jobIds h.stored hsame, hsame.1]

lemma moves_latest {db db' : Database} {job job' : ProcessingJob} {row : RowDefaults}
    {now : Instant} (hok : StatusInvariant db) (h : Moves db job job' row now db') :
    ∀ r ∈ db'.recordings, ∃ j, latestFull db' r.id = some j ∧
      r.processingStatus = j.status.recordingStatus := by
  obtain ⟨_, hrec, _, hkind, _⟩ := h.step.same
  intro r hr
  rw [h.recordings, movedRecordings] at hr
  by_cases hmoves : job'.kind = .full ∧ job'.status ≠ job.status
  · rw [if_pos hmoves] at hr
    obtain ⟨old, hold, rfl⟩ := List.mem_map.mp hr
    by_cases hown : some old.id = job'.recordingId
    · have hfull : isFullOf old.id job := by
        rw [isFullOf_iff, ← hkind, ← hrec]
        exact ⟨hmoves.1, hown.symm⟩
      have hlast := hok.activeFull job h.stored h.step.active old.id hfull
      refine ⟨job', ?_, by simp [hown]⟩
      rw [if_pos hown, moves_latestFull hok h, hlast]
      simp
    · obtain ⟨j, hj, hstatus⟩ := hok.latest old hold
      rw [if_neg hown]
      refine ⟨j, ?_, hstatus⟩
      have hne : j.id ≠ job.id := by
        intro he
        have hjob := hok.unique (latestFull_mem hj).1 h.stored he
        rw [← hjob] at hrec
        exact hown ((isFullOf_iff.mp (latestFull_mem hj).2).2.symm.trans hrec.symm)
      rw [moves_latestFull hok h, hj]
      simp [hne]
  · rw [if_neg hmoves] at hr
    obtain ⟨j, hj, hstatus⟩ := hok.latest r hr
    rw [moves_latestFull hok h, hj]
    by_cases he : j.id = job.id
    · have hjob := hok.unique (latestFull_mem hj).1 h.stored he
      have hfull : job'.kind = .full := by
        rw [hkind, ← hjob]
        exact (isFullOf_iff.mp (latestFull_mem hj).2).1
      have hkeep : job'.status = j.status := by
        rw [hjob]
        by_contra hne
        exact hmoves ⟨hfull, hne⟩
      exact ⟨job', by simp [he], hkeep ▸ hstatus⟩
    · exact ⟨j, by simp [he], hstatus⟩

lemma moves_oneActive {db db' : Database} {job job' : ProcessingJob} {row : RowDefaults}
    {now : Instant} (hok : StatusInvariant db) (h : Moves db job job' row now db') :
    ∀ a ∈ db'.jobs, ∀ b ∈ db'.jobs, a.active → b.active → a.recordingId.isSome →
      a.recordingId = b.recordingId → a = b := by
  have hrec : job'.recordingId = job.recordingId := h.step.same.2.1
  -- A row that was there before shares its recording with `job` only if it is `job`.
  have hold : ∀ a ∈ db.jobs, a.id ≠ job.id → a.active → job.recordingId.isSome →
      a.recordingId ≠ job.recordingId := by
    intro a ha hne hactive hscope he
    exact hne (congrArg _ (hok.oneActive a ha job h.stored hactive h.step.active (he ▸ hscope) he))
  have hnewold : ∀ n ∈ handedOn db.settings job job' row now, n.recordingId = job.recordingId ∧
      job.recordingId.isSome ∧ ¬ job'.active := by
    intro n hn
    obtain ⟨hends, hscope, kind, _, rfl⟩ := handedOn_mem hn
    exact ⟨rfl, hscope, handsOn_ended hends⟩
  have hnew : ∀ n ∈ handedOn db.settings job job' row now,
      ∀ m ∈ handedOn db.settings job job' row now, n = m := by
    rcases handedOn_cases db.settings job job' row now with hnone | ⟨kind, _, _, hone⟩
    · rw [hnone]
      intro n hn
      exact absurd hn List.not_mem_nil
    · rw [hone]
      intro n hn m hm
      rw [List.mem_singleton.mp hn, List.mem_singleton.mp hm]
  intro a ha b hb hactive hactive' hscope he
  rcases h.origin ha with ⟨ha, hane⟩ | rfl | hna
  · rcases h.origin hb with ⟨hb, _⟩ | rfl | hnb
    · exact hok.oneActive a ha b hb hactive hactive' hscope he
    · rw [hrec] at he
      exact absurd he (hold a ha hane hactive (he ▸ hscope))
    · rw [(hnewold b hnb).1] at he
      exact absurd he (hold a ha hane hactive (he ▸ hscope))
  · rcases h.origin hb with ⟨hb, hbne⟩ | rfl | hnb
    · rw [hrec] at he hscope
      exact absurd he.symm (hold b hb hbne hactive' hscope)
    · rfl
    · exact absurd hactive (hnewold b hnb).2.2
  · rcases h.origin hb with ⟨hb, hbne⟩ | rfl | hnb
    · rw [(hnewold a hna).1] at he
      exact absurd he.symm (hold b hb hbne hactive' (hnewold a hna).2.1)
    · exact absurd hactive' (hnewold a hna).2.2
    · exact hnew a hna b hnb

lemma moved_consistent {token : Option ClaimToken} {db db' : Database} (hok : StatusInvariant db)
    (hmoved : Moved token db db') : StatusInvariant db' := by
  have hids := hmoved.uniqueJobIds hok.jobIds
  obtain ⟨job, job', row, now, h, _⟩ := hmoved
  obtain ⟨hid, hrec, _, hkind, _⟩ := h.step.same
  have hjob := hok.rows job h.stored
  have hrecs : db'.recordings.map (·.id) = db.recordings.map (·.id) := by
    rw [h.recordings, movedRecordings_ids]
  refine ⟨hids, hrecs ▸ hok.recordingIds, ?_, ?_, moves_oneActive hok h, moves_latest hok h, ?_⟩
  · intro j hj
    rcases h.origin hj with ⟨hold, _⟩ | rfl | hnew
    · exact hok.rows j hold
    · exact rowStep_ok h.step hjob
    · obtain ⟨_, hscope, kind, hk, rfl⟩ := handedOn_mem hnew
      refine newJob_ok (by simp [hscope]) hjob.positive ?_ (.inr rfl)
      intro hnone
      simp [hnone] at hscope
  · intro j hj id he
    rw [hrecs]
    rcases h.origin hj with ⟨hold, _⟩ | rfl | hnew
    · exact hok.references j hold id he
    · exact hok.references job h.stored id (hrec ▸ he)
    · obtain ⟨_, _, kind, _, rfl⟩ := handedOn_mem hnew
      exact hok.references job h.stored id he
  · intro j hj hactive id hfull
    rw [moves_latestFull hok h]
    rcases h.origin hj with ⟨hold, hne⟩ | rfl | hnew
    · rw [hok.activeFull j hold hactive id hfull]
      simp [hne]
    · have hfull' : isFullOf id job := by
        rw [isFullOf_iff, ← hkind, ← hrec]
        exact isFullOf_iff.mp hfull
      rw [hok.activeFull job h.stored h.step.active id hfull']
      simp
    · exact absurd hfull (handedOn_not_full hnew)

lemma queueStep_consistent {db db' : Database} {call : QueueCall} (h : QueueStep db call db')
    (hok : StatusInvariant db) : StatusInvariant db' :=
  h.keeps StatusInvariant (fun _ _ => moved_consistent) hok.jobIds hok

lemma inserted_consistent {db db' : Database} {job : ProcessingJob} (hok : StatusInvariant db)
    (hrow : RowOk job) (hfresh : ∀ j ∈ db.jobs, j.id ≠ job.id)
    (hidle : job.recordingId.isSome → ∀ j ∈ db.jobs, j.active → j.recordingId ≠ job.recordingId)
    (hjobs : db'.jobs = db.jobs ++ [job]) (hrecs : (db'.recordings.map (·.id)).Nodup)
    (hsub : ∀ id ∈ db.recordings.map (·.id), id ∈ db'.recordings.map (·.id))
    (href : ∀ id, job.recordingId = some id → id ∈ db'.recordings.map (·.id))
    (hlatest : ∀ r ∈ db'.recordings,
      (isFullOf r.id job ∧ r.processingStatus = job.status.recordingStatus) ∨
      (¬ isFullOf r.id job ∧ ∃ j, latestFull db r.id = some j ∧
        r.processingStatus = j.status.recordingStatus)) : StatusInvariant db' := by
  have hmem : ∀ {j}, j ∈ db'.jobs → j ∈ db.jobs ∨ j = job := by
    intro j hj
    rwa [hjobs, List.mem_append, List.mem_singleton] at hj
  refine ⟨?_, hrecs, ?_, ?_, ?_, ?_, ?_⟩
  · rw [UniqueJobIds, hjobs, List.map_append, List.map_singleton, List.nodup_append]
    refine ⟨hok.jobIds, List.nodup_singleton _, ?_⟩
    intro a ha b hb he
    obtain ⟨j, hj, rfl⟩ := List.mem_map.mp ha
    exact hfresh j hj (he.trans (List.mem_singleton.mp hb))
  · intro j hj
    rcases hmem hj with hold | rfl
    · exact hok.rows j hold
    · exact hrow
  · intro j hj id he
    rcases hmem hj with hold | rfl
    · exact hsub id (hok.references j hold id he)
    · exact href id he
  · intro a ha b hb hactive hactive' hscope he
    rcases hmem ha with ha | rfl
    · rcases hmem hb with hb | rfl
      · exact hok.oneActive a ha b hb hactive hactive' hscope he
      · exact absurd he (hidle (he ▸ hscope) a ha hactive)
    · rcases hmem hb with hb | rfl
      · exact absurd he.symm (hidle hscope b hb hactive')
      · rfl
  · intro r hr
    rcases hlatest r hr with ⟨hfull, hs⟩ | ⟨hnot, j, hj, hs⟩
    · exact ⟨job, latestFull_snoc hjobs hfull, hs⟩
    · refine ⟨j, ?_, hs⟩
      rw [latestFull_append hjobs, hj]
      intro n hn
      rwa [List.mem_singleton.mp hn]
  · intro j hj hactive id hfull
    rcases hmem hj with hold | rfl
    · by_cases hnew : isFullOf id job
      · have hrec := (isFullOf_iff.mp hnew).2
        refine absurd ?_ (hidle (by simp [hrec]) j hold hactive)
        rw [(isFullOf_iff.mp hfull).2, hrec]
      · rw [latestFull_append hjobs]
        · exact hok.activeFull j hold hactive id hfull
        · intro n hn
          rwa [List.mem_singleton.mp hn]
    · exact latestFull_snoc hjobs hfull

lemma enqueued_consistent {service : RecordingService} {id : RecordingId}
    {allowed : List RecordingStatus} {code message : String} {kind : JobKind} {needsTranscript : Bool}
    {row : RowDefaults} {now : Instant} {db db' : Database} {job : ProcessingJob}
    (hok : StatusInvariant db)
    (h : enqueueProcessing service id allowed code message kind needsTranscript row now db =
      .ok (job, db')) : StatusInvariant db' := by
  obtain ⟨rfl, ⟨owner, howner, rfl⟩, hidle, hjobs, hrecs, _, _, hmax, hfresh⟩ := enqueueProcessing_ok h
  have hids : db'.recordings.map (·.id) = db.recordings.map (·.id) := by
    rw [hrecs]
    split
    · exact setProcessingStatus_ids db _ _
    · rfl
  have hrow : RowOk (enqueuedJob service owner.id kind row now) := by
    refine newJob_ok (by simp) hmax (fun hnone => nomatch hnone) ?_
    by_cases hk : kind = .full
    · exact .inr (if_pos hk)
    · exact .inl (if_neg hk)
  refine inserted_consistent hok hrow hfresh (fun _ => activeJob_none.mp hidle) hjobs
    (hids ▸ hok.recordingIds) (fun _ hid => hids ▸ hid) ?_ ?_
  · rintro id he
    rw [hids]
    cases he
    exact List.mem_map_of_mem howner
  · intro r hr
    rw [hrecs] at hr
    have hfull : ∀ id, isFullOf id (enqueuedJob service owner.id kind row now) ↔
        kind = .full ∧ owner.id = id := by
      intro id
      simp [isFullOf_iff, enqueuedJob, newJob]
    by_cases hk : kind = .full
    · rw [if_pos hk] at hr
      obtain ⟨old, hold, rfl⟩ := List.mem_map.mp hr
      by_cases hown : some old.id = some owner.id
      · rw [if_pos hown]
        exact .inl ⟨(hfull _).mpr ⟨hk, (Option.some.inj hown).symm⟩, rfl⟩
      · rw [if_neg hown]
        refine .inr ⟨?_, hok.latest old hold⟩
        rw [hfull]
        rintro ⟨_, he⟩
        exact hown (congrArg some he.symm)
    · rw [if_neg hk] at hr
      exact .inr ⟨by simp [hfull, hk], hok.latest r hr⟩

lemma created_consistent {service : RecordingService} {recording created : Recording}
    {row : RowDefaults} {now : Instant} {db db' : Database} (hok : StatusInvariant db)
    (h : createRecordingAndJob service recording row now db = .ok (created, db')) :
    StatusInvariant db' := by
  obtain ⟨hcreated, hinsert, hrecs, hjobs, _, _, hmax, hfresh⟩ := createRecordingAndJob_ok h
  obtain ⟨_, hnew, _⟩ := insertRecording_ok hinsert
  have hids : db'.recordings.map (·.id) = db.recordings.map (·.id) ++ [created.id] := by
    rw [hrecs, List.map_append, List.map_singleton]
  have hrow : RowOk (initialJob service created row now) :=
    newJob_ok (by simp) hmax (fun hnone => nomatch hnone) (.inr rfl)
  refine inserted_consistent hok hrow hfresh ?_ hjobs ?_ ?_ ?_ ?_
  · rintro - j hj - he
    obtain ⟨r, hr, hid⟩ := List.mem_map.mp (hok.references j hj created.id he)
    exact hnew r hr hid
  · rw [hids, List.nodup_append]
    refine ⟨hok.recordingIds, List.nodup_singleton _, ?_⟩
    intro a ha b hb he
    obtain ⟨r, hr, rfl⟩ := List.mem_map.mp ha
    exact hnew r hr (he.trans (List.mem_singleton.mp hb))
  · intro id hid
    rw [hids]
    exact List.mem_append_left _ hid
  · intro id he
    cases he
    rw [hids]
    simp
  · intro r hr
    rw [hrecs, List.mem_append, List.mem_singleton] at hr
    rcases hr with hold | rfl
    · refine .inr ⟨?_, hok.latest r hold⟩
      rw [isFullOf_iff]
      rintro ⟨_, he⟩
      exact hnew r hold (Option.some.inj he).symm
    · refine .inl ⟨isFullOf_iff.mpr ⟨rfl, rfl⟩, ?_⟩
      rw [hcreated]
      rfl

lemma deleted_consistent {id : RecordingId} {db db' : Database} {u : Unit} (hok : StatusInvariant db)
    (h : deleteRecording id db = .ok (u, db')) : StatusInvariant db' := by
  obtain ⟨hidle, hrecs, hjobs, _, _⟩ := deleteRecording_ok h
  have hmem : ∀ {j}, j ∈ db'.jobs ↔ j ∈ db.jobs ∧ j.recordingId ≠ some id := by
    intro j
    simp [hjobs]
  have hmemr : ∀ {r}, r ∈ db'.recordings ↔ r ∈ db.recordings ∧ r.id ≠ id := by
    intro r
    simp [hrecs]
  have hlatest : ∀ other, other ≠ id → latestFull db' other = latestFull db other := by
    intro other hne
    rw [latestFull, latestFull, hjobs, List.filter_filter]
    congr 1
    apply List.filter_congr
    intro j _
    by_cases hfull : isFullOf other j
    · simp [hfull, (isFullOf_iff.mp hfull).2, hne]
    · simp [hfull]
  refine ⟨?_, ?_, ?_, ?_, ?_, ?_, ?_⟩
  · rw [UniqueJobIds, hjobs]
    exact hok.jobIds.sublist (List.filter_sublist.map _)
  · exact hrecs ▸ hok.recordingIds.sublist (List.filter_sublist.map _)
  · exact fun j hj => hok.rows j (hmem.mp hj).1
  · intro j hj other he
    obtain ⟨hold, hne⟩ := hmem.mp hj
    obtain ⟨r, hr, rfl⟩ := List.mem_map.mp (hok.references j hold other he)
    refine List.mem_map_of_mem (hmemr.mpr ⟨hr, ?_⟩)
    rintro rfl
    exact hne he
  · exact fun a ha b hb => hok.oneActive a (hmem.mp ha).1 b (hmem.mp hb).1
  · intro r hr
    obtain ⟨hold, hne⟩ := hmemr.mp hr
    rw [hlatest r.id hne]
    exact hok.latest r hold
  · intro j hj hactive other hfull
    obtain ⟨hold, hne⟩ := hmem.mp hj
    have hother : other ≠ id := by
      rintro rfl
      exact hne (isFullOf_iff.mp hfull).2
    rw [hlatest other hother]
    exact hok.activeFull j hold hactive other hfull

lemma dailySummary_consistent {db db' : Database} {day : Day} {maxAttempts : ℕ}
    {availableAt : Instant} {row : RowDefaults} (hok : StatusInvariant db)
    (h : createDailySummaryJob db day maxAttempts availableAt row = .ok db') :
    StatusInvariant db' := by
  obtain ⟨rfl, hmax, hfresh⟩ := createDailySummaryJob_ok h
  have hrow : RowOk (newJob row.id none (some day) .dailySummary none maxAttempts availableAt
      row.createdAt) := newJob_ok (by simp) hmax (fun _ => rfl) (.inl rfl)
  refine inserted_consistent hok hrow hfresh nofun rfl hok.recordingIds (fun _ hid => hid) nofun ?_
  intro r hr
  refine .inr ⟨?_, hok.latest r hr⟩
  rw [isFullOf_iff]
  rintro ⟨hk, _⟩
  cases hk

lemma serverStep_consistent {db db' : Database} {call : ServerCall} (hok : StatusInvariant db)
    (h : ServerStep db call db') : StatusInvariant db' := by
  rcases serverStep_cases h with hexec | rfl
  · cases call with
    | queue call => exact queueStep_consistent (queueStep_of_server h) hok
    | create service recording row now =>
      obtain ⟨_, hc⟩ := forget_ok hexec
      exact created_consistent hok hc
    | retry service id row now =>
      obtain ⟨_, hc⟩ := forget_ok hexec
      exact enqueued_consistent hok hc
    | reprocess service id row now =>
      obtain ⟨_, hc⟩ := forget_ok hexec
      exact enqueued_consistent hok hc
    | reprocessAnalysis service id row now =>
      obtain ⟨_, hc⟩ := forget_ok hexec
      exact enqueued_consistent hok hc
    | reprocessTranslation service id row now =>
      obtain ⟨_, hc⟩ := forget_ok hexec
      exact enqueued_consistent hok hc
    | deleteRecording id => exact deleted_consistent hok hexec
    | dailySummary day maxAttempts availableAt row =>
      exact dailySummary_consistent hok (dailySummary_exec hexec)
    | switches settings =>
      cases hexec
      exact ⟨hok.jobIds, hok.recordingIds, hok.rows, hok.references, hok.oneActive, hok.latest,
        hok.activeFull⟩
  · exact hok

lemma empty_consistent (settings : Option ProcessingSettings) :
    StatusInvariant (Database.empty settings) where
  jobIds := List.nodup_nil
  recordingIds := List.nodup_nil
  rows _ hj := absurd hj List.not_mem_nil
  references _ hj := absurd hj List.not_mem_nil
  oneActive _ ha := absurd ha List.not_mem_nil
  latest _ hr := absurd hr List.not_mem_nil
  activeFull _ hj := absurd hj List.not_mem_nil

lemma serverRun_consistent {db db' : Database} {es : List (Event Database ServerCall)}
    (hrun : ServerRun db es db') (hok : StatusInvariant db) : StatusInvariant db' :=
  hrun.keeps StatusInvariant (fun _ _ _ => serverStep_consistent) hok

lemma length_le_one {α : Type} {xs : List α} (hnodup : xs.Nodup)
    (hsame : ∀ a ∈ xs, ∀ b ∈ xs, a = b) : xs.length ≤ 1 := by
  rcases xs with _ | ⟨a, _ | ⟨b, rest⟩⟩
  · exact Nat.zero_le _
  · exact le_rfl
  · have hab : a = b := hsame a (by simp) b (by simp)
    simp [hab] at hnodup

lemma StatusInvariant.activeJobs_length {db : Database} (hok : StatusInvariant db)
    (id : RecordingId) :
    (db.jobs.filter (fun j => j.recordingId = some id ∧ j.active)).length ≤ 1 := by
  apply length_le_one (hok.jobIds.of_map.filter _)
  intro a ha b hb
  simp only [List.mem_filter, decide_eq_true_eq] at ha hb
  obtain ⟨ha, hra, haa⟩ := ha
  obtain ⟨hb, hrb, hab⟩ := hb
  exact hok.oneActive a ha b hb haa hab (by simp [hra]) (hra.trans hrb.symm)

structure StatusesAgree (db : Database) : Prop where
  oneActive : ∀ id, (db.jobs.filter (fun j => j.recordingId = some id ∧ j.active)).length ≤ 1
  latest : ∀ r ∈ db.recordings, ∃ j, latestFull db r.id = some j ∧
    r.processingStatus = j.status.recordingStatus
  claimed : ∀ j ∈ db.jobs, j.status = .processing ↔ j.claimToken.isSome ∧ j.leaseExpiresAt.isSome
  waiting : ∀ j ∈ db.jobs, j.status = .queued → j.attemptCount < j.maxAttempts
  budget : ∀ j ∈ db.jobs, j.attemptCount ≤ j.maxAttempts

theorem statuses_agree {settings : Option ProcessingSettings} {db : Database}
    {es : List (Event Database ServerCall)} (hrun : ServerRun (Database.empty settings) es db) :
    StatusesAgree db := by
  have hok := serverRun_consistent hrun (empty_consistent settings)
  exact ⟨hok.activeJobs_length, hok.latest, fun j hj => (hok.rows j hj).claimed,
    fun j hj => (hok.rows j hj).waiting, fun j hj => (hok.rows j hj).budget⟩

def exampleService : RecordingService := ⟨1000, 60, 2⟩

def exampleRecording : Recording :=
  ⟨1, "device".toList, "ab".toList, 10, ⟨0, 1, "wav".toList⟩, 0, 5, .uploaded⟩

def exampleWorker : JobQueue := Jobs.Fence.exampleQueue

theorem statuses_agree_after_expiry :
    let create := ServerCall.create exampleService exampleRecording ⟨1, 0⟩ 0
    let claim := ServerCall.queue (.claimNext exampleWorker 0 7 none [])
    let recover := ServerCall.queue (.recoverExpired exampleWorker 100 10 [] (fun _ => ⟨2, 0⟩))
    let db₁ := settled (Database.empty none) (create.exec (Database.empty none))
    let db₂ := settled db₁ (claim.exec db₁)
    let db₃ := settled db₂ (recover.exec db₂)
    db₂.recordings.map (·.processingStatus) = [.processing] ∧
      db₃.recordings.map (·.processingStatus) = [.queued] ∧ StatusesAgree db₃ := by
  intro create claim recover db₁ db₂ db₃
  refine ⟨by decide, by decide, ?_⟩
  have hrun : ServerRun (Database.empty none)
      [⟨Database.empty none, create, db₁⟩, ⟨db₁, claim, db₂⟩, ⟨db₂, recover, db₃⟩] db₃ :=
    .cons rfl (.cons rfl (.single rfl))
  exact statuses_agree hrun

end AudioServer.Services.Consistency
