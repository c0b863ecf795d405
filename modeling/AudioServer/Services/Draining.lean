import AudioServer.Foundations.Pools
import AudioServer.Services.BoundedWork
import AudioServer.Services.RowRules

/-! The queue drains: every change of a job's status uses up some of the work that is left, and no
reachable state is stuck while a job is active. -/

namespace AudioServer.Services.Draining

open AudioServer.Foundations.Outcomes AudioServer.Foundations.Runs AudioServer.Foundations.Budgets
open AudioServer.Foundations.Strings AudioServer.Foundations.Pools
open AudioServer.Db.Models AudioServer.Activity.Repository
open AudioServer.Jobs.Queue AudioServer.Jobs.Effects AudioServer.Jobs.Calls
open AudioServer.Services.Recordings AudioServer.Services.Transactions
open AudioServer.Services.Consistency AudioServer.Services.FollowUp AudioServer.Services.RowRules
open AudioServer.Services.BoundedWork

/-- Each attempt is a change to `processing` and a change out of it. -/
def changesOwed (job : ProcessingJob) : ℕ :=
  2 * attemptsOwed job + if job.status = .processing then 1 else 0

def changesLeft (db : Database) : ℕ := (db.jobs.map changesOwed).sum

def Kept (db db' : Database) : Prop :=
  ∀ j ∈ db.jobs, ∃ j' ∈ db'.jobs, j'.id = j.id ∧ j'.status = j.status

instance (db db' : Database) : Decidable (Kept db db') :=
  inferInstanceAs (Decidable (∀ j ∈ db.jobs, ∃ j' ∈ db'.jobs, _ ∧ _))

def changesMade (e : Event Database ServerCall) : ℕ := if Kept e.before e.after then 0 else 1

def ByWorker (call : ServerCall) : Prop := ∃ q, call = .queue q

def Finished (db : Database) : Prop := ∀ j ∈ db.jobs, ¬ j.active

lemma handedOn_changes (settings : Option ProcessingSettings) (job job' : ProcessingJob)
    (row : RowDefaults) (now : Instant) :
    ((handedOn settings job job' row now).map changesOwed).sum =
      2 * ((handedOn settings job job' row now).map attemptsOwed).sum := by
  rcases handedOn_cases settings job job' row now with hnone | ⟨kind, _, _, hone⟩
  · rw [hnone]
    rfl
  · rw [hone]
    rfl

lemma moves_changes {db db' : Database} {job job' : ProcessingJob} {row : RowDefaults} {now : Instant}
    (hok : StatusInvariant db) (h : Moves db job job' row now db') :
    changesLeft db' + (if job'.status = job.status then 0 else 1) ≤ changesLeft db := by
  apply moves_weight changesOwed hok.jobIds h
  have howed := moves_owed (hok.rows job h.stored) h
  rw [handedOn_changes, changesOwed, changesOwed]
  cases h.step with
  | claimed queue token at_ hs =>
    rw [if_pos hs] at howed
    simp only [claimRow, hs, reduceCtorEq, if_true, if_false] at howed ⊢
    omega
  | renewed stage at_ lease hs =>
    simp only [renewRow, hs, reduceCtorEq, if_true, if_false] at howed ⊢
    omega
  | completed at_ hs =>
    simp only [completeRow, hs, reduceCtorEq, if_true, if_false] at howed ⊢
    omega
  | retried availableAt at_ stage code errorType message hs hlt =>
    simp only [retryRow, hs, reduceCtorEq, if_true, if_false] at howed ⊢
    omega
  | failed at_ stage code errorType message hs =>
    simp only [failedRow, hs, reduceCtorEq, if_true, if_false] at howed ⊢
    omega

lemma moves_kept {db db' : Database} {job job' : ProcessingJob} {row : RowDefaults} {now : Instant}
    (hok : StatusInvariant db) (h : Moves db job job' row now db') (hs : job'.status = job.status) :
    Kept db db' := by
  intro j hj
  by_cases he : j.id = job.id
  · obtain rfl := hok.unique hj h.stored he
    exact ⟨job', h.mem_moved, h.step.same.1, hs⟩
  · exact ⟨j, h.keeps_other hj he, rfl, rfl⟩

lemma Kept.trans {s t u : Database} (h : Kept s t) (k : Kept t u) : Kept s u := by
  intro j hj
  obtain ⟨j', hj', hid, hs⟩ := h j hj
  obtain ⟨j'', hj'', hid', hs'⟩ := k j' hj'
  exact ⟨j'', hj'', hid'.trans hid, hs'.trans hs⟩

structure Spends (db db' : Database) : Prop where
  ok : StatusInvariant db'
  less : changesLeft db' ≤ changesLeft db
  spent : Kept db db' ∨ changesLeft db' < changesLeft db

lemma queueStep_spends {db db' : Database} {call : QueueCall} (hok : StatusInvariant db)
    (h : QueueStep db call db') : Spends db db' := by
  apply h.keeps (Spends db) ?_ hok.jobIds
  · exact ⟨hok, Nat.le_refl _, .inl (fun j hj => ⟨j, hj, rfl, rfl⟩)⟩
  · rintro s t ⟨hs, hless, hspent⟩ hmoved
    have ht := moved_consistent hs hmoved
    obtain ⟨job, job', row, now, hm, _⟩ := hmoved
    have hchange := moves_changes hs hm
    by_cases hsame : job'.status = job.status
    · rw [if_pos hsame] at hchange
      refine ⟨ht, by omega, ?_⟩
      rcases hspent with hkept | hlt
      · exact .inl (hkept.trans (moves_kept hs hm hsame))
      · exact .inr (by omega)
    · rw [if_neg hsame] at hchange
      exact ⟨ht, by omega, .inr (by omega)⟩

lemma serverStep_spends {db db' : Database} {call : ServerCall} (hok : StatusInvariant db)
    (hworker : ByWorker call) (h : ServerStep db call db') :
    changesLeft db' + changesMade ⟨db, call, db'⟩ ≤ changesLeft db := by
  obtain ⟨q, rfl⟩ := hworker
  obtain ⟨_, hless, hspent⟩ := queueStep_spends hok (queueStep_of_server h)
  rw [changesMade]
  by_cases hkept : Kept db db'
  · rwa [if_pos hkept]
  · have hlt := hspent.resolve_left hkept
    rw [if_neg hkept]
    exact hlt

def Held (job : ProcessingJob) : Prop := job.status = .processing → job.workerId.isSome

lemma held_rule : RowRule Held where
  fresh _ _ _ _ _ _ _ _ := by
    intro hs
    cases hs
  step job job' hheld h := by
    intro hs
    cases h with
    | claimed => rfl
    | renewed stage now lease hs' => exact hheld hs'
    | completed | retried | failed => cases hs

structure Sound (db : Database) : Prop where
  ok : StatusInvariant db
  held : AllRows Held db

lemma serverStep_sound {db db' : Database} {call : ServerCall} (h : Sound db)
    (hstep : ServerStep db call db') : Sound db' :=
  ⟨serverStep_consistent h.ok hstep, held_rule.serverStep h.ok.jobIds h.held hstep⟩

lemma empty_sound (settings : Option ProcessingSettings) : Sound (Database.empty settings) :=
  ⟨empty_consistent settings, fun _ hj => absurd hj List.not_mem_nil⟩

lemma appendJobActivity_accepts {db : Database} {id : Option RecordingId}
    {event : RecordingId → ProcessingActivity} (hattempts : ∀ r, 1 ≤ (event r).maxAttempts)
    (hretry : ∀ r, (event r).retryScheduled = false) :
    ∃ db', appendJobActivity db id event = .ok db' := by
  cases id with
  | none => exact ⟨db, rfl⟩
  | some r => exact appendActivity_total (hattempts r) (hretry r)

lemma insertJob_accepts {db : Database} {job : ProcessingJob} (hid : ∀ j ∈ db.jobs, j.id ≠ job.id)
    (hscope : job.recordingId.isSome) (hday : job.summaryDate = none)
    (hclash : db.insertJob job ≠ .error activeClash) : ∃ db', db.insertJob job = .ok db' := by
  have hfresh : ¬ db.jobs.any (fun j => j.id = job.id) := by
    simpa using hid
  rw [Database.insertJob, if_neg hfresh, if_neg (by simp [hscope, hday])] at hclash ⊢
  split
  · rename_i hactive
    rw [if_pos hactive] at hclash
    exact absurd rfl hclash
  · rw [if_neg (by simp [hday])]
    exact ⟨_, rfl⟩

lemma queueFollowUp_accepts {db : Database} {job : ProcessingJob} {row : RowDefaults} {now : Instant}
    (hmax : 1 ≤ job.maxAttempts) (hid : ∀ j ∈ db.jobs, j.id ≠ row.id)
    (hclash : queueFollowUp db job row now ≠ .error activeClash) :
    ∃ db', queueFollowUp db job row now = .ok db' := by
  simp only [queueFollowUp] at hclash ⊢
  split
  · rename_i id kind hrec hkind
    simp only [hrec, hkind] at hclash
    have hinsert : db.insertJob (followUpJob job kind row now) ≠ .error activeClash := by
      intro he
      rw [he] at hclash
      exact hclash rfl
    obtain ⟨db₁, hj⟩ := insertJob_accepts hid (by simp [followUpJob, newJob, hrec]) rfl hinsert
    have hrecord : ∃ db₂, appendActivity db₁
        (jobEvent row.id kind 0 job.maxAttempts .jobQueued .queued .queued (now + 1) id) = .ok db₂ :=
      appendActivity_total hmax rfl
    rw [hj, ok_bind]
    exact hrecord
  · exact ⟨db, rfl⟩

lemma ownedJob_of {db : Database} {claim : ClaimedJob} {job : ProcessingJob} (hok : StatusInvariant db)
    (hj : job ∈ db.jobs) (howns : Owns claim job) : ownedJob db claim = some job := by
  apply find_unique hj (decide_eq_true howns)
  intro other hother howns'
  exact hok.unique hother hj ((of_decide_eq_true howns').1.trans howns.1.symm)

lemma complete_accepts {db : Database} {queue : JobQueue} {claim : ClaimedJob} {job : ProcessingJob}
    {now : Instant} {row : RowDefaults} (hok : StatusInvariant db) (hj : job ∈ db.jobs)
    (howns : Owns claim job) (hid : ∀ j ∈ db.jobs, j.id ≠ row.id) :
    ∃ db', queue.complete claim none now row db = .ok ((), db') := by
  have hpositive := (hok.rows job hj).positive
  have hrecord : ∃ db₁, appendJobActivity (transition db (completeRow now job) .completed)
      job.recordingId (jobEvent job.id job.kind job.attemptCount job.maxAttempts
        .processingCompleted .completed .completed now) = .ok db₁ :=
    appendJobActivity_accepts (fun _ => hpositive) (fun _ => rfl)
  obtain ⟨db₁, ha⟩ := hrecord
  have hjobs : db₁.jobs = (db.putJob (completeRow now job)).jobs := by
    rw [(appendJobActivity_frame ha).2.1, transition_jobs]
  have hfresh : ∀ j ∈ db₁.jobs, j.id ≠ row.id := by
    intro j hj₁ he
    have hmem : j.id ∈ db₁.jobs.map (·.id) := List.mem_map_of_mem hj₁
    rw [hjobs, putJob_ids] at hmem
    obtain ⟨k, hk, hke⟩ := List.mem_map.mp hmem
    exact hid k hk (hke.trans he)
  have hstep : RowStep job (completeRow now job) := .completed now howns.2.1
  have hfollow : ∃ db₂, queueFollowUp db₁ (completeRow now job) row now = .ok db₂ :=
    queueFollowUp_accepts hpositive hfresh
      (queueFollowUp_no_clash hok hj hstep Bool.false_ne_true hjobs)
  obtain ⟨db₂, hq⟩ := hfollow
  refine ⟨db₂, ?_⟩
  rw [JobQueue.complete, lockOwnedJob, ownedJob_of hok hj howns, found_some, ok_bind, persistResults,
    ok_bind]
  simp only [completeRow] at ha hq ⊢
  rw [ha, ok_bind, hq]
  rfl

lemma nextClaimable_accepts {db : Database} {now : Instant} {job : ProcessingJob} (hj : job ∈ db.jobs)
    (hs : job.status = .queued) (hnow : job.availableAt ≤ now) :
    ∃ first, nextClaimable db now none [] = some first := by
  cases hnext : nextClaimable db now none [] with
  | some first => exact ⟨first, rfl⟩
  | none =>
    rw [nextClaimable, List.head?_eq_none_iff] at hnext
    have hmem : job ∈ (db.jobs.filter (fun j => Claimable now none j ∧ j.id ∉ [])).insertionSort
        ClaimOrder := by
      rw [List.mem_insertionSort, List.mem_filter]
      refine ⟨hj, decide_eq_true ⟨⟨hs, hnow, ?_⟩, List.not_mem_nil⟩⟩
      intro ks hks
      cases hks
    rw [hnext] at hmem
    cases hmem

lemma claimNext_accepts {db : Database} {queue : JobQueue} {now : Instant} {token : ClaimToken}
    {first : ProcessingJob} (hok : StatusInvariant db)
    (hnext : nextClaimable db now none [] = some first) :
    ∃ claim db', queue.claimNext now token none [] db = .ok (some claim, db') := by
  have hpositive := (hok.rows first (nextClaimable_some hnext).1).positive
  have hrecord : ∃ db₁, appendJobActivity (transition db (claimRow queue token now first) .processing)
      first.recordingId (jobEvent first.id first.kind (first.attemptCount + 1) first.maxAttempts
        .processingStarted .processing (claimedStage first.kind) now) = .ok db₁ :=
    appendJobActivity_accepts (fun _ => hpositive) (fun _ => rfl)
  obtain ⟨db₁, ha⟩ := hrecord
  refine ⟨claimOf queue token (claimRow queue token now first), db₁, ?_⟩
  simp only [JobQueue.claimNext, hnext]
  simp only [claimRow] at ha ⊢
  rw [ha, ok_bind]

structure Change (db : Database) (q : QueueCall) (db' : Database) (job job' : ProcessingJob)
    (row : RowDefaults) (now : Instant) : Prop where
  step : QueueStep db q db'
  moves : Moves db job job' row now db'
  differs : job'.status ≠ job.status

lemma next_change {db : Database} (h : Sound db) (queue : JobQueue) {job : ProcessingJob}
    (hj : job ∈ db.jobs) (hactive : job.active) :
    ∃ q db' moved moved' row now, Change db q db' moved moved' row now := by
  cases hs : job.status with
  | queued =>
    obtain ⟨first, hnext⟩ := nextClaimable_accepts hj hs (le_refl job.availableAt)
    have hclaim : ∃ claim db', queue.claimNext job.availableAt 0 none [] db = .ok (some claim, db') :=
      claimNext_accepts h.ok hnext
    obtain ⟨claim, db', hc⟩ := hclaim
    have hstep : QueueStep db (.claimNext queue job.availableAt 0 none []) db' := by
      rw [QueueStep, QueueCall.exec, hc]
      rfl
    rcases claimNext_ok hc ⟨0, 0⟩ with ⟨hnone, _⟩ | ⟨taken, hnext', _, hmoves, _⟩
    · cases hnone
    · refine ⟨_, db', taken, _, _, _, hstep, hmoves, ?_⟩
      rw [(nextClaimable_some hnext').2.1]
      simp [claimRow]
  | processing =>
    obtain ⟨token, ht⟩ := Option.isSome_iff_exists.mp ((h.ok.rows job hj).claimed.mp hs).1
    obtain ⟨name, hname⟩ := Option.isSome_iff_exists.mp (h.held job hj hs)
    let last := (db.jobs.map (·.id)).sum
    let claim : ClaimedJob := ⟨job.id, job.recordingId, job.kind, token, name, job.attemptCount,
      job.maxAttempts, job.stage, job.summaryDate⟩
    have howns : Owns claim job := ⟨rfl, hs, ht, hname⟩
    have hfresh : ∀ j ∈ db.jobs, j.id ≠ last + 1 := by
      intro j hj' he
      have hle : j.id ≤ last :=
        List.single_le_sum (fun _ _ => Nat.zero_le _) _ (List.mem_map_of_mem hj')
      rw [he] at hle
      exact Nat.not_succ_le_self last hle
    have hdone : ∃ db', queue.complete claim none 0 ⟨last + 1, 0⟩ db = .ok ((), db') :=
      complete_accepts h.ok hj howns hfresh
    obtain ⟨db', hc⟩ := hdone
    have hstep : QueueStep db (.complete queue claim none 0 ⟨last + 1, 0⟩) db' := by
      rw [QueueStep, QueueCall.exec, hc]
      rfl
    obtain ⟨owned, howned, hmoves, _⟩ := complete_ok hc
    refine ⟨_, db', owned, _, _, _, hstep, hmoves, ?_⟩
    rw [(ownedJob_some howned).2.2.1]
    simp [completeRow]
  | completed =>
    rw [ProcessingJob.active, hs] at hactive
    cases hactive
  | failed =>
    rw [ProcessingJob.active, hs] at hactive
    cases hactive

lemma change_not_kept {db db' : Database} {q : QueueCall} {job job' : ProcessingJob}
    {row : RowDefaults} {now : Instant} (hok : StatusInvariant db')
    (h : Change db q db' job job' row now) : ¬ Kept db db' := by
  intro hkept
  obtain ⟨other, hother, hid, hs⟩ := hkept job h.moves.stored
  have hsame := hok.unique hother h.moves.mem_moved (hid.trans h.moves.step.same.1.symm)
  exact h.differs (hsame ▸ hs)

lemma next_step {db : Database} (h : Sound db) (queue : JobQueue) (hbusy : ¬ Finished db) :
    ∃ call db', ByWorker call ∧ ServerStep db call db' ∧ Sound db' ∧ ¬ Kept db db' ∧
      changesLeft db' < changesLeft db := by
  simp only [Finished, not_forall, not_not] at hbusy
  obtain ⟨job, hj, hactive⟩ := hbusy
  obtain ⟨q, db', moved, moved', row, now, hchange⟩ := next_change h queue hj hactive
  have hstep : ServerStep db (.queue q) db' := by
    rw [ServerStep, hchange.step, ServerCall.exec]
    cases q.exec db <;> rfl
  have hsound := serverStep_sound h hstep
  have hnot := change_not_kept hsound.ok hchange
  refine ⟨.queue q, db', ⟨q, rfl⟩, hstep, hsound, hnot, ?_⟩
  exact (queueStep_spends h.ok hchange.step).spent.resolve_left hnot

structure Drains (db : Database) : Prop where
  bounded : ∀ es db', ServerRun db es db' → (∀ e ∈ es, ByWorker e.label) →
    total changesMade es ≤ changesLeft db
  stuck : (∀ call db', ByWorker call → ServerStep db call db' → Kept db db') → Finished db
  reaches : ∃ es db', ServerRun db es db' ∧ (∀ e ∈ es, ByWorker e.label) ∧ Finished db' ∧
    es.length ≤ changesLeft db

lemma workers_within {db db' : Database} {es : List (Event Database ServerCall)}
    (hok : StatusInvariant db) (hrun : ServerRun db es db') (hes : ∀ e ∈ es, ByWorker e.label) :
    changesLeft db' + total changesMade es ≤ changesLeft db := by
  induction hrun with
  | nil => exact Nat.le_refl _
  | @cons s a t es u he _ ih =>
    obtain ⟨hworker, hes⟩ := List.forall_mem_cons.mp hes
    have hfirst : changesLeft t + changesMade ⟨s, a, t⟩ ≤ changesLeft s :=
      serverStep_spends hok hworker he
    have hrest := ih (serverStep_consistent hok he) hes
    rw [total_cons]
    omega

/-- From every reachable state the workers alone end every job, whatever they do on the way. -/
theorem queue_drains {settings : Option ProcessingSettings} {db : Database}
    {es : List (Event Database ServerCall)} (hrun : ServerRun (Database.empty settings) es db) :
    Drains db := by
  have hsound : Sound db := hrun.keeps Sound (fun _ _ _ => serverStep_sound) (empty_sound settings)
  refine ⟨?_, ?_, ?_⟩
  · intro fs db' hfs hworkers
    have hwithin := workers_within hsound.ok hfs hworkers
    omega
  · intro hstuck
    by_contra hbusy
    obtain ⟨call, db', hworker, hstep, _, hnot, _⟩ := next_step hsound exampleWorker hbusy
    exact hnot (hstuck call db' hworker hstep)
  · have hnext : ∀ s, Sound s → ¬ Finished s → ∃ call t, ByWorker call ∧ ServerStep s call t ∧
        Sound t ∧ changesLeft t < changesLeft s := by
      intro s hs hbusy
      obtain ⟨call, t, hworker, hstep, ht, _, hlt⟩ := next_step hs exampleWorker hbusy
      exact ⟨call, t, hworker, hstep, ht, hlt⟩
    obtain ⟨fs, db', hfs, hworkers, hfinished, hlength⟩ :=
      run_to_end Sound Finished ByWorker changesLeft hnext hsound
    exact ⟨fs, db', hfs, hworkers, hfinished, by omega⟩

theorem queue_drains_after_upload :
    let create := ServerCall.create exampleService exampleRecording ⟨1, 0⟩ 0
    let db₁ := settled (Database.empty none) (create.exec (Database.empty none))
    changesLeft db₁ = 12 ∧ Drains db₁ := by
  intro create db₁
  refine ⟨by decide, ?_⟩
  have hrun : ServerRun (Database.empty none) [⟨Database.empty none, create, db₁⟩] db₁ := .single rfl
  exact queue_drains hrun

end AudioServer.Services.Draining
