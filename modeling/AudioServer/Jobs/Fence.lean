import AudioServer.Jobs.Calls

/-! The lease fence over whole runs: what a claim that is no longer held can do. -/

namespace AudioServer.Jobs.Fence

open AudioServer.Foundations.Outcomes AudioServer.Foundations.Runs AudioServer.Db.Models
open AudioServer.Jobs.Queue AudioServer.Jobs.Effects AudioServer.Jobs.Calls

def Held (claim : ClaimedJob) (db : Database) : Prop := ∃ job ∈ db.jobs, Owns claim job

instance (claim : ClaimedJob) (db : Database) : Decidable (Held claim db) :=
  inferInstanceAs (Decidable (∃ job ∈ db.jobs, Owns claim job))

/-- `advance_stage` looks at the stage before it looks at the job. -/
def NamesLifecycleStage : QueueCall → Prop
  | .advanceStage _ _ stage _ => stage = .queued ∨ stage = .completed
  | _ => False

def Refused (call : QueueCall) (db : Database) : Prop :=
  ∃ e, call.exec db = .error e ∧
    (NamesLifecycleStage call →
      e = .valueError "queued/completed stages are controlled by queue lifecycle methods") ∧
    (¬ NamesLifecycleStage call → ∃ message, e = .claimLost message)

lemma ownedJob_none {db : Database} {claim : ClaimedJob} (h : ¬ Held claim db) :
    ownedJob db claim = none := by
  rw [ownedJob, List.find?_eq_none]
  intro job hj ho
  exact h ⟨job, hj, by simpa using ho⟩

lemma ownedJob_held {db : Database} {claim : ClaimedJob} {job : ProcessingJob}
    (h : ownedJob db claim = some job) : Held claim db := ⟨job, ownedJob_some h⟩

lemma exec_refused {call : QueueCall} {claim : ClaimedJob} {db : Database}
    (hc : call.claim = some claim) (hlost : ¬ Held claim db) : Refused call db := by
  have hnone := ownedJob_none hlost
  cases call with
  | claimNext => cases hc
  | recoverExpired => cases hc
  | heartbeat queue c now =>
    cases hc
    refine ⟨.claimLost "processing job lease is no longer owned by this worker", ?_, False.elim, ?_⟩
    · simp only [QueueCall.exec, JobQueue.heartbeat, hnone, found_none, error_bind]
      rfl
    · exact fun _ => ⟨_, rfl⟩
  | complete queue c persister now row =>
    cases hc
    refine ⟨.claimLost "processing job lease is no longer owned by this worker", ?_, False.elim, ?_⟩
    · simp only [QueueCall.exec, JobQueue.complete, lockOwnedJob, hnone, found_none, error_bind]
      rfl
    · exact fun _ => ⟨_, rfl⟩
  | fail queue c failure now row =>
    cases hc
    refine ⟨.claimLost "processing job lease is no longer owned by this worker", ?_, False.elim, ?_⟩
    · simp only [QueueCall.exec, JobQueue.fail, lockOwnedJob, hnone, found_none, error_bind]
      rfl
    · exact fun _ => ⟨_, rfl⟩
  | advanceStage queue c stage now =>
    cases hc
    by_cases hstage : stage = .queued ∨ stage = .completed
    · refine ⟨.valueError "queued/completed stages are controlled by queue lifecycle methods", ?_,
        fun _ => rfl, fun h => absurd hstage h⟩
      have hbad : ¬ (stage ≠ .queued ∧ stage ≠ .completed) := by
        rcases hstage with rfl | rfl <;> simp
      simp only [QueueCall.exec, JobQueue.advanceStage, require_of_not hbad, error_bind]
      rfl
    · refine ⟨.claimLost "cannot update stage after losing the job lease", ?_,
        fun h => absurd h hstage, fun _ => ⟨_, rfl⟩⟩
      have hgood : stage ≠ .queued ∧ stage ≠ .completed := not_or.mp hstage
      simp only [QueueCall.exec, JobQueue.advanceStage, require_of hgood, ok_bind, hnone, found_none,
        error_bind]
      rfl

lemma step_refused {call : QueueCall} {claim : ClaimedJob} {db db' : Database}
    (h : QueueStep db call db') (hc : call.claim = some claim) (hlost : ¬ Held claim db) :
    db' = db ∧ Refused call db := by
  obtain ⟨e, he, hcase⟩ := exec_refused hc hlost
  exact ⟨by rw [h, he, settled_error], e, he, hcase⟩

lemma job_unique {db : Database} (hids : UniqueJobIds db) {a b : ProcessingJob} (ha : a ∈ db.jobs)
    (hb : b ∈ db.jobs) (h : a.id = b.id) : a = b :=
  List.inj_on_of_nodup_map hids ha hb h

lemma moved_terminal {token : Option ClaimToken} {db db' : Database} (hids : UniqueJobIds db)
    (h : Moved token db db') {j : ProcessingJob} (hj : j ∈ db.jobs) (hactive : ¬ j.active) :
    j ∈ db'.jobs := by
  obtain ⟨job, job', row, now, hm, _⟩ := h
  apply hm.keeps_other hj
  intro he
  have hsame : j = job := job_unique hids hj hm.stored he
  exact hactive (hsame ▸ hm.step.active)

lemma step_terminal {db db' : Database} {call : QueueCall} (h : QueueStep db call db')
    (hids : UniqueJobIds db) {j : ProcessingJob} (hj : j ∈ db.jobs) (hactive : ¬ j.active) :
    j ∈ db'.jobs := by
  have hkept : UniqueJobIds db' ∧ j ∈ db'.jobs := by
    apply h.keeps (fun db => UniqueJobIds db ∧ j ∈ db.jobs) ?_ hids ⟨hids, hj⟩
    rintro db db' ⟨hids, hj⟩ hm
    exact ⟨hm.uniqueJobIds hids, moved_terminal hids hm hj hactive⟩
  exact hkept.2

structure OnlyExpired (now : Instant) (db db' : Database) : Prop where
  others : ∀ j ∈ db.jobs, ¬ Expired now j → j ∈ db'.jobs
  changed : ∀ j' ∈ db'.jobs, j' ∈ db.jobs ∨ (∃ j ∈ db.jobs, Expired now j ∧ j.id = j'.id) ∨
    ∀ j ∈ db.jobs, j.id ≠ j'.id

lemma recovers_onlyExpired {rows : JobId → RowDefaults} {now : Instant} {db db' : Database}
    {jobs : List ProcessingJob} (h : Recovers rows now db jobs db') (hids : UniqueJobIds db) :
    OnlyExpired now db db' := by
  induction h with
  | nil => exact ⟨fun _ hj _ => hj, fun _ hj => .inl hj⟩
  | @cons db job job' jobs db₁ db₂ hexp _ _ hmoves _ _ ih =>
    have hmoved : Moved none db db₁ := moves_moved hmoves hexp.1
    obtain ⟨hothers, hchanged⟩ := ih (hmoved.uniqueJobIds hids)
    refine ⟨?_, ?_⟩
    · intro j hj hnot
      apply hothers j ?_ hnot
      apply hmoves.keeps_other hj
      intro he
      exact hnot (job_unique hids hj hmoves.stored he ▸ hexp)
    · intro j' hj'
      have hid : job'.id = job.id := hmoves.step.same.1
      rcases hchanged j' hj' with hj | ⟨j, hj, hexpired, he⟩ | hnew
      · rcases hmoves.origin hj with ⟨hold, _⟩ | rfl | hn
        · exact .inl hold
        · exact .inr (.inl ⟨job, hmoves.stored, hexp, hid.symm⟩)
        · exact .inr (.inr (hmoves.fresh j' hn))
      · rcases hmoves.origin hj with ⟨hold, _⟩ | rfl | hn
        · exact .inr (.inl ⟨j, hold, hexpired, he⟩)
        · exact .inr (.inl ⟨job, hmoves.stored, hexp, hid.symm.trans he⟩)
        · exact .inr (.inr (he ▸ hmoves.fresh j hn))
      · refine .inr (.inr ?_)
        intro j hj he
        by_cases hjob : j.id = job.id
        · exact hnew job' hmoves.mem_moved (hid.trans (hjob.symm.trans he))
        · exact hnew j (hmoves.keeps_other hj hjob) he

def Commits (id : JobId) (e : Event Database QueueCall) : Bool :=
  match e.label with
  | .complete _ claim _ _ _ => claim.id = id && (e.label.exec e.before).isOk
  | _ => false

lemma commits_complete {id : JobId} {db db' : Database} {call : QueueCall} (hstep : QueueStep db call db')
    (h : Commits id ⟨db, call, db'⟩) :
    ∃ queue claim persister now row, call = .complete queue claim persister now row ∧
      claim.id = id ∧ queue.complete claim persister now row db = .ok ((), db') := by
  cases call with
  | complete queue claim persister now row =>
    rcases settled_cases db ((QueueCall.complete queue claim persister now row).exec db) with
      ⟨answer, t, hok, hs⟩ | ⟨e, he, _⟩
    · obtain ⟨_, hcomplete, _⟩ := map_ok hok
      simp only [Commits, Bool.and_eq_true, decide_eq_true_eq] at h
      have ht : db' = t := hstep.trans hs
      exact ⟨queue, claim, persister, now, row, rfl, h.1, ht ▸ hcomplete⟩
    · simp [Commits, he, Except.isOk, Except.toBool] at h
  | _ => simp [Commits] at h

def Ended (id : JobId) (db : Database) : Prop := ∃ job ∈ db.jobs, job.id = id ∧ ¬ job.active

lemma commits_ends {id : JobId} {db db' : Database} {call : QueueCall} (hids : UniqueJobIds db)
    (hstep : QueueStep db call db') (h : Commits id ⟨db, call, db'⟩) :
    ¬ Ended id db ∧ Ended id db' := by
  obtain ⟨queue, claim, persister, now, row, _, rfl, hcomplete⟩ := commits_complete hstep h
  obtain ⟨job, hj, hmoves, _⟩ := complete_ok hcomplete
  obtain ⟨hm, ho⟩ := ownedJob_some hj
  refine ⟨?_, completeRow now job, hmoves.mem_moved, ho.1, nofun⟩
  rintro ⟨other, hother, hid, hended⟩
  have hsame : other = job := job_unique hids hother hm (hid.trans ho.1.symm)
  exact hended (hsame ▸ owns_active ho)

lemma committed_at_most_once {s t : Database} {es : List (Event Database QueueCall)}
    (h : QueueRun s es t) (hids : UniqueJobIds s) (id : JobId) :
    (es.filter (Commits id)).length ≤ 1 := by
  have hstable : ∀ s call t, UniqueJobIds s → QueueStep s call t → Ended id s → Ended id t := by
    rintro s call t hids hs ⟨job, hj, hid, hended⟩
    exact ⟨job, step_terminal hs hids hj hended, hid, hended⟩
  have honce := h.at_most_once UniqueJobIds (Commits id) (Ended id)
    (fun _ _ _ hids hs => hs.uniqueJobIds hids) hstable
    (fun _ _ _ hids hs hc => commits_ends hids hs hc) hids
  exact honce.1

lemma exec_documents {call : QueueCall} {db db' : Database} {answer : Answer} (hids : UniqueJobIds db)
    (h : call.exec db = .ok (answer, db')) : db'.documents = db.documents ∨
      ∃ claim, call.claim = some claim ∧ Commits claim.id ⟨db, call, db'⟩ ∧ Held claim db := by
  let row : RowDefaults := ⟨0, 0⟩
  cases call with
  | claimNext queue now token kinds locked =>
    obtain ⟨_, h, _⟩ := map_ok h
    rcases claimNext_ok h row with ⟨_, rfl⟩ | ⟨_, _, _, _, hd⟩
    · exact .inl rfl
    · exact .inl hd
  | heartbeat queue claim now =>
    obtain ⟨_, h, _⟩ := map_ok h
    obtain ⟨_, _, _, _, _, hd⟩ := heartbeat_ok h row
    exact .inl hd
  | advanceStage queue claim stage now =>
    obtain ⟨_, h, _⟩ := map_ok h
    obtain ⟨_, _, _, _, _, hd⟩ := advanceStage_ok h row
    exact .inl hd
  | complete queue claim persister now row =>
    obtain ⟨_, hc, _⟩ := map_ok h
    obtain ⟨_, hj, _⟩ := complete_ok hc
    refine .inr ⟨claim, rfl, ?_, ownedJob_held hj⟩
    simp [Commits, h, Except.isOk, Except.toBool]
  | fail queue claim failure now row =>
    obtain ⟨_, h, _⟩ := map_ok h
    obtain ⟨_, _, _, _, _, _, hd⟩ := fail_ok h
    exact .inl hd
  | recoverExpired queue now limit locked rows =>
    obtain ⟨_, h, _⟩ := map_ok h
    exact .inl (recovers_documents (recoverExpired_ok hids h))

lemma step_documents {call : QueueCall} {db db' : Database} (hids : UniqueJobIds db)
    (h : QueueStep db call db') (hd : db'.documents ≠ db.documents) :
    ∃ claim, call.claim = some claim ∧ Commits claim.id ⟨db, call, db'⟩ ∧ Held claim db := by
  rcases settled_cases db (call.exec db) with ⟨answer, t, hok, hs⟩ | ⟨e, _, hs⟩
  · rw [h, hs] at hd ⊢
    exact (exec_documents hids hok).resolve_left hd
  · rw [h, hs] at hd
    exact absurd rfl hd

lemma newJob_not_owned {claim : ClaimedJob} {job : ProcessingJob} {kind : JobKind} {row : RowDefaults}
    {now : Instant} : ¬ Owns claim (followUpJob job kind row now) := by
  rintro ⟨_, hs, _⟩
  cases hs

lemma handedOn_not_owned {claim : ClaimedJob} {settings : Option ProcessingSettings}
    {job job' n : ProcessingJob} {row : RowDefaults} {now : Instant}
    (hn : n ∈ handedOn settings job job' row now) : ¬ Owns claim n := by
  rcases handedOn_cases settings job job' row now with hnone | ⟨kind, _, _, hone⟩
  · rw [hnone] at hn
    cases hn
  · rw [hone, List.mem_singleton] at hn
    exact hn ▸ newJob_not_owned

lemma moved_lost {token : Option ClaimToken} {claim : ClaimedJob} {db db' : Database}
    (h : Moved token db db') (htoken : token ≠ some claim.claimToken) (hlost : ¬ Held claim db) :
    ¬ Held claim db' := by
  obtain ⟨job, job', row, now, hm, hq⟩ := h
  rintro ⟨j, hj, ho⟩
  rcases hm.origin hj with ⟨hold, _⟩ | rfl | hn
  · exact hlost ⟨j, hold, ho⟩
  · have hstep := hm.step
    cases hstep with
    | claimed queue taken at_ hs =>
      rw [← hq hs] at htoken
      exact htoken ho.2.2.1
    | renewed stage at_ lease hs => exact hlost ⟨job, hm.stored, ho.1, hs, ho.2.2⟩
    | completed at_ hs => exact nomatch ho.2.1
    | retried availableAt at_ stage code errorType message hs hlt => exact nomatch ho.2.1
    | failed at_ stage code errorType message hs => exact nomatch ho.2.1
  · exact handedOn_not_owned hn ho

lemma step_lost {claim : ClaimedJob} {db db' : Database} {call : QueueCall}
    (h : QueueStep db call db') (hids : UniqueJobIds db) (htoken : call.token ≠ some claim.claimToken)
    (hlost : ¬ Held claim db) : ¬ Held claim db' :=
  h.keeps (fun db => ¬ Held claim db) (fun _ _ hl hm => moved_lost hm htoken hl) hids hlost

lemma run_lost {claim : ClaimedJob} {s t : Database} {es : List (Event Database QueueCall)}
    (h : QueueRun s es t) (hids : UniqueJobIds s)
    (htoken : ∀ e ∈ es, e.label.token ≠ some claim.claimToken) (hlost : ¬ Held claim s) :
    ¬ Held claim t := by
  have hkept : UniqueJobIds t ∧ ¬ Held claim t := by
    apply h.keeps_if (fun db => UniqueJobIds db ∧ ¬ Held claim db)
      (fun _ call => call.token ≠ some claim.claimToken) ?_ ⟨hids, hlost⟩ htoken
    rintro s call t ⟨hids, hlost⟩ hq hs
    exact ⟨hs.uniqueJobIds hids, step_lost hs hids hq hlost⟩
  exact hkept.2

def tokens (es : List (Event Database QueueCall)) : List ClaimToken := es.filterMap (·.label.token)

lemma claimed_token {e : Event Database QueueCall} {claim : ClaimedJob} {db : Database}
    (h : e.label.exec e.before = .ok (.claimed (some claim), db)) :
    e.label.token = some claim.claimToken := by
  cases hl : e.label with
  | claimNext queue now token kinds locked =>
    rw [hl] at h
    obtain ⟨_, h, he⟩ := map_ok h
    rcases claimNext_ok h ⟨0, 0⟩ with ⟨rfl, _⟩ | ⟨job, _, rfl, _⟩
    · cases he
    · cases he
      rfl
  | _ =>
    rw [hl] at h
    obtain ⟨_, _, he⟩ := map_ok h
    cases he

structure LeaseFencing (s : Database) (es : List (Event Database QueueCall)) (t : Database) : Prop where
  fenced : ∀ e ∈ es, ∀ claim, e.label.claim = some claim → ¬ Held claim e.before →
    e.after = e.before ∧ Refused e.label e.before
  recovery : ∀ e ∈ es, ∀ queue now limit locked rows,
    e.label = .recoverExpired queue now limit locked rows → OnlyExpired now e.before e.after
  terminal : ∀ j ∈ s.jobs, ¬ j.active → j ∈ t.jobs ∧ ∀ j' ∈ t.jobs, j'.id = j.id → j' = j
  once : ∀ id, (es.filter (Commits id)).length ≤ 1
  writes : ∀ e ∈ es, e.after.documents ≠ e.before.documents →
    ∃ claim, e.label.claim = some claim ∧ Commits claim.id e ∧ Held claim e.before
  lost : ∀ before e mid later claim u, es = before ++ e :: mid ++ later →
    e.label.exec e.before = .ok (.claimed (some claim), e.after) →
    QueueRun s (before ++ e :: mid) u → QueueRun u later t → ¬ Held claim u → ¬ Held claim t

lemma run_terminal {s t : Database} {es : List (Event Database QueueCall)} (h : QueueRun s es t)
    (hids : UniqueJobIds s) {j : ProcessingJob} (hj : j ∈ s.jobs) (hactive : ¬ j.active) :
    UniqueJobIds t ∧ j ∈ t.jobs := by
  apply h.keeps (fun db => UniqueJobIds db ∧ j ∈ db.jobs) ?_ ⟨hids, hj⟩
  rintro s call t ⟨hids, hj⟩ hs
  exact ⟨hs.uniqueJobIds hids, step_terminal hs hids hj hactive⟩

lemma step_onlyExpired {queue : JobQueue} {now : Instant} {limit : ℕ} {locked : List JobId}
    {rows : JobId → RowDefaults} {db db' : Database} (hids : UniqueJobIds db)
    (h : QueueStep db (.recoverExpired queue now limit locked rows) db') : OnlyExpired now db db' := by
  rcases settled_cases db ((QueueCall.recoverExpired queue now limit locked rows).exec db) with
    ⟨answer, t, hok, hs⟩ | ⟨e, _, hs⟩
  · rw [h, hs]
    obtain ⟨_, hr, _⟩ := map_ok hok
    exact recovers_onlyExpired (recoverExpired_ok hids hr) hids
  · rw [h, hs]
    exact ⟨fun _ hj _ => hj, fun _ hj => .inl hj⟩

def exampleQueue : JobQueue := ⟨"worker".toList, 60, ⟨1, 1, by decide, by decide, by decide⟩, by decide⟩

def staleClaim : ClaimedJob :=
  claimOf exampleQueue 7 (claimRow exampleQueue 7 0 (newJob 1 (some 1) none .full none 3 0 0))

def finishedDatabase : Database :=
  { Database.empty none with
    jobs := [completeRow 5 (claimRow exampleQueue 7 0 (newJob 1 (some 1) none .full none 3 0 0))] }

end AudioServer.Jobs.Fence
