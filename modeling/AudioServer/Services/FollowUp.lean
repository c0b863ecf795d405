import AudioServer.Services.Consistency

/-! The chain of jobs that follow a transcription: what each transaction of the
queue hands on, and what a run hands on after one job. -/

namespace AudioServer.Services.FollowUp

open AudioServer.Foundations.Outcomes AudioServer.Foundations.Runs AudioServer.Foundations.Strings
open AudioServer.Db.Models
open AudioServer.Activity.Repository AudioServer.Jobs.Queue AudioServer.Jobs.Effects
open AudioServer.Jobs.Calls AudioServer.Services.Recordings AudioServer.Services.Transactions
open AudioServer.Services.Consistency

structure RowMove where
  job : ProcessingJob
  moved : ProcessingJob
  row : RowDefaults
  now : Instant

def applyMoves (moves : List RowMove) (j : ProcessingJob) : ProcessingJob :=
  ((moves.find? (fun m => m.job.id = j.id)).map (·.moved)).getD j

def handedOnBy (settings : Option ProcessingSettings) (m : RowMove) : List ProcessingJob :=
  handedOn settings m.job m.moved m.row m.now

structure Effect (db db' : Database) (moves : List RowMove) : Prop where
  stored : ∀ m ∈ moves, m.job ∈ db.jobs ∧ RowStep m.job m.moved
  distinct : (moves.map (·.job.id)).Nodup
  jobs : db'.jobs = db.jobs.map (applyMoves moves) ++ moves.flatMap (handedOnBy db.settings)
  settings : db'.settings = db.settings

lemma applyMoves_cons (m : RowMove) (moves : List RowMove) (j : ProcessingJob) :
    applyMoves (m :: moves) j = if m.job.id = j.id then m.moved else applyMoves moves j := by
  by_cases h : m.job.id = j.id <;> simp [applyMoves, h]

lemma applyMoves_other {moves : List RowMove} {j : ProcessingJob}
    (h : ∀ m ∈ moves, m.job.id ≠ j.id) : applyMoves moves j = j := by
  have hnone : moves.find? (fun m => m.job.id = j.id) = none := by
    rw [List.find?_eq_none]
    intro m hm
    simpa using h m hm
  rw [applyMoves, hnone]
  rfl

lemma effect_nil (db db' : Database) (hjobs : db'.jobs = db.jobs)
    (hset : db'.settings = db.settings) : Effect db db' [] := by
  refine ⟨fun m hm => absurd hm List.not_mem_nil, List.nodup_nil, ?_, hset⟩
  have hid : applyMoves [] = id := rfl
  rw [hid, List.map_id, List.flatMap_nil, List.append_nil, hjobs]

lemma effect_cons {db db₁ db₂ : Database} {job job' : ProcessingJob} {row : RowDefaults}
    {now : Instant} {moves : List RowMove} (h : Moves db job job' row now db₁)
    (hrest : Effect db₁ db₂ moves) (hm : ∀ m ∈ moves, m.job ∈ db.jobs ∧ m.job.id ≠ job.id) :
    Effect db db₂ (⟨job, job', row, now⟩ :: moves) := by
  have hid : job'.id = job.id := h.step.same.1
  refine ⟨?_, ?_, ?_, hrest.settings.trans h.settings⟩
  · intro m hmem
    rcases List.mem_cons.mp hmem with rfl | hmem
    · exact ⟨h.stored, h.step⟩
    · exact ⟨(hm m hmem).1, (hrest.stored m hmem).2⟩
  · rw [List.map_cons, List.nodup_cons]
    refine ⟨?_, hrest.distinct⟩
    intro hmem
    obtain ⟨m, hmoves, he⟩ := List.mem_map.mp hmem
    exact (hm m hmoves).2 he
  · -- A row handed on earlier is new, so no later move of the transaction is a move of it.
    have hnew : (handedOn db.settings job job' row now).map (applyMoves moves) =
        handedOn db.settings job job' row now := by
      apply (List.map_congr_left ?_).trans (List.map_id _)
      intro n hn
      apply applyMoves_other
      intro m hmem
      exact h.fresh n hn m.job (hm m hmem).1
    have hold : (db.putJob job').jobs.map (applyMoves moves) =
        db.jobs.map (applyMoves (⟨job, job', row, now⟩ :: moves)) := by
      rw [Database.putJob, List.map_map]
      apply List.map_congr_left
      intro j _
      rw [Function.comp_apply, applyMoves_cons, hid]
      by_cases hj : j.id = job.id
      · rw [if_pos hj, if_pos hj.symm]
        apply applyMoves_other
        intro m hmem
        rw [hid]
        exact (hm m hmem).2
      · rw [if_neg hj, if_neg (Ne.symm hj)]
    rw [hrest.jobs, h.settings, h.jobs, List.map_append, hnew, hold, List.flatMap_cons,
      List.append_assoc]
    rfl

lemma effect_single {db db' : Database} {job job' : ProcessingJob} {row : RowDefaults}
    {now : Instant} (h : Moves db job job' row now db') :
    Effect db db' [⟨job, job', row, now⟩] :=
  effect_cons h (effect_nil db' db' rfl rfl) (fun _ hm => absurd hm List.not_mem_nil)

lemma recovers_effect {rows : JobId → RowDefaults} {now : Instant} {db db' : Database}
    {jobs : List ProcessingJob} (h : Recovers rows now db jobs db') (hids : (jobs.map (·.id)).Nodup)
    (hmem : ∀ j ∈ jobs, j ∈ db.jobs) :
    ∃ moves, Effect db db' moves ∧ moves.map (·.job) = jobs := by
  induction h with
  | nil db => exact ⟨[], effect_nil db db rfl rfl, rfl⟩
  | @cons db job job' jobs db₁ db₂ _ _ _ hmoves _ _ ih =>
    obtain ⟨hnot, hids⟩ := List.nodup_cons.mp hids
    have hother : ∀ j ∈ jobs, j ∈ db.jobs ∧ j.id ≠ job.id := by
      intro j hj
      refine ⟨hmem j (List.mem_cons_of_mem _ hj), ?_⟩
      intro he
      exact hnot (List.mem_map.mpr ⟨j, hj, he⟩)
    obtain ⟨moves, hrest, hjobs⟩ := ih hids
      (fun j hj => hmoves.keeps_other (hother j hj).1 (hother j hj).2)
    refine ⟨_, effect_cons hmoves hrest ?_, congrArg (job :: ·) hjobs⟩
    intro m hm
    apply hother
    rw [← hjobs]
    exact List.mem_map_of_mem hm

lemma exec_effect {call : QueueCall} {db db' : Database} {answer : Answer} (hids : UniqueJobIds db)
    (h : call.exec db = .ok (answer, db')) : ∃ moves, Effect db db' moves := by
  let row : RowDefaults := ⟨0, 0⟩
  cases call with
  | claimNext queue now token kinds locked =>
    obtain ⟨_, h, _⟩ := map_ok h
    rcases claimNext_ok h row with ⟨_, rfl⟩ | ⟨_, _, _, hmoves, _⟩
    · exact ⟨[], effect_nil _ _ rfl rfl⟩
    · exact ⟨_, effect_single hmoves⟩
  | heartbeat queue claim now =>
    obtain ⟨_, h, _⟩ := map_ok h
    obtain ⟨_, _, _, _, hmoves, _⟩ := heartbeat_ok h row
    exact ⟨_, effect_single hmoves⟩
  | advanceStage queue claim stage now =>
    obtain ⟨_, h, _⟩ := map_ok h
    obtain ⟨_, _, _, _, hmoves, _⟩ := advanceStage_ok h row
    exact ⟨_, effect_single hmoves⟩
  | complete queue claim persister now row =>
    obtain ⟨_, h, _⟩ := map_ok h
    obtain ⟨_, _, hmoves, _⟩ := complete_ok h
    exact ⟨_, effect_single hmoves⟩
  | fail queue claim failure now row =>
    obtain ⟨_, h, _⟩ := map_ok h
    obtain ⟨_, _, _, _, _, hmoves, _⟩ := fail_ok h
    exact ⟨_, effect_single hmoves⟩
  | recoverExpired queue now limit locked rows =>
    obtain ⟨_, h, _⟩ := map_ok h
    obtain ⟨moves, heffect, _⟩ := recovers_effect (recoverExpired_ok hids h)
      (expiredJobs_ids hids now limit locked) (fun _ hj => (mem_expiredJobs hj).1)
    exact ⟨moves, heffect⟩

lemma queueStep_effect {call : QueueCall} {db db' : Database} (hids : UniqueJobIds db)
    (h : QueueStep db call db') : ∃ moves, Effect db db' moves := by
  rcases settled_cases db (call.exec db) with ⟨answer, t, hok, hs⟩ | ⟨e, _, hs⟩
  · rw [h, hs]
    exact exec_effect hids hok
  · rw [h, hs]
    exact ⟨[], effect_nil _ _ rfl rfl⟩

lemma serverStep_effect {e : Event Database ServerCall} {call : QueueCall} (hids : UniqueJobIds e.before)
    (hl : e.label = .queue call) (hstep : ServerStep e.before e.label e.after) :
    ∃ moves, Effect e.before e.after moves := by
  rw [hl] at hstep
  exact queueStep_effect hids (queueStep_of_server hstep)

def inserted (e : Event Database ServerCall) : List ProcessingJob :=
  e.after.jobs.drop e.before.jobs.length

def successors (e : Event Database ServerCall) (j : ProcessingJob) : List ProcessingJob :=
  (inserted e).filter (fun n => n.recordingId = j.recordingId)

def chainFrom (start : Option JobKind) : List JobKind :=
  [JobKind.analysis, .translation].dropWhile (fun k => some k ≠ start)

def firstSwitchedOn (settings : Option ProcessingSettings) (start : Option JobKind) : Option JobKind :=
  (chainFrom start).find? (readAutomaticFollowUps settings).runs

lemma followUpOf_first {settings : Option ProcessingSettings} {job : ProcessingJob}
    (hchain : job.followUpKind = none ∨ job.followUpKind = chainedFollowUp job.kind) :
    followUpOf settings job = firstSwitchedOn settings job.followUpKind := by
  have hcases : job.followUpKind = none ∨ job.followUpKind = some .analysis ∨
      job.followUpKind = some .translation := by
    rcases hchain with h | h
    · exact .inl h
    · rw [h]
      cases job.kind <;> simp [chainedFollowUp]
  rw [followUpOf]
  rcases hcases with h | h | h
  · rw [h]
    rfl
  · rw [h, Option.bind_some, firstRunning_loop, firstSwitchedOn]
    simp only [chainedFollowUp, Option.bind_some]
    cases ha : (readAutomaticFollowUps settings).runs .analysis
    · cases ht : (readAutomaticFollowUps settings).runs .translation <;>
        simp [firstRunning_loop, chainedFollowUp, chainFrom, ha, ht]
    · simp [chainFrom, ha]
  · rw [h, Option.bind_some, firstRunning_loop, firstSwitchedOn]
    cases ht : (readAutomaticFollowUps settings).runs .translation <;>
      simp [chainedFollowUp, chainFrom, ht]

lemma flatMap_single {α β : Type} {f : α → List β} {xs : List α} {x : α} (hnodup : xs.Nodup)
    (hx : x ∈ xs) (hother : ∀ y ∈ xs, y ≠ x → f y = []) : xs.flatMap f = f x := by
  induction xs with
  | nil => cases hx
  | cons y ys ih =>
    obtain ⟨hnot, hnodup⟩ := List.nodup_cons.mp hnodup
    rw [List.flatMap_cons]
    rcases List.mem_cons.mp hx with rfl | hx
    · have hrest : ys.flatMap f = [] := by
        rw [List.flatMap_eq_nil_iff]
        intro y hy
        apply hother y (List.mem_cons_of_mem _ hy)
        rintro rfl
        exact hnot hy
      rw [hrest, List.append_nil]
    · have hhead : f y = [] := by
        apply hother y List.mem_cons_self
        rintro rfl
        exact hnot hx
      rw [hhead, List.nil_append]
      exact ih hnodup hx (fun z hz => hother z (List.mem_cons_of_mem _ hz))

lemma applyMoves_of_mem {moves : List RowMove} (hdistinct : (moves.map (·.job.id)).Nodup)
    {m : RowMove} (hm : m ∈ moves) : applyMoves moves m.job = m.moved := by
  induction moves with
  | nil => cases hm
  | cons m' moves ih =>
    obtain ⟨hnot, hdistinct⟩ := List.nodup_cons.mp hdistinct
    rw [applyMoves_cons]
    rcases List.mem_cons.mp hm with rfl | hm
    · exact if_pos rfl
    · have hne : m'.job.id ≠ m.job.id := fun he => hnot (List.mem_map.mpr ⟨m, hm, he.symm⟩)
      rw [if_neg hne]
      exact ih hdistinct hm

lemma effect_inserted {e : Event Database ServerCall} {moves : List RowMove}
    (h : Effect e.before e.after moves) :
    inserted e = moves.flatMap (handedOnBy e.before.settings) := by
  rw [inserted, h.jobs]
  exact List.drop_left' (List.length_map _)

lemma effect_row {db db' : Database} {moves : List RowMove} (hids : UniqueJobIds db)
    (hids' : UniqueJobIds db') (h : Effect db db' moves) {j j' : ProcessingJob} (hj : j ∈ db.jobs) (hj' : j' ∈ db'.jobs)
    (he : j'.id = j.id) : j' = applyMoves moves j := by
  have hmem : applyMoves moves j ∈ db'.jobs := by
    rw [h.jobs]
    exact List.mem_append_left _ (List.mem_map_of_mem hj)
  apply List.inj_on_of_nodup_map hids' hj' hmem
  rw [he]
  by_cases hm : ∃ m ∈ moves, m.job.id = j.id
  · obtain ⟨m, hmoves, hid⟩ := hm
    have hjob : m.job = j := List.inj_on_of_nodup_map hids (h.stored m hmoves).1 hj hid
    rw [← hjob, applyMoves_of_mem h.distinct hmoves, (h.stored m hmoves).2.same.1]
  · push Not at hm
    rw [applyMoves_other hm]

lemma effect_successors {e : Event Database ServerCall} {moves : List RowMove}
    (hok : StatusInvariant e.before) (h : Effect e.before e.after moves) {j : ProcessingJob}
    (hj : j ∈ e.before.jobs) (hactive : j.active) : ∃ row now,
      successors e j = handedOn e.before.settings j (applyMoves moves j) row now := by
  have hfilter : successors e j = moves.flatMap (fun m =>
      (handedOnBy e.before.settings m).filter (fun n => n.recordingId = j.recordingId)) := by
    rw [successors, effect_inserted h, List.filter_flatMap]
  have hrec : ∀ m ∈ moves, ∀ n ∈ handedOnBy e.before.settings m,
      n.recordingId = m.job.recordingId ∧ m.job.recordingId.isSome := by
    intro m _ n hn
    obtain ⟨_, hscope, kind, _, rfl⟩ := handedOn_mem hn
    exact ⟨rfl, hscope⟩
  have hother : ∀ m ∈ moves, m.job.id ≠ j.id →
      (handedOnBy e.before.settings m).filter (fun n => n.recordingId = j.recordingId) = [] := by
    intro m hm hne
    rw [List.filter_eq_nil_iff]
    intro n hn hsame
    obtain ⟨hnrec, hscope⟩ := hrec m hm n hn
    rw [decide_eq_true_eq, hnrec] at hsame
    obtain ⟨hstored, hstep⟩ := h.stored m hm
    exact hne (congrArg _ (hok.oneActive m.job hstored j hj hstep.active hactive hscope hsame))
  by_cases hm : ∃ m ∈ moves, m.job.id = j.id
  · obtain ⟨m, hmoves, hid⟩ := hm
    have hjob : m.job = j := hok.unique (h.stored m hmoves).1 hj hid
    have hall : (handedOnBy e.before.settings m).filter (fun n => n.recordingId = j.recordingId) =
        handedOnBy e.before.settings m := by
      rw [List.filter_eq_self]
      intro n hn
      rw [decide_eq_true_eq, (hrec m hmoves n hn).1, hjob]
    refine ⟨m.row, m.now, ?_⟩
    rw [hfilter, flatMap_single h.distinct.of_map hmoves, hall, ← hjob,
      applyMoves_of_mem h.distinct hmoves]
    · rfl
    · intro m' hm' hne
      apply hother m' hm'
      rw [← hid]
      intro he
      exact hne (List.inj_on_of_nodup_map h.distinct hm' hmoves he)
  · push Not at hm
    refine ⟨⟨0, 0⟩, 0, ?_⟩
    have hquiet : ¬ HandsOn j j := fun hends => handsOn_ended hends hactive
    rw [hfilter, applyMoves_other hm, handedOn_of_not hquiet, List.flatMap_eq_nil_iff]
    exact fun m hmoves => hother m hmoves (hm m hmoves)

structure HandsOver (settings : Option ProcessingSettings) (j j' : ProcessingJob)
    (new : List ProcessingJob) : Prop where
  ends : HandsOn j j' → new.map (fun n => (n.kind, n.status, n.followUpKind)) =
    ((firstSwitchedOn settings j.followUpKind).map (fun k => (k, .queued, chainedFollowUp k))).toList
  quiet : ¬ HandsOn j j' → new = []

lemma handedOn_handsOver {settings : Option ProcessingSettings} {j j' : ProcessingJob}
    (hrow : RowOk j) (row : RowDefaults) (now : Instant) :
    HandsOver settings j j' (handedOn settings j j' row now) := by
  refine ⟨?_, fun hquiet => handedOn_of_not hquiet row now⟩
  intro hends
  rw [handedOn_of hends, handOff, ← followUpOf_first hrow.chain]
  cases hr : j.recordingId with
  | none =>
    have hnone : j.followUpKind = none := by
      rcases hrow.chain with h | h
      · exact h
      · rw [h, hrow.kindScope hr]
        rfl
    simp [followUpOf, hnone]
  | some id => cases followUpOf settings j <;> rfl

lemma queue_handsOver (e : Event Database ServerCall) {call : QueueCall} (hl : e.label = .queue call)
    (hstep : ServerStep e.before e.label e.after) (hok : StatusInvariant e.before)
    {j j' : ProcessingJob} (hj : j ∈ e.before.jobs) (hactive : j.active) (hj' : j' ∈ e.after.jobs)
    (he : j'.id = j.id) : HandsOver e.before.settings j j' (successors e j) := by
  have hafter := serverStep_consistent hok hstep
  obtain ⟨moves, heffect⟩ := serverStep_effect hok.jobIds hl hstep
  obtain ⟨row, now, hsucc⟩ := effect_successors hok heffect hj hactive
  rw [hsucc, effect_row hok.jobIds hafter.jobIds heffect hj hj' he]
  exact handedOn_handsOver (hok.rows j hj) row now

lemma inserted_origin {e : Event Database ServerCall} {call : QueueCall} (hl : e.label = .queue call)
    (hstep : ServerStep e.before e.label e.after) (hok : StatusInvariant e.before)
    {n : ProcessingJob} (hn : n ∈ inserted e) :
    ∃ j ∈ e.before.jobs, j.active ∧ ∃ j' ∈ e.after.jobs, j'.id = j.id ∧ HandsOn j j' ∧
      n ∈ successors e j := by
  obtain ⟨moves, heffect⟩ := serverStep_effect hok.jobIds hl hstep
  have hmem := hn
  rw [effect_inserted heffect, List.mem_flatMap] at hmem
  obtain ⟨m, hm, hnew⟩ := hmem
  obtain ⟨hstored, hrow⟩ := heffect.stored m hm
  obtain ⟨hends, _, kind, _, rfl⟩ := handedOn_mem hnew
  refine ⟨m.job, hstored, hrow.active, m.moved, ?_, hrow.same.1, hends, ?_⟩
  · rw [heffect.jobs, ← applyMoves_of_mem heffect.distinct hm]
    exact List.mem_append_left _ (List.mem_map_of_mem hstored)
  · exact List.mem_filter.mpr ⟨hn, decide_eq_true rfl⟩

lemma mem_of_append {xs ys : List ProcessingJob} {n j j' : ProcessingJob} (hys : ys = xs ++ [n])
    (hids : (ys.map (·.id)).Nodup) (hj : j ∈ xs) (hj' : j' ∈ ys) (he : j'.id = j.id) : j' = j := by
  apply List.inj_on_of_nodup_map hids hj' ?_ he
  rw [hys]
  exact List.mem_append_left _ hj

lemma other_row {db db' : Database} {call : ServerCall} (hok : StatusInvariant db)
    (hstep : ServerStep db call db') (hl : ∀ queueCall, call ≠ .queue queueCall) {j j' : ProcessingJob}
    (hj : j ∈ db.jobs) (hj' : j' ∈ db'.jobs) (he : j'.id = j.id) : j' = j := by
  have hids := (serverStep_consistent hok hstep).jobIds
  rcases serverStep_cases hstep with hexec | rfl
  · cases call with
    | queue queueCall => exact absurd rfl (hl queueCall)
    | create service recording row now =>
      obtain ⟨_, hc⟩ := forget_ok hexec
      obtain ⟨_, _, _, hjobs, _⟩ := createRecordingAndJob_ok hc
      exact mem_of_append hjobs hids hj hj' he
    | retry service id row now =>
      obtain ⟨_, hc⟩ := forget_ok hexec
      obtain ⟨_, _, _, hjobs, _⟩ := enqueueProcessing_ok hc
      exact mem_of_append hjobs hids hj hj' he
    | reprocess service id row now =>
      obtain ⟨_, hc⟩ := forget_ok hexec
      obtain ⟨_, _, _, hjobs, _⟩ := enqueueProcessing_ok hc
      exact mem_of_append hjobs hids hj hj' he
    | reprocessAnalysis service id row now =>
      obtain ⟨_, hc⟩ := forget_ok hexec
      obtain ⟨_, _, _, hjobs, _⟩ := enqueueProcessing_ok hc
      exact mem_of_append hjobs hids hj hj' he
    | reprocessTranslation service id row now =>
      obtain ⟨_, hc⟩ := forget_ok hexec
      obtain ⟨_, _, _, hjobs, _⟩ := enqueueProcessing_ok hc
      exact mem_of_append hjobs hids hj hj' he
    | deleteRecording id =>
      obtain ⟨_, _, hjobs, _⟩ := deleteRecording_ok hexec
      rw [hjobs] at hj'
      exact hok.unique (List.mem_of_mem_filter hj') hj he
    | dailySummary day maxAttempts availableAt row =>
      obtain ⟨hc, _⟩ := createDailySummaryJob_ok (dailySummary_exec hexec)
      exact mem_of_append (congrArg Database.jobs hc) hids hj hj' he
    | switches settings =>
      cases hexec
      exact hok.unique hj' hj he
  · exact hok.unique hj' hj he

lemma step_sameJob {db db' : Database} {call : ServerCall} (hok : StatusInvariant db)
    (hstep : ServerStep db call db') {j j' : ProcessingJob} (hj : j ∈ db.jobs) (hj' : j' ∈ db'.jobs)
    (he : j'.id = j.id) : SameJob j j' := by
  have hids := (serverStep_consistent hok hstep).jobIds
  by_cases hl : ∃ queueCall, call = .queue queueCall
  · obtain ⟨queueCall, rfl⟩ := hl
    obtain ⟨moves, heffect⟩ := queueStep_effect hok.jobIds (queueStep_of_server hstep)
    rw [effect_row hok.jobIds hids heffect hj hj' he]
    by_cases hm : ∃ m ∈ moves, m.job.id = j.id
    · obtain ⟨m, hmoves, hid⟩ := hm
      have hjob : m.job = j := hok.unique (heffect.stored m hmoves).1 hj hid
      rw [← hjob, applyMoves_of_mem heffect.distinct hmoves]
      exact (heffect.stored m hmoves).2.same
    · push Not at hm
      rw [applyMoves_other hm]
      exact ⟨rfl, rfl, rfl, rfl, rfl, rfl, rfl⟩
  · push Not at hl
    rw [other_row hok hstep hl hj hj' he]
    exact ⟨rfl, rfl, rfl, rfl, rfl, rfl, rfl⟩

def chain : JobId → List (Event Database ServerCall) → List ProcessingJob
  | _, [] => []
  | id, e :: es =>
    match e.before.job id, e.after.job id with
    | some j, some j' =>
      if j.active ∧ HandsOn j j' then (successors e j).flatMap (fun n => n :: chain n.id es)
      else chain id es
    | _, _ => []

lemma job_some {db : Database} {id : JobId} {j : ProcessingJob} (h : db.job id = some j) :
    j ∈ db.jobs ∧ j.id = id :=
  ⟨List.mem_of_find?_eq_some h, by simpa using List.find?_some h⟩

lemma job_of_mem {db : Database} (hids : UniqueJobIds db) {j : ProcessingJob} (hj : j ∈ db.jobs) :
    db.job j.id = some j := by
  cases hf : db.job j.id with
  | none =>
    rw [Database.job, List.find?_eq_none] at hf
    exact absurd (decide_eq_true rfl) (hf j hj)
  | some k =>
    obtain ⟨hk, he⟩ := job_some hf
    rw [List.inj_on_of_nodup_map hids hk hj he]

lemma chainFrom_step {settings : Option ProcessingSettings} {start : Option JobKind} {kind : JobKind}
    (h : firstSwitchedOn settings start = some kind) :
    (kind :: chainFrom (chainedFollowUp kind)).Sublist (chainFrom start) := by
  have hmem : kind ∈ chainFrom start := List.mem_of_find?_eq_some h
  rcases start with _ | start
  · cases hmem
  · cases start <;> cases kind <;> revert hmem <;> decide

/-- The induction is on the run; what a job may still chain is read off its own row. -/
lemma chain_sublist {s t : Database} {es : List (Event Database ServerCall)} (hrun : ServerRun s es t)
    (hok : StatusInvariant s) {id : JobId} {j : ProcessingJob} (hj : s.job id = some j) :
    ((chain id es).map (·.kind)).Sublist (chainFrom j.followUpKind) := by
  induction hrun generalizing id j with
  | nil => exact List.nil_sublist _
  | @cons s call u es t hstep _ ih =>
    have hoku := serverStep_consistent hok hstep
    obtain ⟨hjs, hid⟩ := job_some hj
    simp only [chain, hj]
    cases hj' : u.job id with
    | none => exact List.nil_sublist _
    | some j' =>
      obtain ⟨hju, hid'⟩ := job_some hj'
      have he : j'.id = j.id := hid'.trans hid.symm
      by_cases hends : j.active ∧ HandsOn j j'
      · simp only [hends, and_self, if_true]
        have hl : ∃ queueCall, call = .queue queueCall := by
          by_contra hl
          push Not at hl
          rw [other_row hok hstep hl hjs hju he] at hends
          exact handsOn_ended hends.2 hends.1
        obtain ⟨queueCall, hl⟩ := hl
        have hover : HandsOver s.settings j j' (successors ⟨s, call, u⟩ j) :=
          queue_handsOver ⟨s, call, u⟩ hl hstep hok hjs hends.1 hju he
        have hmap := hover.ends hends.2
        cases hfirst : firstSwitchedOn s.settings j.followUpKind with
        | none =>
          rw [hfirst, Option.map_none, Option.toList_none, List.map_eq_nil_iff] at hmap
          rw [hmap]
          exact List.nil_sublist _
        | some kind =>
          rw [hfirst, Option.map_some, Option.toList_some, List.map_eq_singleton_iff] at hmap
          obtain ⟨n, hsucc, hn⟩ := hmap
          simp only [Prod.mk.injEq] at hn
          have hmem : n ∈ u.jobs := by
            have hnew : n ∈ successors ⟨s, call, u⟩ j := by simp [hsucc]
            exact List.mem_of_mem_drop (List.mem_of_mem_filter hnew)
          have hrest := ih hoku (job_of_mem hoku.jobIds hmem)
          rw [hn.2.2] at hrest
          rw [hsucc, List.flatMap_singleton, List.map_cons, hn.1]
          exact (hrest.cons_cons kind).trans (chainFrom_step hfirst)
      · simp only [hends, if_false]
        have hsame := step_sameJob hok hstep hjs hju he
        rw [← hsame.2.2.2.2.1]
        exact ih hoku hj'

abbrev activeClash : Exn := .integrityError .jobsOneActiveRecording

lemma insertJob_no_clash {db : Database} {job : ProcessingJob}
    (h : ∀ j ∈ db.jobs, j.active → j.recordingId ≠ job.recordingId) :
    db.insertJob job ≠ .error activeClash := by
  intro he
  simp only [Database.insertJob] at he
  split at he
  · cases he
  split at he
  · cases he
  split at he
  · rename_i hany
    obtain ⟨j, hj, hclash⟩ := List.any_eq_true.mp hany.2.2
    rw [decide_eq_true_eq] at hclash
    exact h j hj hclash.1 hclash.2
  split at he <;> cases he

lemma appendJobActivity_no_clash {db : Database} {id : Option RecordingId}
    {event : RecordingId → ProcessingActivity} :
    appendJobActivity db id event ≠ .error activeClash := by
  intro h
  obtain ⟨_, h⟩ := appendJobActivity_raises h
  cases h

lemma queueFollowUp_no_clash {db db₁ : Database} {job job' : ProcessingJob} {row : RowDefaults}
    {now : Instant} (hok : StatusInvariant db) (hm : job ∈ db.jobs) (hstep : RowStep job job')
    (hended : ¬ job'.active) (hjobs : db₁.jobs = (db.putJob job').jobs) :
    queueFollowUp db₁ job' row now ≠ .error activeClash := by
  intro h
  simp only [queueFollowUp] at h
  split at h
  · rename_i id kind hrec _
    rcases bind_error h with h | ⟨_, _, h⟩
    · refine insertJob_no_clash ?_ h
      intro j hj hactive he
      rw [hjobs] at hj
      rcases mem_putJob_cases hj with rfl | ⟨hold, hne⟩
      · exact hended hactive
      · have hsame : j.recordingId = job.recordingId := he.trans hstep.same.2.1
        have hscope : j.recordingId.isSome := by
          rw [he]
          exact Option.isSome_iff_exists.mpr ⟨id, hrec⟩
        have hjob := hok.oneActive j hold job hm hactive hstep.active hscope hsame
        exact hne (hjob ▸ hstep.same.1.symm)
    · exact appendJobActivity_no_clash h
  · cases h

lemma failed_no_clash {db : Database} {job : ProcessingJob} {row : RowDefaults} {now : Instant}
    {stage : JobStage} {code errorType message : Text} {event : RecordingId → ProcessingActivity}
    {id : Option RecordingId} (hok : StatusInvariant db) (hm : job ∈ db.jobs)
    (hs : job.status = .processing) {db₁ : Database}
    (ha : appendJobActivity
      (transition db (failedRow now (releaseRow stage code errorType message now job)) .failed)
      id event = .ok db₁) :
    (if job.kind = .full then .ok db₁ else
      queueFollowUp db₁ (failedRow now (releaseRow stage code errorType message now job)) row now) ≠
      .error activeClash := by
  obtain ⟨_, hjobs, _⟩ := appendJobActivity_frame ha
  rw [transition_jobs] at hjobs
  split
  · exact nofun
  · exact queueFollowUp_no_clash hok hm (.failed now stage code errorType message hs) nofun hjobs

lemma found_no_clash {α : Type} {x : Option α} {message : String} :
    found x (.claimLost message) ≠ .error activeClash := found_avoids nofun

lemma canRetry_no_clash {retryable : Bool} {attemptCount maxAttempts : ℕ} :
    RetryPolicy.canRetry retryable attemptCount maxAttempts ≠ .error activeClash :=
  bind_avoids (require_avoids nofun) (fun _ _ => nofun)

lemma delayAfter_no_clash {policy : RetryPolicy} {attemptCount : ℕ} :
    policy.delayAfter attemptCount ≠ .error activeClash :=
  bind_avoids (require_avoids nofun) (fun _ _ => bind_avoids (require_avoids nofun) (fun _ _ => nofun))

lemma later_no_clash {now : Instant} {delay : Duration} : later now delay ≠ .error activeClash :=
  bind_avoids (require_avoids nofun) (fun _ _ => nofun)

lemma complete_no_clash {queue : JobQueue} {claim : ClaimedJob} {persister : Option ResultPersister}
    {now : Instant} {row : RowDefaults} {db : Database} (hok : StatusInvariant db)
    (hp : persistResults persister db ≠ .error activeClash) :
    queue.complete claim persister now row db ≠ .error activeClash := by
  intro h
  rcases bind_error h with h | ⟨job, hj, h⟩
  · exact found_no_clash h
  rw [lockOwnedJob, found_ok] at hj
  obtain ⟨hm, ho⟩ := ownedJob_some hj
  rcases bind_error h with h | ⟨stored, hstored, h⟩
  · exact hp h
  obtain ⟨docs, rfl⟩ := persistResults_ok hstored
  rcases bind_error h with h | ⟨db₁, ha, h⟩
  · exact appendJobActivity_no_clash h
  rcases bind_error h with h | ⟨db₂, _, h⟩
  · obtain ⟨_, hjobs, _⟩ := appendJobActivity_frame ha
    rw [transition_jobs] at hjobs
    have hdone : (completeRow now job).active = false := rfl
    exact queueFollowUp_no_clash hok hm (.completed now ho.2.1) (by simp [hdone]) hjobs h
  · cases h

lemma fail_no_clash {queue : JobQueue} {claim : ClaimedJob} {failure : JobFailure} {now : Instant}
    {row : RowDefaults} {db : Database} (hok : StatusInvariant db) :
    queue.fail claim failure now row db ≠ .error activeClash := by
  intro h
  rcases bind_error h with h | ⟨job, hj, h⟩
  · exact found_no_clash h
  rw [lockOwnedJob, found_ok] at hj
  obtain ⟨hm, ho⟩ := ownedJob_some hj
  rcases bind_error h with h | ⟨again, _, h⟩
  · exact canRetry_no_clash h
  cases again with
  | true =>
    rcases bind_error h with h | ⟨_, _, h⟩
    · exact delayAfter_no_clash h
    rcases bind_error h with h | ⟨_, _, h⟩
    · exact later_no_clash h
    rcases bind_error h with h | ⟨_, _, h⟩
    · exact appendJobActivity_no_clash h
    · cases h
  | false =>
    rcases bind_error h with h | ⟨db₁, ha, h⟩
    · exact appendJobActivity_no_clash h
    rcases bind_error h with h | ⟨_, _, h⟩
    · exact failed_no_clash hok hm ho.2.1 ha h
    · cases h

lemma recoverJob_no_clash {queue : JobQueue} {now : Instant} {rows : JobId → RowDefaults}
    {acc : RecoverySummary × Database} {job : ProcessingJob} (hok : StatusInvariant acc.2)
    (hm : job ∈ acc.2.jobs) (hs : job.status = .processing) :
    recoverJob queue now rows acc job ≠ .error activeClash := by
  intro h
  rcases bind_error h with h | ⟨again, _, h⟩
  · exact canRetry_no_clash h
  cases again with
  | true =>
    rcases bind_error h with h | ⟨_, _, h⟩
    · exact delayAfter_no_clash h
    rcases bind_error h with h | ⟨_, _, h⟩
    · exact later_no_clash h
    rcases bind_error h with h | ⟨_, _, h⟩
    · exact appendJobActivity_no_clash h
    · cases h
  | false =>
    rcases bind_error h with h | ⟨db₁, ha, h⟩
    · exact appendJobActivity_no_clash h
    rcases bind_error h with h | ⟨_, _, h⟩
    · exact failed_no_clash hok hm hs ha h
    · cases h

lemma recover_no_clash {queue : JobQueue} {now : Instant} {rows : JobId → RowDefaults}
    {jobs : List ProcessingJob} {acc : RecoverySummary × Database} (hok : StatusInvariant acc.2)
    (hids : (jobs.map (·.id)).Nodup) (hm : ∀ j ∈ jobs, j ∈ acc.2.jobs ∧ Expired now j) :
    jobs.foldlM (recoverJob queue now rows) acc ≠ .error activeClash := by
  induction jobs generalizing acc with
  | nil => exact nofun
  | cons job jobs ih =>
    intro h
    rw [List.foldlM_cons] at h
    obtain ⟨hjob, hrest⟩ := List.forall_mem_cons.mp hm
    obtain ⟨hnot, hids⟩ := List.nodup_cons.mp hids
    rcases bind_error h with h | ⟨acc₁, h₁, h⟩
    · exact recoverJob_no_clash hok hjob.1 hjob.2.1 h
    obtain ⟨job', _, _, hmoves, _⟩ := recoverJob_ok hjob.1 hjob.2.1 h₁
    have hmoved : Moved none acc.2 acc₁.2 := moves_moved hmoves hjob.2.1
    refine ih (moved_consistent hok hmoved) hids ?_ h
    intro j hj
    have hne : j.id ≠ job.id := fun he => hnot (List.mem_map.mpr ⟨j, hj, he⟩)
    exact ⟨hmoves.keeps_other (hrest j hj).1 hne, (hrest j hj).2⟩

lemma exec_no_clash {call : QueueCall} {db : Database} (hok : StatusInvariant db)
    (hp : ∀ queue claim persister now row, call = .complete queue claim persister now row →
      persistResults persister db ≠ .error activeClash) : call.exec db ≠ .error activeClash := by
  have hmap : ∀ {α : Type} {x : Except Exn (α × Database)} {f : α → Answer},
      x.map (Prod.map f id) = .error activeClash → x = .error activeClash := by
    rintro α (e | ⟨a, t⟩) f h
    · cases h
      rfl
    · cases h
  intro h
  cases call with
  | claimNext queue now token kinds locked =>
    have h := hmap h
    simp only [JobQueue.claimNext] at h
    split at h
    · cases h
    · rcases bind_error h with h | ⟨_, _, h⟩
      · exact appendJobActivity_no_clash h
      · cases h
  | heartbeat queue claim now =>
    rcases bind_error (hmap h) with h | ⟨_, _, h⟩
    · exact found_no_clash h
    · cases h
  | advanceStage queue claim stage now =>
    rcases bind_error (hmap h) with h | ⟨_, _, h⟩
    · cases require_error h
    rcases bind_error h with h | ⟨_, _, h⟩
    · exact found_no_clash h
    rcases bind_error h with h | ⟨_, _, h⟩
    · exact appendJobActivity_no_clash h
    · cases h
  | complete queue claim persister now row =>
    exact complete_no_clash hok (hp queue claim persister now row rfl) (hmap h)
  | fail queue claim failure now row => exact fail_no_clash hok (hmap h)
  | recoverExpired queue now limit locked rows =>
    rcases bind_error (hmap h) with h | ⟨_, _, h⟩
    · cases require_error h
    · exact recover_no_clash hok (expiredJobs_ids hok.jobIds now limit locked)
        (fun _ => mem_expiredJobs) h

def ByHand : ServerCall → Prop
  | .reprocessAnalysis .. => True
  | .reprocessTranslation .. => True
  | _ => False

lemma byHand_followUp {e : Event Database ServerCall} (hstep : ServerStep e.before e.label e.after)
    (hl : ByHand e.label) {n : ProcessingJob} (hn : n ∈ inserted e) : n.followUpKind = none := by
  have hone : ∀ job : ProcessingJob, e.after.jobs = e.before.jobs ++ [job] →
      job.followUpKind = none → n.followUpKind = none := by
    intro job hjobs hnone
    rw [inserted, hjobs, List.drop_left, List.mem_singleton] at hn
    rw [hn, hnone]
  rcases serverStep_cases hstep with hexec | hsame
  · cases hlabel : e.label with
    | reprocessAnalysis service id row now =>
      rw [hlabel] at hexec
      obtain ⟨job, hc⟩ := forget_ok hexec
      obtain ⟨rfl, _, _, hjobs, _⟩ := enqueueProcessing_ok hc
      exact hone _ hjobs rfl
    | reprocessTranslation service id row now =>
      rw [hlabel] at hexec
      obtain ⟨job, hc⟩ := forget_ok hexec
      obtain ⟨rfl, _, _, hjobs, _⟩ := enqueueProcessing_ok hc
      exact hone _ hjobs rfl
    | _ =>
      rw [hlabel] at hl
      exact hl.elim
  · rw [inserted, hsame, List.drop_length] at hn
    exact absurd hn List.not_mem_nil

structure FollowUpChain (es : List (Event Database ServerCall)) : Prop where
  handsOver : ∀ e ∈ es, ∀ call, e.label = .queue call → ∀ j ∈ e.before.jobs, j.active →
    ∀ j' ∈ e.after.jobs, j'.id = j.id → HandsOver e.before.settings j j' (successors e j)
  nothingElse : ∀ e ∈ es, ∀ call, e.label = .queue call → ∀ n ∈ inserted e,
    ∃ j ∈ e.before.jobs, j.active ∧ ∃ j' ∈ e.after.jobs, j'.id = j.id ∧ HandsOn j j' ∧
      n ∈ successors e j
  noClash : ∀ e ∈ es, ∀ call, e.label = .queue call →
    (∀ queue claim persister now row, call = .complete queue claim persister now row →
      persistResults persister e.before ≠ .error activeClash) →
    call.exec e.before ≠ .error activeClash
  inOrder : ∀ before e after, es = before ++ e :: after → ∀ j ∈ e.before.jobs, j.kind = .full →
    ((chain j.id (e :: after)).map (·.kind)).Sublist [.analysis, .translation]
  byHand : ∀ before e after, es = before ++ e :: after → ByHand e.label →
    ∀ n ∈ inserted e, chain n.id after = []

theorem follow_up_chain {settings : Option ProcessingSettings} {db : Database}
    {es : List (Event Database ServerCall)} (hrun : ServerRun (Database.empty settings) es db) :
    FollowUpChain es := by
  have hevent : ∀ e ∈ es, StatusInvariant e.before ∧ ServerStep e.before e.label e.after := by
    intro e he
    exact ⟨hrun.event_keeps StatusInvariant (fun _ _ _ => serverStep_consistent)
      (empty_consistent settings) he, hrun.event_step he⟩
  refine ⟨?_, ?_, ?_, ?_, ?_⟩
  · intro e he call hl j hj hactive j' hj' hid
    exact queue_handsOver e hl (hevent e he).2 (hevent e he).1 hj hactive hj' hid
  · intro e he call hl n hn
    exact inserted_origin hl (hevent e he).2 (hevent e he).1 hn
  · intro e he call _ hp
    exact exec_no_clash (hevent e he).1 hp
  · rintro before e after rfl j hj hfull
    obtain ⟨hok, hstep⟩ := hevent e (by simp)
    have hrest : ServerRun e.before (e :: after) db := .cons hstep hrun.around.2.2
    have hsub := chain_sublist hrest hok (job_of_mem hok.jobIds hj)
    rcases (hok.rows j hj).chain with hnone | hchain
    · rw [hnone] at hsub
      exact hsub.trans (List.nil_sublist _)
    · rw [hchain, hfull] at hsub
      exact hsub
  · rintro before e after rfl hl n hn
    obtain ⟨hok, hstep⟩ := hevent e (by simp)
    have hafter := serverStep_consistent hok hstep
    have hmem : n ∈ e.after.jobs := List.mem_of_mem_drop hn
    have hsub := chain_sublist hrun.around.2.2 hafter (job_of_mem hafter.jobIds hmem)
    rw [byHand_followUp hstep hl hn] at hsub
    have hnil : chainFrom none = [] := rfl
    rw [hnil, List.sublist_nil, List.map_eq_nil_iff] at hsub
    exact hsub

theorem follow_up_chain_after_transcription :
    let create := ServerCall.create exampleService exampleRecording ⟨1, 0⟩ 0
    let claim := ServerCall.queue (.claimNext exampleWorker 0 7 none [])
    let owned : ClaimedJob := ⟨1, some 1, .full, 7, "worker".toList, 1, 2, .preprocessing, none⟩
    let complete := ServerCall.queue (.complete exampleWorker owned none 5 ⟨2, 5⟩)
    let db₁ := settled (Database.empty none) (create.exec (Database.empty none))
    let db₂ := settled db₁ (claim.exec db₁)
    let db₃ := settled db₂ (complete.exec db₂)
    (chain 1 [⟨db₂, complete, db₃⟩]).map (·.kind) = [.analysis] ∧
      FollowUpChain [⟨Database.empty none, create, db₁⟩, ⟨db₁, claim, db₂⟩, ⟨db₂, complete, db₃⟩] := by
  intro create claim owned complete db₁ db₂ db₃
  refine ⟨by decide, ?_⟩
  have hrun : ServerRun (Database.empty none)
      [⟨Database.empty none, create, db₁⟩, ⟨db₁, claim, db₂⟩, ⟨db₂, complete, db₃⟩] db₃ :=
    .cons rfl (.cons rfl (.single rfl))
  exact follow_up_chain hrun

end AudioServer.Services.FollowUp
