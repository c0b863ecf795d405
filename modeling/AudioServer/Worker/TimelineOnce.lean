import AudioServer.Services.RecordedAttempts
import AudioServer.Worker.ClaimedAttempts

/-! The timeline of every job over whole runs: each transition is in it once. -/

namespace AudioServer.Worker.TimelineOnce

open AudioServer.Foundations.Outcomes AudioServer.Foundations.Runs AudioServer.Foundations.Journals
open AudioServer.Db.Models AudioServer.Activity.Repository AudioServer.Activity.Timeline
open AudioServer.Jobs.Queue AudioServer.Jobs.Effects AudioServer.Jobs.Calls AudioServer.Jobs.Transitions
open AudioServer.Services.Recordings AudioServer.Services.Transactions AudioServer.Services.Consistency
open AudioServer.Services.Openings AudioServer.Services.RecordedAttempts AudioServer.Services.Leases
open AudioServer.Worker.System AudioServer.Worker.Invariant AudioServer.Worker.ClaimedAttempts

abbrev Timely (w : World) : Prop := TimelineInvariant w.db.jobs w.db.activity

structure HistoryInvariant (w : World) : Prop where
  world : WorldInvariant w
  numbered : Numbered w
  timeline : Timely w

lemma perform_timeline {w : World} {act : Act} (h : HistoryInvariant w) (hallowed : act.Allowed w) :
    Timely (perform w act) := by
  cases hcall : queueCall act with
  | some call => exact notedRun_keeps h.timeline (perform_noted h.world h.numbered hallowed hcall)
  | none => exact booked_keeps h.timeline (perform_booked hcall)

lemma step_history {w w' : World} {act : Act} (h : HistoryInvariant w) (hstep : WorldStep w act w') :
    HistoryInvariant w' := by
  refine ⟨step_invariant h.world hstep, step_numbered h.world h.numbered hstep, ?_⟩
  obtain ⟨hallowed, rfl⟩ := hstep
  exact perform_timeline h hallowed

lemma init_history (settings : Option ProcessingSettings) : HistoryInvariant (World.init settings) :=
  ⟨init_invariant settings, fun _ hc => absurd hc List.not_mem_nil, empty_timeline⟩

lemma run_timeline {settings : Option ProcessingSettings} {w : World} {es : List (Event World Act)}
    (h : WorldRun (World.init settings) es w) : HistoryInvariant w :=
  h.keeps HistoryInvariant (fun _ _ _ => step_history) (init_history settings)

abbrev marked (db : Database) (id : JobId) (m : Mark) : List ProcessingActivity :=
  (rowsOf db.activity id).filter (fun a => mark a = m)

lemma recorded_once {db : Database} {job : ProcessingJob} (h : Recorded db.activity job) {m : Mark}
    (hm : m ∈ marksOf db.activity job.id) : ∃ a, marked db job.id m = [a] :=
  once_of_mem mark h.once hm

lemma recorded_none {db : Database} {job : ProcessingJob} {m : Mark}
    (hm : m ∉ marksOf db.activity job.id) : marked db job.id m = [] :=
  none_of_not_mem mark hm

lemma recorded_closing {db : Database} {job : ProcessingJob} (h : Recorded db.activity job) {n : ℕ}
    (hover : Over job n) :
    ∃ a, marked db job.id (.closed n) = [a] ∧ a.jobStatus = some (outcome job n) := by
  obtain ⟨a, ha⟩ := recorded_once h ((h.closed n).mpr hover)
  have hmem : a ∈ marked db job.id (.closed n) := ha ▸ List.mem_singleton_self a
  obtain ⟨hrow, hmark⟩ := List.mem_filter.mp hmem
  exact ⟨a, ha, h.outcomes a hrow n (by simpa using hmark)⟩

structure TimelineState (db : Database) : Prop where
  indexes : db.activity.Pairwise (fun a b => ¬ SameEvent a b)
  owners : ∀ a ∈ db.activity, ∃ j ∈ db.jobs, j.id = a.jobId ∧ j.recordingId = some a.recordingId
  queued : ∀ j ∈ db.jobs, j.recordingId.isSome → ∃ a, marked db j.id .queued = [a]
  started : ∀ j ∈ db.jobs, j.recordingId.isSome → ∀ n, 1 ≤ n → n ≤ j.attemptCount →
    ∃ a, marked db j.id (.started n) = [a]
  unstarted : ∀ j ∈ db.jobs, j.recordingId.isSome → ∀ n, j.attemptCount < n →
    marked db j.id (.started n) = []
  staged : ∀ j ∈ db.jobs, j.recordingId.isSome → ∀ n stage,
    (marked db j.id (.staged n stage)).length ≤ 1
  closed : ∀ j ∈ db.jobs, j.recordingId.isSome → ∀ n, Over j n →
    ∃ a, marked db j.id (.closed n) = [a] ∧ a.jobStatus = some (outcome j n)
  running : ∀ j ∈ db.jobs, j.recordingId.isSome → ∀ n, ¬ Over j n →
    marked db j.id (.closed n) = []

lemma timeline_state {db : Database} (h : TimelineInvariant db.jobs db.activity) :
    TimelineState db where
  indexes := h.keyed
  owners := h.owned
  queued j hj hsome := recorded_once (h.recorded j hj hsome) (h.recorded j hj hsome).queued
  started j hj hsome n hpos hle :=
    recorded_once (h.recorded j hj hsome) (((h.recorded j hj hsome).started n).mpr ⟨hpos, hle⟩)
  unstarted j hj hsome n hlt := by
    apply recorded_none
    rw [(h.recorded j hj hsome).started]
    omega
  staged j hj hsome n stage := filter_mark_length mark (h.recorded j hj hsome).once _
  closed j hj hsome n hover := recorded_closing (h.recorded j hj hsome) hover
  running j hj hsome n hrunning := by
    apply recorded_none
    rwa [(h.recorded j hj hsome).closed]

lemma deletedBy_some {act : Act} {id : RecordingId} (h : deletedBy act = some id) :
    act = .server (.deleteRecording id) := by
  cases act with
  | server call =>
    cases call with
    | deleteRecording other =>
      cases h
      rfl
    | _ => cases h
  | _ => cases h

lemma noted_extends {call : QueueCall} {db db' : Database} (h : Noted call db db') :
    db.activity <+: db'.activity := by
  obtain ⟨_, _, _, _, _, _, _, hrows⟩ := h
  rw [hrows]
  exact notes_extend SameEvent _ _

lemma notedRun_extends {call : QueueCall} {db db' : Database} (h : NotedRun call db db') :
    db.activity <+: db'.activity := by
  induction h with
  | refl => exact List.prefix_refl _
  | tail _ hnoted ih => exact ih.trans (noted_extends hnoted)

lemma perform_kept {w : World} {act : Act} (h : HistoryInvariant w) (hallowed : act.Allowed w)
    {a : ProcessingActivity} (ha : a ∈ w.db.activity) :
    a ∈ (perform w act).db.activity ∨ act = .server (.deleteRecording a.recordingId) := by
  cases hcall : queueCall act with
  | some call =>
    exact .inl ((notedRun_extends (perform_noted h.world h.numbered hallowed hcall)).subset ha)
  | none =>
    cases perform_booked (w := w) hcall with
    | same _ hrows => exact .inl (hrows ▸ ha)
    | opened _ _ _ _ _ _ hrows =>
      rw [hrows]
      exact .inl ((notes_extend SameEvent _ _).subset ha)
    | erased id hgone _ hrows =>
      by_cases he : a.recordingId = id
      · rw [he]
        exact .inr (deletedBy_some hgone)
      · rw [hrows]
        exact .inl (List.mem_filter.mpr ⟨ha, by simpa using he⟩)

lemma transition_attempt {job job' : ProcessingJob} {call : QueueCall} {now : Instant}
    {event : Option (RecordingId → ProcessingActivity)} (h : Transition job call now job' event) :
    (call.token.isSome ∧ job.status = .queued) ∨
      (call.token = none ∧ job'.attemptCount = job.attemptCount) := by
  cases h with
  | started queue _ token kinds locked hclaimable => exact .inl ⟨rfl, hclaimable.1⟩
  | _ => exact .inr ⟨rfl, rfl⟩

lemma notedRun_attempt {call : QueueCall} {db db' : Database} (h : NotedRun call db db')
    (hok : TimelineInvariant db.jobs db.activity) {j : ProcessingJob} (hj : j ∈ db.jobs)
    (hs : j.status = .processing) :
    ∃ k ∈ db'.jobs, SameJob j k ∧ k.attemptCount = j.attemptCount ∧
      (call.token.isSome → k.status = .processing) := by
  induction h with
  | refl => exact ⟨j, hj, ⟨rfl, rfl, rfl, rfl, rfl, rfl, rfl⟩, rfl, fun _ => hs⟩
  | tail hrun hnoted ih =>
    obtain ⟨k, hk, hsame, hattempt, hclaim⟩ := ih
    have hmid := notedRun_keeps hok hrun
    obtain ⟨job, job', event, row, now, hmoves, hturn, _⟩ := hnoted
    by_cases he : k.id = job.id
    · have hjob : k = job := List.inj_on_of_nodup_map hmid.ids hk hmoves.stored he
      subst hjob
      rcases transition_attempt hturn with ⟨htoken, hqueued⟩ | ⟨hnone, hkept⟩
      · rw [hclaim htoken] at hqueued
        cases hqueued
      · refine ⟨job', hmoves.mem_moved, sameJob_trans hsame hmoves.step.same,
          hkept.trans hattempt, ?_⟩
        intro htoken
        rw [hnone] at htoken
        cases htoken
    · exact ⟨k, hmoves.keeps_other hk he, hsame, hattempt, hclaim⟩

lemma booked_stored {gone : Option RecordingId} {db db' : Database} (h : Booked gone db db')
    (hok : TimelineInvariant db.jobs db.activity) {j j' : ProcessingJob} (hj : j ∈ db.jobs)
    (hj' : j' ∈ db'.jobs) (hid : j'.id = j.id) : j' = j := by
  have hstored : j' ∈ db.jobs := by
    cases h with
    | same hjobs _ => exact hjobs ▸ hj'
    | opened job _ _ _ hfresh hjobs _ =>
      rw [hjobs, List.mem_append, List.mem_singleton] at hj'
      rcases hj' with hold | rfl
      · exact hold
      · exact absurd hid.symm (hfresh j hj)
    | erased _ _ hjobs _ =>
      rw [hjobs] at hj'
      exact List.mem_of_mem_filter hj'
  exact List.inj_on_of_nodup_map hok.ids hstored hj hid

lemma perform_ended {w : World} {act : Act} (h : HistoryInvariant w) (hallowed : act.Allowed w)
    {j j' : ProcessingJob} (hj : j ∈ w.db.jobs) (hj' : j' ∈ (perform w act).db.jobs)
    (hid : j'.id = j.id) (hsome : j.recordingId.isSome) (hs : j.status = .processing)
    (hs' : j'.status ≠ .processing) :
    ∃ a, marked (perform w act).db j.id (.closed j.attemptCount) = [a] ∧
      a.jobStatus = some j'.status := by
  have hafter := perform_timeline h hallowed
  cases hcall : queueCall act with
  | some call =>
    obtain ⟨k, hk, hsame, hkept, _⟩ :=
      notedRun_attempt (perform_noted h.world h.numbered hallowed hcall) h.timeline hj hs
    have hjob : j' = k := List.inj_on_of_nodup_map hafter.ids hj' hk (hid.trans hsame.1.symm)
    subst hjob
    have hover : Over j' j.attemptCount :=
      ⟨(h.timeline.recorded j hj hsome).running hs, hkept.ge, fun _ => hs'⟩
    have hsome' : j'.recordingId.isSome := by rwa [hsame.2.1]
    obtain ⟨a, ha, hstatus⟩ := recorded_closing (hafter.recorded j' hj' hsome') hover
    rw [hid] at ha
    refine ⟨a, ha, ?_⟩
    rw [hstatus, outcome, if_neg (by omega : ¬ j.attemptCount < j'.attemptCount)]
  | none =>
    rw [booked_stored (perform_booked hcall) h.timeline hj hj' hid] at hs'
    exact absurd hs hs'

lemma record_marked (rows : List ProcessingActivity) (row : ProcessingActivity) :
    mark row ∈ marksOf (record rows row) row.jobId := by
  by_cases hknown : mark row ∈ marksOf rows row.jobId
  · obtain ⟨a, ha, hmark⟩ := List.mem_map.mp hknown
    obtain ⟨hmem, hjob⟩ := (mem_entriesOf _).mp ha
    refine List.mem_map.mpr ⟨a, (mem_entriesOf _).mpr ⟨?_, hjob⟩, hmark⟩
    exact (note_extends SameEvent rows row).subset hmem
  · rw [marksOf, record_fresh hknown, rowsOf, entriesOf_snoc_self, List.map_append]
    exact List.mem_append_right _ (List.mem_singleton_self _)

lemma marksOf_mono {rows rows' : List ProcessingActivity} (h : rows <+: rows') {id : JobId} {m : Mark}
    (hm : m ∈ marksOf rows id) : m ∈ marksOf rows' id := by
  obtain ⟨a, ha, hmark⟩ := List.mem_map.mp hm
  obtain ⟨hmem, hjob⟩ := (mem_entriesOf _).mp ha
  exact List.mem_map.mpr ⟨a, (mem_entriesOf _).mpr ⟨h.subset hmem, hjob⟩, hmark⟩

lemma noted_marked {db db' : Database} {job : ProcessingJob} {id : RecordingId}
    {event : RecordingId → ProcessingActivity} {rest : List ProcessingActivity}
    (hrec : job.recordingId = some id) (hjob : (event id).jobId = job.id)
    (hrows : db'.activity = recordAll db.activity (lines job.recordingId (some event) ++ rest)) :
    mark (event id) ∈ marksOf db'.activity job.id := by
  rw [hrec, lines_some] at hrows
  have hfirst : mark (bounded (event id)) ∈
      marksOf (record db.activity (bounded (event id))) (bounded (event id)).jobId :=
    record_marked _ _
  rw [mark_bounded, bounded_jobId, hjob] at hfirst
  rw [hrows, recordAll, List.foldl_append]
  exact marksOf_mono (notes_extend SameEvent _ rest) hfirst

lemma perform_entered {w : World} {queue : JobQueue} {claim : ClaimedJob} {stage : JobStage}
    {now : Instant} (h : HistoryInvariant w) (hclaim : claim ∈ w.claims)
    (haccepted : Accepted w (.server (.queue (.advanceStage queue claim stage now))))
    (hsome : claim.recordingId.isSome) :
    ∃ a, marked (perform w (.server (.queue (.advanceStage queue claim stage now)))).db claim.id
      (.staged claim.attemptCount (some stage)) = [a] := by
  have hafter : Timely (perform w (.server (.queue (.advanceStage queue claim stage now)))) :=
    perform_timeline h hclaim
  obtain ⟨_, hcall⟩ := forget_ok (accepted_db haccepted)
  obtain ⟨_, hadvance, _⟩ := map_ok hcall
  obtain ⟨job, job', event, row, at_, hmoves, hturn, hrows⟩ :=
    advanceStage_noted (fun j hj howns => held_answers h.world h.numbered hclaim hj howns) hadvance
  cases hturn with
  | advanced _ _ _ _ howns hanswers =>
    obtain ⟨id, hid⟩ := Option.isSome_iff_exists.mp hsome
    have hrec : job.recordingId = some id := hanswers.recording ▸ hid
    have hmem := noted_marked hrec howns.1.symm hrows
    have hsame := hmoves.step.same
    rw [← hsame.1] at hmem
    have hsome' : (renewRow stage now (now + queue.leaseDuration) job).recordingId.isSome := by
      simp [renewRow, hrec]
    have honce := recorded_once (hafter.recorded _ hmoves.mem_moved hsome') hmem
    rw [hsame.1, howns.1] at honce
    exact honce

lemma perform_claimed {w : World} {act : Act} (h : HistoryInvariant w) (hallowed : act.Allowed w)
    {claim : ClaimedJob} (hclaim : claim ∈ act.handedOut w.db) (hsome : claim.recordingId.isSome) :
    ∃ a, marked (perform w act).db claim.id (.started claim.attemptCount) = [a] := by
  have hafter := perform_timeline h hallowed
  obtain ⟨queue, now, token, kinds, locked, job, _, rfl, hmoves⟩ := handedOut_claim hclaim
  have hrecorded := hafter.recorded _ hmoves.mem_moved hsome
  exact recorded_once hrecorded ((hrecorded.started _).mpr ⟨Nat.succ_le_succ (Nat.zero_le _), le_rfl⟩)

structure RecordedOnce (es : List (Event World Act)) (w : World) : Prop where
  state : TimelineState w.db
  kept : ∀ e ∈ es, ∀ a ∈ e.before.db.activity,
    a ∈ e.after.db.activity ∨ e.label = .server (.deleteRecording a.recordingId)
  claimed : ∀ e ∈ es, ∀ claim ∈ e.label.handedOut e.before.db, claim.recordingId.isSome →
    ∃ a, marked e.after.db claim.id (.started claim.attemptCount) = [a]
  entered : ∀ e ∈ es, ∀ queue claim stage now,
    e.label = .server (.queue (.advanceStage queue claim stage now)) →
    Accepted e.before e.label → claim.recordingId.isSome →
    ∃ a, marked e.after.db claim.id (.staged claim.attemptCount (some stage)) = [a]
  ended : ∀ e ∈ es, ∀ j ∈ e.before.db.jobs, ∀ j' ∈ e.after.db.jobs, j'.id = j.id →
    j.recordingId.isSome → j.status = .processing → j'.status ≠ .processing →
    ∃ a, marked e.after.db j.id (.closed j.attemptCount) = [a] ∧ a.jobStatus = some j'.status

theorem timeline_records_once {settings : Option ProcessingSettings} {w : World}
    {es : List (Event World Act)} (h : WorldRun (World.init settings) es w) : RecordedOnce es w := by
  have hevent : ∀ e ∈ es, HistoryInvariant e.before ∧ e.label.Allowed e.before ∧
      e.after = perform e.before e.label := by
    intro e he
    obtain ⟨hallowed, hafter⟩ := h.event_step he
    have hbefore := h.event_keeps HistoryInvariant (fun _ _ _ => step_history) (init_history settings) he
    exact ⟨hbefore, hallowed, hafter⟩
  refine ⟨timeline_state (run_timeline h).timeline, ?_, ?_, ?_, ?_⟩
  · intro e he a ha
    obtain ⟨hok, hallowed, hafter⟩ := hevent e he
    rw [hafter]
    exact perform_kept hok hallowed ha
  · intro e he claim hclaim hsome
    obtain ⟨hok, hallowed, hafter⟩ := hevent e he
    rw [hafter]
    exact perform_claimed hok hallowed hclaim hsome
  · intro e he queue claim stage now hlabel haccepted hsome
    obtain ⟨hok, hallowed, hafter⟩ := hevent e he
    rw [hlabel] at hallowed haccepted hafter
    rw [hafter]
    exact perform_entered hok hallowed haccepted hsome
  · intro e he j hj j' hj' hid hsome hs hs'
    obtain ⟨hok, hallowed, hafter⟩ := hevent e he
    rw [hafter] at hj' ⊢
    exact perform_ended hok hallowed hj hj' hid hsome hs hs'

def firstClaim : ClaimedJob := ⟨1, some 1, .full, 7, "worker".toList, 1, 2, .preprocessing, none⟩

def twoAttempts : List Act :=
  [.server (.create exampleService exampleRecording ⟨1, 0⟩ 0),
    .server (.queue (.claimNext exampleWorker 1 7 none [])),
    .server (.queue (.advanceStage exampleWorker firstClaim .transcribing 2)),
    .server (.queue (.advanceStage exampleWorker firstClaim .transcribing 3)),
    .server (.queue (.recoverExpired exampleWorker 100 10 [] (fun _ => ⟨2, 100⟩))),
    .server (.queue (.claimNext exampleWorker 101 8 none [])),
    .server (.queue (.recoverExpired exampleWorker 300 10 [] (fun _ => ⟨2, 300⟩)))]

lemma twoAttempts_allowed : AllAllowed Act.Allowed perform (World.init none) twoAttempts := by
  have hclaim : ∀ c ∈ (World.init none).claims, c.claimToken ≠ 7 := by decide
  refine ⟨trivial, ?_, ?_, ?_, trivial, ?_, trivial, trivial⟩
  · exact hclaim
  · show firstClaim ∈ (perform _ _).claims
    decide +kernel
  · show firstClaim ∈ (perform _ _).claims
    decide +kernel
  · show ∀ c ∈ (perform _ _).claims, c.claimToken ≠ 8
    decide +kernel

theorem timeline_records_once_retried :
    RecordedOnce (trail perform (World.init none) twoAttempts)
      (twoAttempts.foldl perform (World.init none)) ∧
    (twoAttempts.foldl perform (World.init none)).db.activity.map mark =
      [.queued, .started 1, .staged 1 (some .transcribing), .closed 1, .started 2, .closed 2] :=
  ⟨timeline_records_once (run_trail _ _ twoAttempts_allowed), by decide +kernel⟩

end AudioServer.Worker.TimelineOnce
