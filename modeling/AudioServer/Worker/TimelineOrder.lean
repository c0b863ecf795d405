import AudioServer.Foundations.Histories
import AudioServer.Services.LeaseOrder
import AudioServer.Worker.Grounding
import AudioServer.Worker.TimelineOnce

/-! The times of the timeline over whole runs, when every worker reads its own clock. -/

namespace AudioServer.Worker.TimelineOrder

open AudioServer.Foundations.Outcomes AudioServer.Foundations.Strings AudioServer.Foundations.Runs
open AudioServer.Foundations.Histories AudioServer.Foundations.Journals
open AudioServer.Db.Models AudioServer.Activity.Repository AudioServer.Activity.Timeline
open AudioServer.Jobs.Queue AudioServer.Jobs.Effects AudioServer.Jobs.Calls AudioServer.Jobs.Transitions
open AudioServer.Services.Recordings AudioServer.Services.Transactions AudioServer.Services.Consistency
open AudioServer.Services.Openings AudioServer.Services.RecordedAttempts AudioServer.Services.LeaseOrder
open AudioServer.Worker.System AudioServer.Worker.Invariant AudioServer.Worker.ClaimedAttempts
open AudioServer.Worker.TimelineOnce AudioServer.Worker.Grounding

def readings (es : List (Event World Act)) (name : Text) : List Instant :=
  es.filterMap (fun e => (queueCall e.label).bind (fun call =>
    if (reading call).1 = name then some (reading call).2 else none))

/-- No worker's own clock goes back. Nothing relates the clocks of two workers, or any of them
to the times the services queue jobs at. -/
def ClocksForward (es : List (Event World Act)) : Prop :=
  ∀ name, (readings es name).Pairwise (· ≤ ·)

lemma clocksForward_iff {es : List (Event World Act)} : ClocksForward es ↔
    ∀ e ∈ es, ∀ call ∈ queueCall e.label, (readings es (reading call).1).Pairwise (· ≤ ·) := by
  refine ⟨fun h e _ call _ => h (reading call).1, ?_⟩
  intro h name
  by_cases hname : ∃ e ∈ es, ∃ call ∈ queueCall e.label, (reading call).1 = name
  · obtain ⟨e, he, call, hcall, rfl⟩ := hname
    exact h e he call hcall
  · have hnone : readings es name = [] := by
      rw [readings, List.filterMap_eq_nil_iff]
      intro e he
      cases hcall : queueCall e.label with
      | none => rfl
      | some call => exact if_neg (fun hsame => hname ⟨e, he, call, hcall, hsame⟩)
    rw [hnone]
    exact .nil

instance (es : List (Event World Act)) : Decidable (ClocksForward es) :=
  decidable_of_iff _ clocksForward_iff.symm

lemma readings_snoc (es : List (Event World Act)) (e : Event World Act) (name : Text) :
    readings (es ++ [e]) name = readings es name ++ readings [e] name :=
  List.filterMap_append

lemma clocksForward_of_snoc {es : List (Event World Act)} {e : Event World Act}
    (h : ClocksForward (es ++ [e])) : ClocksForward es := by
  intro name
  have hall := h name
  rw [readings_snoc] at hall
  exact (List.pairwise_append.mp hall).1

lemma clocksForward_current {es : List (Event World Act)} {e : Event World Act} {call : QueueCall}
    (h : ClocksForward (es ++ [e])) (hcall : queueCall e.label = some call) :
    Current (readings (es ++ [e])) call := by
  have hone : readings [e] (reading call).1 = [(reading call).2] := by simp [readings, hcall]
  have hall := h (reading call).1
  rw [readings_snoc, hone] at hall
  have hlast := (List.pairwise_append.mp hall).2.2
  refine ⟨?_, ?_⟩
  · rw [readings_snoc, hone]
    exact List.mem_append_right _ (List.mem_singleton_self _)
  · intro t ht
    rw [readings_snoc, hone, List.mem_append, List.mem_singleton] at ht
    rcases ht with hold | rfl
    · exact hlast t hold _ (List.mem_singleton_self _)
    · exact le_rfl

structure OrderInvariant (es : List (Event World Act)) (w : World) : Prop where
  history : HistoryInvariant w
  ordered : ClocksForward es → AllInOrder (readings es) w.db.jobs w.db.activity

lemma step_order {es : List (Event World Act)} {w w' : World} {act : Act} (h : OrderInvariant es w)
    (hstep : WorldStep w act w') : OrderInvariant (es ++ [⟨w, act, w'⟩]) w' := by
  refine ⟨step_history h.history hstep, ?_⟩
  obtain ⟨hallowed, rfl⟩ := hstep
  intro hclocks
  have hbefore := h.ordered (clocksForward_of_snoc hclocks)
  have hseen : AllInOrder (readings (es ++ [⟨w, act, perform w act⟩])) w.db.jobs w.db.activity := by
    intro j hj
    apply (hbefore j hj).mono
    intro name
    rw [readings_snoc]
    exact List.subset_append_left _ _
  cases hcall : queueCall act with
  | some call =>
    have hrun := perform_noted h.history.world h.history.numbered hallowed hcall
    exact notedRun_inOrder hseen h.history.timeline (clocksForward_current hclocks hcall) hrun
  | none => exact booked_inOrder hseen h.history.timeline (perform_booked hcall)

lemma run_order {settings : Option ProcessingSettings} {w : World} {es : List (Event World Act)}
    (h : WorldRun (World.init settings) es w) : OrderInvariant es w := by
  apply run_history OrderInvariant ?_ h
  · exact ⟨init_history settings, fun _ _ hj => absurd hj List.not_mem_nil⟩
  · exact fun _ _ _ _ hok hstep => step_order hok hstep

structure CausedBy (before after : Database) (cause next : ProcessingJob) : Prop where
  running : cause ∈ before.jobs ∧ cause.status = .processing
  ended : ∃ j ∈ after.jobs, SameJob cause j ∧ ¬ j.active
  recording : next.recordingId = cause.recordingId
  rows : ∃ closing opening,
    rowsOf after.activity cause.id = rowsOf before.activity cause.id ++ [closing] ∧
    mark closing = .closed cause.attemptCount ∧
    rowsOf after.activity next.id = [opening] ∧ opening.eventType = .jobQueued ∧
    closing.occurredAt < opening.occurredAt

def Closes : QueueCall → Prop
  | .complete .. | .fail .. | .recoverExpired .. => True
  | _ => False

lemma transition_closes {job job' : ProcessingJob} {call : QueueCall} {now : Instant}
    {event : Option (RecordingId → ProcessingActivity)} (h : Transition job call now job' event) :
    (Closes call ∧ job.status = .processing ∧ job'.status ≠ .processing) ∨
      (¬ Closes call ∧ ¬ HandsOn job job') := by
  cases h with
  | started => exact .inr ⟨id, by simp [HandsOn, claimRow]⟩
  | renewed queue claim _ howns => exact .inr ⟨id, by simp [HandsOn, renewRow, howns.2.1]⟩
  | advanced queue claim stage _ howns _ =>
    exact .inr ⟨id, by simp [HandsOn, renewRow, howns.2.1]⟩
  | completed queue claim persister _ row howns =>
    exact .inl ⟨trivial, howns.2.1, by simp [completeRow]⟩
  | retried queue claim failure _ row delay stage code errorType message howns _ =>
    exact .inl ⟨trivial, howns.2.1, by simp [retryRow]⟩
  | failed queue claim failure _ row stage code errorType message howns =>
    exact .inl ⟨trivial, howns.2.1, by simp [failedRow]⟩
  | requeued queue _ limit locked rows delay stage code errorType message hexpired _ =>
    exact .inl ⟨trivial, hexpired.1, by simp [retryRow]⟩
  | abandoned queue _ limit locked rows stage code errorType message hexpired =>
    exact .inl ⟨trivial, hexpired.1, by simp [failedRow]⟩

lemma notedRun_unhanded {call : QueueCall} {db db' : Database} (hcall : ¬ Closes call)
    (h : NotedRun call db db') : ∀ n ∈ db'.jobs, ∃ j ∈ db.jobs, j.id = n.id := by
  induction h with
  | refl => exact fun n hn => ⟨n, hn, rfl⟩
  | tail _ hnoted ih =>
    intro n hn
    obtain ⟨job, job', event, row, now, hmoves, hturn, _⟩ := hnoted
    rcases hmoves.origin hn with ⟨hold, _⟩ | rfl | hnew
    · exact ih n hold
    · rw [hmoves.step.same.1]
      exact ih job hmoves.stored
    · rcases transition_closes hturn with ⟨hcloses, _⟩ | ⟨_, hquiet⟩
      · exact absurd hcloses hcall
      · rw [handedOn_of_not hquiet] at hnew
        cases hnew

structure Handed (before mid : Database) : Prop where
  untouched : ∀ k ∈ mid.jobs, k.status = .processing →
    k ∈ before.jobs ∧ rowsOf mid.activity k.id = rowsOf before.activity k.id
  caused : ∀ n ∈ mid.jobs, (∀ j ∈ before.jobs, j.id ≠ n.id) →
    n.status = .queued ∧ ∃ cause, CausedBy before mid cause n

lemma handed_refl {db : Database} : Handed db db where
  untouched _ hk _ := ⟨hk, rfl⟩
  caused n hn hnew := absurd rfl (hnew n hn)

lemma handedOn_rows {call : QueueCall} {db db' : Database} {job job' n : ProcessingJob}
    {event : Option (RecordingId → ProcessingActivity)} {row : RowDefaults} {now : Instant}
    (hok : TimelineInvariant db.jobs db.activity) (hmoves : Moves db job job' row now db')
    (hturn : Transition job call now job' event)
    (hrows : db'.activity = recordAll db.activity (lines job.recordingId event ++
      (handedOn db.settings job job' row now).flatMap (queuedLines .jobQueued)))
    (hn : n ∈ handedOn db.settings job job' row now) :
    ∃ closing opening, rowsOf db'.activity job.id = rowsOf db.activity job.id ++ [closing] ∧
      mark closing = .closed job.attemptCount ∧ rowsOf db'.activity n.id = [opening] ∧
      opening.eventType = .jobQueued ∧ closing.occurredAt < opening.occurredAt := by
  have hfresh := hmoves.fresh n hn
  obtain ⟨hends, hsome, kind, hkind, rfl⟩ := handedOn_mem hn
  obtain ⟨id, hid⟩ := Option.isSome_iff_exists.mp hsome
  have hone : handedOn db.settings job job' row now = [followUpJob job kind row now] := by
    rw [handedOn_of hends, handOff, hid, hkind]
  have hs : job.status = .processing := by
    rcases transition_closes hturn with ⟨_, hs, _⟩ | ⟨_, hquiet⟩
    · exact hs
    · exact absurd hends hquiet
  rw [hone, List.flatMap_singleton, recordAll, List.foldl_append, hid] at hrows
  cases transition_stride hturn with
  | starts hq => rw [hs] at hq; cases hq
  | renews hsame => exact absurd hends (by simp [HandsOn, hsame, hs])
  | enters stage hsame => exact absurd hends (by simp [HandsOn, hsame, hs])
  | @closes e _ _ _ hmark _ =>
    have hat := ((transition_now hturn).2 e rfl id).1
    have hjob : (bounded (e id)).jobId = job.id := (transition_line hturn id).1
    have hrecorded := hok.recorded job hmoves.stored hsome
    have hnotyet : mark (bounded (e id)) ∉ marksOf db.activity job.id := by
      rw [mark_bounded, hmark, hrecorded.closed]
      exact fun hover => hover.2.2 rfl hs
    have hne : job.id ≠ (followUpJob job kind row now).id := hfresh job hmoves.stored
    have hunknown : rowsOf (record db.activity (bounded (e id))) (followUpJob job kind row now).id =
        [] := by
      rw [rowsOf_record (by rwa [hjob])]
      exact hok.unknown hfresh
    obtain ⟨opening, hopening, hnext, htype, hopens⟩ : ∃ opening,
        queuedLines .jobQueued (followUpJob job kind row now) = [opening] ∧
        opening.jobId = (followUpJob job kind row now).id ∧ opening.eventType = .jobQueued ∧
        opening.occurredAt = now + 1 := by
      refine ⟨bounded (jobEvent row.id kind 0 job.maxAttempts .jobQueued .queued .queued (now + 1) id),
        ?_, rfl, rfl, rfl⟩
      simp [queuedLines, followUpJob, newJob, hid]
    rw [hopening] at hrows
    have hafter : db'.activity = record (record db.activity (bounded (e id))) opening := hrows
    refine ⟨bounded (e id), opening, ?_, hmark id, ?_, htype, ?_⟩
    · rw [hafter, rowsOf_record (by rw [hnext]; exact hne.symm)]
      exact marks_record hjob hnotyet
    · rw [hafter, marks_record hnext (by simp [marksOf, hunknown]), hunknown, List.nil_append]
    · rw [bounded_occurredAt, hat, hopens]
      exact Int.lt_succ now

lemma noted_frame {db db' : Database} {job job' : ProcessingJob} {call : QueueCall}
    {event : Option (RecordingId → ProcessingActivity)} {row : RowDefaults} {now : Instant}
    (hturn : Transition job call now job' event)
    (hrows : db'.activity = recordAll db.activity (lines job.recordingId event ++
      (handedOn db.settings job job' row now).flatMap (queuedLines .jobQueued)))
    {id : JobId} (hjob : id ≠ job.id) (hnew : ∀ n ∈ handedOn db.settings job job' row now, id ≠ n.id) :
    rowsOf db'.activity id = rowsOf db.activity id := by
  rw [hrows]
  apply entriesOf_notes
  intro a ha
  rcases List.mem_append.mp ha with hline | hqueued
  · rw [(transition_lines hturn _ a hline).1]
    exact hjob.symm
  · obtain ⟨n, hn, ha⟩ := List.mem_flatMap.mp hqueued
    rw [(queuedLines_owned a ha).1]
    exact (hnew n hn).symm

lemma noted_handed {call : QueueCall} {before mid db' : Database} (hcall : Closes call)
    (hok : TimelineInvariant mid.jobs mid.activity) (h : Handed before mid)
    (hnoted : Noted call mid db') : Handed before db' := by
  obtain ⟨job, job', event, row, now, hmoves, hturn, hrows⟩ := hnoted
  obtain ⟨hs, hs'⟩ : job.status = .processing ∧ job'.status ≠ .processing := by
    rcases transition_closes hturn with ⟨_, hs, hs'⟩ | ⟨hnot, _⟩
    · exact ⟨hs, hs'⟩
    · exact absurd hcall hnot
  have hframe : ∀ k ∈ mid.jobs, k.id ≠ job.id → rowsOf db'.activity k.id = rowsOf mid.activity k.id := by
    intro k hk hne
    exact noted_frame hturn hrows hne (fun n hn => hmoves.fresh n hn k hk)
  refine ⟨?_, ?_⟩
  · intro k hk hrunning
    rcases hmoves.origin hk with ⟨hold, hne⟩ | rfl | hnew
    · rw [hframe k hold hne]
      exact h.untouched k hold hrunning
    · exact absurd hrunning hs'
    · obtain ⟨_, _, kind, _, rfl⟩ := handedOn_mem hnew
      cases hrunning
  · intro n hn hadded
    rcases hmoves.origin hn with ⟨hold, hne⟩ | rfl | hnew
    · obtain ⟨hqueued, cause, hrunning, ⟨ended, hended, hsame, hover⟩, hrec, hcause⟩ :=
        h.caused n hold hadded
      have hother : ended.id ≠ job.id := by
        intro he
        have hjob : ended = job := List.inj_on_of_nodup_map hok.ids hended hmoves.stored he
        exact hover (hjob ▸ hmoves.step.active)
      refine ⟨hqueued, cause, hrunning, ⟨ended, hmoves.keeps_other hended hother, hsame, hover⟩, hrec,
        ?_⟩
      rw [← hsame.1, hframe ended hended hother, hframe n hold hne, hsame.1]
      exact hcause
    · have hqueued := (h.caused job hmoves.stored (by rwa [← hmoves.step.same.1])).1
      rw [hs] at hqueued
      cases hqueued
    · have hcause := handedOn_rows hok hmoves hturn hrows hnew
      obtain ⟨hends, _, kind, _, rfl⟩ := handedOn_mem hnew
      obtain ⟨hstored, hbefore⟩ := h.untouched job hmoves.stored hs
      rw [hbefore] at hcause
      exact ⟨rfl, job, ⟨hstored, hs⟩,
        ⟨job', hmoves.mem_moved, hmoves.step.same, handsOn_ended hends⟩, rfl, hcause⟩

lemma notedRun_caused {call : QueueCall} {db db' : Database}
    (hok : TimelineInvariant db.jobs db.activity) (hrun : NotedRun call db db') :
    ∀ n ∈ db'.jobs, (∀ j ∈ db.jobs, j.id ≠ n.id) → ∃ cause, CausedBy db db' cause n := by
  by_cases hcall : Closes call
  · have hhanded : Handed db db' := by
      induction hrun with
      | refl => exact handed_refl
      | tail hrun hnoted ih => exact noted_handed hcall (notedRun_keeps hok hrun) ih hnoted
    exact fun n hn hadded => (hhanded.caused n hn hadded).2
  · intro n hn hadded
    obtain ⟨j, hj, hid⟩ := notedRun_unhanded hcall hrun n hn
    exact absurd hid (hadded j hj)

structure TimelineOrdered (es : List (Event World Act)) (w : World) : Prop where
  ordered : ∀ id, (rowsOf w.db.activity id).Pairwise (fun a b => a.occurredAt ≤ b.occurredAt)
  opening : ∀ id, ∀ q ∈ rowsOf w.db.activity id, mark q = .queued →
    ∀ a ∈ rowsOf w.db.activity id, q.occurredAt ≤ a.occurredAt
  chained : ∀ e ∈ es, ∀ call, queueCall e.label = some call → ∀ next ∈ e.after.db.jobs,
    (∀ j ∈ e.before.db.jobs, j.id ≠ next.id) → ∃ cause, CausedBy e.before.db e.after.db cause next

theorem timeline_order {settings : Option ProcessingSettings} {w : World} {es : List (Event World Act)}
    (h : WorldRun (World.init settings) es w) (hclocks : ClocksForward es) : TimelineOrdered es w := by
  obtain ⟨hhistory, hordered⟩ := run_order h
  have hrows : ∀ id, rowsOf w.db.activity id = [] ∨
      ∃ j, j.id = id ∧ InOrder (readings es) w.db.activity j := by
    intro id
    by_cases hjob : ∃ j ∈ w.db.jobs, j.id = id
    · obtain ⟨j, hj, hid⟩ := hjob
      exact .inr ⟨j, hid, hordered hclocks j hj⟩
    · simp only [not_exists, not_and] at hjob
      exact .inl (hhistory.timeline.unknown hjob)
  refine ⟨?_, ?_, ?_⟩
  · intro id
    rcases hrows id with hnone | ⟨j, rfl, hj⟩
    · rw [hnone]
      exact .nil
    · exact hj.sorted
  · intro id q hq hqueued a ha
    rcases hrows id with hnone | ⟨j, rfl, hj⟩
    · rw [hnone] at hq
      cases hq
    · exact hj.opening q hq hqueued a ha
  · intro e he call hcall next hnext hadded
    obtain ⟨hallowed, hafter⟩ := h.event_step he
    have hbefore := h.event_keeps HistoryInvariant (fun _ _ _ => step_history) (init_history settings) he
    have hrun := perform_noted hbefore.world hbefore.numbered hallowed hcall
    rw [← hafter] at hrun
    exact notedRun_caused hbefore.timeline hrun next hnext hadded

def aheadWorker : JobQueue := { exampleWorker with workerId := "ahead".toList }

/-- The translation is claimed by a worker whose clock is ahead, and recovered by another. -/
def skewedActs : List Act :=
  analysedActs ++
    [.server (.queue (.claimNext aheadWorker 1000 9 none [])),
      .server (.queue (.recoverExpired exampleWorker 5 10 [] (fun _ => ⟨4, 5⟩))),
      .server (.queue (.recoverExpired exampleWorker 1060 10 [] (fun _ => ⟨4, 1060⟩)))]

lemma skewedActs_allowed : AllAllowed (fun w act => act.Allowed w) perform (World.init none)
    skewedActs := by
  refine analysedActs_allowed.append _ _ ⟨claimNext_allowed ?_, trivial, trivial, trivial⟩
  decide +kernel

theorem timeline_order_skewed :
    TimelineOrdered (trail perform (World.init none) skewedActs)
      (skewedActs.foldl perform (World.init none)) ∧
    ((skewedActs.foldl perform (World.init none)).db.activity.map (fun a => (a.jobId, a.occurredAt))) =
      [(1, 0), (1, 0), (1, 1), (2, 2), (2, 2), (2, 3), (3, 4), (3, 1000), (3, 1060)] :=
  ⟨timeline_order (run_trail _ _ skewedActs_allowed) (by decide +kernel), by decide +kernel⟩

end AudioServer.Worker.TimelineOrder
