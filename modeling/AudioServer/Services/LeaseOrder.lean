import AudioServer.Services.RecordedAttempts

/-! What keeps the rows of a job in the order of their times: a claim waits for the stored
`available_at`, a recovery for the stored lease, and every event of the owner renews the lease. -/

namespace AudioServer.Services.LeaseOrder

open AudioServer.Foundations.Journals AudioServer.Db.Models AudioServer.Foundations.Strings
open AudioServer.Activity.Repository AudioServer.Activity.Timeline
open AudioServer.Jobs.Queue AudioServer.Jobs.Effects AudioServer.Jobs.Calls AudioServer.Jobs.Transitions
open AudioServer.Services.Openings AudioServer.Services.RecordedAttempts

def reading : QueueCall → Text × Instant
  | .claimNext queue now _ _ _ => (queue.workerId, now)
  | .heartbeat _ claim now => (claim.workerId, now)
  | .advanceStage _ claim _ now => (claim.workerId, now)
  | .complete _ claim _ now _ => (claim.workerId, now)
  | .fail _ claim _ now _ => (claim.workerId, now)
  | .recoverExpired queue now _ _ _ => (queue.workerId, now)

def Current (seen : Text → List Instant) (call : QueueCall) : Prop :=
  (reading call).2 ∈ seen (reading call).1 ∧ ∀ t ∈ seen (reading call).1, t ≤ (reading call).2

structure InOrder (seen : Text → List Instant) (rows : List ProcessingActivity) (job : ProcessingJob) :
    Prop where
  sorted : Chronological ProcessingActivity.occurredAt (rowsOf rows job.id)
  opening : ∀ q ∈ rowsOf rows job.id, mark q = .queued → ∀ a ∈ rowsOf rows job.id,
    q.occurredAt ≤ a.occurredAt
  waiting : job.status = .queued → ∀ a ∈ rowsOf rows job.id, a.occurredAt ≤ job.availableAt
  leased : job.status = .processing → ∃ lease, job.leaseExpiresAt = some lease ∧
    ∀ a ∈ rowsOf rows job.id, a.occurredAt ≤ lease
  stamped : job.status = .processing → ∃ name, job.workerId = some name ∧
    ∀ a ∈ rowsOf rows job.id, ∃ t ∈ seen name, a.occurredAt ≤ t

lemma InOrder.frame {seen : Text → List Instant} {rows rows' : List ProcessingActivity}
    {job : ProcessingJob} (h : InOrder seen rows job)
    (hsame : rowsOf rows' job.id = rowsOf rows job.id) : InOrder seen rows' job := by
  obtain ⟨hsorted, hopening, hwaiting, hleased, hstamped⟩ := h
  rw [← hsame] at hsorted hopening hwaiting hleased hstamped
  exact ⟨hsorted, hopening, hwaiting, hleased, hstamped⟩

lemma InOrder.mono {seen seen' : Text → List Instant} {rows : List ProcessingActivity}
    {job : ProcessingJob} (h : InOrder seen rows job) (hseen : ∀ name, seen name ⊆ seen' name) :
    InOrder seen' rows job := by
  refine ⟨h.sorted, h.opening, h.waiting, h.leased, ?_⟩
  intro hs
  obtain ⟨name, hname, hrows⟩ := h.stamped hs
  refine ⟨name, hname, ?_⟩
  intro a ha
  obtain ⟨t, ht, hle⟩ := hrows a ha
  exact ⟨t, hseen name ht, hle⟩

lemma transition_now {job job' : ProcessingJob} {call : QueueCall} {now : Instant}
    {event : Option (RecordingId → ProcessingActivity)} (h : Transition job call now job' event) :
    (reading call).2 = now ∧ ∀ e ∈ event, ∀ id, (e id).occurredAt = now ∧ mark (e id) ≠ .queued := by
  cases h with
  | renewed =>
    refine ⟨rfl, ?_⟩
    intro e he
    cases he
  | _ =>
    refine ⟨rfl, ?_⟩
    intro e he id
    cases he
    exact ⟨rfl, by simp [mark, jobEvent, failureEvent]⟩

section Moving

variable {seen : Text → List Instant} {rows : List ProcessingActivity} {job job' : ProcessingJob}
  {call : QueueCall} {now : Instant} {event : Option (RecordingId → ProcessingActivity)}

lemma owned_past (h : InOrder seen rows job) {claim : ClaimedJob} (howns : Owns claim job)
    (hlatest : ∀ t ∈ seen claim.workerId, t ≤ now) :
    ∀ a ∈ rowsOf rows job.id, a.occurredAt ≤ now := by
  obtain ⟨name, hname, hrows⟩ := h.stamped howns.2.1
  have hworker : name = claim.workerId := Option.some.inj (hname.symm.trans howns.2.2.2)
  intro a ha
  obtain ⟨t, ht, hle⟩ := hrows a ha
  exact hle.trans (hlatest t (hworker ▸ ht))

lemma expired_past (h : InOrder seen rows job) (hexpired : Expired now job) :
    ∀ a ∈ rowsOf rows job.id, a.occurredAt ≤ now := by
  obtain ⟨lease, hlease, hrows⟩ := h.leased hexpired.1
  intro a ha
  exact (hrows a ha).trans (hexpired.2 lease hlease)

lemma transition_past (h : InOrder seen rows job) (hcurrent : Current seen call)
    (hturn : Transition job call now job' event) :
    ∀ a ∈ rowsOf rows job.id, a.occurredAt ≤ now := by
  obtain ⟨_, hlatest⟩ := hcurrent
  cases hturn with
  | started queue _ token kinds locked hclaimable =>
    intro a ha
    exact (h.waiting hclaimable.1 a ha).trans hclaimable.2.1
  | renewed queue claim _ howns => exact owned_past h howns hlatest
  | advanced queue claim stage _ howns _ => exact owned_past h howns hlatest
  | completed queue claim persister _ row howns => exact owned_past h howns hlatest
  | retried queue claim failure _ row delay stage code errorType message howns _ =>
    exact owned_past h howns hlatest
  | failed queue claim failure _ row stage code errorType message howns =>
    exact owned_past h howns hlatest
  | requeued queue _ limit locked rows delay stage code errorType message hexpired _ =>
    exact expired_past h hexpired
  | abandoned queue _ limit locked rows stage code errorType message hexpired =>
    exact expired_past h hexpired

lemma transition_next (hturn : Transition job call now job' event) :
    (job'.status = .queued → now ≤ job'.availableAt) ∧
    (job'.status = .processing → (∃ lease, job'.leaseExpiresAt = some lease ∧ now ≤ lease) ∧
      job'.workerId = some (reading call).1) := by
  cases hturn with
  | started queue _ token kinds locked _ =>
    refine ⟨by simp [claimRow], fun _ => ⟨⟨_, rfl, ?_⟩, rfl⟩⟩
    exact Int.le_add_of_nonneg_right queue.lease_positive.le
  | renewed queue claim _ howns =>
    refine ⟨by simp [renewRow, howns.2.1], fun _ => ⟨⟨_, rfl, ?_⟩, howns.2.2.2⟩⟩
    exact Int.le_add_of_nonneg_right queue.lease_positive.le
  | advanced queue claim stage _ howns _ =>
    refine ⟨by simp [renewRow, howns.2.1], fun _ => ⟨⟨_, rfl, ?_⟩, howns.2.2.2⟩⟩
    exact Int.le_add_of_nonneg_right queue.lease_positive.le
  | completed => exact ⟨by simp [completeRow], by simp [completeRow]⟩
  | retried queue claim failure _ row delay stage code errorType message _ hdelay =>
    exact ⟨fun _ => Int.le_add_of_nonneg_right hdelay.le, by simp [retryRow]⟩
  | failed => exact ⟨by simp [failedRow], by simp [failedRow]⟩
  | requeued queue _ limit locked rows delay stage code errorType message _ hdelay =>
    exact ⟨fun _ => Int.le_add_of_nonneg_right hdelay.le, by simp [retryRow]⟩
  | abandoned => exact ⟨by simp [failedRow], by simp [failedRow]⟩

lemma inOrder_next (hcurrent : Current seen call) (hturn : Transition job call now job' event)
    (hsorted : Chronological ProcessingActivity.occurredAt (rowsOf rows job'.id))
    (hopening : ∀ q ∈ rowsOf rows job'.id, mark q = .queued → ∀ a ∈ rowsOf rows job'.id,
      q.occurredAt ≤ a.occurredAt)
    (hpast : ∀ a ∈ rowsOf rows job'.id, a.occurredAt ≤ now) : InOrder seen rows job' := by
  obtain ⟨hwaiting, hprocessing⟩ := transition_next hturn
  refine ⟨hsorted, hopening, ?_, ?_, ?_⟩
  · intro hs a ha
    exact (hpast a ha).trans (hwaiting hs)
  · intro hs
    obtain ⟨⟨lease, hlease, hle⟩, _⟩ := hprocessing hs
    exact ⟨lease, hlease, fun a ha => (hpast a ha).trans hle⟩
  · intro hs
    refine ⟨_, (hprocessing hs).2, ?_⟩
    intro a ha
    refine ⟨_, hcurrent.1, ?_⟩
    rw [(transition_now hturn).1]
    exact hpast a ha

lemma inOrder_turned (h : InOrder seen rows job) (hcurrent : Current seen call)
    (hid : job'.id = job.id) (hturn : Transition job call now job' event)
    (recordingId : Option RecordingId) :
    InOrder seen (recordAll rows (lines recordingId event)) job' := by
  have hpast := transition_past h hcurrent hturn
  have hkept : InOrder seen rows job' := by
    apply inOrder_next hcurrent hturn
    · rw [hid]
      exact h.sorted
    · rw [hid]
      exact h.opening
    · rw [hid]
      exact hpast
  cases recordingId with
  | none => exact hkept
  | some id =>
    cases event with
    | none => exact hkept
    | some e =>
      obtain ⟨hat, hmark⟩ := (transition_now hturn).2 e rfl id
      have hjob : (bounded (e id)).jobId = job'.id := (transition_line hturn id).1.trans hid.symm
      rw [lines_some, recordAll, List.foldl_cons, List.foldl_nil, record, note]
      split
      · exact hkept
      · have hrows : rowsOf (rows ++ [bounded (e id)]) job'.id =
            rowsOf rows job'.id ++ [bounded (e id)] := by
          rw [← hjob]
          exact entriesOf_snoc_self _ rows (bounded (e id))
        have hbefore : ∀ a ∈ rowsOf rows job'.id, a.occurredAt ≤ (bounded (e id)).occurredAt := by
          rw [hid, bounded_occurredAt, hat]
          exact hpast
        apply inOrder_next hcurrent hturn
        · rw [hrows]
          exact chronological_snoc _ hkept.sorted hbefore
        · intro q hq hqueued a ha
          rw [hrows, List.mem_append, List.mem_singleton] at hq ha
          rcases hq with hq | rfl
          · rcases ha with ha | rfl
            · exact hkept.opening q hq hqueued a ha
            · exact hbefore q hq
          · exact absurd hqueued hmark
        · intro a ha
          rw [hrows, List.mem_append, List.mem_singleton] at ha
          rcases ha with ha | rfl
          · exact hpast a (hid ▸ ha)
          · exact hat.le

end Moving

lemma inOrder_opened {rows : List ProcessingActivity} {job : ProcessingJob}
    {eventType : ProcessingActivityType} (seen : Text → List Instant)
    (hnone : rowsOf rows job.id = []) (hnew : Unclaimed job) :
    InOrder seen (recordAll rows (queuedLines eventType job)) job := by
  have hat : ∀ a ∈ rowsOf (recordAll rows (queuedLines eventType job)) job.id,
      a.occurredAt = job.availableAt := by
    intro a ha
    obtain ⟨hmem, hjob⟩ := (mem_entriesOf _).mp ha
    rcases mem_notes SameEvent hmem with hold | hlast
    · have hold : a ∈ rowsOf rows job.id := (mem_entriesOf _).mpr ⟨hold, hjob⟩
      rw [hnone] at hold
      cases hold
    · rw [queuedLines] at hlast
      cases hrec : job.recordingId with
      | none =>
        rw [hrec] at hlast
        cases hlast
      | some id =>
        rw [hrec, lines_some, List.mem_singleton] at hlast
        rw [hlast]
        rfl
  have hidle : job.status ≠ .processing := by simp [hnew.status]
  refine ⟨?_, ?_, ?_, fun hs => absurd hs hidle, fun hs => absurd hs hidle⟩
  · apply List.pairwise_of_forall_mem_list
    intro a ha b hb
    rw [hat a ha, hat b hb]
  · intro q hq _ a ha
    rw [hat q hq, hat a ha]
  · intro _ a ha
    rw [hat a ha]

abbrev AllInOrder (seen : Text → List Instant) (jobs : List ProcessingJob)
    (rows : List ProcessingActivity) : Prop := ∀ j ∈ jobs, InOrder seen rows j

lemma opened_inOrder {seen : Text → List Instant} {jobs : List ProcessingJob}
    {rows : List ProcessingActivity} {job : ProcessingJob} {eventType : ProcessingActivityType}
    (h : AllInOrder seen jobs rows) (hok : TimelineInvariant jobs rows) (hnew : Unclaimed job)
    (hfresh : ∀ j ∈ jobs, j.id ≠ job.id) :
    AllInOrder seen (jobs ++ [job]) (recordAll rows (queuedLines eventType job)) := by
  intro j hj
  rcases List.mem_append.mp hj with hold | hlast
  · apply (h j hold).frame
    apply entriesOf_notes
    intro a ha
    rw [(queuedLines_owned a ha).1]
    exact (hfresh j hold).symm
  · rw [List.mem_singleton.mp hlast]
    exact inOrder_opened seen (hok.unknown hfresh) hnew

lemma turned_inOrder {seen : Text → List Instant} {call : QueueCall} {db : Database}
    {job job' : ProcessingJob} {now : Instant} {event : Option (RecordingId → ProcessingActivity)}
    (h : AllInOrder seen db.jobs db.activity) (hcurrent : Current seen call) (hjob : job ∈ db.jobs)
    (hid : job'.id = job.id) (hturn : Transition job call now job' event) :
    AllInOrder seen (db.putJob job').jobs (recordAll db.activity (lines job.recordingId event)) := by
  intro j hj
  rcases mem_putJob_cases hj with rfl | ⟨hold, hne⟩
  · exact inOrder_turned (h job hjob) hcurrent hid hturn _
  · apply (h j hold).frame
    apply entriesOf_notes
    intro a ha
    rw [(transition_lines hturn _ a ha).1, ← hid]
    exact hne.symm

lemma notedRun_inOrder {seen : Text → List Instant} {call : QueueCall} {db db' : Database}
    (h : AllInOrder seen db.jobs db.activity) (hok : TimelineInvariant db.jobs db.activity)
    (hcurrent : Current seen call) (hrun : NotedRun call db db') :
    AllInOrder seen db'.jobs db'.activity := by
  induction hrun with
  | refl => exact h
  | tail hrun hnoted ih =>
    apply noted_induct (AllInOrder seen) ?_ ?_ (notedRun_keeps hok hrun) hnoted
    · intro job job' event row now hmoves hturn
      exact turned_inOrder ih hcurrent hmoves.stored hmoves.step.same.1 hturn
    · intro jobs rows job hmid hordered hnew hfresh
      exact opened_inOrder hordered hmid hnew hfresh

lemma booked_inOrder {seen : Text → List Instant} {gone : Option RecordingId} {db db' : Database}
    (h : AllInOrder seen db.jobs db.activity) (hok : TimelineInvariant db.jobs db.activity)
    (hbooked : Booked gone db db') : AllInOrder seen db'.jobs db'.activity := by
  cases hbooked with
  | same hjobs hrows =>
    rw [hjobs, hrows]
    exact h
  | opened job eventType hnew _ hfresh hjobs hrows =>
    rw [hjobs, hrows]
    exact opened_inOrder h hok hnew hfresh
  | erased id _ hjobs hrows =>
    rw [hjobs, hrows]
    intro j hj
    obtain ⟨hj, hkept⟩ := List.mem_filter.mp hj
    apply (h j hj).frame
    apply entriesOf_filter
    intro a ha hid
    have hrec := hok.recordingId ha hj hid
    simpa [hrec] using hkept

end AudioServer.Services.LeaseOrder
