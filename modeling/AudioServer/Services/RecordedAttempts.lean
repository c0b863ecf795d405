import AudioServer.Foundations.Pools
import AudioServer.Services.Openings

/-! What the timeline says of a job: one row for each thing that happened to it. -/

namespace AudioServer.Services.RecordedAttempts

open AudioServer.Foundations.Journals AudioServer.Foundations.Pools AudioServer.Db.Models
open AudioServer.Activity.Repository AudioServer.Activity.Timeline
open AudioServer.Jobs.Queue AudioServer.Jobs.Effects AudioServer.Jobs.Calls AudioServer.Jobs.Transitions
open AudioServer.Services.Openings

def Over (job : ProcessingJob) (attempt : ℕ) : Prop :=
  1 ≤ attempt ∧ attempt ≤ job.attemptCount ∧
    (attempt = job.attemptCount → job.status ≠ .processing)

def outcome (job : ProcessingJob) (attempt : ℕ) : JobStatus :=
  if attempt < job.attemptCount then .queued else job.status

structure Recorded (rows : List ProcessingActivity) (job : ProcessingJob) : Prop where
  once : (marksOf rows job.id).Nodup
  queued : .queued ∈ marksOf rows job.id
  started : ∀ n, .started n ∈ marksOf rows job.id ↔ 1 ≤ n ∧ n ≤ job.attemptCount
  closed : ∀ n, .closed n ∈ marksOf rows job.id ↔ Over job n
  staged : ∀ n stage, .staged n stage ∈ marksOf rows job.id → n ≤ job.attemptCount
  outcomes : ∀ a ∈ rowsOf rows job.id, ∀ n, mark a = .closed n → a.jobStatus = some (outcome job n)
  running : job.status = .processing → 1 ≤ job.attemptCount

structure TimelineInvariant (jobs : List ProcessingJob) (rows : List ProcessingActivity) : Prop where
  ids : (jobs.map (·.id)).Nodup
  owned : ∀ a ∈ rows, ∃ j ∈ jobs, j.id = a.jobId ∧ j.recordingId = some a.recordingId
  recorded : ∀ j ∈ jobs, j.recordingId.isSome → Recorded rows j
  keyed : Keyed SameEvent rows

lemma Recorded.frame {rows rows' : List ProcessingActivity} {job : ProcessingJob}
    (h : Recorded rows job) (hsame : rowsOf rows' job.id = rowsOf rows job.id) :
    Recorded rows' job := by
  obtain ⟨honce, hqueued, hstarted, hclosed, hstaged, houtcomes, hrunning⟩ := h
  rw [marksOf, ← hsame] at honce hqueued hstarted hclosed hstaged
  rw [← hsame] at houtcomes
  exact ⟨honce, hqueued, hstarted, hclosed, hstaged, houtcomes, hrunning⟩

inductive Stride (job job' : ProcessingJob) : Option (RecordingId → ProcessingActivity) → Prop
  | starts {event : RecordingId → ProcessingActivity} (hs : job.status = .queued)
      (hs' : job'.status = .processing) (hn : job'.attemptCount = job.attemptCount + 1)
      (hmark : ∀ id, mark (event id) = .started (job.attemptCount + 1)) : Stride job job' (some event)
  | renews (hs : job'.status = job.status) (hn : job'.attemptCount = job.attemptCount) :
      Stride job job' none
  | enters {event : RecordingId → ProcessingActivity} (stage : JobStage)
      (hs : job'.status = job.status) (hn : job'.attemptCount = job.attemptCount)
      (hmark : ∀ id, mark (event id) = .staged job.attemptCount (some stage)) :
      Stride job job' (some event)
  | closes {event : RecordingId → ProcessingActivity} (hs : job.status = .processing)
      (hs' : job'.status ≠ .processing) (hn : job'.attemptCount = job.attemptCount)
      (hmark : ∀ id, mark (event id) = .closed job.attemptCount)
      (hstatus : ∀ id, (event id).jobStatus = some job'.status) : Stride job job' (some event)

lemma transition_stride {job job' : ProcessingJob} {call : QueueCall} {now : Instant}
    {event : Option (RecordingId → ProcessingActivity)} (h : Transition job call now job' event) :
    Stride job job' event := by
  cases h with
  | started queue _ token kinds locked hclaimable =>
    exact .starts hclaimable.1 rfl rfl (fun _ => rfl)
  | renewed queue claim _ howns => exact .renews rfl rfl
  | advanced queue claim stage _ howns hanswers =>
    refine .enters stage rfl rfl (fun id => ?_)
    rw [← hanswers.attempt]
    rfl
  | completed queue claim persister _ row howns =>
    exact .closes howns.2.1 (by simp [completeRow]) rfl (fun _ => rfl) (fun _ => rfl)
  | retried queue claim failure _ row delay stage code errorType message howns hdelay =>
    exact .closes howns.2.1 (by simp [retryRow]) rfl (fun _ => rfl) (fun _ => rfl)
  | failed queue claim failure _ row stage code errorType message howns =>
    exact .closes howns.2.1 (by simp [failedRow]) rfl (fun _ => rfl) (fun _ => rfl)
  | requeued queue _ limit locked rows delay stage code errorType message hexpired hdelay =>
    exact .closes hexpired.1 (by simp [retryRow]) rfl (fun _ => rfl) (fun _ => rfl)
  | abandoned queue _ limit locked rows stage code errorType message hexpired =>
    exact .closes hexpired.1 (by simp [failedRow]) rfl (fun _ => rfl) (fun _ => rfl)

lemma transition_line {job job' : ProcessingJob} {call : QueueCall} {now : Instant}
    {event : RecordingId → ProcessingActivity} (h : Transition job call now job' (some event))
    (id : RecordingId) : (event id).jobId = job.id ∧ (event id).recordingId = id := by
  cases h with
  | advanced queue claim stage _ howns _ => exact ⟨howns.1.symm, rfl⟩
  | _ => exact ⟨rfl, rfl⟩

section Moving

variable {rows : List ProcessingActivity} {job job' : ProcessingJob} {row : ProcessingActivity}

lemma marks_record (hrow : row.jobId = job.id) (hfresh : mark row ∉ marksOf rows job.id) :
    rowsOf (record rows row) job.id = rowsOf rows job.id ++ [row] := by
  rw [← hrow] at hfresh ⊢
  rw [record_fresh hfresh]
  exact entriesOf_snoc_self _ rows row

lemma recorded_appended (h : Recorded rows job) (hid : job'.id = job.id) (hrow : row.jobId = job.id)
    (hfresh : mark row ∉ marksOf rows job.id) (hgrows : job.attemptCount ≤ job'.attemptCount)
    (hrunning : job'.status = .processing → 1 ≤ job'.attemptCount)
    (hstarted : ∀ n, (1 ≤ n ∧ n ≤ job.attemptCount) ∨ .started n = mark row ↔
      1 ≤ n ∧ n ≤ job'.attemptCount)
    (hclosed : ∀ n, Over job n ∨ .closed n = mark row ↔ Over job' n)
    (hstaged : ∀ n stage, .staged n stage = mark row → n ≤ job'.attemptCount)
    (hkept : ∀ n, Over job n → outcome job' n = outcome job n)
    (houtcome : ∀ n, mark row = .closed n → row.jobStatus = some (outcome job' n)) :
    Recorded (record rows row) job' := by
  have hrows : rowsOf (record rows row) job'.id = rowsOf rows job.id ++ [row] := by
    rw [hid]
    exact marks_record hrow hfresh
  have hmarks : marksOf (record rows row) job'.id = marksOf rows job.id ++ [mark row] := by
    rw [marksOf, hrows, List.map_append, List.map_singleton]
  refine ⟨?_, ?_, ?_, ?_, ?_, ?_, hrunning⟩
  · rw [hmarks, ← List.concat_eq_append]
    exact h.once.concat hfresh
  · rw [hmarks]
    exact List.mem_append_left _ h.queued
  · intro n
    rw [hmarks, List.mem_append, List.mem_singleton, h.started, hstarted]
  · intro n
    rw [hmarks, List.mem_append, List.mem_singleton, h.closed, hclosed]
  · intro n stage hmem
    rw [hmarks, List.mem_append, List.mem_singleton] at hmem
    rcases hmem with hold | hnew
    · exact (h.staged n stage hold).trans hgrows
    · exact hstaged n stage hnew
  · intro a ha n hmark
    rw [hrows, List.mem_append, List.mem_singleton] at ha
    rcases ha with hold | rfl
    · have hover := (h.closed n).mp (List.mem_map.mpr ⟨a, hold, hmark⟩)
      rw [h.outcomes a hold n hmark, hkept n hover]
    · exact houtcome n hmark

lemma recorded_starts (h : Recorded rows job) (hid : job'.id = job.id) (hrow : row.jobId = job.id)
    (hs : job.status = .queued) (hs' : job'.status = .processing)
    (hn : job'.attemptCount = job.attemptCount + 1)
    (hmark : mark row = .started (job.attemptCount + 1)) : Recorded (record rows row) job' := by
  have hfresh : mark row ∉ marksOf rows job.id := by
    rw [hmark, h.started]
    omega
  apply recorded_appended h hid hrow hfresh (by omega) (by omega)
  · intro n
    rw [hmark, hn, Mark.started.injEq]
    omega
  · intro n
    simp only [Over, hmark, hn, hs, hs', reduceCtorEq, or_false, ne_eq, eq_self, not_false_eq_true,
      not_true_eq_false, implies_true, imp_false, and_true]
    omega
  · intro n stage he
    rw [hmark] at he
    cases he
  · intro n hover
    have hlt : n < job'.attemptCount := by
      rw [hn]
      exact Nat.lt_succ_of_le hover.2.1
    rw [outcome, outcome, if_pos hlt, hs, ite_self]
  · intro n he
    rw [hmark] at he
    cases he

lemma recorded_same (h : Recorded rows job) (hid : job'.id = job.id) (hs : job'.status = job.status)
    (hn : job'.attemptCount = job.attemptCount) : Recorded rows job' := by
  obtain ⟨honce, hqueued, hstarted, hclosed, hstaged, houtcomes, hrunning⟩ := h
  rw [← hid] at honce hqueued hstarted hclosed hstaged houtcomes
  rw [← hs, ← hn] at hrunning
  rw [← hn] at hstarted hstaged
  refine ⟨honce, hqueued, hstarted, ?_, hstaged, ?_, hrunning⟩
  · intro n
    rw [hclosed, Over, Over, hs, hn]
  · intro a ha n hmark
    rw [houtcomes a ha n hmark, outcome, outcome, hs, hn]

lemma recorded_enters {stage : JobStage} (h : Recorded rows job) (hid : job'.id = job.id)
    (hrow : row.jobId = job.id) (hs : job'.status = job.status)
    (hn : job'.attemptCount = job.attemptCount)
    (hmark : mark row = .staged job.attemptCount (some stage)) : Recorded (record rows row) job' := by
  by_cases hknown : mark row ∈ marksOf rows job.id
  · rw [record_staged hmark (by rwa [hrow])]
    exact recorded_same h hid hs hn
  · apply recorded_appended h hid hrow hknown hn.ge (by rw [hs, hn]; exact h.running)
    · intro n
      rw [hmark, hn]
      simp
    · intro n
      rw [hmark, Over, Over, hs, hn]
      simp
    · intro n other he
      rw [hmark] at he
      cases he
      exact hn.ge
    · intro n _
      rw [outcome, outcome, hs, hn]
    · intro n he
      rw [hmark] at he
      cases he

lemma recorded_closes (h : Recorded rows job) (hid : job'.id = job.id) (hrow : row.jobId = job.id)
    (hs : job.status = .processing) (hs' : job'.status ≠ .processing)
    (hn : job'.attemptCount = job.attemptCount) (hmark : mark row = .closed job.attemptCount)
    (hstatus : row.jobStatus = some job'.status) : Recorded (record rows row) job' := by
  have hfresh : mark row ∉ marksOf rows job.id := by
    rw [hmark, h.closed]
    exact fun hover => hover.2.2 rfl hs
  have hmade := h.running hs
  apply recorded_appended h hid hrow hfresh hn.ge (fun he => absurd he hs')
  · intro n
    rw [hmark, hn]
    simp
  · intro n
    rw [hmark, Mark.closed.injEq, Over, Over, hn, hs]
    simp only [hs', ne_eq, eq_self, not_true_eq_false, not_false_eq_true, implies_true, imp_false,
      and_true]
    omega
  · intro n stage he
    rw [hmark] at he
    cases he
  · intro n hover
    have hlt : n < job.attemptCount := lt_of_le_of_ne hover.2.1 (fun he => hover.2.2 he hs)
    rw [outcome, outcome, hn, if_pos hlt, if_pos hlt]
  · intro n he
    rw [hmark, Mark.closed.injEq] at he
    rw [hstatus, outcome, hn, if_neg (by omega : ¬ n < job.attemptCount)]

end Moving

lemma TimelineInvariant.recordingId {jobs : List ProcessingJob} {rows : List ProcessingActivity}
    (h : TimelineInvariant jobs rows) {a : ProcessingActivity} (ha : a ∈ rows) {job : ProcessingJob}
    (hjob : job ∈ jobs) (hid : a.jobId = job.id) : job.recordingId = some a.recordingId := by
  obtain ⟨j, hj, hjid, hrec⟩ := h.owned a ha
  have hsame : j = job := List.inj_on_of_nodup_map h.ids hj hjob (hjid.trans hid)
  rwa [← hsame]

lemma TimelineInvariant.unknown {jobs : List ProcessingJob} {rows : List ProcessingActivity}
    (h : TimelineInvariant jobs rows) {id : JobId} (hfresh : ∀ j ∈ jobs, j.id ≠ id) :
    rowsOf rows id = [] := by
  apply entriesOf_nil
  intro a ha hid
  obtain ⟨j, hj, hjid, _⟩ := h.owned a ha
  exact hfresh j hj (hjid.trans hid)

lemma TimelineInvariant.write {jobs jobs' : List ProcessingJob} {rows new : List ProcessingActivity}
    (h : TimelineInvariant jobs rows) {job : ProcessingJob} (hjob : job ∈ jobs')
    (hids : (jobs'.map (·.id)).Nodup)
    (hkept : ∀ j ∈ jobs, ∃ j' ∈ jobs', j'.id = j.id ∧ j'.recordingId = j.recordingId)
    (hother : ∀ j ∈ jobs', j.id ≠ job.id → j ∈ jobs)
    (hnew : ∀ a ∈ new, a.jobId = job.id ∧ job.recordingId = some a.recordingId)
    (hself : job.recordingId.isSome → Recorded (recordAll rows new) job) :
    TimelineInvariant jobs' (recordAll rows new) := by
  refine ⟨hids, ?_, ?_, notes_keyed SameEvent sameEvent_symm h.keyed new⟩
  · intro a ha
    rcases mem_notes SameEvent ha with hold | hlast
    · obtain ⟨j, hj, hid, hrec⟩ := h.owned a hold
      obtain ⟨j', hj', hid', hrec'⟩ := hkept j hj
      exact ⟨j', hj', hid'.trans hid, hrec'.trans hrec⟩
    · exact ⟨job, hjob, (hnew a hlast).1.symm, (hnew a hlast).2⟩
  · intro j hj hsome
    by_cases he : j.id = job.id
    · have hsame : j = job := List.inj_on_of_nodup_map hids hj hjob he
      rw [hsame] at hsome ⊢
      exact hself hsome
    · apply (h.recorded j (hother j hj he) hsome).frame
      apply entriesOf_notes
      intro a ha
      rw [(hnew a ha).1]
      exact Ne.symm he

lemma lines_owned {recordingId : Option RecordingId} {id : JobId}
    {event : Option (RecordingId → ProcessingActivity)}
    (h : ∀ e ∈ event, ∀ r, (e r).jobId = id ∧ (e r).recordingId = r) :
    ∀ a ∈ lines recordingId event, a.jobId = id ∧ recordingId = some a.recordingId := by
  intro a ha
  cases recordingId with
  | none => cases ha
  | some r =>
    cases event with
    | none => cases ha
    | some e =>
      rw [lines_some, List.mem_singleton] at ha
      obtain ⟨hjob, hrec⟩ := h e rfl r
      rw [ha]
      exact ⟨hjob, congrArg some hrec.symm⟩

lemma queuedLines_owned {eventType : ProcessingActivityType} {job : ProcessingJob} :
    ∀ a ∈ queuedLines eventType job, a.jobId = job.id ∧ job.recordingId = some a.recordingId := by
  apply lines_owned
  intro e he r
  cases he
  exact ⟨rfl, rfl⟩

lemma transition_lines {job job' : ProcessingJob} {call : QueueCall} {now : Instant}
    {event : Option (RecordingId → ProcessingActivity)} (h : Transition job call now job' event)
    (recordingId : Option RecordingId) :
    ∀ a ∈ lines recordingId event, a.jobId = job.id ∧ recordingId = some a.recordingId := by
  apply lines_owned
  intro e he r
  rw [Option.mem_def.mp he] at h
  exact transition_line h r

lemma recorded_opened {rows : List ProcessingActivity} {job : ProcessingJob}
    {row : ProcessingActivity} (hnone : rowsOf rows job.id = []) (hnew : Unclaimed job)
    (hrow : row.jobId = job.id) (hmark : mark row = .queued) : Recorded (record rows row) job := by
  have hunknown : mark row ∉ marksOf rows job.id := by simp [marksOf, hnone]
  have hrows : rowsOf (record rows row) job.id = [row] := by
    rw [marks_record hrow hunknown, hnone, List.nil_append]
  have hmarks : marksOf (record rows row) job.id = [.queued] := by
    rw [marksOf, hrows, List.map_singleton, hmark]
  refine ⟨by simp [hmarks], by simp [hmarks], ?_, ?_, ?_, ?_, ?_⟩
  · intro n
    simp only [hmarks, List.mem_singleton, reduceCtorEq, false_iff, hnew.attempts]
    omega
  · intro n
    simp only [hmarks, List.mem_singleton, reduceCtorEq, false_iff, Over, hnew.attempts]
    omega
  · intro n stage hstaged
    simp [hmarks] at hstaged
  · intro a ha n hclosed
    rw [hrows, List.mem_singleton] at ha
    rw [ha, hmark] at hclosed
    cases hclosed
  · intro hs
    rw [hnew.status] at hs
    cases hs

lemma opened_keeps {jobs : List ProcessingJob} {rows : List ProcessingActivity} {job : ProcessingJob}
    {eventType : ProcessingActivityType} (h : TimelineInvariant jobs rows) (hnew : Unclaimed job)
    (htype : Queues eventType) (hfresh : ∀ j ∈ jobs, j.id ≠ job.id) :
    TimelineInvariant (jobs ++ [job]) (recordAll rows (queuedLines eventType job)) := by
  apply h.write (List.mem_append_right _ (List.mem_singleton_self job)) (nodup_map_snoc h.ids hfresh)
  · intro j hj
    exact ⟨j, List.mem_append_left _ hj, rfl, rfl⟩
  · intro j hj hne
    rcases List.mem_append.mp hj with hold | hlast
    · exact hold
    · exact absurd (congrArg _ (List.mem_singleton.mp hlast)) hne
  · exact queuedLines_owned
  · intro hsome
    obtain ⟨id, hid⟩ := Option.isSome_iff_exists.mp hsome
    rw [queuedLines, hid, lines_some]
    apply recorded_opened (h.unknown hfresh) hnew rfl
    rcases htype with rfl | rfl <;> rfl

lemma erased_keeps {jobs : List ProcessingJob} {rows : List ProcessingActivity}
    (h : TimelineInvariant jobs rows) (id : RecordingId) :
    TimelineInvariant (jobs.filter (fun j => j.recordingId ≠ some id))
      (rows.filter (fun a => a.recordingId ≠ id)) := by
  refine ⟨h.ids.sublist (List.filter_sublist.map _), ?_, ?_, h.keyed.sublist List.filter_sublist⟩
  · intro a ha
    obtain ⟨ha, hkept⟩ := List.mem_filter.mp ha
    obtain ⟨j, hj, hown, hrec⟩ := h.owned a ha
    refine ⟨j, List.mem_filter.mpr ⟨hj, ?_⟩, hown, hrec⟩
    simpa [hrec] using hkept
  · intro j hj hsome
    obtain ⟨hj, hkept⟩ := List.mem_filter.mp hj
    apply (h.recorded j hj hsome).frame
    apply entriesOf_filter
    intro a ha hid
    have hrec := h.recordingId ha hj hid
    simpa [hrec] using hkept

lemma recorded_turned {rows : List ProcessingActivity} {job job' : ProcessingJob} {call : QueueCall}
    {now : Instant} {event : Option (RecordingId → ProcessingActivity)} (h : Recorded rows job)
    (hid : job'.id = job.id) (hturn : Transition job call now job' event) (id : RecordingId) :
    Recorded (recordAll rows (lines (some id) event)) job' := by
  cases transition_stride hturn with
  | starts hs hs' hn hmark =>
    exact recorded_starts h hid (transition_line hturn id).1 hs hs' hn (hmark id)
  | renews hs hn => exact recorded_same h hid hs hn
  | enters stage hs hn hmark =>
    exact recorded_enters h hid (transition_line hturn id).1 hs hn (hmark id)
  | closes hs hs' hn hmark hstatus =>
    exact recorded_closes h hid (transition_line hturn id).1 hs hs' hn (hmark id) (hstatus id)

lemma turned_keeps {db : Database} {job job' : ProcessingJob} {call : QueueCall} {now : Instant}
    {event : Option (RecordingId → ProcessingActivity)}
    (h : TimelineInvariant db.jobs db.activity) (hjob : job ∈ db.jobs) (hsame : SameJob job job')
    (hturn : Transition job call now job' event) :
    TimelineInvariant (db.putJob job').jobs
      (recordAll db.activity (lines job.recordingId event)) := by
  have hmoved : job' ∈ (db.putJob job').jobs := List.mem_map.mpr ⟨job, hjob, if_pos hsame.1.symm⟩
  have hids : ((db.putJob job').jobs.map (·.id)).Nodup := by
    rw [putJob_ids]
    exact h.ids
  apply h.write hmoved hids
  · intro j hj
    by_cases he : j.id = job'.id
    · have hj' : j = job := List.inj_on_of_nodup_map h.ids hj hjob (he.trans hsame.1)
      exact ⟨job', hmoved, he.symm, hj' ▸ hsame.2.1⟩
    · exact ⟨j, mem_putJob hj he, rfl, rfl⟩
  · intro j hj hne
    rcases mem_putJob_cases hj with rfl | ⟨hold, _⟩
    · exact absurd rfl hne
    · exact hold
  · rw [hsame.1, hsame.2.1]
    exact transition_lines hturn _
  · intro hsome
    obtain ⟨id, hid⟩ := Option.isSome_iff_exists.mp hsome
    rw [hsame.2.1] at hid
    rw [hid]
    exact recorded_turned (h.recorded job hjob (by simp [hid])) hsame.1 hturn id

lemma noted_induct {call : QueueCall} {db db' : Database}
    (P : List ProcessingJob → List ProcessingActivity → Prop)
    (hturned : ∀ job job' event row now, Moves db job job' row now db' →
      Transition job call now job' event →
      P (db.putJob job').jobs (recordAll db.activity (lines job.recordingId event)))
    (hopened : ∀ jobs rows job, TimelineInvariant jobs rows → P jobs rows → Unclaimed job →
      (∀ j ∈ jobs, j.id ≠ job.id) → P (jobs ++ [job]) (recordAll rows (queuedLines .jobQueued job)))
    (h : TimelineInvariant db.jobs db.activity) (hnoted : Noted call db db') :
    P db'.jobs db'.activity := by
  obtain ⟨job, job', event, row, now, hmoves, hturn, hrows⟩ := hnoted
  have hmid := hturned job job' event row now hmoves hturn
  have hfresh := hmoves.fresh
  rw [hmoves.jobs, hrows]
  rcases handedOn_cases db.settings job job' row now with hnone | ⟨kind, _, _, hone⟩
  · rw [hnone, List.flatMap_nil, List.append_nil, List.append_nil]
    exact hmid
  · rw [hone] at hfresh ⊢
    rw [List.flatMap_singleton, recordAll, List.foldl_append]
    apply hopened _ _ _ (turned_keeps h hmoves.stored hmoves.step.same hturn) hmid
      (newJob_unclaimed ..)
    intro j hj he
    have hid : j.id ∈ db.jobs.map (·.id) := by
      rw [← @putJob_ids db job']
      exact List.mem_map_of_mem hj
    obtain ⟨k, hk, hke⟩ := List.mem_map.mp hid
    exact hfresh _ (List.mem_singleton_self _) k hk (hke.trans he)

lemma noted_keeps {call : QueueCall} {db db' : Database} (h : TimelineInvariant db.jobs db.activity)
    (hnoted : Noted call db db') : TimelineInvariant db'.jobs db'.activity := by
  apply noted_induct TimelineInvariant ?_ ?_ h hnoted
  · intro job job' event row now hmoves hturn
    exact turned_keeps h hmoves.stored hmoves.step.same hturn
  · intro jobs rows job hok _ hnew hfresh
    exact opened_keeps hok hnew (.inl rfl) hfresh

lemma notedRun_keeps {call : QueueCall} {db db' : Database}
    (h : TimelineInvariant db.jobs db.activity) (hrun : NotedRun call db db') :
    TimelineInvariant db'.jobs db'.activity := by
  induction hrun with
  | refl => exact h
  | tail _ hnoted ih => exact noted_keeps ih hnoted

lemma booked_keeps {gone : Option RecordingId} {db db' : Database}
    (h : TimelineInvariant db.jobs db.activity) (hbooked : Booked gone db db') :
    TimelineInvariant db'.jobs db'.activity := by
  cases hbooked with
  | same hjobs hrows =>
    rw [hjobs, hrows]
    exact h
  | opened job eventType hnew htype hfresh hjobs hrows =>
    rw [hjobs, hrows]
    exact opened_keeps h hnew htype hfresh
  | erased id _ hjobs hrows =>
    rw [hjobs, hrows]
    exact erased_keeps h id

lemma empty_timeline : TimelineInvariant [] [] where
  ids := List.nodup_nil
  owned _ ha := absurd ha List.not_mem_nil
  recorded _ hj := absurd hj List.not_mem_nil
  keyed := List.Pairwise.nil

end AudioServer.Services.RecordedAttempts
