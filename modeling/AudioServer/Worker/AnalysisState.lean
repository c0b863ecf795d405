import AudioServer.Foundations.Sorting
import AudioServer.Worker.ClaimedAttempts
import AudioServer.Worker.KeptAnalysis

/-! The state of an analysis: the stored result beside the job that a reader is told about. -/

namespace AudioServer.Worker.AnalysisState

open AudioServer.Foundations.Outcomes AudioServer.Foundations.Strings AudioServer.Foundations.Runs
open AudioServer.Foundations.Sorting
open AudioServer.Api.Schemas AudioServer.Api.Responses AudioServer.Db.Models AudioServer.Jobs.Queue
open AudioServer.Jobs.Effects AudioServer.Jobs.Calls AudioServer.Jobs.Fence
open AudioServer.Services.Recordings AudioServer.Services.Transactions AudioServer.Services.Openings
open AudioServer.Services.Consistency AudioServer.Services.Leases AudioServer.Services.Editing
open AudioServer.Worker.Persisters AudioServer.Worker.DocumentInvariant
open AudioServer.Worker.CommittedResults AudioServer.Worker.System AudioServer.Worker.Invariant
open AudioServer.Worker.ClaimedAttempts AudioServer.Worker.KeptAnalysis AudioServer.Worker.Grounding

def analysisJob (db : Database) (id : RecordingId) : Option ProcessingJob :=
  newestJob (db.jobs.filter (fun j => j.recordingId = some id ∧ j.kind = .analysis))

def failedAfterResult (analysis : Analysis) (job : ProcessingJob) : Bool :=
  job.status = .failed && match job.finishedAt, analysis.completedAt with
    | none, _ => false
    | some _, none => true
    | some finishedAt, some completedAt => decide (completedAt < finishedAt)

def getAnalysisState (id : RecordingId) (db : Database) :
    Except Exn (Recording × Analysis × Option ProcessingJob) := do
  let recording ← found (db.recording id) recordingNotFound
  let job := analysisJob db id
  match (db.documents id).analysis with
  | none =>
    match job.filter (fun j => j.status = .failed) with
    | some job => .error (.recordingService "analysis_failed"
        (String.ofList ((job.errorMessage.filter (· ≠ [])).getD
          "Analysis could not be completed.".toList)) 409)
    | none => .error (.recordingService "analysis_not_ready" "Analysis is not available yet." 409)
  | some analysis =>
    -- A job that ended is shown when the result is its own, or when it failed after it.
    .ok (recording, analysis, job.filter (fun j => j.active || decide (j.id = analysis.jobId) ||
      failedAfterResult analysis j))

def FinishedLater (analysis : Analysis) (job : ProcessingJob) : Prop :=
  ∃ finished completed, job.finishedAt = some finished ∧ analysis.completedAt = some completed ∧
    completed < finished

def ReportsLater (db : Database) : Prop :=
  ∀ id recording analysis job, getAnalysisState id db = .ok (recording, analysis, some job) →
    job.status = .failed → FinishedLater analysis job

def savedUnder (db : Database) (id : RecordingId) : Option JobId :=
  match (db.documents id).analysis with
  | some analysis => some analysis.jobId
  | none => latestJob db id

/-- A save of the analysis under its newest analysis job, which failed at that time or before. -/
def FilesUnderFailure (db : Database) : Act → Prop
  | .updateAnalysis id _ _ now => ∃ job, analysisJob db id = some job ∧ job.status = .failed ∧
      savedUnder db id = some job.id ∧ ∀ finished ∈ job.finishedAt, finished ≤ now
  | _ => False

section Newest

def newestKey (job : ProcessingJob) : (ℤ ×ₗ ℕ)ᵒᵈ := OrderDual.toDual (toLex (job.createdAt, job.id))

lemma newestJob_some {jobs : List ProcessingJob} {job : ProcessingJob}
    (h : newestJob jobs = some job) : job ∈ jobs ∧ ∀ k ∈ jobs, newestKey job ≤ newestKey k := by
  refine sort_head ?_ h
  intro a b
  rw [newestKey, newestKey, OrderDual.toDual_le_toDual, Prod.Lex.toLex_le_toLex]
  simp only [eq_comm]

lemma newestKey_same {a b : ProcessingJob} (h : SameJob a b) : newestKey b = newestKey a := by
  rw [newestKey, newestKey, h.1, h.2.2.2.2.2.2]

lemma analysisJob_some {db : Database} {id : RecordingId} {job : ProcessingJob}
    (h : analysisJob db id = some job) : job ∈ db.jobs ∧ job.recordingId = some id ∧
      job.kind = .analysis ∧ ∀ k ∈ db.jobs, k.recordingId = some id → k.kind = .analysis →
        newestKey job ≤ newestKey k := by
  obtain ⟨hjob, hnewest⟩ := newestJob_some h
  obtain ⟨hjob, hscope⟩ := List.mem_filter.mp hjob
  obtain ⟨hid, hkind⟩ := of_decide_eq_true hscope
  refine ⟨hjob, hid, hkind, ?_⟩
  intro k hk hkid hkkind
  exact hnewest k (List.mem_filter.mpr ⟨hk, decide_eq_true ⟨hkid, hkkind⟩⟩)

lemma analysisJob_before {db db' : Database} (hids : UniqueJobIds db) {id : RecordingId}
    {job : ProcessingJob} (hjob : job ∈ db.jobs) (hnew : analysisJob db' id = some job)
    (hkept : ∀ k ∈ db.jobs, k.recordingId = some id → ∃ k' ∈ db'.jobs, SameJob k k') :
    analysisJob db id = some job := by
  obtain ⟨_, hid, hkind, hnewest⟩ := analysisJob_some hnew
  cases hold : analysisJob db id with
  | none =>
    have hempty := sort_head_none hold
    have hmem : job ∈ db.jobs.filter (fun j => j.recordingId = some id ∧ j.kind = .analysis) :=
      List.mem_filter.mpr ⟨hjob, decide_eq_true ⟨hid, hkind⟩⟩
    rw [hempty] at hmem
    cases hmem
  | some older =>
    obtain ⟨holder, hoid, hokind, hfirst⟩ := analysisJob_some hold
    obtain ⟨k, hk, hsame⟩ := hkept older holder hoid
    have hle := hnewest k hk (hsame.2.1.trans hoid) (hsame.2.2.2.1.trans hokind)
    rw [newestKey_same hsame] at hle
    have hkey := le_antisymm (hfirst job hjob hid hkind) hle
    have hsameId : older.id = job.id := congrArg (fun k => (ofLex (OrderDual.ofDual k)).2) hkey
    rw [job_unique hids holder hjob hsameId]

end Newest

section Steps

variable {w : World} {act : Act}

def StillThere (j : ProcessingJob) (db : Database) : Prop :=
  ∃ k ∈ db.jobs, SameJob j k ∧ (¬ j.active → k = j)

lemma stillThere_of_mem {j : ProcessingJob} {db : Database} (h : j ∈ db.jobs) : StillThere j db :=
  ⟨j, h, ⟨rfl, rfl, rfl, rfl, rfl, rfl, rfl⟩, fun _ => rfl⟩

lemma moved_stillThere {j : ProcessingJob} {token : Option ClaimToken} {db db' : Database}
    (hids : UniqueJobIds db) (h : StillThere j db) (hmoved : Moved token db db') : StillThere j db' := by
  obtain ⟨k, hk, hsame, hended⟩ := h
  obtain ⟨job, job', row, now, hmoves, _⟩ := hmoved
  by_cases he : k.id = job.id
  · obtain rfl := job_unique hids hk hmoves.stored he
    refine ⟨job', hmoves.mem_moved, sameJob_trans hsame hmoves.step.same, ?_⟩
    intro hstopped
    rw [hended hstopped] at hmoves
    exact absurd hmoves.step.active hstopped
  · exact ⟨k, hmoves.keeps_other hk he, hsame, hended⟩

lemma perform_stillThere (hids : UniqueJobIds w.db) {j : ProcessingJob} (hj : j ∈ w.db.jobs)
    (hkept : ∀ id, deletedBy act = some id → j.recordingId ≠ some id) :
    StillThere j (perform w act).db := by
  cases hcall : queueCall act with
  | some call =>
    have hkeeps := (perform_queueCall (w := w) hcall).1.keeps
      (fun db => UniqueJobIds db ∧ StillThere j db)
      (fun _ _ h hmoved => ⟨hmoved.uniqueJobIds h.1, moved_stillThere h.1 h.2 hmoved⟩) hids
      ⟨hids, stillThere_of_mem hj⟩
    exact hkeeps.2
  | none =>
    cases perform_booked (w := w) hcall with
    | same hjobs _ => exact stillThere_of_mem (hjobs ▸ hj)
    | opened _ _ _ _ _ hjobs _ => exact stillThere_of_mem (hjobs ▸ List.mem_append_left _ hj)
    | erased id hgone hjobs _ =>
      apply stillThere_of_mem
      rw [hjobs]
      exact List.mem_filter.mpr ⟨hj, decide_eq_true (hkept id hgone)⟩

/-- The job a result is filed under has ended; if it is the newest analysis job and failed, it
failed after the result was written. -/
def Dated (db : Database) (id : RecordingId) (jobId : JobId) (completedAt : Option Instant) : Prop :=
  ∃ job ∈ db.jobs, job.id = jobId ∧ job.recordingId = some id ∧ ¬ job.active ∧
    ∃ completed, completedAt = some completed ∧
      (analysisJob db id = some job → job.status = .failed →
        ∃ finished, job.finishedAt = some finished ∧ completed < finished)

lemma perform_dated (hids : UniqueJobIds w.db) {id : RecordingId} {jobId : JobId}
    {completedAt : Option Instant} (h : Dated w.db id jobId completedAt)
    (hkept : deletedBy act ≠ some id) : Dated (perform w act).db id jobId completedAt := by
  have hstill : ∀ k ∈ w.db.jobs, k.recordingId = some id → StillThere k (perform w act).db := by
    intro k hk hid
    apply perform_stillThere hids hk
    intro gone hgone he
    rw [hid] at he
    cases he
    exact hkept hgone
  obtain ⟨job, hjob, hjid, hid, hended, completed, hcompleted, hlater⟩ := h
  obtain ⟨k, hk, _, hsame⟩ := hstill job hjob hid
  rw [hsame hended] at hk
  refine ⟨job, hk, hjid, hid, hended, completed, hcompleted, ?_⟩
  intro hnew
  apply hlater
  apply analysisJob_before hids hjob hnew
  intro k hk hkid
  obtain ⟨k', hk', hsame, _⟩ := hstill k hk hkid
  exact ⟨k', hk', hsame⟩

end Steps

section Writes

variable {w : World} {act : Act}

lemma latestJob_some {db : Database} {id : RecordingId} {jobId : JobId}
    (h : latestJob db id = some jobId) : ∃ job ∈ db.jobs, job.id = jobId ∧ job.recordingId = some id := by
  obtain ⟨job, hjob, rfl⟩ := Option.map_eq_some_iff.mp h
  have hmem := (List.mem_insertionSort _).mp (List.mem_of_head? hjob)
  obtain ⟨hmem, hid⟩ := List.mem_filter.mp hmem
  exact ⟨job, hmem, rfl, of_decide_eq_true hid⟩

lemma editAnalysis_filed {latest : Option JobId} {result : AnalysisResultV2} {now : Instant}
    {doc doc' : Document} (h : editAnalysis latest result now doc = .ok doc') :
    ∃ jobId grounded, (doc.analysis.map (·.jobId)).or latest = some jobId ∧
      written doc' = some (jobId, some grounded, some now) := by
  obtain ⟨grounded, _, h⟩ := bind_ok h
  obtain ⟨jobId, hjob, h⟩ := bind_ok h
  cases h
  refine ⟨jobId, grounded, ?_, rfl⟩
  cases hanalysis : doc.analysis with
  | none =>
    rw [hanalysis] at hjob
    exact found_ok.mp hjob
  | some analysis =>
    rw [hanalysis] at hjob
    cases hjob
    rfl

lemma savedUnder_eq (db : Database) (id : RecordingId) :
    savedUnder db id = ((db.documents id).analysis.map (·.jobId)).or (latestJob db id) := by
  unfold savedUnder
  cases (db.documents id).analysis <;> rfl

lemma commit_completed (hok : WorldInvariant w) {queue : JobQueue} {claim : ClaimedJob} {work : Work}
    {now : Instant} {row : RowDefaults} (hclaim : claim ∈ w.claims)
    (h : Accepted w (.commit queue claim work now row)) :
    ∃ job ∈ (perform w (.commit queue claim work now row)).db.jobs, job.id = claim.id ∧
      job.recordingId = claim.recordingId ∧ job.status = .completed := by
  have hcomplete : queue.complete claim (some (recordingPersister claim (work.persist claim))) now row
      w.db = .ok ((), (perform w (.commit queue claim work now row)).db) := accepted_db h
  obtain ⟨job, hjob, hmoves, _⟩ := complete_ok hcomplete
  obtain ⟨hmem, howns⟩ := ownedJob_some hjob
  obtain ⟨hid, hscope, _⟩ := hok.given claim hclaim job hmem howns.2.2.1
  exact ⟨_, hmoves.mem_moved, hid, hscope, rfl⟩

structure StateInvariant (w : World) : Prop where
  world : WorldInvariant w
  dated : ∀ id jobId result completedAt, written (docAt id w) = some (jobId, result, completedAt) →
    Dated w.db id jobId completedAt

lemma saved_dated (h : StateInvariant w) {id : RecordingId} {expectedRevision : ℕ}
    {result : AnalysisResultV2} {now : Instant} {jobId : JobId} (hidle : w.db.activeJob id = none)
    (hfiled : ¬ FilesUnderFailure w.db (.updateAnalysis id expectedRevision result now))
    (hunder : savedUnder w.db id = some jobId) : Dated w.db id jobId (some now) := by
  obtain ⟨job, hjob, hjid, hid, hended⟩ : ∃ job ∈ w.db.jobs, job.id = jobId ∧
      job.recordingId = some id ∧ ¬ job.active := by
    unfold savedUnder at hunder
    split at hunder
    · rename_i analysis hanalysis
      have hwritten : written (docAt id w) = some (analysis.jobId, analysis.result,
          analysis.completedAt) := congrArg (Option.map _) hanalysis
      obtain ⟨job, hjob, hjid, hid, hended, _⟩ := h.dated id _ _ _ hwritten
      exact ⟨job, hjob, hjid.trans (Option.some.inj hunder), hid, hended⟩
    · obtain ⟨job, hjob, hjid, hid⟩ := latestJob_some hunder
      exact ⟨job, hjob, hjid, hid, fun hactive => activeJob_none.mp hidle job hjob hactive hid⟩
  refine ⟨job, hjob, hjid, hid, hended, now, rfl, ?_⟩
  intro hnew hfailed
  by_contra hlate
  refine hfiled ⟨job, hnew, hfailed, hunder.trans (congrArg some hjid.symm), ?_⟩
  intro finished hfinished
  by_contra hlt
  exact hlate ⟨finished, hfinished, not_le.mp hlt⟩

lemma analysis_dated (hok : WorldInvariant w) {queue : JobQueue} {claim : ClaimedJob} {work : Work}
    {id : RecordingId} {at_ now : Instant} {row : RowDefaults} (hclaim : claim ∈ w.claims)
    (hscope : claim.recordingId = some id) (h : Accepted w (.commit queue claim work now row)) :
    Dated (perform w (.commit queue claim work now row)).db id claim.id (some at_) := by
  obtain ⟨job, hjob, hjid, hjscope, hcompleted⟩ := commit_completed hok hclaim h
  refine ⟨job, hjob, hjid, hjscope.trans hscope, ?_, at_, rfl, ?_⟩
  · simp [ProcessingJob.active, hcompleted, JobStatus.active]
  · intro _ hfailed
    rw [hcompleted] at hfailed
    cases hfailed

lemma step_dated (h : StateInvariant w) (hallowed : act.Allowed w)
    (hfiled : Accepted w act → ¬ FilesUnderFailure w.db act) {id : RecordingId} {jobId : JobId}
    {result : Option AnalysisResultV2} {completedAt : Option Instant}
    (hwritten : written (docAt id (perform w act)) = some (jobId, result, completedAt)) :
    Dated (perform w act).db id jobId completedAt := by
  have hids := h.world.statuses.jobIds
  -- A step that leaves the columns leaves the date, unless it deletes the recording.
  have hstill : deletedBy act ≠ some id → written (docAt id (perform w act)) = written (docAt id w) →
      Dated (perform w act).db id jobId completedAt := by
    intro hdelete hsame
    exact perform_dated hids (h.dated id _ _ _ (hsame ▸ hwritten)) hdelete
  have hkept : deletedBy act = none → written (docAt id (perform w act)) = written (docAt id w) →
      Dated (perform w act).db id jobId completedAt := by
    intro hdelete hsame
    exact hstill (by rw [hdelete]; exact Option.some_ne_none id ∘ Eq.symm) hsame
  rcases perform_db w act with hexec | ⟨hsame, _⟩
  · cases act with
    | server call =>
      have hstep : ServerStep w.db call (perform w (.server call)).db := rfl
      cases serverStep_housekept h.world.statuses (withoutResults_of_allowed hallowed) hstep id with
      | kept hdocs _ =>
        refine hstill ?_ (congrArg written hdocs)
        intro hdelete
        cases call with
        | deleteRecording gone =>
          cases hdelete
          obtain ⟨_, _, _, _, hcleared⟩ := deleteRecording_ok hexec
          rw [docAt, hcleared, Function.update_self] at hwritten
          cases hwritten
        | _ => cases hdelete
      | cleared hdocs _ _ =>
        rw [docAt, hdocs] at hwritten
        cases hwritten
    | load claim => exact hkept rfl rfl
    | commit queue claim work now row =>
      obtain ⟨_, _, _, ⟨_, hdocs⟩ | ⟨hscope, _, hdoc⟩⟩ := committed_documents queue hexec id
      · exact hkept rfl (congrArg written hdocs)
      · cases work with
        | transcript result ids at_ => exact hkept rfl (persistTranscript_written hdoc)
        | translations result ids at_ => exact hkept rfl (persistTranslations_written hdoc)
        | analysis result at_ =>
          simp only [Work.persist, persistAnalysis] at hdoc
          split at hdoc
          · exact hkept rfl (congrArg written (Except.ok.inj hdoc).symm)
          · rw [docAt, ← Except.ok.inj hdoc] at hwritten
            cases hwritten
            exact analysis_dated h.world hallowed.1 hscope ⟨_, hexec⟩
    | updateTranscript other expectedRevision updates =>
      rcases edited_documents id hexec with ⟨_, hdocs⟩ | ⟨_, _, _, _, _, hdoc⟩
      · exact hkept rfl (congrArg written hdocs)
      · exact hkept rfl (editTranscript_written hdoc)
    | updateAnalysis other expectedRevision saved now =>
      rcases edited_documents id hexec with ⟨_, hdocs⟩ | ⟨rfl, _, _, _, hidle, hdoc⟩
      · exact hkept rfl (congrArg written hdocs)
      · obtain ⟨under, grounded, hunder, hafter⟩ := editAnalysis_filed hdoc
        rw [docAt, hafter] at hwritten
        cases hwritten
        rw [← savedUnder_eq] at hunder
        obtain ⟨_, htables⟩ := edited_tables hexec
        rw [htables]
        exact saved_dated h hidle (hfiled ⟨_, hexec⟩) hunder
    | updateTranslations other expectedRevision updates =>
      rcases edited_documents id hexec with ⟨_, hdocs⟩ | ⟨_, _, _, _, _, hdoc⟩
      · exact hkept rfl (congrArg written hdocs)
      · exact hkept rfl (editTranslations_written hdoc)
  · rw [docAt, hsame] at hwritten
    rw [hsame]
    exact h.dated id _ _ _ hwritten

end Writes

section Reports

variable {w : World} {act : Act}

lemma getAnalysisState_ok {id : RecordingId} {db : Database} {recording : Recording}
    {analysis : Analysis} {job : ProcessingJob}
    (h : getAnalysisState id db = .ok (recording, analysis, some job)) :
    (db.documents id).analysis = some analysis ∧ analysisJob db id = some job ∧
      (job.active ∨ job.id = analysis.jobId ∨ failedAfterResult analysis job) := by
  obtain ⟨_, _, h⟩ := bind_ok h
  dsimp only at h
  split at h
  · split at h <;> cases h
  · rename_i stored hanalysis
    simp only [Except.ok.injEq, Prod.mk.injEq, Option.filter_eq_some_iff, Bool.or_eq_true,
      decide_eq_true_eq, or_assoc] at h
    obtain ⟨_, rfl, hjob, hshown⟩ := h
    exact ⟨hanalysis, hjob, hshown⟩

lemma getAnalysisState_shown {id : RecordingId} {db : Database} {recording : Recording}
    {analysis : Analysis} {job : ProcessingJob} (hrecording : db.recording id = some recording)
    (hanalysis : (db.documents id).analysis = some analysis) (hjob : analysisJob db id = some job)
    (hown : job.id = analysis.jobId) : getAnalysisState id db = .ok (recording, analysis, some job) := by
  rw [getAnalysisState, hrecording, found_some, ok_bind, hjob, hanalysis]
  simp [Option.filter_some, hown]

lemma state_reports (h : StateInvariant w) : ReportsLater w.db := by
  intro id recording analysis job hread hfailed
  obtain ⟨hanalysis, hnew, hshown⟩ := getAnalysisState_ok hread
  have hwritten : written (docAt id w) = some (analysis.jobId, analysis.result,
      analysis.completedAt) := congrArg (Option.map _) hanalysis
  obtain ⟨under, hunder, hid, _, _, completed, hcompleted, hlater⟩ := h.dated id _ _ _ hwritten
  rcases hshown with hactive | hown | hafter
  · rw [ProcessingJob.active, hfailed] at hactive
    cases hactive
  · have hsame := job_unique h.world.statuses.jobIds hunder (analysisJob_some hnew).1
      (hid.trans hown.symm)
    obtain ⟨finished, hfinished, hlt⟩ := hlater (hsame ▸ hnew) (hsame ▸ hfailed)
    exact ⟨finished, completed, hsame ▸ hfinished, hcompleted, hlt⟩
  · rw [failedAfterResult, hcompleted, Bool.and_eq_true] at hafter
    cases hfinished : job.finishedAt with
    | none =>
      rw [hfinished] at hafter
      exact absurd hafter.2 (by simp)
    | some finished =>
      rw [hfinished] at hafter
      exact ⟨finished, completed, hfinished, hcompleted, of_decide_eq_true hafter.2⟩

lemma filed_reports (haccepted : Accepted w act) (hfiled : FilesUnderFailure w.db act) :
    ¬ ReportsLater (perform w act).db := by
  intro hlater
  cases act with
  | updateAnalysis id expectedRevision result now =>
    obtain ⟨job, hnew, hfailed, hunder, hlate⟩ := hfiled
    have hexec := accepted_db haccepted
    obtain ⟨recording, doc, hrecording, _, _, hdoc, hdb⟩ := editDocument_ok hexec
    obtain ⟨jobId, grounded, hjobId, hwritten⟩ := editAnalysis_filed hdoc
    rw [← savedUnder_eq, hunder] at hjobId
    obtain ⟨analysis, hanalysis, hcolumns⟩ := Option.map_eq_some_iff.mp hwritten
    simp only [Prod.mk.injEq] at hcolumns
    have hid : analysis.jobId = job.id := hcolumns.1.trans (Option.some.inj hjobId).symm
    have hread : getAnalysisState id (perform w (.updateAnalysis id expectedRevision result now)).db =
        .ok (recording, analysis, some job) := by
      rw [hdb]
      refine getAnalysisState_shown hrecording ?_ hnew hid.symm
      exact (congrArg Document.analysis (Function.update_self id doc w.db.documents)).trans hanalysis
    obtain ⟨finished, completed, hfinished, hcompleted, hlt⟩ := hlater id recording analysis job
      hread hfailed
    rw [hcolumns.2.2] at hcompleted
    cases hcompleted
    exact absurd hlt (not_lt.mpr (hlate finished hfinished))
  | _ => exact hfiled

end Reports

def Misfiles (w : World) (act : Act) : Prop := Accepted w act ∧ FilesUnderFailure w.db act

lemma init_state (settings : Option ProcessingSettings) : StateInvariant (World.init settings) :=
  ⟨init_invariant settings, fun _ _ _ _ h => by cases h⟩

lemma step_state {w w' : World} {act : Act} (h : StateInvariant w) (hfiled : ¬ Misfiles w act)
    (hstep : WorldStep w act w') : StateInvariant w' := by
  have hworld := step_invariant h.world hstep
  obtain ⟨hallowed, rfl⟩ := hstep
  refine ⟨hworld, ?_⟩
  intro id jobId result completedAt hwritten
  exact step_dated h hallowed (fun haccepted hfiles => hfiled ⟨haccepted, hfiles⟩) hwritten

theorem failures_follow_results_iff {settings : Option ProcessingSettings} {w : World}
    {es : List (Event World Act)} (hrun : WorldRun (World.init settings) es w) :
    (∀ e ∈ es, ReportsLater e.after.db) ↔ ∀ e ∈ es, ¬ Misfiles e.before e.label := by
  constructor
  · rintro h e he ⟨haccepted, hfiled⟩
    have hlater := h e he
    rw [(hrun.event_step he).2] at hlater
    exact filed_reports haccepted hfiled hlater
  · intro h e he
    exact state_reports (hrun.event_keeps_if StateInvariant (fun w act => ¬ Misfiles w act)
      (fun _ _ _ => step_state) (init_state settings) h he)

def failedClaim : ClaimedJob := ⟨2, some 1, .analysis, 8, "worker".toList, 1, 2, .analyzing, none⟩

def failedAgain : ClaimedJob := ⟨4, some 1, .analysis, 9, "worker".toList, 1, 2, .analyzing, none⟩

lemma permanent_nonblank : ¬ Blank "PermanentProcessingError".toList := by decide

def modelFailure : JobFailure where
  code := "analysis_failed".toList
  errorType := "PermanentProcessingError".toList
  message := "Transcript analysis failed.".toList
  retryable := false
  stage := none
  code_nonblank := by decide
  errorType_nonblank := permanent_nonblank
  message_nonblank := by decide

def claimedActs : List Act :=
  [.server (.create exampleService exampleRecording ⟨1, 0⟩ 0),
    .server (.queue (.claimNext exampleWorker 0 7 none [])),
    .commit exampleWorker fullClaim (.transcript exampleTranscript exampleIds 1) 1 ⟨2, 1⟩,
    .server (.queue (.claimNext exampleWorker 2 8 none []))]

def reanalysedActs : List Act :=
  [.load analysisClaim,
    .commit exampleWorker analysisClaim (.analysis exampleAnalysis 3) 3 ⟨3, 3⟩,
    .server (.reprocessAnalysis exampleService 1 ⟨4, 10⟩ 10),
    .server (.queue (.claimNext exampleWorker 11 9 none [])),
    .server (.queue (.fail exampleWorker failedAgain modelFailure 12 ⟨5, 12⟩))]

def handWrittenActs : List Act :=
  [.server (.queue (.fail exampleWorker failedClaim modelFailure 3 ⟨3, 3⟩)),
    .updateAnalysis 1 0 ⟨⟨"挨拶".toList, "打招呼".toList⟩, none, [], [], []⟩ 10]

def translationOff : World := World.init (some ⟨true, false⟩)

lemma claimedActs_allowed : AllAllowed (fun w act => act.Allowed w) perform translationOff
    claimedActs := by
  refine ⟨trivial, claimNext_allowed ?_, ⟨?_, rfl, exampleMerger, _, _, ok_valueOr _ ?_⟩,
    claimNext_allowed ?_, trivial⟩
  all_goals decide +kernel

def claimedWorld : World := claimedActs.foldl perform translationOff

lemma fail_allowed {w : World} {queue : JobQueue} {claim : ClaimedJob} {failure : JobFailure}
    {now : Instant} {row : RowDefaults} (h : claim ∈ w.claims) :
    (Act.server (.queue (.fail queue claim failure now row))).Allowed w := h

lemma reanalysedActs_allowed : AllAllowed (fun w act => act.Allowed w) perform claimedWorld
    reanalysedActs := by
  refine ⟨load_allowed ?_, ⟨?_, rfl, ⟨analysisClaim, exampleTranscript.transcript⟩, ?_, rfl, _, _,
    ok_valueOr _ ?_⟩, trivial, claimNext_allowed ?_, fail_allowed ?_, trivial⟩
  all_goals decide +kernel

lemma handWrittenActs_allowed : AllAllowed (fun w act => act.Allowed w) perform claimedWorld
    handWrittenActs := by
  refine ⟨fail_allowed ?_, trivial, trivial⟩
  decide +kernel

def reanalysedWorld : World := reanalysedActs.foldl perform claimedWorld

def handWrittenWorld : World := handWrittenActs.foldl perform claimedWorld

def reported (id : RecordingId) (db : Database) :
    Option (Option Instant × Option (JobId × JobStatus × Option Instant)) :=
  (getAnalysisState id db).toOption.map (fun r =>
    (r.2.1.completedAt, r.2.2.map (fun j => (j.id, j.status, j.finishedAt))))

lemma claimedRun : WorldRun translationOff (trail perform translationOff claimedActs) claimedWorld :=
  run_trail _ _ claimedActs_allowed

theorem failures_follow_results_after_reanalysis :
    reported 1 reanalysedWorld.db = some (some 3, some (4, .failed, some 12)) ∧
      ∀ e ∈ trail perform translationOff claimedActs ++ trail perform claimedWorld reanalysedActs,
        ReportsLater e.after.db := by
  refine ⟨by decide +kernel, (failures_follow_results_iff (claimedRun.append
    (run_trail _ _ reanalysedActs_allowed))).mpr ?_⟩
  rintro e he ⟨_, hfiled⟩
  simp only [trail, claimedActs, reanalysedActs, List.cons_append, List.nil_append, List.mem_cons,
    List.not_mem_nil, or_false] at he
  rcases he with rfl | rfl | rfl | rfl | rfl | rfl | rfl | rfl | rfl
  all_goals exact hfiled

theorem hand_written_reported_failed :
    WorldRun translationOff (trail perform translationOff claimedActs ++
      trail perform claimedWorld handWrittenActs) handWrittenWorld ∧
      reported 1 handWrittenWorld.db = some (some 10, some (2, .failed, some 3)) ∧
      ¬ ReportsLater handWrittenWorld.db := by
  have hreported : reported 1 handWrittenWorld.db = some (some 10, some (2, .failed, some 3)) := by
    decide +kernel
  refine ⟨claimedRun.append (run_trail _ _ handWrittenActs_allowed), hreported, ?_⟩
  intro hlater
  unfold reported at hreported
  obtain ⟨⟨recording, analysis, job⟩, hread, hshown⟩ := Option.map_eq_some_iff.mp hreported
  simp only [Prod.mk.injEq, Option.map_eq_some_iff] at hshown
  obtain ⟨hcompleted, job, rfl, _, hfailed, hfinished⟩ := hshown
  have hok : getAnalysisState 1 handWrittenWorld.db = .ok (recording, analysis, some job) := by
    cases hstate : getAnalysisState 1 handWrittenWorld.db with
    | error e =>
      rw [hstate] at hread
      cases hread
    | ok state =>
      rw [hstate] at hread
      exact congrArg Except.ok (Option.some.inj hread)
  obtain ⟨finished, completed, hf, hc, hlt⟩ := hlater 1 recording analysis job hok hfailed
  rw [hfinished] at hf
  rw [hcompleted] at hc
  cases hf
  cases hc
  exact absurd hlt (by decide)

end AudioServer.Worker.AnalysisState
