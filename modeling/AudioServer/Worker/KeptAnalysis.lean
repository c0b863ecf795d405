import AudioServer.Worker.DaySummaries

/-! The analysis of a recording, whatever provider stands behind the worker: a run that produced
none leaves the one that is there. -/

namespace AudioServer.Worker.KeptAnalysis

open AudioServer.Foundations.Outcomes AudioServer.Foundations.Strings AudioServer.Foundations.Runs
open AudioServer.Api.Schemas AudioServer.Db.Models AudioServer.Jobs.Queue AudioServer.Jobs.Calls
open AudioServer.Processing.Contracts AudioServer.Processing.Analysis
open AudioServer.Services.Recordings AudioServer.Services.Transactions
open AudioServer.Services.Consistency AudioServer.Services.Editing
open AudioServer.Worker.Persisters AudioServer.Worker.DocumentInvariant
open AudioServer.Worker.CommittedResults AudioServer.Worker.System
open AudioServer.Worker.Invariant AudioServer.Worker.Grounding AudioServer.Worker.DaySummaries

abbrev Analyze := RecordingId → List MergedTranscriptSegment → Except Exn AnalysisResult

def Analyze.CompletesWithData (analyze : Analyze) : Prop :=
  ∀ id transcript result, analyze id transcript = .ok result → result.status = .completed →
    result.data.isSome

/-- `_process_analysis`, up to the persister it returns. -/
def processAnalysis (analyze : Analyze) (id : RecordingId)
    (transcript : List MergedTranscriptSegment) : Except Exn AnalysisResult := do
  let result ← analyze id transcript
  require (result.status ≠ .failed)
    (.processing (orDefault "analysis_failed" result.errorCode)
      (orDefault "Transcript analysis failed." result.errorMessage) false)
  .ok result

def Produced (w : World) (claim : ClaimedJob) : Work → Prop
  | .analysis result _ => claim.kind = .analysis ∧ ∃ l ∈ w.loaded, l.claim = claim ∧
      ∃ analyze id, Analyze.CompletesWithData analyze ∧ claim.recordingId = some id ∧
        processAnalysis analyze id l.transcript = .ok result
  | work => work.Computed w claim

def Permitted (w : World) : Act → Prop
  | .commit _ claim work _ _ => claim ∈ w.claims ∧ Produced w claim work
  | act => act.Allowed w

def ProviderStep (w : World) (act : Act) (w' : World) : Prop :=
  Permitted w act ∧ w' = perform w act

abbrev ProviderRun (w : World) (es : List (Event World Act)) (w' : World) : Prop :=
  Run ProviderStep w es w'

lemma processAnalysis_ok {analyze : Analyze} {id : RecordingId}
    {transcript : List MergedTranscriptSegment} {result : AnalysisResult} :
    processAnalysis analyze id transcript = .ok result ↔
      analyze id transcript = .ok result ∧ result.status ≠ .failed := by
  constructor
  · intro h
    obtain ⟨_, hanalyze, h⟩ := bind_ok h
    obtain ⟨_, hstatus, h⟩ := bind_ok h
    cases h
    exact ⟨hanalyze, require_ok.mp hstatus⟩
  · rintro ⟨hanalyze, hstatus⟩
    rw [processAnalysis, hanalyze, ok_bind, require_of hstatus, ok_bind]

lemma analyze_completes (provider : AnalysisProvider) (answer : Except Exn (Text × AnalysisDraft)) :
    Analyze.CompletesWithData (fun _ => provider.analyze answer) := by
  intro _ transcript result h hstatus
  cases provider with
  | disabled =>
    cases h
    cases hstatus
  | lmstudio casefold =>
    simp only [AnalysisProvider.analyze] at h
    split at h
    · cases h
      rfl
    · obtain ⟨_, _, h⟩ := bind_ok h
      obtain ⟨_, _, h⟩ := bind_ok h
      cases h
      rfl

lemma analyze_not_failed {provider : AnalysisProvider} {answer : Except Exn (Text × AnalysisDraft)}
    {transcript : List MergedTranscriptSegment} {result : AnalysisResult}
    (h : provider.analyze answer transcript = .ok result) : result.status ≠ .failed := by
  cases provider with
  | disabled =>
    cases h
    simp
  | lmstudio casefold =>
    simp only [AnalysisProvider.analyze] at h
    split at h
    · cases h
      simp
    · obtain ⟨_, _, h⟩ := bind_ok h
      obtain ⟨_, _, h⟩ := bind_ok h
      cases h
      simp

def Scoped (w : World) : Prop := ∀ l ∈ w.loaded, ∃ id, l.claim.recordingId = some id

lemma perform_scoped {w : World} {act : Act} (h : Scoped w) : Scoped (perform w act) := by
  intro l hl
  rcases List.mem_append.mp hl with hnew | hold
  · obtain ⟨_, id, hid, _⟩ := mem_read hnew
    exact ⟨id, hid⟩
  · exact h l hold

lemma allowed_permitted {w : World} {act : Act} (hscoped : Scoped w)
    (h : act.Allowed w) : Permitted w act := by
  cases act with
  | commit queue claim work now row =>
    refine ⟨h.1, ?_⟩
    cases work with
    | analysis result at_ =>
      obtain ⟨hkind, l, hl, hclaim, provider, answer, hanalyze⟩ := h.2
      obtain ⟨id, hid⟩ := hscoped l hl
      refine ⟨hkind, l, hl, hclaim, fun _ => provider.analyze answer, id,
        analyze_completes provider answer, hclaim ▸ hid, ?_⟩
      exact processAnalysis_ok.mpr ⟨hanalyze, analyze_not_failed hanalyze⟩
    | _ => exact h.2
  | _ => exact h

lemma worldRun_providerRun {w w' : World} {es : List (Event World Act)} (h : WorldRun w es w')
    (hscoped : Scoped w) : ProviderRun w es w' ∧ Scoped w' := by
  induction h with
  | nil s => exact ⟨.nil s, hscoped⟩
  | cons hstep _ ih =>
    obtain ⟨hallowed, rfl⟩ := hstep
    obtain ⟨hrun, hend⟩ := ih (perform_scoped hscoped)
    exact ⟨.cons ⟨allowed_permitted hscoped hallowed, rfl⟩ hrun, hend⟩

def reading (doc : Document) : Option AnalysisResultV2 := doc.analysis.bind (·.result)

def written (doc : Document) : Option (JobId × Option AnalysisResultV2 × Option Instant) :=
  doc.analysis.map (fun a => (a.jobId, a.result, a.completedAt))

lemma reading_of_written {doc doc' : Document} (h : written doc' = written doc) :
    reading doc' = reading doc := by
  have hresult : ∀ d : Document, reading d = (written d).bind (·.2.1) := by
    intro d
    rw [reading, written, Option.bind_map]
    rfl
  rw [hresult, hresult, h]

lemma staleCompleted_written (doc : Document) : written (staleCompleted doc) = written doc := by
  unfold staleCompleted
  split
  · rename_i analysis ha
    split
    · simp [written, ha]
    · rfl
  · rfl

lemma persistTranscript_written {result : PipelineResult} {ids : FreshIds} {now : Instant}
    {doc doc' : Document} (h : persistTranscript result ids now doc = .ok doc') :
    written doc' = written doc := by
  obtain ⟨_, _, _, _, _, rfl⟩ := persistTranscript_ok h
  exact staleCompleted_written _

lemma staleAnalysis_written (doc : Document) : written (staleAnalysis doc) = written doc := by
  unfold staleAnalysis
  split
  · rfl
  · rename_i analysis ha
    simp [written, ha]

lemma editTranscript_written {durationSeconds : Seconds} {updates : List TranscriptSegmentUpdate}
    {doc doc' : Document} (h : editTranscript durationSeconds updates doc = .ok doc') :
    written doc' = written doc := by
  obtain ⟨_, _, h⟩ := bind_ok h
  obtain ⟨_, _, h⟩ := bind_ok h
  cases h
  rw [staleAnalysis_written, written, staleTranslations_analysis]
  rfl

lemma persistTranslations_written {result : TranslationResult} {ids : FreshIds} {now : Instant}
    {doc doc' : Document} (h : persistTranslations result ids now doc = .ok doc') :
    written doc' = written doc := by
  obtain ⟨_, rfl, _⟩ := persistTranslations_ok h
  rfl

lemma editTranslations_written {updates : List TranslationUpdate} {doc doc' : Document}
    (h : editTranslations updates doc = .ok doc') :
    written doc' = written doc := by
  obtain ⟨_, _, rfl⟩ := editTranslations_ok h
  rfl

lemma persistAnalysis_reading {claim : ClaimedJob} {result : AnalysisResult} {now : Instant}
    {doc doc' : Document} (h : persistAnalysis claim result now doc = .ok doc') :
    (result.status ≠ .completed ∧ (reading doc).isSome ∧ doc' = doc) ∨
      (¬ (result.status ≠ .completed ∧ (reading doc).isSome) ∧
        reading doc' = result.data) := by
  unfold persistAnalysis at h
  split at h
  · rename_i hkeeps
    cases h
    exact .inl ⟨hkeeps.1, hkeeps.2, rfl⟩
  · rename_i hreplaces
    cases h
    exact .inr ⟨hreplaces, rfl⟩

def readingAt (id : RecordingId) (w : World) : Option AnalysisResultV2 :=
  reading (docAt id w)

inductive Replaces (id : RecordingId) (w : World) : Act → Option AnalysisResultV2 → Prop
  | saved {expectedRevision : ℕ} {result grounded : AnalysisResultV2} {now : Instant}
      (haccepted : Accepted w (.updateAnalysis id expectedRevision result now))
      (hgrounded : groundAnalysisResult (docAt id w).segments result = .ok grounded) :
      Replaces id w (.updateAnalysis id expectedRevision result now) (some grounded)
  | computed {queue : JobQueue} {claim : ClaimedJob} {result : AnalysisResult} {at_ now : Instant}
      {row : RowDefaults}
      (haccepted : Accepted w (.commit queue claim (.analysis result at_) now row))
      (hscope : claim.recordingId = some id) (hstatus : result.status = .completed) :
      Replaces id w (.commit queue claim (.analysis result at_) now row) result.data

def Deletes (id : RecordingId) (e : Event World Act) : Prop :=
  e.label = .server (.deleteRecording id) ∧ Accepted e.before e.label

structure ProviderInvariant (w : World) : Prop where
  statuses : StatusInvariant w.db
  absent : ∀ id, Absent w.db id → w.db.documents id = .empty

lemma permitted_withoutResults {w : World} {act : Act} (h : Permitted w act) :
    ∀ call, act = .server call → WithoutResults call := by
  rintro call rfl
  exact withoutResults_of_allowed h

lemma step_providerInvariant {w w' : World} {act : Act} (hok : ProviderInvariant w)
    (h : ProviderStep w act w') : ProviderInvariant w' := by
  obtain ⟨hpermitted, rfl⟩ := h
  exact ⟨perform_statuses hok.statuses act,
    perform_absent hok.statuses hok.absent (permitted_withoutResults hpermitted)⟩

lemma init_providerInvariant (settings : Option ProcessingSettings) :
    ProviderInvariant (World.init settings) :=
  ⟨empty_consistent settings, fun _ _ => rfl⟩

lemma step_reading {w : World} {act : Act} (hok : ProviderInvariant w)
    (hpermitted : Permitted w act) {id : RecordingId} (hthere : (readingAt id w).isSome)
    (hkept : ¬ Deletes id ⟨w, act, perform w act⟩) :
    readingAt id (perform w act) = readingAt id w ∨
      ((readingAt id (perform w act)).isSome ∧
        Replaces id w act (readingAt id (perform w act))) := by
  have hpresent : ¬ Absent w.db id := by
    intro habsent
    rw [readingAt, docAt, hok.absent id habsent] at hthere
    cases hthere
  rcases perform_db w act with hexec | ⟨hsame, _⟩
  · cases act with
    | server call =>
      have hstep : ServerStep w.db call (perform w (.server call)).db := rfl
      cases serverStep_housekept hok.statuses (withoutResults_of_allowed hpermitted) hstep id with
      | kept hdocs _ => exact .inl (congrArg reading hdocs)
      | cleared _ _ hlife =>
        rcases hlife with habsent | ⟨rfl, _⟩
        · exact absurd habsent hpresent
        · exact absurd ⟨rfl, _, hexec⟩ hkept
    | load claim => exact .inl rfl
    | commit queue claim work now row =>
      obtain ⟨_, _, _, ⟨_, hdocs⟩ | ⟨hscope, _, hdoc⟩⟩ := committed_documents queue hexec id
      · exact .inl (congrArg reading hdocs)
      · cases work with
        | transcript result ids at_ => exact .inl (reading_of_written (persistTranscript_written hdoc))
        | translations result ids at_ => exact .inl (reading_of_written (persistTranslations_written hdoc))
        | analysis result at_ =>
          rcases persistAnalysis_reading hdoc with ⟨_, _, hdocs⟩ | ⟨hreplaces, hreading⟩
          · exact .inl (congrArg reading hdocs)
          · have hstatus : result.status = .completed := by
              by_contra hstatus
              exact hreplaces ⟨hstatus, hthere⟩
            obtain ⟨_, l, _, _, analyze, other, hcompletes, _, hanalyze⟩ := hpermitted.2
            have hdata := hcompletes _ _ _ (processAnalysis_ok.mp hanalyze).1 hstatus
            have hafter : readingAt id (perform w
                (.commit queue claim (.analysis result at_) now row)) = result.data := hreading
            rw [hafter]
            exact .inr ⟨hdata, .computed ⟨_, hexec⟩ hscope hstatus⟩
    | updateTranscript other expectedRevision updates =>
      rcases edited_documents id hexec with ⟨_, hdocs⟩ | ⟨_, _, _, _, _, hdoc⟩
      · exact .inl (congrArg reading hdocs)
      · exact .inl (reading_of_written (editTranscript_written hdoc))
    | updateAnalysis other expectedRevision result now =>
      rcases edited_documents id hexec with ⟨_, hdocs⟩ | ⟨rfl, _, _, _, _, hdoc⟩
      · exact .inl (congrArg reading hdocs)
      · obtain ⟨grounded, jobId, hgrounded, hrow⟩ := editAnalysis_ok hdoc
        have hafter : readingAt other (perform w
            (.updateAnalysis other expectedRevision result now)) = some grounded :=
          congrArg reading hrow
        rw [hafter]
        exact .inr ⟨rfl, .saved ⟨_, hexec⟩ hgrounded⟩
    | updateTranslations other expectedRevision updates =>
      rcases edited_documents id hexec with ⟨_, hdocs⟩ | ⟨_, _, _, _, _, hdoc⟩
      · exact .inl (congrArg reading hdocs)
      · exact .inl (reading_of_written (editTranslations_written hdoc))
  · exact .inl (congrArg (fun db : Database => reading (db.documents id)) hsame)

lemma run_reading {w w' : World} {es : List (Event World Act)} (h : ProviderRun w es w')
    (hok : ProviderInvariant w) {id : RecordingId} (hthere : (readingAt id w).isSome)
    (hkept : ∀ e ∈ es, ¬ Deletes id e) :
    (readingAt id w').isSome ∧
      ∀ e ∈ es, (readingAt id e.after).isSome ∧ (readingAt id e.after = readingAt id e.before ∨
        Replaces id e.before e.label (readingAt id e.after)) := by
  induction h with
  | nil s => exact ⟨hthere, fun e he => absurd he List.not_mem_nil⟩
  | @cons s act t es u hstep _ ih =>
    obtain ⟨hfirst, hrest⟩ := List.forall_mem_cons.mp hkept
    have hok' := step_providerInvariant hok hstep
    obtain ⟨hpermitted, rfl⟩ := hstep
    have hstepped := step_reading hok hpermitted hthere hfirst
    have hthere' : (readingAt id (perform s act)).isSome := by
      rcases hstepped with hsame | ⟨hsome, _⟩
      · rw [hsame]
        exact hthere
      · exact hsome
    obtain ⟨hend, hevents⟩ := ih hok' hthere' hrest
    exact ⟨hend, List.forall_mem_cons.mpr
      ⟨⟨hthere', hstepped.imp_right And.right⟩, hevents⟩⟩

theorem stored_analysis_kept {settings : Option ProcessingSettings} {w w' : World}
    {before es : List (Event World Act)} (hrun : ProviderRun (World.init settings) before w)
    (hafter : ProviderRun w es w') (id : RecordingId) (hthere : (readingAt id w).isSome)
    (hkept : ∀ e ∈ es, ¬ Deletes id e) :
    (readingAt id w').isSome ∧
      ∀ e ∈ es, (readingAt id e.after).isSome ∧ (readingAt id e.after = readingAt id e.before ∨
        Replaces id e.before e.label (readingAt id e.after)) :=
  run_reading hafter (hrun.keeps ProviderInvariant (fun _ _ _ => step_providerInvariant)
    (init_providerInvariant settings)) hthere hkept

def skippedAnalysis : AnalysisResult :=
  valueOr ⟨.failed, [], none, 2, none, none, none⟩
    (AnalysisProvider.disabled.analyze (.error .fileNotFound) exampleTranscript.transcript)

def againClaim : ClaimedJob :=
  ⟨5, some 1, .analysis, 10, "worker".toList, 1, 2, .analyzing, none⟩

def skippedActs : List Act :=
  [.server (.reprocessAnalysis exampleService 1 ⟨5, 7⟩ 7),
    .server (.queue (.claimNext exampleWorker 8 10 none [])),
    .load againClaim,
    .commit exampleWorker againClaim (.analysis skippedAnalysis 9) 9 ⟨6, 9⟩]

def skippedWorld : World := skippedActs.foldl perform translatedWorld

lemma skippedRun : WorldRun translatedWorld (trail perform translatedWorld skippedActs)
    skippedWorld := by
  apply run_trail
  refine ⟨trivial, claimNext_allowed ?_, load_allowed ?_,
    ⟨?_, rfl, ⟨againClaim, exampleTranscript.transcript⟩, ?_, rfl, .disabled, _,
      ok_valueOr _ ?_⟩, trivial⟩
  all_goals decide +kernel

theorem stored_analysis_kept_skipped :
    skippedAnalysis.data = none ∧ (skippedWorld.db.jobs.map (·.status)).getLast? = some .completed ∧
      (docAt 1 skippedWorld).analysisRevision = 1 ∧ (readingAt 1 skippedWorld).isSome := by
  refine ⟨rfl, by decide +kernel, by decide +kernel, ?_⟩
  have hscoped : Scoped (World.init none) := fun l hl => absurd hl List.not_mem_nil
  obtain ⟨hrun, hscoped'⟩ := worldRun_providerRun (analysedRun.append translatedRun) hscoped
  obtain ⟨hskipped, _⟩ := worldRun_providerRun skippedRun hscoped'
  refine (stored_analysis_kept hrun hskipped 1 (by decide +kernel) ?_).1
  intro e he
  simp only [skippedActs, trail, List.mem_cons, List.not_mem_nil, or_false] at he
  rcases he with rfl | rfl | rfl | rfl <;> simp [Deletes]

end AudioServer.Worker.KeptAnalysis
