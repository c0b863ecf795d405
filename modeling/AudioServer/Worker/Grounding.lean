import AudioServer.Worker.Invariant

/-! What the server shows as current is about the current transcript: the
quotes of an analysis, and the translations that are not flagged stale. -/

namespace AudioServer.Worker.Grounding

open AudioServer.Foundations.Outcomes AudioServer.Foundations.Strings AudioServer.Foundations.Runs
open AudioServer.Api.Schemas AudioServer.Db.Models AudioServer.Jobs.Queue
open AudioServer.Processing.Contracts AudioServer.Processing.Sentences AudioServer.Processing.Merge
open AudioServer.Processing.Analysis AudioServer.Processing.Translation AudioServer.Services.Editing
open AudioServer.Services.Consistency AudioServer.Services.Transactions
open AudioServer.Worker.Persisters AudioServer.Worker.DocumentInvariant
open AudioServer.Worker.System AudioServer.Worker.Invariant

structure AnalysisGrounded (doc : Document) : Prop where
  sequences : (doc.segments.map (·.sequence)).Nodup
  quotes : ∀ analysis, doc.analysis = some analysis → analysis.status = .completed →
    ∀ result, analysis.result = some result → ∀ q ∈ result.quotes,
      ∃ s ∈ doc.segments, s.sequence = q.segmentSequence ∧ Occurs q.originalJa s.text

/-- The analysis that a commit stores was computed from the transcript it is stored over. -/
def ComputedFromCurrent (e : Event World Act) : Prop :=
  ∀ queue claim result at_ now row id,
    e.label = .commit queue claim (.analysis result at_) now row → Accepted e.before e.label →
    claim.recordingId = some id → ∀ l ∈ e.before.loaded, l.claim = claim →
      readTranscript (docAt id e.before) = .ok l.transcript ∧
      (docAt id e.after).segments = (docAt id e.before).segments

lemma persistAnalysis_segments {claim : ClaimedJob} {result : AnalysisResult} {now : Instant}
    {doc doc' : Document} (h : persistAnalysis claim result now doc = .ok doc') :
    doc'.segments = doc.segments := by
  unfold persistAnalysis at h
  split at h
  · cases h
    rfl
  · cases h
    rfl

lemma step_computedFromCurrent {e : Event World Act} (hok : WorldInvariant e.before)
    (h : WorldStep e.before e.label e.after) : ComputedFromCurrent e := by
  obtain ⟨w, act, w'⟩ := e
  obtain ⟨hallowed, hafter⟩ := h
  obtain rfl : w' = perform w act := hafter
  rintro queue claim result at_ now row id rfl haccepted hscope l hl rfl
  obtain ⟨job, hjob, howns, hdoc⟩ := accepted_commit haccepted hscope
  exact ⟨hok.current l hl job hjob howns id hscope, persistAnalysis_segments hdoc⟩

theorem completed_analyses_grounded {settings : Option ProcessingSettings} {w : World}
    {es : List (Event World Act)} (hrun : WorldRun (World.init settings) es w) :
    (∀ id, AnalysisGrounded (docAt id w)) ∧ ∀ e ∈ es, ComputedFromCurrent e := by
  have hok := run_invariant hrun
  refine ⟨fun id => ⟨(hok.documents id).sequences, (hok.documents id).grounded⟩, ?_⟩
  intro e he
  have hinv := hrun.event_keeps WorldInvariant (fun _ _ _ => step_invariant)
    (init_invariant settings) he
  exact step_computedFromCurrent hinv (hrun.event_step he)

def exampleMerger : TimestampTranscriptMerger := ⟨1, Char.isAlphanum, by decide⟩

def exampleSpeech : TranscriptionResult :=
  ⟨[⟨0, 2, "はい。".toList, [], none, by decide, by decide⟩], some "ja".toList⟩

def exampleVoices : DiarizationResult :=
  ⟨[⟨0, 2, "A".toList, by decide, by decide, by decide⟩], []⟩

def exampleTranscript : PipelineResult :=
  valueOr ⟨[]⟩ (pipelineRun exampleMerger (.ok exampleSpeech) (.ok exampleVoices))

def exampleDraft : AnalysisDraft :=
  ⟨⟨"挨拶".toList, "打招呼".toList⟩, ⟨"挨拶".toList, "打招呼".toList⟩, [],
    [⟨0, "「はい」".toList, "係".toList, "返事".toList, "回應".toList⟩], [],
    by decide, by decide, by decide, by decide, by decide⟩

def exampleAnalysis : AnalysisResult :=
  valueOr ⟨.skipped, [], none, 2, none, none, none⟩
    ((AnalysisProvider.lmstudio id).analyze (.ok ("model".toList, exampleDraft))
      exampleTranscript.transcript)

def exampleTranslation : TranslationResult :=
  valueOr ⟨.skipped, [], none, [], none, none⟩
    (TranslationProvider.lmstudio.translate (.ok "model".toList) (fun _ => .ok "係。".toList)
      exampleTranscript.transcript)

def exampleIds : FreshIds := ⟨fun n => n + 10, fun n => n + 20⟩

def fullClaim : ClaimedJob :=
  ⟨1, some 1, .full, 7, "worker".toList, 1, 2, .preprocessing, none⟩

def analysisClaim : ClaimedJob :=
  ⟨2, some 1, .analysis, 8, "worker".toList, 1, 2, .analyzing, none⟩

def translationClaim : ClaimedJob :=
  ⟨3, some 1, .translation, 9, "worker".toList, 1, 2, .translating, none⟩

def analysedActs : List Act :=
  [.server (.create exampleService exampleRecording ⟨1, 0⟩ 0),
    .server (.queue (.claimNext exampleWorker 0 7 none [])),
    .commit exampleWorker fullClaim (.transcript exampleTranscript exampleIds 1) 1 ⟨2, 1⟩,
    .server (.queue (.claimNext exampleWorker 2 8 none [])),
    .load analysisClaim,
    .commit exampleWorker analysisClaim (.analysis exampleAnalysis 3) 3 ⟨3, 3⟩]

def translatedActs : List Act :=
  [.server (.queue (.claimNext exampleWorker 4 9 none [])),
    .load translationClaim,
    .commit exampleWorker translationClaim (.translations exampleTranslation exampleIds 5) 5 ⟨4, 5⟩,
    .updateTranslations 1 2 [⟨10, "係呀。".toList, by decide, by decide⟩]]

lemma claimNext_allowed {w : World} {queue : JobQueue} {now : Instant} {token : ClaimToken}
    {kinds : Option (List JobKind)} {locked : List JobId} (h : ∀ c ∈ w.claims, c.claimToken ≠ token) :
    (Act.server (.queue (.claimNext queue now token kinds locked))).Allowed w := h

lemma load_allowed {w : World} {claim : ClaimedJob} (h : claim ∈ w.claims) :
    (Act.load claim).Allowed w := h

lemma analysedActs_allowed : AllAllowed (fun w act => act.Allowed w) perform (World.init none)
    analysedActs := by
  refine ⟨trivial, claimNext_allowed ?_, ⟨?_, rfl, exampleMerger, _, _, ok_valueOr _ ?_⟩,
    claimNext_allowed ?_, load_allowed ?_,
    ⟨?_, rfl, ⟨analysisClaim, exampleTranscript.transcript⟩, ?_, rfl, _, _, ok_valueOr _ ?_⟩, trivial⟩
  all_goals decide +kernel

def analysedWorld : World := analysedActs.foldl perform (World.init none)

lemma analysedRun : WorldRun (World.init none) (trail perform (World.init none) analysedActs)
    analysedWorld := run_trail _ _ analysedActs_allowed

theorem completed_analyses_grounded_after_commit :
    ((docAt 1 analysedWorld).analysis.bind (·.result)).map (fun r => r.quotes.map (·.originalJa)) =
        some ["はい".toList] ∧
      (docAt 1 analysedWorld).analysis.map (·.status) = some .completed ∧
      AnalysisGrounded (docAt 1 analysedWorld) :=
  ⟨by decide +kernel, by decide +kernel, (completed_analyses_grounded analysedRun).1 1⟩

theorem fresh_translations_describe {settings : Option ProcessingSettings} {w : World}
    {es : List (Event World Act)} (hrun : WorldRun (World.init settings) es w) :
    ∀ id, ∀ row ∈ (docAt id w).translations, row.stale = false →
      Describes (docAt id w).segments row :=
  fun id => ((run_invariant hrun).documents id).rows.described

lemma translatedActs_allowed : AllAllowed (fun w act => act.Allowed w) perform analysedWorld
    translatedActs := by
  refine ⟨claimNext_allowed ?_, load_allowed ?_, ⟨?_, rfl, ⟨translationClaim, exampleTranscript.transcript⟩, ?_, rfl,
    .lmstudio, _, _, ok_valueOr _ ?_⟩, trivial, trivial⟩
  all_goals decide +kernel

def translatedWorld : World := translatedActs.foldl perform analysedWorld

lemma translatedRun : WorldRun analysedWorld (trail perform analysedWorld translatedActs)
    translatedWorld := run_trail _ _ translatedActs_allowed

theorem fresh_translations_describe_after_save :
    (docAt 1 translatedWorld).translations.map (fun t => (t.textZhHk, t.source, t.stale)) =
        [("係呀。".toList, .manual, false)] ∧
      ∀ row ∈ (docAt 1 translatedWorld).translations, row.stale = false →
        Describes (docAt 1 translatedWorld).segments row :=
  ⟨by decide +kernel, fresh_translations_describe (analysedRun.append translatedRun) 1⟩

end AudioServer.Worker.Grounding
