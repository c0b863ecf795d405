import AudioServer.Foundations.Versions
import AudioServer.Worker.Grounding

/-! The three revision counters of a recording, and what an accepted save replaces. -/

namespace AudioServer.Worker.Revisions

open AudioServer.Foundations.Outcomes AudioServer.Foundations.Runs AudioServer.Foundations.Versions
open AudioServer.Api.Schemas AudioServer.Db.Models AudioServer.Jobs.Queue
open AudioServer.Processing.Contracts AudioServer.Services.Transactions AudioServer.Services.Editing
open AudioServer.Worker.Persisters AudioServer.Worker.DocumentInvariant
open AudioServer.Worker.CommittedResults AudioServer.Worker.System AudioServer.Worker.Invariant
open AudioServer.Worker.Grounding

structure Bumps (doc doc' : Document) : Prop where
  transcript : Follows Document.transcriptRevision Document.segments doc doc'
  analysis : Follows Document.analysisRevision Document.analysis doc doc'
  translations : Follows Document.translationRevision Document.translations doc doc'

lemma Bumps.refl (doc : Document) : Bumps doc doc := ⟨.refl doc, .refl doc, .refl doc⟩

lemma Bumps.trans {a b c : Document} (h : Bumps a b) (k : Bumps b c) : Bumps a c :=
  ⟨h.transcript.trans k.transcript, h.analysis.trans k.analysis,
    h.translations.trans k.translations⟩

lemma staleTranslations_bumps (doc : Document) : Bumps doc (staleTranslations doc) := by
  unfold staleTranslations
  split
  · exact .refl doc
  · exact ⟨.of_eq rfl rfl, .of_eq rfl rfl, .of_lt (Nat.lt_succ_self _)⟩

lemma staleAnalysis_bumps (doc : Document) : Bumps doc (staleAnalysis doc) := by
  unfold staleAnalysis
  split
  · exact .refl doc
  · exact ⟨.of_eq rfl rfl, .of_lt (Nat.lt_succ_self _), .of_eq rfl rfl⟩

lemma staleCompleted_bumps (doc : Document) : Bumps doc (staleCompleted doc) := by
  unfold staleCompleted
  split
  · split
    · exact ⟨.of_eq rfl rfl, .of_lt (Nat.lt_succ_self _), .of_eq rfl rfl⟩
    · exact .refl doc
  · exact .refl doc

lemma editTranscript_bumps {durationSeconds : Seconds} {updates : List TranscriptSegmentUpdate}
    {doc doc' : Document} (h : editTranscript durationSeconds updates doc = .ok doc') :
    Bumps doc doc' := by
  obtain ⟨_, rfl⟩ := editTranscript_doc h
  have hplaced : Bumps doc { doc with
      segments := doc.segments.map (placeSegment (placements (updates.insertionSort UpdateOrder)))
      transcriptRevision := doc.transcriptRevision + 1 } :=
    ⟨.of_lt (Nat.lt_succ_self _), .of_eq rfl rfl, .of_eq rfl rfl⟩
  exact (hplaced.trans (staleTranslations_bumps _)).trans (staleAnalysis_bumps _)

lemma staleTranslations_revision (doc : Document) :
    (staleTranslations doc).transcriptRevision = doc.transcriptRevision := by
  unfold staleTranslations
  split <;> rfl

lemma staleAnalysis_revision (doc : Document) :
    (staleAnalysis doc).transcriptRevision = doc.transcriptRevision := by
  unfold staleAnalysis
  split <;> rfl

lemma editTranscript_revision {durationSeconds : Seconds} {updates : List TranscriptSegmentUpdate}
    {doc doc' : Document} (h : editTranscript durationSeconds updates doc = .ok doc') :
    doc'.transcriptRevision = doc.transcriptRevision + 1 := by
  obtain ⟨_, rfl⟩ := editTranscript_doc h
  rw [staleAnalysis_revision, staleTranslations_revision]

lemma editAnalysis_bumps {latest : Option JobId} {result : AnalysisResultV2} {now : Instant}
    {doc doc' : Document} (h : editAnalysis latest result now doc = .ok doc') : Bumps doc doc' := by
  obtain ⟨_, _, _, rfl⟩ := editAnalysis_ok h
  exact ⟨.of_eq rfl rfl, .of_lt (Nat.lt_succ_self _), .of_eq rfl rfl⟩

lemma editTranslations_bumps {updates : List TranslationUpdate} {doc doc' : Document}
    (h : editTranslations updates doc = .ok doc') : Bumps doc doc' := by
  obtain ⟨_, _, rfl⟩ := editTranslations_ok h
  exact ⟨.of_eq rfl rfl, .of_eq rfl rfl, .of_lt (Nat.lt_succ_self _)⟩

lemma persistTranscript_bumps {result : PipelineResult} {ids : FreshIds} {now : Instant}
    {doc doc' : Document} (h : persistTranscript result ids now doc = .ok doc') : Bumps doc doc' := by
  obtain ⟨_, rows, _, _, _, rfl⟩ := persistTranscript_ok h
  obtain ⟨hsegments, hanalysis, _⟩ := staleCompleted_bumps { doc with
    segments := newSegments ids.segmentIds result.transcript
    translations := []
    transcriptRevision := doc.transcriptRevision + 1 }
  refine ⟨.of_lt ?_, ?_, .of_lt (Nat.lt_succ_self _)⟩
  · exact lt_of_lt_of_le (Nat.lt_succ_self _) hsegments.le
  · exact ⟨hanalysis.le, hanalysis.lt⟩

lemma persistTranscript_revision {result : PipelineResult} {ids : FreshIds} {now : Instant}
    {doc doc' : Document} (h : persistTranscript result ids now doc = .ok doc') :
    doc'.transcriptRevision = doc.transcriptRevision + 1 := by
  obtain ⟨_, _, _, _, _, rfl⟩ := persistTranscript_ok h
  unfold staleCompleted
  split
  · split <;> rfl
  · rfl

lemma persistAnalysis_bumps {claim : ClaimedJob} {result : AnalysisResult} {now : Instant}
    {doc doc' : Document} (h : persistAnalysis claim result now doc = .ok doc') : Bumps doc doc' := by
  unfold persistAnalysis at h
  split at h
  · cases h
    exact .refl doc
  · cases h
    exact ⟨.of_eq rfl rfl, .of_lt (Nat.lt_succ_self _), .of_eq rfl rfl⟩

lemma persistTranslations_bumps {result : TranslationResult} {ids : FreshIds} {now : Instant}
    {doc doc' : Document} (h : persistTranslations result ids now doc = .ok doc') :
    Bumps doc doc' := by
  obtain ⟨_, rfl, _⟩ := persistTranslations_ok h
  exact ⟨.of_eq rfl rfl, .of_eq rfl rfl, .of_lt (Nat.lt_succ_self _)⟩

lemma wrote_bumps {w : World} {id : RecordingId} {act : Act} {doc : Document}
    (h : Wrote w id act doc) (hbefore : ¬ Absent w.db id) (hafter : ¬ Absent (perform w act).db id) :
    Bumps (w.db.documents id) doc := by
  cases h with
  | kept => exact .refl _
  | cleared _ hlife =>
    rcases hlife with hgone | ⟨_, hgone⟩
    · exact absurd hgone hbefore
    · exact absurd hgone hafter
  | transcriptEdited _ _ hdoc => exact editTranscript_bumps hdoc
  | analysisEdited _ _ hdoc => exact editAnalysis_bumps hdoc
  | translationsEdited _ _ hdoc => exact editTranslations_bumps hdoc
  | @committed _ _ work _ _ _ _ _ _ _ _ _ hdoc =>
    cases work with
    | transcript => exact persistTranscript_bumps hdoc
    | analysis => exact persistAnalysis_bumps hdoc
    | translations => exact persistTranslations_bumps hdoc

def Lives (id : RecordingId) (es : List (Event World Act)) : Prop :=
  ∀ e ∈ es, ¬ Absent e.before.db id ∧ ¬ Absent e.after.db id

lemma run_bumps {w w' : World} {es : List (Event World Act)} {id : RecordingId}
    (hok : WorldInvariant w) (hrun : WorldRun w es w') (hlives : Lives id es) :
    ∀ e ∈ es, Bumps (docAt id e.before) (docAt id e.after) := by
  intro e he
  have hinv := hrun.event_keeps WorldInvariant (fun _ _ _ => step_invariant) hok he
  obtain ⟨hallowed, hafter⟩ := hrun.event_step he
  obtain ⟨hbefore, hlater⟩ := hlives e he
  rw [hafter] at hlater ⊢
  exact wrote_bumps (step_wrote hinv.statuses hallowed id) hbefore hlater

lemma run_document_bumps {w w' : World} {es : List (Event World Act)} {id : RecordingId}
    (hok : WorldInvariant w) (hrun : WorldRun w es w') (hlives : Lives id es) :
    Bumps (docAt id w) (docAt id w') := by
  have hes := run_bumps hok hrun hlives
  obtain ⟨⟨h₁, h₁'⟩, ⟨h₂, h₂'⟩, ⟨h₃, h₃'⟩⟩ :
      Follows (fun w => (docAt id w).transcriptRevision) (fun w => (docAt id w).segments) w w' ∧
      Follows (fun w => (docAt id w).analysisRevision) (fun w => (docAt id w).analysis) w w' ∧
      Follows (fun w => (docAt id w).translationRevision) (fun w => (docAt id w).translations) w w' := by
    refine ⟨run_follows hrun ?_, run_follows hrun ?_, run_follows hrun ?_⟩
    · exact fun e he => ⟨(hes e he).transcript.le, (hes e he).transcript.lt⟩
    · exact fun e he => ⟨(hes e he).analysis.le, (hes e he).analysis.lt⟩
    · exact fun e he => ⟨(hes e he).translations.le, (hes e he).translations.lt⟩
  exact ⟨⟨h₁, h₁'⟩, ⟨h₂, h₂'⟩, ⟨h₃, h₃'⟩⟩

lemma accepted_revision {id : RecordingId} {revision : Document → ℕ} {expectedRevision : ℕ}
    {conflict : Exn} {edit : Recording → Document → Except Exn Document} {db : Database}
    (h : ∃ db', editDocument id revision expectedRevision conflict edit db = .ok ((), db')) :
    revision (db.documents id) = expectedRevision := by
  obtain ⟨_, h⟩ := h
  obtain ⟨_, _, _, hrevision, _⟩ := editDocument_ok h
  exact hrevision

/-- A response read its revision at `w` and its rows at `u`; a save with that revision is taken at
`v`. -/
structure ReplacesWhatWasRead (id : RecordingId) (w u v : World) : Prop where
  transcript : ∀ updates,
    Accepted v (.updateTranscript id (docAt id w).transcriptRevision updates) →
    (docAt id v).segments = (docAt id u).segments
  analysis : ∀ result now,
    Accepted v (.updateAnalysis id (docAt id w).analysisRevision result now) →
    (docAt id v).analysis = (docAt id u).analysis
  translations : ∀ updates,
    Accepted v (.updateTranslations id (docAt id w).translationRevision updates) →
    (docAt id v).translations = (docAt id u).translations

theorem saves_replace_what_was_read {settings : Option ProcessingSettings} {w u v : World}
    {before reading after : List (Event World Act)} (id : RecordingId)
    (hrun : WorldRun (World.init settings) before w) (hreading : WorldRun w reading u)
    (hafter : WorldRun u after v) (hlives : Lives id (reading ++ after)) :
    (∀ e ∈ reading ++ after, Bumps (docAt id e.before) (docAt id e.after)) ∧
      ReplacesWhatWasRead id w u v := by
  have hw := run_invariant hrun
  have hu := hreading.keeps WorldInvariant (fun _ _ _ => step_invariant) hw
  have hfirst : Lives id reading := fun e he => hlives e (List.mem_append_left _ he)
  have hsecond : Lives id after := fun e he => hlives e (List.mem_append_right _ he)
  have hread := run_document_bumps hw hreading hfirst
  have hsaved := run_document_bumps hu hafter hsecond
  refine ⟨run_bumps hw (hreading.append hafter) hlives, ?_, ?_, ?_⟩
  · intro updates h
    exact hread.transcript.read_between hsaved.transcript (accepted_revision h)
  · intro result now h
    exact hread.analysis.read_between hsaved.analysis (accepted_revision h)
  · intro updates h
    exact hread.translations.read_between hsaved.translations (accepted_revision h)

def switchedOff : Act := .server (.switches ⟨false, false⟩)

def switchedWorld : World := perform translatedWorld switchedOff

def exampleSave : Act :=
  .updateAnalysis 1 (docAt 1 analysedWorld).analysisRevision
    ⟨⟨"挨拶".toList, "打招呼".toList⟩, none, [], [], []⟩ 10

theorem saves_replace_what_was_read_accepted :
    Accepted switchedWorld exampleSave ∧
      (docAt 1 switchedWorld).analysis = (docAt 1 translatedWorld).analysis := by
  have haccepted : Accepted switchedWorld exampleSave := by
    have hok : (exampleSave.transaction switchedWorld.db).isOk := by decide +kernel
    exact ⟨_, ok_valueOr ((), switchedWorld.db) hok⟩
  refine ⟨haccepted, ?_⟩
  have hswitched : WorldRun translatedWorld [⟨translatedWorld, switchedOff, switchedWorld⟩]
      switchedWorld := .single ⟨trivial, rfl⟩
  refine (saves_replace_what_was_read 1 analysedRun translatedRun hswitched ?_).2.analysis _ _
    haccepted
  intro e he
  simp only [translatedActs, trail, List.cons_append, List.nil_append, List.mem_cons,
    List.not_mem_nil, or_false] at he
  rcases he with rfl | rfl | rfl | rfl | rfl
  all_goals exact ⟨by decide +kernel, by decide +kernel⟩

end AudioServer.Worker.Revisions
