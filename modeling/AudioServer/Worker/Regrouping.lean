import AudioServer.Processing.SentenceBlocks
import AudioServer.Processing.Utterances
import AudioServer.Worker.HandWritten

/-! When a merged transcript can be grouped into sentences, and so translated and
re-transcribed over. -/

namespace AudioServer.Worker.Regrouping

open AudioServer.Foundations.Blocks AudioServer.Foundations.Outcomes AudioServer.Foundations.Strings
open AudioServer.Api.Schemas AudioServer.Db.Models AudioServer.Processing.Contracts
open AudioServer.Processing.Merge AudioServer.Processing.Sentences
open AudioServer.Processing.SentenceBlocks AudioServer.Processing.Translation
open AudioServer.Processing.Utterances AudioServer.Services.Editing AudioServer.Worker.Persisters
open AudioServer.Worker.DocumentInvariant AudioServer.Worker.CommittedResults
open AudioServer.Worker.HandWritten AudioServer.Worker.Grounding

def Continues (maxChars : ℕ) (run : List Utterance) (u : Utterance) : Prop :=
  (∀ first ∈ run.head?, u.speakerLabel = first.speakerLabel) ∧
    (∀ last ∈ run.getLast?, endsSentence last.text = false) ∧
      (run.map (·.text.length)).sum + u.text.length ≤ maxChars

instance (maxChars : ℕ) (run : List Utterance) (u : Utterance) :
    Decidable (Continues maxChars run u) := inferInstanceAs (Decidable (_ ∧ _))

def Forward (maxChars : ℕ) (speech : List Utterance) : Prop :=
  ∀ run ∈ cut (Continues maxChars) speech,
    ∀ first ∈ run.head?, ∀ last ∈ run.getLast?, first.start ≤ last.end_

lemma joins_continues (maxChars : ℕ) (block : List MergedTranscriptSegment)
    (m : MergedTranscriptSegment) :
    Joins maxChars block m ↔ Continues maxChars (block.map utteranceOf) (utteranceOf m) := by
  simp only [Joins, Continues, rawLength, List.head?_map, List.getLast?_map, Option.mem_map,
    forall_exists_index, and_imp, forall_apply_eq_imp_iff₂, List.map_map]
  rfl

lemma forward_iff (maxChars : ℕ) (merged : List MergedTranscriptSegment) :
    Forward maxChars (merged.map utteranceOf) ↔ ∀ block ∈ cut (Joins maxChars) merged,
      ∀ first ∈ block.head?, ∀ last ∈ block.getLast?, first.start ≤ last.end_ := by
  rw [Forward, cut_map (joins_continues maxChars), List.forall_mem_map]
  simp only [List.head?_map, List.getLast?_map, Option.mem_map, forall_exists_index, and_imp,
    forall_apply_eq_imp_iff₂]
  rfl

def Answers (render : TranscriptSentence → Except Exn Text) : Prop :=
  ∀ s, ∃ text, render s = .ok text ∧ ¬ Blank text

lemma translate_iff {render : TranscriptSentence → Except Exn Text} (hrender : Answers render)
    (identifier : Text) (segments : List MergedTranscriptSegment) :
    (∃ result, TranslationProvider.lmstudio.translate (.ok identifier) render segments = .ok result) ↔
      ∃ sentences, groupSentences segments maxSentenceChars = .ok sentences := by
  constructor
  · rintro ⟨result, h⟩
    obtain ⟨sentences, hs, _⟩ := bind_ok h
    exact ⟨sentences, hs⟩
  · rintro ⟨sentences, hs⟩
    have hanswered : ∃ translations, sentences.mapM (sentenceTranslation render) = .ok translations := by
      apply mapM_succeeds
      intro s _
      obtain ⟨text, htext, hwords⟩ := hrender s
      exact ⟨_, by rw [sentenceTranslation, htext, ok_bind, require_of hwords, ok_bind]⟩
    obtain ⟨translations, ht⟩ := hanswered
    rw [TranslationProvider.translate, hs, ok_bind]
    split
    · exact ⟨_, rfl⟩
    · rw [ok_bind, ht]
      exact ⟨_, rfl⟩

lemma mergedSegment_stored (id : SegmentId) (m : MergedTranscriptSegment) :
    mergedSegment (newSegment id m) = .ok m := by
  have hmake : mergedSegment (newSegment id m) = MergedTranscriptSegment.make m.sequence
      m.speakerLabel m.start m.end_ m.text m.language m.confidence m.hasOverlap := rfl
  rw [hmake, MergedTranscriptSegment.make, dif_pos m.sequence_nonneg, dif_pos m.start_nonneg,
    dif_pos m.start_le_end, dif_pos ⟨m.speaker_nonblank, m.text_nonblank⟩,
    dif_pos m.confidence_probability]

lemma readTranscript_stored {segmentIds : ℕ → SegmentId} {merged : List MergedTranscriptSegment}
    (hasc : Ascending merged) {doc : Document} (h : doc.segments = newSegments segmentIds merged) :
    readTranscript doc = .ok merged := by
  rw [readTranscript, h, newSegments_ordered hasc, newSegments]
  suffices hall : ∀ n, ((merged.zipIdx n).map (fun p => newSegment (segmentIds p.2) p.1)).mapM
      mergedSegment = .ok merged from hall 0
  clear h hasc
  induction merged with
  | nil => exact fun _ => rfl
  | cons m merged ih =>
    intro n
    rw [List.zipIdx_cons, List.map_cons, List.mapM_cons, mergedSegment_stored, ok_bind, ih]
    rfl

lemma capture_iff {segmentIds : ℕ → SegmentId} {merged : List MergedTranscriptSegment}
    (hasc : Ascending merged) {doc : Document} (h : doc.segments = newSegments segmentIds merged)
    (hmanual : manualRows doc ≠ []) : (∃ preserved, captureManualTranslations doc = .ok preserved) ↔
      ∃ sentences, groupSentences merged maxSentenceChars = .ok sentences := by
  have hcapture : captureManualTranslations doc = (do
      let transcript ← readTranscript doc
      let sentences ← groupSentences transcript maxSentenceChars
      .ok ((manualRows doc).map (preservedOf doc sentences))) := if_neg hmanual
  rw [hcapture, readTranscript_stored hasc h, ok_bind]
  constructor
  · rintro ⟨preserved, hp⟩
    obtain ⟨sentences, hs, _⟩ := bind_ok hp
    exact ⟨sentences, hs⟩
  · rintro ⟨sentences, hs⟩
    exact ⟨_, by rw [hs, ok_bind]⟩

lemma fresh_ids {α : Type} {ids : ℕ → ℕ} (h : Function.Injective ids) (xs : List α) :
    (xs.zipIdx.map (fun p => ids p.2)).Nodup := by
  have hmap : xs.zipIdx.map (fun p => ids p.2) = (xs.zipIdx.map Prod.snd).map ids := by
    rw [List.map_map]
    rfl
  rw [hmap, List.zipIdx_map_snd]
  exact (List.nodup_range' 1).map h

lemma newSegments_ids {segmentIds : ℕ → SegmentId} (hids : Function.Injective segmentIds)
    (merged : List MergedTranscriptSegment) : ((newSegments segmentIds merged).map (·.id)).Nodup := by
  rw [newSegments, List.map_map]
  exact fresh_ids hids merged

lemma carry_iff {segmentIds : ℕ → SegmentId} (hids : Function.Injective segmentIds)
    {merged : List MergedTranscriptSegment} (hasc : Ascending merged)
    {preserved : List PreservedTranslation} (hpreserved : preserved ≠ []) {rowIds : ℕ → ℕ}
    (hrows : Function.Injective rowIds) (now : Instant) :
    (∃ rows, carryManualTranslations (newSegments segmentIds merged) merged preserved rowIds now =
      .ok rows) ↔ ∃ sentences, groupSentences merged maxSentenceChars = .ok sentences := by
  have hne : preserved.isEmpty = false := by simpa using hpreserved
  rw [carryManualTranslations, hne, if_neg (by decide)]
  constructor
  · rintro ⟨rows, h⟩
    obtain ⟨sentences, hs, _⟩ := bind_ok h
    exact ⟨sentences, hs⟩
  · rintro ⟨sentences, hs⟩
    have hstarts : ((preserved.zipIdx.map (fun p => carriedRow (newSegments segmentIds merged)
        sentences preserved p.1 (rowIds p.2) now)).filterMap (·.startSegmentId)).Nodup :=
      carried_starts (newSegments_ids hids merged) hs hasc
    have hkeys : ((preserved.zipIdx.map (fun p => carriedRow (newSegments segmentIds merged)
        sentences preserved p.1 (rowIds p.2) now)).map (·.id)).Nodup := by
      rw [List.map_map]
      exact fresh_ids hrows preserved
    rw [hs, ok_bind, flushTranslations, require_of hkeys, ok_bind, require_of hstarts]
    exact ⟨_, rfl⟩

theorem merged_groups_iff (merger : TimestampTranscriptMerger) (transcription : TranscriptionResult)
    (diarization : DiarizationResult) :
    ∃ merged, merger.merge transcription diarization = .ok merged ∧
      ((∃ sentences, groupSentences merged maxSentenceChars = .ok sentences) ↔
        Forward maxSentenceChars (speech merger transcription diarization)) ∧
      (∀ identifier render, Answers render →
        ((∃ result, TranslationProvider.lmstudio.translate (.ok identifier) render merged =
            .ok result) ↔ Forward maxSentenceChars (speech merger transcription diarization))) ∧
      (∀ segmentIds doc, doc.segments = newSegments segmentIds merged → manualRows doc ≠ [] →
        ((∃ preserved, captureManualTranslations doc = .ok preserved) ↔
          Forward maxSentenceChars (speech merger transcription diarization))) ∧
      ∀ segmentIds rowIds preserved now, Function.Injective segmentIds → Function.Injective rowIds →
        preserved ≠ [] →
        ((∃ rows, carryManualTranslations (newSegments segmentIds merged) merged preserved rowIds now =
            .ok rows) ↔ Forward maxSentenceChars (speech merger transcription diarization)) := by
  obtain ⟨merged, hmerge, hspeech⟩ := merge_speech merger transcription diarization
  have hasc := (merge_numbered hmerge).ascending
  have hgroup : (∃ sentences, groupSentences merged maxSentenceChars = .ok sentences) ↔
      Forward maxSentenceChars (speech merger transcription diarization) := by
    rw [← hspeech, forward_iff]
    exact groupSentences_iff (by decide) hasc
  refine ⟨merged, hmerge, hgroup, ?_, ?_, ?_⟩
  · exact fun identifier render hrender => (translate_iff hrender identifier merged).trans hgroup
  · exact fun segmentIds doc hdoc hmanual => (capture_iff hasc hdoc hmanual).trans hgroup
  · exact fun segmentIds rowIds preserved now hids hrows hpreserved =>
      (carry_iff hids hasc hpreserved hrows now).trans hgroup

/-- Two Whisper segments may overlap, and the first be heard only after the second was over. -/
theorem late_speech_raises : ¬ ∀ merger transcription diarization, ∃ merged sentences,
    TimestampTranscriptMerger.merge merger transcription diarization = .ok merged ∧
      groupSentences merged maxSentenceChars = .ok sentences := by
  intro h
  have hraises : ∃ transcription, (exampleMerger.merge transcription exampleVoices >>= fun merged =>
      groupSentences merged maxSentenceChars).isOk = false := by
    refine ⟨⟨[⟨0, 10, "はい".toList, [⟨8, 9, "はい".toList, none, ?_, ?_, ?_, ?_⟩], none, ?_, ?_⟩,
      ⟨5, 6, "ええ".toList, [⟨5, 6, "ええ".toList, none, ?_, ?_, ?_, ?_⟩], none, ?_, ?_⟩], none⟩, ?_⟩
    all_goals decide +kernel
  obtain ⟨transcription, hraises⟩ := hraises
  obtain ⟨merged, sentences, hmerge, hgroup⟩ := h exampleMerger transcription exampleVoices
  rw [hmerge, ok_bind, hgroup] at hraises
  cases hraises

end AudioServer.Worker.Regrouping
