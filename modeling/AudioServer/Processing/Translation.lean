import AudioServer.Processing.Sentences

/-! Sentence-level Cantonese translation. -/

namespace AudioServer.Processing.Translation

open AudioServer.Foundations.Outcomes AudioServer.Foundations.Strings AudioServer.Db.Models
open AudioServer.Processing.Contracts AudioServer.Processing.Sentences

inductive TranslationProvider
  | disabled
  | lmstudio

def sentenceTranslation (render : TranscriptSentence → Except Exn Text) (s : TranscriptSentence) :
    Except Exn SentenceTranslation := do
  let textZhHk ← render s
  require (¬ Blank textZhHk) (.valueError "translation text cannot be empty")
  .ok ⟨s.startSequence, s.endSequence, s.text, textZhHk⟩

/-- `identifier` is the model that is loaded, and `render` its answer to one sentence. -/
def TranslationProvider.translate (provider : TranslationProvider) (identifier : Except Exn Text)
    (render : TranscriptSentence → Except Exn Text) (segments : List MergedTranscriptSegment) :
    Except Exn TranslationResult :=
  match provider with
  | .disabled => .ok ⟨.skipped, "disabled".toList, none, [], none, none⟩
  | .lmstudio => do
    let sentences ← groupSentences segments maxSentenceChars
    if sentences = [] then .ok ⟨.completed, "lmstudio".toList, none, [], none, none⟩
    else do
      let identifier ← identifier
      let translations ← sentences.mapM (sentenceTranslation render)
      .ok ⟨.completed, "lmstudio".toList, some identifier, translations, none, none⟩

structure OfSentences (segments : List MergedTranscriptSegment)
    (translations : List SentenceTranslation) : Prop where
  starts : translations.Pairwise (fun a b => a.startSequence < b.startSequence)
  text : ∀ t ∈ translations, t.sourceJa ≠ [] ∧
    t.sourceJa = joined (covered segments t.startSequence t.endSequence)

lemma translate_cases {provider : TranslationProvider} {identifier : Except Exn Text}
    {render : TranscriptSentence → Except Exn Text} {segments : List MergedTranscriptSegment}
    {r : TranslationResult} (h : provider.translate identifier render segments = .ok r) :
    (r.status = .skipped ∧ r.translations = []) ∨ (r.status = .completed ∧
      ∃ sentences, groupSentences segments maxSentenceChars = .ok sentences ∧
        sentences.mapM (sentenceTranslation render) = .ok r.translations) := by
  cases provider with
  | disabled =>
    cases h
    exact .inl ⟨rfl, rfl⟩
  | lmstudio =>
    obtain ⟨sentences, hs, h⟩ := bind_ok h
    split at h
    · rename_i hnone
      cases h
      exact .inr ⟨rfl, sentences, hs, by rw [hnone]; rfl⟩
    · obtain ⟨_, _, h⟩ := bind_ok h
      obtain ⟨translations, ht, h⟩ := bind_ok h
      cases h
      exact .inr ⟨rfl, sentences, hs, ht⟩

lemma sentenceTranslation_ok {render : TranscriptSentence → Except Exn Text} {s : TranscriptSentence}
    {t : SentenceTranslation} (h : sentenceTranslation render s = .ok t) :
    t.startSequence = s.startSequence ∧ t.endSequence = s.endSequence ∧ t.sourceJa = s.text := by
  obtain ⟨_, _, h⟩ := bind_ok h
  obtain ⟨_, _, h⟩ := bind_ok h
  cases h
  exact ⟨rfl, rfl, rfl⟩

lemma translate_ofSentences {provider : TranslationProvider} {identifier : Except Exn Text}
    {render : TranscriptSentence → Except Exn Text} {segments : List MergedTranscriptSegment}
    {r : TranslationResult} (h : provider.translate identifier render segments = .ok r)
    (hasc : Ascending segments) : OfSentences segments r.translations := by
  rcases translate_cases h with ⟨_, hnone⟩ | ⟨_, sentences, hs, ht⟩
  · rw [hnone]
    exact ⟨.nil, fun t ht => absurd ht List.not_mem_nil⟩
  · refine ⟨?_, ?_⟩
    · have hstarts := groupSentences_starts hs hasc
      have hmap : r.translations.map (·.startSequence) = sentences.map (·.startSequence) :=
        mapM_map (fun s t h => (sentenceTranslation_ok h).1) ht
      have hsorted : (sentences.map (·.startSequence)).Pairwise (· < ·) :=
        List.pairwise_map.mpr hstarts
      rw [← hmap] at hsorted
      exact List.pairwise_map.mp hsorted
    · intro t hmem
      obtain ⟨s, hsmem, hst⟩ := mapM_mem ht hmem
      obtain ⟨hstart, hend, htext⟩ := sentenceTranslation_ok hst
      rw [hstart, hend, htext]
      exact ⟨nonblank_ne_nil s.text_nonblank, (groupSentences_text hs hasc hsmem).1⟩

end AudioServer.Processing.Translation
