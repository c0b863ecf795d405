import AudioServer.Processing.Sentences

/-! The sentences of a transcript, block by block: what a block holds, and when
it makes a sentence. -/

namespace AudioServer.Processing.SentenceBlocks

open AudioServer.Foundations.Blocks AudioServer.Foundations.Correspondence
open AudioServer.Foundations.Outcomes AudioServer.Foundations.Strings
open AudioServer.Api.Schemas AudioServer.Db.Models AudioServer.Processing.Contracts
open AudioServer.Processing.Sentences

variable {maxChars : ℕ} {block segments : List MergedTranscriptSegment}

lemma grown_speaker (h : Grown (Joins maxChars) block) {first m : MergedTranscriptSegment}
    (hfirst : first ∈ block.head?) (hm : m ∈ block) : m.speakerLabel = first.speakerLabel := by
  induction h with
  | one x =>
    cases hfirst
    rw [List.mem_singleton.mp hm]
  | @snoc block x hb hx ih =>
    rw [List.head?_append_of_ne_nil block hb.ne_nil] at hfirst
    rcases List.mem_append.mp hm with hm | hm
    · exact ih hfirst hm
    · rw [List.mem_singleton.mp hm]
      exact hx.1 first hfirst

lemma grown_open (h : Grown (Joins maxChars) block) {m : MergedTranscriptSegment} (hm : m ∈ block.dropLast) :
    endsSentence m.text = false := by
  induction h with
  | one x => cases hm
  | @snoc block x hb hx ih =>
    rw [List.dropLast_concat] at hm
    have hsplit := List.dropLast_append_getLast hb.ne_nil
    rw [← hsplit] at hm
    rcases List.mem_append.mp hm with hm | hm
    · exact ih hm
    · rw [List.mem_singleton.mp hm]
      exact hx.2.1 _ (List.getLast?_eq_some_getLast hb.ne_nil)

lemma rawLength_snoc (block : List MergedTranscriptSegment) (m : MergedTranscriptSegment) :
    rawLength (block ++ [m]) = rawLength block + m.text.length := by
  simp [rawLength]

lemma grown_short (h : Grown (Joins maxChars) block) : rawLength block ≤ maxChars ∨ ∃ m, block = [m] := by
  cases h with
  | one x => exact .inr ⟨x, rfl⟩
  | snoc _ hx =>
    left
    rw [rawLength_snoc]
    exact hx.2.2

lemma not_joins {m : MergedTranscriptSegment} (h : ¬ Joins maxChars block m) : (∃ first ∈ block.head?, m.speakerLabel ≠ first.speakerLabel) ∨
      (∃ last ∈ block.getLast?, endsSentence last.text) ∨
      maxChars < rawLength block + m.text.length := by
  by_contra hnone
  simp only [not_or, not_exists, not_and, not_not, not_lt, Bool.not_eq_true] at hnone
  exact h hnone

lemma joined_nonblank (h : block ≠ []) :
    ¬ Blank (joined block) := by
  cases block with
  | nil => exact absurd rfl h
  | cons m block =>
    rw [blank_iff, joined, visible_strip, List.flatMap_cons, visible_append, List.append_eq_nil_iff,
      ← blank_iff]
    exact fun hblank => m.text_nonblank hblank.1

lemma sentenceOf_iff (hne : block ≠ []) (hasc : Ascending block) : (∃ s, sentenceOf block = .ok s) ↔
      ∀ first ∈ block.head?, ∀ last ∈ block.getLast?, first.start ≤ last.end_ := by
  cases block with
  | nil => exact absurd rfl hne
  | cons first rest =>
    have hlast : (first :: rest).getLast (List.cons_ne_nil _ _) ∈ (first :: rest).getLast? :=
      List.getLast?_eq_some_getLast _
    have hsequence := le_last hasc hlast List.mem_cons_self
    rw [sentenceOf, TranscriptSentence.make]
    simp only [dif_pos hsequence, dif_pos (joined_nonblank hne)]
    constructor
    · rintro ⟨s, hs⟩ first' hfirst last hlast'
      cases hfirst
      rw [Option.mem_unique hlast' hlast]
      by_contra hlate
      rw [dif_neg hlate] at hs
      cases hs
    · intro h
      rw [dif_pos (h first rfl _ hlast)]
      exact ⟨_, rfl⟩

lemma groupSentences_iff (hmax : 1 ≤ maxChars) (hasc : Ascending segments) :
    (∃ sentences, groupSentences segments maxChars = .ok sentences) ↔
      ∀ block ∈ cut (Joins maxChars) segments,
        ∀ first ∈ block.head?, ∀ last ∈ block.getLast?, first.start ≤ last.end_ := by
  have hblock : ∀ block ∈ cut (Joins maxChars) segments, (∃ s, sentenceOf block = .ok s) ↔
      ∀ first ∈ block.head?, ∀ last ∈ block.getLast?, first.start ≤ last.end_ := by
    intro block hb
    have hsublist := List.sublist_flatten_of_mem hb
    rw [cut_flatten] at hsublist
    exact sentenceOf_iff (cut_grown hb).ne_nil (hasc.sublist hsublist)
  rw [groupSentences_cut hmax]
  constructor
  · rintro ⟨sentences, h⟩ block hb
    obtain ⟨s, _, hs⟩ := paired_mem (mapM_paired h) hb
    exact (hblock block hb).mp ⟨s, hs⟩
  · intro h
    exact mapM_succeeds (fun block hb => (hblock block hb).mpr (h block hb))

end AudioServer.Processing.SentenceBlocks
