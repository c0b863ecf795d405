import AudioServer.Foundations.Sorting
import AudioServer.Processing.Merge
import Mathlib.Algebra.Order.BigOperators.Group.List
import Mathlib.Algebra.Order.Field.Basic
import Mathlib.Data.List.SplitBy

/-! What the merge makes of each Whisper segment, and that it never raises. -/

namespace AudioServer.Processing.Utterances

open AudioServer.Foundations.Outcomes AudioServer.Foundations.Strings AudioServer.Foundations.Sorting
open AudioServer.Api.Schemas AudioServer.Db.Models AudioServer.Processing.Contracts
open AudioServer.Processing.Merge

structure Utterance where
  speakerLabel : Text
  start : Seconds
  end_ : Seconds
  text : Text
  hasOverlap : Bool

def utteranceOf (m : MergedTranscriptSegment) : Utterance :=
  ⟨m.speakerLabel, m.start, m.end_, m.text, m.hasOverlap⟩

def groupUtterance : List AssignedWord → Option Utterance
  | [] => none
  | first :: rest => some ⟨first.speakerLabel,
      rest.foldl (fun s item => min s item.word.start) first.word.start,
      rest.foldl (fun e item => max e item.word.end_) first.word.end_,
      strip (joinWordText (first :: rest)), (first :: rest).any (·.hasOverlap)⟩

def heardWords (segment : TranscriptionSegment) : List WordTiming :=
  segment.words.filter (fun w => ¬ Blank w.text)

def utterances (merger : TimestampTranscriptMerger) (primaryTurns regularTurns : List SpeakerTurn)
    (segment : TranscriptionSegment) : List Utterance :=
  if heardWords segment ≠ [] then
    (groupBySpeaker (merger.assignWords (heardWords segment) primaryTurns regularTurns)).filterMap
      groupUtterance
  else if strip segment.text = [] then []
  else [⟨chooseSpeaker segment.start segment.end_ primaryTurns merger.nearestTurnSeconds,
    segment.start, segment.end_, strip segment.text,
    hasSimultaneousSpeech segment.start segment.end_ regularTurns⟩]

lemma make_succeeds {sequence : ℤ} {speakerLabel : Text} {start end_ : Seconds} (text : Text)
    (language : Option Text) {confidence : Option ℚ} (hasOverlap : Bool)
    (hsequence : 0 ≤ sequence) (hstart : 0 ≤ start) (hend : start ≤ end_)
    (hspeaker : ¬ Blank speakerLabel) (htext : ¬ Blank text)
    (hconfidence : ∀ c ∈ confidence, 0 ≤ c ∧ c ≤ 1) :
    ∃ m, MergedTranscriptSegment.make sequence speakerLabel start end_ text language confidence
      hasOverlap = .ok m ∧ utteranceOf m = ⟨speakerLabel, start, end_, text, hasOverlap⟩ := by
  rw [MergedTranscriptSegment.make, dif_pos hsequence, dif_pos hstart, dif_pos hend,
    dif_pos ⟨hspeaker, htext⟩, dif_pos hconfidence]
  exact ⟨_, rfl, rfl⟩

lemma fmean_probability {values : List ℚ} (h : ∀ v ∈ values, 0 ≤ v ∧ v ≤ 1) :
    ∀ c ∈ fmean values, 0 ≤ c ∧ c ≤ 1 := by
  intro c hc
  unfold fmean at hc
  split at hc
  · cases hc
  · rename_i hne
    cases hc
    have hlength : (0 : ℚ) < values.length :=
      Nat.cast_pos.mpr (List.length_pos_iff.mpr hne)
    have hlow : 0 ≤ values.sum := List.sum_nonneg (fun v hv => (h v hv).1)
    have hhigh : values.sum ≤ values.length := by
      have := List.sum_le_card_nsmul values 1 (fun v hv => (h v hv).2)
      rwa [nsmul_eq_mul, mul_one] at this
    exact ⟨div_nonneg hlow hlength.le, (div_le_one hlength).mpr hhigh⟩

lemma unknownSpeaker_nonblank : ¬ Blank unknownSpeaker := by decide

lemma chooseSpeaker_nonblank (start end_ : Seconds) (turns : List SpeakerTurn) (tolerance : Seconds) :
    ¬ Blank (chooseSpeaker start end_ turns tolerance) := by
  simp only [chooseSpeaker]
  split
  · exact SpeakerTurn.speaker_nonblank _
  · exact SpeakerTurn.speaker_nonblank _
  · split
    · exact SpeakerTurn.speaker_nonblank _
    · exact unknownSpeaker_nonblank
  · exact unknownSpeaker_nonblank

section Folds

variable {α β : Type}

lemma foldl_snoc_map {f : List β → α → β} {g : β → α} (hg : ∀ acc x, g (f acc x) = x)
    (xs : List α) (acc : List β) :
    (xs.foldl (fun acc x => acc ++ [f acc x]) acc).map g = acc.map g ++ xs := by
  induction xs generalizing acc with
  | nil => rw [List.foldl_nil, List.append_nil]
  | cons x xs ih =>
    rw [List.foldl_cons, ih, List.map_append, List.map_singleton, hg, List.append_assoc,
      List.singleton_append]

lemma foldl_snoc_forall {P : β → Prop} {f : List β → α → β}
    (hf : ∀ acc x, (∀ b ∈ acc, P b) → P (f acc x)) {xs : List α} {acc : List β}
    (hacc : ∀ b ∈ acc, P b) : ∀ b ∈ xs.foldl (fun acc x => acc ++ [f acc x]) acc, P b := by
  induction xs generalizing acc with
  | nil => exact hacc
  | cons x xs ih =>
    apply ih
    intro b hb
    rcases List.mem_append.mp hb with hb | hb
    · exact hacc b hb
    · rw [List.mem_singleton.mp hb]
      exact hf acc x hacc

end Folds

def assignNext (merger : TimestampTranscriptMerger) (primaryTurns regularTurns : List SpeakerTurn)
    (assigned : List AssignedWord) (word : WordTiming) : AssignedWord :=
  match isPunctuationOnly merger.isAlnum word.text, assigned.getLast? with
  | true, some previous => ⟨word, previous.speakerLabel, previous.hasOverlap⟩
  | _, _ => ⟨word, chooseSpeaker word.start word.end_ primaryTurns merger.nearestTurnSeconds,
      hasSimultaneousSpeech word.start word.end_ regularTurns⟩

lemma assignWords_fold (merger : TimestampTranscriptMerger) (words : List WordTiming)
    (primaryTurns regularTurns : List SpeakerTurn) :
    merger.assignWords words primaryTurns regularTurns =
      (words.insertionSort (fun a b => a.start < b.start ∨ (a.start = b.start ∧ a.end_ ≤ b.end_))).foldl
        (fun assigned word => assigned ++ [assignNext merger primaryTurns regularTurns assigned word])
        [] := rfl

lemma assignWords_words (merger : TimestampTranscriptMerger) (words : List WordTiming)
    (primaryTurns regularTurns : List SpeakerTurn) :
    (merger.assignWords words primaryTurns regularTurns).map (·.word) =
      words.insertionSort
        (fun a b => a.start < b.start ∨ (a.start = b.start ∧ a.end_ ≤ b.end_)) := by
  have hword : ∀ assigned word,
      (assignNext merger primaryTurns regularTurns assigned word).word = word := by
    intro assigned word
    unfold assignNext
    split <;> rfl
  exact foldl_snoc_map hword _ []

lemma assignWords_nonblank (merger : TimestampTranscriptMerger) (words : List WordTiming)
    (primaryTurns regularTurns : List SpeakerTurn) :
    ∀ item ∈ merger.assignWords words primaryTurns regularTurns, ¬ Blank item.speakerLabel := by
  have hnext : ∀ assigned word, (∀ item ∈ assigned, ¬ Blank item.speakerLabel) →
      ¬ Blank (assignNext merger primaryTurns regularTurns assigned word).speakerLabel := by
    intro assigned word hassigned
    unfold assignNext
    split
    · rename_i previous _ hlast
      exact hassigned previous (List.mem_of_getLast? hlast)
    · exact chooseSpeaker_nonblank _ _ _ _
  have hstart : ∀ item ∈ ([] : List AssignedWord), ¬ Blank item.speakerLabel :=
    fun _ h => absurd h List.not_mem_nil
  rw [assignWords_fold]
  exact foldl_snoc_forall hnext hstart

lemma joinWordText_visible (words : List AssignedWord) :
    visible (joinWordText words) = visible (words.flatMap (·.word.text)) := by
  suffices h : ∀ text, visible (words.foldl (fun text item =>
      (if needsAsciiSeparator text item.word.text then text ++ [' '] else text) ++ item.word.text)
      text) = visible text ++ visible (words.flatMap (·.word.text)) from h []
  induction words with
  | nil => exact fun text => (List.append_nil _).symm
  | cons item words ih =>
    intro text
    rw [List.foldl_cons, ih, List.flatMap_cons, visible_append, visible_append]
    have hseparator : visible (if needsAsciiSeparator text item.word.text then text ++ [' '] else text) =
        visible text := by
      split
      · rw [visible_append]
        exact List.append_nil _
      · rfl
    rw [hseparator, List.append_assoc]

def voiceGroups (merger : TimestampTranscriptMerger) (primaryTurns regularTurns : List SpeakerTurn)
    (segment : TranscriptionSegment) : List (List AssignedWord) :=
  groupBySpeaker (merger.assignWords (heardWords segment) primaryTurns regularTurns)

section Groups

variable {merger : TimestampTranscriptMerger} {primaryTurns regularTurns : List SpeakerTurn}
  {segment : TranscriptionSegment}

lemma voiceGroups_flatten : (voiceGroups merger primaryTurns regularTurns segment).flatten =
    merger.assignWords (heardWords segment) primaryTurns regularTurns :=
  List.flatten_splitBy _ _

lemma voiceGroups_words {group : List AssignedWord}
    (hgroup : group ∈ voiceGroups merger primaryTurns regularTurns segment) {item : AssignedWord}
    (hitem : item ∈ group) : ¬ Blank item.word.text ∧ ¬ Blank item.speakerLabel := by
  have hmem : item ∈ merger.assignWords (heardWords segment) primaryTurns regularTurns := by
    rw [← voiceGroups_flatten]
    exact List.mem_flatten_of_mem hgroup hitem
  refine ⟨?_, assignWords_nonblank merger _ primaryTurns regularTurns item hmem⟩
  have hword := List.mem_map_of_mem (f := AssignedWord.word) hmem
  rw [assignWords_words, List.mem_insertionSort] at hword
  have hheard := (List.mem_filter.mp hword).2
  rwa [decide_eq_true_eq] at hheard

lemma mergeGroup_succeeds {group : List AssignedWord}
    (hgroup : group ∈ voiceGroups merger primaryTurns regularTurns segment)
    (language : Option Text) (merged : List MergedTranscriptSegment) :
    ∃ part, mergeGroup language merged group = .ok (merged ++ part) ∧
      ∃ m, part = [m] ∧ groupUtterance group = some (utteranceOf m) := by
  have hwords := fun item (hitem : item ∈ group) => voiceGroups_words hgroup hitem
  cases group with
  | nil => exact absurd hgroup (List.nil_notMem_splitBy _ _)
  | cons first rest =>
    obtain ⟨hfirst, hspeaker⟩ := hwords first List.mem_cons_self
    have htext : ¬ Blank (strip (joinWordText (first :: rest))) := by
      rw [blank_iff, visible_strip, joinWordText_visible, List.flatMap_cons, visible_append,
        List.append_eq_nil_iff, ← blank_iff]
      exact fun h => hfirst h.1
    obtain ⟨⟨s, _, hs⟩, hleast⟩ :=
      foldl_min_isLeast (fun item : AssignedWord => item.word.start) first rest
    obtain ⟨_, hgreatest⟩ := foldl_max_isGreatest (fun item : AssignedWord => item.word.end_) first rest
    have hend := (hleast ⟨first, List.mem_cons_self, rfl⟩).trans
      (first.word.start_le_end.trans (hgreatest ⟨first, List.mem_cons_self, rfl⟩))
    have hconfidence : ∀ c ∈ fmean ((first :: rest).filterMap (·.word.probability)),
        0 ≤ c ∧ c ≤ 1 := by
      apply fmean_probability
      intro v hv
      obtain ⟨item, _, hp⟩ := List.mem_filterMap.mp hv
      exact item.word.probability_valid v hp
    obtain ⟨m, hm, hu⟩ := make_succeeds (strip (joinWordText (first :: rest))) language
      ((first :: rest).any (·.hasOverlap)) (Int.natCast_nonneg merged.length)
      (hs ▸ s.word.start_nonneg) hend hspeaker htext hconfidence
    refine ⟨[m], ?_, m, rfl, ?_⟩
    · have hne : strip (joinWordText (first :: rest)) ≠ [] := by
        intro hnil
        rw [hnil] at htext
        exact htext rfl
      simp only [mergeGroup, if_neg hne]
      rw [hm]
      rfl
    · rw [hu]
      rfl

lemma groups_utterances {groups : List (List AssignedWord)}
    {parts : List (List MergedTranscriptSegment)} (h : List.Forall₂ (fun group part =>
      ∃ m, part = [m] ∧ groupUtterance group = some (utteranceOf m)) groups parts) :
    parts.flatten.map utteranceOf = groups.filterMap groupUtterance := by
  induction h with
  | nil => rfl
  | cons hpart _ ih =>
    obtain ⟨m, rfl, hm⟩ := hpart
    rw [List.flatten_cons, List.map_append, List.filterMap_cons_some hm, ih, List.map_singleton,
      List.singleton_append]

lemma mergeSegment_succeeds (transcription : TranscriptionResult)
    (merged : List MergedTranscriptSegment) :
    ∃ part, merger.mergeSegment transcription primaryTurns regularTurns merged segment =
        .ok (merged ++ part) ∧
      part.map utteranceOf = utterances merger primaryTurns regularTurns segment := by
  by_cases hwords : heardWords segment ≠ []
  · obtain ⟨parts, hparts, hgroups⟩ := foldlM_appends
      (fun acc group hgroup => mergeGroup_succeeds hgroup (languageOf segment transcription) acc)
      merged
    refine ⟨parts.flatten, ?_, ?_⟩
    · rw [← hparts]
      exact if_pos hwords
    · rw [groups_utterances hgroups, utterances, if_pos hwords]
      rfl
  · have hown : merger.mergeSegment transcription primaryTurns regularTurns merged segment =
        (if strip segment.text = [] then .ok merged
        else do
          let m ← MergedTranscriptSegment.make merged.length
            (chooseSpeaker segment.start segment.end_ primaryTurns merger.nearestTurnSeconds)
            segment.start segment.end_ (strip segment.text) (languageOf segment transcription) none
            (hasSimultaneousSpeech segment.start segment.end_ regularTurns)
          .ok (merged ++ [m])) := if_neg hwords
    rw [hown, utterances, if_neg hwords]
    by_cases htext : strip segment.text = []
    · rw [if_pos htext, if_pos htext]
      exact ⟨[], by rw [List.append_nil], rfl⟩
    · have hnonblank : ¬ Blank (strip segment.text) := by
        rwa [blank_iff, visible_strip, ← blank_iff]
      obtain ⟨m, hm, hu⟩ := make_succeeds (strip segment.text) (languageOf segment transcription)
        (hasSimultaneousSpeech segment.start segment.end_ regularTurns)
        (Int.natCast_nonneg merged.length) segment.start_nonneg segment.start_lt_end.le
        (chooseSpeaker_nonblank _ _ primaryTurns merger.nearestTurnSeconds) hnonblank
        (fun _ h => absurd h (Option.not_mem_none _))
      rw [if_neg htext, if_neg htext, hm]
      exact ⟨[m], rfl, by rw [List.map_singleton, hu]⟩

end Groups

def inTime (transcription : TranscriptionResult) : List TranscriptionSegment :=
  transcription.segments.insertionSort
    (fun a b => a.start < b.start ∨ (a.start = b.start ∧ a.end_ ≤ b.end_))

def sortedPrimary (diarization : DiarizationResult) : List SpeakerTurn :=
  diarization.primaryTurns.insertionSort TurnOrder

def sortedRegular (diarization : DiarizationResult) : List SpeakerTurn :=
  diarization.regularTurns.insertionSort TurnOrder

lemma merge_succeeds (merger : TimestampTranscriptMerger) (transcription : TranscriptionResult)
    (diarization : DiarizationResult) :
    ∃ parts, merger.merge transcription diarization = .ok parts.flatten ∧
      List.Forall₂ (fun segment part => part.map utteranceOf =
          utterances merger (sortedPrimary diarization) (sortedRegular diarization) segment)
        (inTime transcription) parts := by
  have hsegment : ∀ merged, ∀ segment ∈ inTime transcription, ∃ part,
      merger.mergeSegment transcription (sortedPrimary diarization) (sortedRegular diarization) merged
          segment = .ok (merged ++ part) ∧ part.map utteranceOf =
        utterances merger (sortedPrimary diarization) (sortedRegular diarization) segment :=
    fun merged _ _ => mergeSegment_succeeds transcription merged
  exact foldlM_appends hsegment []

def speech (merger : TimestampTranscriptMerger) (transcription : TranscriptionResult)
    (diarization : DiarizationResult) : List Utterance :=
  (inTime transcription).flatMap
    (utterances merger (sortedPrimary diarization) (sortedRegular diarization))

lemma parts_speech {f : TranscriptionSegment → List Utterance} {segments : List TranscriptionSegment}
    {parts : List (List MergedTranscriptSegment)}
    (h : List.Forall₂ (fun segment part => part.map utteranceOf = f segment) segments parts) :
    parts.flatten.map utteranceOf = segments.flatMap f := by
  induction h with
  | nil => rfl
  | cons hpart _ ih => rw [List.flatten_cons, List.map_append, hpart, ih, List.flatMap_cons]

lemma merge_speech (merger : TimestampTranscriptMerger) (transcription : TranscriptionResult)
    (diarization : DiarizationResult) :
    ∃ merged, merger.merge transcription diarization = .ok merged ∧
      merged.map utteranceOf = speech merger transcription diarization := by
  obtain ⟨parts, hmerge, hparts⟩ := merge_succeeds merger transcription diarization
  exact ⟨_, hmerge, parts_speech hparts⟩

end AudioServer.Processing.Utterances
