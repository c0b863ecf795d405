import AudioServer.Foundations.Correspondence
import AudioServer.Processing.Utterances

/-! The merge conserves the transcript. -/

namespace AudioServer.Processing.Conservation

open AudioServer.Foundations.Correspondence AudioServer.Foundations.Sorting
open AudioServer.Foundations.Strings AudioServer.Api.Schemas AudioServer.Db.Models
open AudioServer.Processing.Contracts AudioServer.Processing.Merge AudioServer.Processing.Utterances

def segmentKey (segment : TranscriptionSegment) : Seconds ×ₗ Seconds :=
  toLex (segment.start, segment.end_)

def wordKey (word : WordTiming) : Seconds ×ₗ Seconds := toLex (word.start, word.end_)

lemma segmentKey_le (a b : TranscriptionSegment) :
    (a.start < b.start ∨ (a.start = b.start ∧ a.end_ ≤ b.end_)) ↔ segmentKey a ≤ segmentKey b := by
  rw [segmentKey, segmentKey, Prod.Lex.toLex_le_toLex]

lemma wordKey_le (a b : WordTiming) :
    (a.start < b.start ∨ (a.start = b.start ∧ a.end_ ≤ b.end_)) ↔ wordKey a ≤ wordKey b := by
  rw [wordKey, wordKey, Prod.Lex.toLex_le_toLex]

def spokenWords (segment : TranscriptionSegment) : List WordTiming :=
  sortedByIndex wordKey (heardWords segment)

def spokenText (segment : TranscriptionSegment) : Text :=
  if heardWords segment = [] then segment.text else (spokenWords segment).flatMap (·.text)

structure Holds (group : List AssignedWord) (m : MergedTranscriptSegment) : Prop where
  speaker : ∀ item ∈ group, item.speakerLabel = m.speakerLabel
  start : IsLeast {t | ∃ item ∈ group, item.word.start = t} m.start
  end_ : IsGreatest {t | ∃ item ∈ group, item.word.end_ = t} m.end_
  overlap : m.hasOverlap ↔ ∃ item ∈ group, item.hasOverlap
  text : visible m.text = visible (group.flatMap (·.word.text))

structure Conserved (merger : TimestampTranscriptMerger) (diarization : DiarizationResult)
    (segment : TranscriptionSegment) (part : List MergedTranscriptSegment) : Prop where
  text : visible (part.flatMap (·.text)) = visible (spokenText segment)
  voices : part.IsChain (fun a b => a.speakerLabel ≠ b.speakerLabel)
  words : heardWords segment ≠ [] → ∃ groups : List (List AssignedWord),
    groups.flatten = merger.assignWords (heardWords segment) (sortedPrimary diarization)
      (sortedRegular diarization) ∧
    groups.flatten.map (·.word) = spokenWords segment ∧ List.Forall₂ Holds groups part

lemma group_voice {merger : TimestampTranscriptMerger} {primaryTurns regularTurns : List SpeakerTurn}
    {segment : TranscriptionSegment} {first : AssignedWord} {rest : List AssignedWord}
    (h : first :: rest ∈ voiceGroups merger primaryTurns regularTurns segment) {item : AssignedWord}
    (hitem : item ∈ first :: rest) : item.speakerLabel = first.speakerLabel := by
  have hchain := List.isChain_of_mem_splitBy h
  have htrans : Trans (fun a b : AssignedWord => decide (a.speakerLabel = b.speakerLabel) = true)
      (fun a b : AssignedWord => decide (a.speakerLabel = b.speakerLabel) = true)
      (fun a b : AssignedWord => decide (a.speakerLabel = b.speakerLabel) = true) := by
    constructor
    intro a b c hab hbc
    rw [decide_eq_true_eq] at *
    exact hab.trans hbc
  rcases List.mem_cons.mp hitem with rfl | hitem
  · rfl
  · have := List.rel_of_pairwise_cons hchain.pairwise hitem
    rw [decide_eq_true_eq] at this
    exact this.symm

lemma utterance_holds {merger : TimestampTranscriptMerger}
    {primaryTurns regularTurns : List SpeakerTurn} {segment : TranscriptionSegment}
    {group : List AssignedWord} (h : group ∈ voiceGroups merger primaryTurns regularTurns segment)
    {m : MergedTranscriptSegment} (hm : groupUtterance group = some (utteranceOf m)) :
    Holds group m := by
  cases group with
  | nil => cases hm
  | cons first rest =>
    have hu := Option.some.inj hm
    have hspeaker : m.speakerLabel = first.speakerLabel := congrArg Utterance.speakerLabel hu.symm
    have hstart : m.start = _ := congrArg Utterance.start hu.symm
    have hend : m.end_ = _ := congrArg Utterance.end_ hu.symm
    have htext : m.text = _ := congrArg Utterance.text hu.symm
    have hoverlap : m.hasOverlap = _ := congrArg Utterance.hasOverlap hu.symm
    refine ⟨?_, ?_, ?_, ?_, ?_⟩
    · intro item hitem
      rw [hspeaker]
      exact group_voice h hitem
    · rw [hstart]
      exact foldl_min_isLeast (fun item : AssignedWord => item.word.start) first rest
    · rw [hend]
      exact foldl_max_isGreatest (fun item : AssignedWord => item.word.end_) first rest
    · rw [hoverlap]
      exact List.any_eq_true
    · rw [htext, visible_strip, joinWordText_visible]

lemma groups_held {merger : TimestampTranscriptMerger} {primaryTurns regularTurns : List SpeakerTurn}
    {segment : TranscriptionSegment} {groups : List (List AssignedWord)}
    (hgroups : ∀ group ∈ groups, group ∈ voiceGroups merger primaryTurns regularTurns segment)
    {part : List MergedTranscriptSegment}
    (h : part.map utteranceOf = groups.filterMap groupUtterance) : List.Forall₂ Holds groups part := by
  induction groups generalizing part with
  | nil =>
    rw [List.filterMap_nil, List.map_eq_nil_iff] at h
    rw [h]
    exact .nil
  | cons group groups ih =>
    have hgroup := hgroups group List.mem_cons_self
    obtain ⟨u, hu⟩ : ∃ u, groupUtterance group = some u := by
      cases group with
      | nil => exact absurd hgroup (List.nil_notMem_splitBy _ _)
      | cons first rest => exact ⟨_, rfl⟩
    rw [List.filterMap_cons_some hu] at h
    obtain ⟨m, part, rfl, hm, hrest⟩ := List.map_eq_cons_iff.mp h
    rw [← hm] at hu
    exact .cons (utterance_holds hgroup hu)
      (ih (fun g hg => hgroups g (List.mem_cons_of_mem _ hg)) hrest)

lemma held_text {groups : List (List AssignedWord)} {part : List MergedTranscriptSegment}
    (h : List.Forall₂ Holds groups part) :
    visible (part.flatMap (·.text)) = visible ((groups.flatten.map (·.word)).flatMap (·.text)) := by
  induction h with
  | nil => rfl
  | @cons group m groups part hm _ ih =>
    rw [List.flatMap_cons, visible_append, ih, hm.text, List.flatten_cons, List.map_append,
      List.flatMap_append, visible_append]
    simp only [List.flatMap_map]

lemma held_voices {groups : List (List AssignedWord)} {part : List MergedTranscriptSegment}
    (h : List.Forall₂ Holds groups part)
    (hgroups : groups.IsChain (fun a b => ∃ ha hb,
      decide ((a.getLast ha).speakerLabel = (b.head hb).speakerLabel) = false)) :
    part.IsChain (fun a b => a.speakerLabel ≠ b.speakerLabel) := by
  refine paired_chain h ?_ hgroups
  rintro a b m n hm hn ⟨ha, hb, hne⟩
  rw [decide_eq_false_iff_not, hm.speaker _ (List.getLast_mem ha), hn.speaker _ (List.head_mem hb)]
    at hne
  exact hne

lemma spokenWords_sorted (segment : TranscriptionSegment) : spokenWords segment =
    (heardWords segment).insertionSort
      (fun a b => a.start < b.start ∨ (a.start = b.start ∧ a.end_ ≤ b.end_)) :=
  sort_stable wordKey_le _

lemma part_conserved {merger : TimestampTranscriptMerger} {diarization : DiarizationResult}
    {segment : TranscriptionSegment} {part : List MergedTranscriptSegment}
    (h : part.map utteranceOf = utterances merger (sortedPrimary diarization)
      (sortedRegular diarization) segment) : Conserved merger diarization segment part := by
  by_cases hwords : heardWords segment = []
  · rw [utterances, if_neg (not_not.mpr hwords)] at h
    have hspoken : spokenText segment = segment.text := if_pos hwords
    by_cases htext : strip segment.text = []
    · rw [if_pos htext, List.map_eq_nil_iff] at h
      subst h
      exact ⟨by rw [hspoken, blank_iff.mp htext]; rfl, .nil, fun hne => absurd hwords hne⟩
    · rw [if_neg htext] at h
      obtain ⟨m, rfl, hm⟩ := List.map_eq_singleton_iff.mp h
      refine ⟨?_, .singleton m, fun hne => absurd hwords hne⟩
      have hsame : m.text = strip segment.text := congrArg Utterance.text hm
      rw [hspoken, List.flatMap_singleton, hsame, visible_strip]
  · rw [utterances, if_pos hwords] at h
    have hheld := groups_held (fun _ hgroup => hgroup) h
    have hflat : (voiceGroups merger (sortedPrimary diarization) (sortedRegular diarization)
        segment).flatten.map (·.word) = spokenWords segment := by
      rw [voiceGroups_flatten, assignWords_words, spokenWords_sorted]
    have hchanges : (voiceGroups merger (sortedPrimary diarization) (sortedRegular diarization)
        segment).IsChain (fun a b => ∃ ha hb,
          decide ((a.getLast ha).speakerLabel = (b.head hb).speakerLabel) = false) :=
      List.isChain_getLast_head_splitBy
        (fun a b : AssignedWord => decide (a.speakerLabel = b.speakerLabel)) _
    refine ⟨?_, held_voices hheld hchanges, fun _ => ⟨_, voiceGroups_flatten, hflat, hheld⟩⟩
    have htext := held_text hheld
    have hspoken : spokenText segment = (spokenWords segment).flatMap (·.text) := if_neg hwords
    rw [hspoken, ← hflat]
    exact htext

theorem merge_conserves (merger : TimestampTranscriptMerger) (transcription : TranscriptionResult)
    (diarization : DiarizationResult) :
    ∃ parts : List (List MergedTranscriptSegment),
      merger.merge transcription diarization = .ok parts.flatten ∧ Numbered parts.flatten ∧
      List.Forall₂ (Conserved merger diarization)
        (sortedByIndex segmentKey transcription.segments) parts := by
  obtain ⟨parts, hmerge, hparts⟩ := merge_succeeds merger transcription diarization
  have htime : sortedByIndex segmentKey transcription.segments = inTime transcription :=
    sort_stable segmentKey_le _
  refine ⟨parts, hmerge, merge_numbered hmerge, ?_⟩
  rw [htime]
  exact hparts.imp (fun _ _ => part_conserved)

end AudioServer.Processing.Conservation
