import AudioServer.Processing.Diarization

/-! From the model's speakers to the names in a transcript: every name is a place in the order, and
no turn bears the name kept for a voice that nothing reaches. -/

namespace AudioServer.Processing.SpeakerNames

open AudioServer.Foundations.Correspondence AudioServer.Foundations.Outcomes
open AudioServer.Foundations.Ranks AudioServer.Foundations.Sorting AudioServer.Foundations.Strings
open AudioServer.Api.Schemas AudioServer.Db.Models
open AudioServer.Processing.Contracts AudioServer.Processing.Diarization AudioServer.Processing.Merge
open AudioServer.Processing.ModelRuntime AudioServer.Processing.SpeakerChoice
open AudioServer.Processing.Utterances

def Spoken (names : List Text) (track : Track) (turn : SpeakerTurn) : Prop :=
  ∃ name ∈ names, track = .turn (.finite turn.start) (.finite turn.end_) name ∧
    turn.speakerLabel = speakerName (rank names name)

def TurnsOf (names : List Text) (tracks : List Track) (turns : List SpeakerTurn) : Prop :=
  ∃ inOrder, turns.Perm inOrder ∧ List.Forall₂ (Spoken names) tracks inOrder

section Turns

variable {provider : PyannoteDiarizationProvider}

lemma speakerTurn_ok {start end_ : PyFloat} {speakerLabel : Text} {turn : SpeakerTurn}
    (h : speakerTurn provider start end_ speakerLabel = .ok turn) :
    start = .finite turn.start ∧ end_ = .finite turn.end_ ∧ turn.speakerLabel = speakerLabel := by
  unfold speakerTurn at h
  split at h
  · split at h
    · cases h
      exact ⟨rfl, rfl, rfl⟩
    · cases h
  · cases h

lemma convertTurns_ok {turns : List RawTurn} {name : Text → Text} {converted : List SpeakerTurn}
    (h : convertTurns provider turns name = .ok converted) : ∃ inOrder, converted.Perm inOrder ∧
      List.Forall₂ (fun raw turn => raw.start = .finite turn.start ∧ raw.end_ = .finite turn.end_ ∧
        turn.speakerLabel = name raw.label) turns inOrder := by
  obtain ⟨inOrder, hinOrder, h⟩ := bind_ok h
  cases h
  exact ⟨inOrder, List.perm_insertionSort _ inOrder,
    (mapM_paired hinOrder).imp (fun _ _ hturn => speakerTurn_ok hturn)⟩

lemma turns_of_raw {names : List Text} {tracks : List Track} {turns : List RawTurn}
    {name : Text → Text} {converted : List SpeakerTurn}
    (hread : readAnnotation provider tracks = .ok turns)
    (hconvert : convertTurns provider turns name = .ok converted)
    (hnames : ∀ turn ∈ turns, turn.label ∈ names ∧
      name turn.label = speakerName (rank names turn.label)) :
    TurnsOf names tracks converted := by
  obtain ⟨inOrder, hperm, hturns⟩ := convertTurns_ok hconvert
  refine ⟨inOrder, hperm, ?_⟩
  have htracks := mapM_paired hread
  clear hread hconvert hperm
  induction htracks generalizing inOrder with
  | nil =>
    cases hturns
    exact .nil
  | @cons track raw _ _ htrack _ ih =>
    cases hturns with
    | @cons _ turn _ _ hturn hrest =>
      obtain ⟨hstart, hend, hlabel⟩ := hturn
      obtain ⟨hmem, hname⟩ := hnames raw List.mem_cons_self
      refine .cons ⟨raw.label, hmem, ?_, hlabel.trans hname⟩ ?_
      · rw [rawTurn_label htrack, hstart, hend]
      · exact ih (fun turn hturn => hnames turn (List.mem_cons_of_mem raw hturn)) _ hrest

lemma TurnsOf.label {names : List Text} {tracks : List Track} {turns : List SpeakerTurn}
    (h : TurnsOf names tracks turns) {turn : SpeakerTurn} (hturn : turn ∈ turns) :
    ∃ i < (distinct names).length, turn.speakerLabel = speakerName i := by
  obtain ⟨inOrder, hperm, hspoken⟩ := h
  obtain ⟨_, _, name, hname, _, hlabel⟩ := paired_mem_right hspoken (hperm.mem_iff.mp hturn)
  exact ⟨_, rank_lt hname, hlabel⟩

lemma readExclusive_read {exclusive : Option (List Track)} {tracks : List Track}
    {regularRaw exclusiveRaw : List RawTurn} (hread : readAnnotation provider tracks = .ok regularRaw)
    (h : readExclusive provider regularRaw exclusive = .ok exclusiveRaw) :
    readAnnotation provider (exclusive.getD tracks) = .ok exclusiveRaw := by
  cases exclusive with
  | none =>
    cases h
    exact hread
  | some tracks => exact h

lemma raw_names {output : DiarizationOutput} {regularRaw exclusiveRaw : List RawTurn}
    (hregular : readAnnotation provider output.speakerDiarization = .ok regularRaw)
    (hexclusive : readExclusive provider regularRaw output.exclusiveSpeakerDiarization =
      .ok exclusiveRaw) (name : Text) :
    name ∈ (regularRaw ++ exclusiveRaw).map (·.label) ↔ name ∈ output.names := by
  rw [List.map_append, List.mem_append, DiarizationOutput.names, DiarizationOutput.tracks,
    List.filterMap_append, List.mem_append, ← readAnnotation_names hregular]
  constructor
  · rintro (hname | hname)
    · exact .inl hname
    · exact readExclusive_names hexclusive name hname
  · rintro (hname | hname)
    · exact .inl hname
    · cases hsome : output.exclusiveSpeakerDiarization with
      | none =>
        rw [hsome] at hname
        cases hname
      | some tracks =>
        rw [hsome] at hname hexclusive
        exact .inr ( readAnnotation_names hexclusive ▸ hname)

lemma diarize_turns {output : DiarizationOutput} {d : DiarizationResult}
    (h : diarize provider (.ok output) = .ok d) :
    TurnsOf output.names output.speakerDiarization d.regularTurns ∧
      TurnsOf output.names (output.exclusiveSpeakerDiarization.getD output.speakerDiarization)
        d.exclusiveTurns := by
  obtain ⟨_, regularRaw, exclusiveRaw, houtput, hregular, hexclusive, h⟩ := diarize_ok h
  cases houtput
  have hmem := raw_names hregular hexclusive
  have hnames : ∀ turn ∈ regularRaw ++ exclusiveRaw, turn.label ∈ output.names ∧
      labelMap regularRaw exclusiveRaw turn.label = speakerName (rank output.names turn.label) := by
    intro turn hturn
    exact ⟨(hmem _).mp (List.mem_map_of_mem hturn), by rw [labelMap, rank_congr hmem]⟩
  obtain ⟨exclusiveTurns, hexclusiveTurns, h⟩ := bind_ok h
  obtain ⟨regularTurns, hregularTurns, h⟩ := bind_ok h
  cases h
  exact ⟨turns_of_raw hregular hregularTurns
      (fun turn hturn => hnames turn (List.mem_append_left _ hturn)),
    turns_of_raw (readExclusive_read hregular hexclusive) hexclusiveTurns
      (fun turn hturn => hnames turn (List.mem_append_right _ hturn))⟩

end Turns

section Merging

variable {P : Text → Prop} {merger : TimestampTranscriptMerger}
  {primaryTurns regularTurns : List SpeakerTurn} {segment : TranscriptionSegment}

lemma assignWords_label {words : List WordTiming}
    (h : ∀ start end_, P (chooseSpeaker start end_ primaryTurns merger.nearestTurnSeconds)) :
    ∀ item ∈ merger.assignWords words primaryTurns regularTurns, P item.speakerLabel := by
  have hnext : ∀ assigned word, (∀ item ∈ assigned, P item.speakerLabel) →
      P (assignNext merger primaryTurns regularTurns assigned word).speakerLabel := by
    intro assigned word hassigned
    unfold assignNext
    split
    · rename_i previous _ hlast
      exact hassigned previous (List.mem_of_getLast? hlast)
    · exact h _ _
  have hstart : ∀ item ∈ ([] : List AssignedWord), P item.speakerLabel :=
    fun _ h => absurd h List.not_mem_nil
  rw [assignWords_fold]
  exact foldl_snoc_forall hnext hstart

lemma utterances_label
    (h : ∀ start end_, P (chooseSpeaker start end_ primaryTurns merger.nearestTurnSeconds)) :
    ∀ u ∈ utterances merger primaryTurns regularTurns segment, P u.speakerLabel := by
  intro u hu
  rw [utterances] at hu
  split at hu
  · obtain ⟨group, hgroup, hu⟩ := List.mem_filterMap.mp hu
    cases group with
    | nil => cases hu
    | cons first rest =>
      cases hu
      apply assignWords_label h
      exact voiceGroups_flatten ▸ List.mem_flatten_of_mem hgroup List.mem_cons_self
  · split at hu
    · cases hu
    · rw [List.mem_singleton.mp hu]
      exact h _ _

lemma merge_label {transcription : TranscriptionResult} {diarization : DiarizationResult}
    {merged : List MergedTranscriptSegment}
    (h : ∀ start end_,
      P (chooseSpeaker start end_ (sortedPrimary diarization) merger.nearestTurnSeconds))
    (hmerge : merger.merge transcription diarization = .ok merged) : ∀ m ∈ merged, P m.speakerLabel := by
  obtain ⟨_, hmerged, hspeech⟩ := merge_speech merger transcription diarization
  cases hmerge.symm.trans hmerged
  intro m hm
  have hu : utteranceOf m ∈ speech merger transcription diarization :=
    hspeech ▸ List.mem_map_of_mem hm
  obtain ⟨segment, _, hu⟩ := List.mem_flatMap.mp hu
  exact utterances_label h _ hu

end Merging

section Result

variable {provider : PyannoteDiarizationProvider} {output : DiarizationOutput} {d : DiarizationResult}

lemma primary_label (h : diarize provider (.ok output) = .ok d) {turn : SpeakerTurn}
    (hturn : turn ∈ d.primaryTurns) :
    ∃ i < (distinct output.names).length, turn.speakerLabel = speakerName i := by
  obtain ⟨hregular, hexclusive⟩ := diarize_turns h
  rw [DiarizationResult.primaryTurns] at hturn
  split at hturn
  · exact hregular.label hturn
  · exact hexclusive.label hturn

lemma sortedPrimary_mem {turn : SpeakerTurn} : turn ∈ sortedPrimary d ↔ turn ∈ d.primaryTurns :=
  List.mem_insertionSort _

lemma chosen_name (h : diarize provider (.ok output) = .ok d) (start end_ tolerance : Seconds) :
    chooseSpeaker start end_ (sortedPrimary d) tolerance = unknownSpeaker ∨
      ∃ i < (distinct output.names).length,
        chooseSpeaker start end_ (sortedPrimary d) tolerance = speakerName i := by
  rcases chooseSpeaker_cases start end_ tolerance (sortedPrimary d) with
    ⟨turn, hchosen, hlabel⟩ | ⟨_, hunknown⟩
  · rw [hlabel]
    exact .inr (primary_label h (sortedPrimary_mem.mp hchosen.mem))
  · exact .inl hunknown

lemma unknown_unreached (h : diarize provider (.ok output) = .ok d) (start end_ tolerance : Seconds) :
    chooseSpeaker start end_ (sortedPrimary d) tolerance = unknownSpeaker ↔
      ∀ turn ∈ d.primaryTurns, ¬ Reaches start end_ tolerance turn := by
  simp only [chooseSpeaker_unknown, sortedPrimary_mem]
  refine ⟨?_, .inl⟩
  rintro (hnone | ⟨turn, hchosen, hlabel⟩)
  · exact hnone
  · obtain ⟨i, _, hname⟩ := primary_label h (sortedPrimary_mem.mp hchosen.mem)
    exact absurd (hname.symm.trans hlabel) (speakerName_known i)

theorem speakers_anonymous (merger : TimestampTranscriptMerger)
    (transcription : Except Exn TranscriptionResult) (h : diarize provider (.ok output) = .ok d) :
    TurnsOf output.names output.speakerDiarization d.regularTurns ∧
      TurnsOf output.names (output.exclusiveSpeakerDiarization.getD output.speakerDiarization)
        d.exclusiveTurns ∧
      (∀ a ∈ output.names, ∀ b,
        speakerName (rank output.names a) = speakerName (rank output.names b) ↔ a = b) ∧
      (∀ ρ, KeepsOrder ρ output.names →
        pipelineRun merger transcription (diarize provider (.ok (output.rename ρ))) =
          pipelineRun merger transcription (.ok d)) ∧
      (∀ start end_,
        chooseSpeaker start end_ (sortedPrimary d) merger.nearestTurnSeconds = unknownSpeaker ↔
          ∀ turn ∈ d.primaryTurns, ¬ Reaches start end_ merger.nearestTurnSeconds turn) ∧
      ∀ result, pipelineRun merger transcription (.ok d) = .ok result → ∀ m ∈ result.transcript,
        m.speakerLabel = unknownSpeaker ∨
          ∃ i < (distinct output.names).length, m.speakerLabel = speakerName i := by
  obtain ⟨hregular, hexclusive⟩ := diarize_turns h
  refine ⟨hregular, hexclusive, ?_, ?_, fun start end_ => unknown_unreached h start end_ _, ?_⟩
  · intro a ha b
    rw [speakerName_injective.eq_iff, rank_inj ha]
  · intro ρ hρ
    rw [diarize_rename hρ, h]
  · intro result hresult
    obtain ⟨heard, _, hresult⟩ := bind_ok hresult
    obtain ⟨_, hd, hresult⟩ := bind_ok hresult
    cases hd
    obtain ⟨transcript, hmerge, hresult⟩ := bind_ok hresult
    cases hresult
    have hchosen := fun start end_ => chosen_name h start end_ merger.nearestTurnSeconds
    exact merge_label (P := fun label => label = unknownSpeaker ∨ ∃ i < _, label = speakerName i)
      hchosen hmerge

end Result

def twoVoices : DiarizationOutput :=
  ⟨[.turn (.finite 0) (.finite 2) "b".toList, .turn (.finite 1) (.finite 3) "a".toList],
    some [.turn (.finite 0) (.finite 1) "b".toList, .turn (.finite 1) (.finite 3) "a".toList]⟩

theorem speakers_anonymous_two_voices : ∃ d, diarize ⟨id⟩ (.ok twoVoices) = .ok d ∧
    (d.exclusiveTurns.map (·.speakerLabel) = ["SPEAKER_01".toList, "SPEAKER_00".toList]) ∧
    TurnsOf twoVoices.names twoVoices.speakerDiarization d.regularTurns := by
  have hok : ∃ d, diarize ⟨id⟩ (.ok twoVoices) = .ok d ∧
      d.exclusiveTurns.map (·.speakerLabel) = ["SPEAKER_01".toList, "SPEAKER_00".toList] :=
    ⟨_, rfl, by decide +kernel⟩
  obtain ⟨d, hd, hlabels⟩ := hok
  exact ⟨d, hd, hlabels, (speakers_anonymous ⟨0, Char.isAlphanum, le_rfl⟩ (.ok ⟨[], none⟩) hd).1⟩

end AudioServer.Processing.SpeakerNames
