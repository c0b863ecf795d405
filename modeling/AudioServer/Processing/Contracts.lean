import AudioServer.Db.Models
import AudioServer.Foundations.Outcomes

/-! Typed, provider-neutral values used by the processing pipeline. -/

namespace AudioServer.Processing.Contracts

open AudioServer.Foundations.Outcomes AudioServer.Foundations.Strings AudioServer.Api.Schemas
open AudioServer.Db.Models

/-- What a provider reports; `STALE` is a state of the stored row only. -/
inductive PipelineAnalysisStatus
  | completed | skipped | failed
deriving DecidableEq

structure MergedTranscriptSegment where
  sequence : ℤ
  speakerLabel : Text
  start : Seconds
  end_ : Seconds
  text : Text
  language : Option Text
  confidence : Option ℚ
  hasOverlap : Bool
  sequence_nonneg : 0 ≤ sequence
  start_nonneg : 0 ≤ start
  start_le_end : start ≤ end_
  speaker_nonblank : ¬ Blank speakerLabel
  text_nonblank : ¬ Blank text
  confidence_probability : ∀ c ∈ confidence, 0 ≤ c ∧ c ≤ 1
deriving DecidableEq

def MergedTranscriptSegment.make (sequence : ℤ) (speakerLabel : Text) (start end_ : Seconds)
    (text : Text) (language : Option Text) (confidence : Option ℚ) (hasOverlap : Bool) :
    Except Exn MergedTranscriptSegment :=
  if h₁ : 0 ≤ sequence then
    if h₂ : 0 ≤ start then
      if h₃ : start ≤ end_ then
        if h₄ : ¬ Blank speakerLabel ∧ ¬ Blank text then
          if h₅ : ∀ c ∈ confidence, 0 ≤ c ∧ c ≤ 1 then
            .ok ⟨sequence, speakerLabel, start, end_, text, language, confidence, hasOverlap, h₁, h₂,
              h₃, h₄.1, h₄.2, h₅⟩
          else .error (.valueError "probability must be between zero and one")
        else .error (.valueError "merged speaker and text cannot be empty")
      else .error (.valueError "end timestamp must be after start timestamp")
    else .error (.valueError "timestamps cannot be negative")
  else .error (.valueError "sequence cannot be negative")

lemma MergedTranscriptSegment.make_ok {sequence : ℤ} {speakerLabel : Text} {start end_ : Seconds}
    {text : Text} {language : Option Text} {confidence : Option ℚ} {hasOverlap : Bool}
    {m : MergedTranscriptSegment}
    (h : make sequence speakerLabel start end_ text language confidence hasOverlap = .ok m) :
    m.sequence = sequence ∧ m.speakerLabel = speakerLabel ∧ m.start = start ∧ m.end_ = end_ ∧
      m.text = text := by
  unfold make at h
  split at h
  · split at h
    · split at h
      · split at h
        · split at h
          · cases h
            exact ⟨rfl, rfl, rfl, rfl, rfl⟩
          · cases h
        · cases h
      · cases h
    · cases h
  · cases h

lemma MergedTranscriptSegment.make_error {sequence : ℤ} {speakerLabel : Text} {start end_ : Seconds}
    {text : Text} {language : Option Text} {confidence : Option ℚ} {hasOverlap : Bool} {e : Exn}
    (h : make sequence speakerLabel start end_ text language confidence hasOverlap = .error e) :
    ∃ message, e = .valueError message := by
  unfold make at h
  repeat' split at h
  all_goals
    cases h
    try exact ⟨_, rfl⟩

structure WordTiming where
  start : Seconds
  end_ : Seconds
  text : Text
  probability : Option ℚ
  start_nonneg : 0 ≤ start
  start_le_end : start ≤ end_
  text_nonempty : text ≠ []
  probability_valid : ∀ p ∈ probability, 0 ≤ p ∧ p ≤ 1

structure TranscriptionSegment where
  start : Seconds
  end_ : Seconds
  text : Text
  words : List WordTiming
  language : Option Text
  start_nonneg : 0 ≤ start
  start_lt_end : start < end_

structure TranscriptionResult where
  segments : List TranscriptionSegment
  language : Option Text

structure SpeakerTurn where
  start : Seconds
  end_ : Seconds
  speakerLabel : Text
  start_nonneg : 0 ≤ start
  start_lt_end : start < end_
  speaker_nonblank : ¬ Blank speakerLabel

structure DiarizationResult where
  exclusiveTurns : List SpeakerTurn
  regularTurns : List SpeakerTurn

def DiarizationResult.primaryTurns (d : DiarizationResult) : List SpeakerTurn :=
  if d.exclusiveTurns.isEmpty then d.regularTurns else d.exclusiveTurns

structure AnalysisResult where
  status : PipelineAnalysisStatus
  provider : Text
  model : Option Text
  schemaVersion : ℕ
  data : Option AnalysisResultV2
  errorCode : Option Text
  errorMessage : Option Text

structure SentenceTranslation where
  startSequence : ℤ
  endSequence : ℤ
  sourceJa : Text
  textZhHk : Text
deriving DecidableEq

structure TranslationResult where
  status : PipelineAnalysisStatus
  provider : Text
  model : Option Text
  translations : List SentenceTranslation
  errorCode : Option Text
  errorMessage : Option Text

structure PipelineResult where
  transcript : List MergedTranscriptSegment

end AudioServer.Processing.Contracts
