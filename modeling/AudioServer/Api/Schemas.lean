import AudioServer.Foundations.Strings
import Mathlib.Algebra.Order.Field.Rat

/-! The structured analysis contract and the request bodies of the editors. -/

namespace AudioServer.Api.Schemas

open AudioServer.Foundations.Strings

abbrev Seconds := ℚ

structure BilingualDescription where
  ja : Text
  zhHk : Text
deriving DecidableEq

structure BilingualTag where
  ja : Text
  zhHk : Text
deriving DecidableEq

/-- A natural expression or a highlight. The note is `usage_ja` and
`usage_zh_hk` for the first, `reason_ja` and `reason_zh_hk` for the second. -/
structure AnalysisQuote where
  segmentSequence : ℤ
  startTime : Seconds
  endTime : Option Seconds
  speakerLabel : Text
  originalJa : Text
  translationZhHk : Text
  noteJa : Text
  noteZhHk : Text
deriving DecidableEq

structure AnalysisResultV2 where
  description : BilingualDescription
  summary : Option BilingualDescription
  tags : List BilingualTag
  naturalExpressions : List AnalysisQuote
  highlights : List AnalysisQuote
deriving DecidableEq

def AnalysisResultV2.quotes (r : AnalysisResultV2) : List AnalysisQuote :=
  r.naturalExpressions ++ r.highlights

abbrev Sized (bound : ℕ) (s : Text) : Prop := 1 ≤ s.length ∧ s.length ≤ bound

lemma sized_strip {bound : ℕ} {s : Text} (h : Sized bound s) : Sized bound (strip s) ↔ ¬ Blank s := by
  have hle := strip_length_le s
  rw [Blank, ← List.length_eq_zero_iff]
  constructor
  · rintro ⟨hpos, _⟩
    omega
  · intro hne
    exact ⟨by omega, hle.trans h.2⟩

def BilingualDescription.Valid (d : BilingualDescription) : Prop :=
  Sized 4000 d.ja ∧ Sized 4000 d.zhHk

def BilingualTag.Valid (t : BilingualTag) : Prop :=
  Sized 80 t.ja ∧ Sized 80 t.zhHk

def AnalysisQuote.Valid (q : AnalysisQuote) : Prop :=
  0 ≤ q.segmentSequence ∧ 0 ≤ q.startTime ∧ (∀ e ∈ q.endTime, 0 < e) ∧ Sized 64 q.speakerLabel ∧
    Sized 1000 q.originalJa ∧ Sized 1000 q.translationZhHk ∧ Sized 2000 q.noteJa ∧
    Sized 2000 q.noteZhHk

def AnalysisResultV2.Valid (r : AnalysisResultV2) : Prop :=
  r.description.Valid ∧ (∀ s ∈ r.summary, s.Valid) ∧
    (r.tags.length ≤ 12 ∧ ∀ t ∈ r.tags, t.Valid) ∧
    (r.naturalExpressions.length ≤ 20 ∧ ∀ q ∈ r.naturalExpressions, q.Valid) ∧
    (r.highlights.length ≤ 12 ∧ ∀ q ∈ r.highlights, q.Valid)

instance (d : BilingualDescription) : Decidable d.Valid := inferInstanceAs (Decidable (_ ∧ _))
instance (t : BilingualTag) : Decidable t.Valid := inferInstanceAs (Decidable (_ ∧ _))
instance (q : AnalysisQuote) : Decidable q.Valid := inferInstanceAs (Decidable (_ ∧ _))
instance (r : AnalysisResultV2) : Decidable r.Valid := inferInstanceAs (Decidable (_ ∧ _))

structure DailyKeyPoint where
  recordingId : ℕ
  ja : Text
  zhHk : Text
deriving DecidableEq

structure DailySummaryResultV1 where
  overview : BilingualDescription
  keyPoints : List DailyKeyPoint
  tags : List BilingualTag
deriving DecidableEq

def DailyKeyPoint.Valid (p : DailyKeyPoint) : Prop := Sized 1000 p.ja ∧ Sized 1000 p.zhHk

def DailySummaryResultV1.Valid (r : DailySummaryResultV1) : Prop :=
  r.overview.Valid ∧ (r.keyPoints.length ≤ 10 ∧ ∀ p ∈ r.keyPoints, p.Valid) ∧
    (r.tags.length ≤ 12 ∧ ∀ t ∈ r.tags, t.Valid)

instance (p : DailyKeyPoint) : Decidable p.Valid := inferInstanceAs (Decidable (_ ∧ _))
instance (r : DailySummaryResultV1) : Decidable r.Valid := inferInstanceAs (Decidable (_ ∧ _))

structure TranscriptSegmentUpdate where
  id : ℕ
  speakerLabel : Text
  startTime : Seconds
  endTime : Seconds
  text : Text
  start_nonneg : 0 ≤ startTime
  end_after_start : startTime < endTime
  speaker_stripped : strip speakerLabel = speakerLabel
  speaker_sized : Sized 64 speakerLabel
  text_stripped : strip text = text
  text_sized : Sized 100000 text

structure TranslationUpdate where
  startSegmentId : ℕ
  textZhHk : Text
  text_stripped : strip textZhHk = textZhHk
  text_sized : Sized 4000 textZhHk

end AudioServer.Api.Schemas
