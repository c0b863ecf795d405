import AudioServer.Foundations.Outcomes
import AudioServer.Processing.Contracts
import AudioServer.Processing.ModelRuntime
import Mathlib.Data.List.ReduceOption

/-! What faster-whisper hands over, read into the pipeline's own values. -/

namespace AudioServer.Processing.Transcription

open AudioServer.Foundations.Outcomes AudioServer.Foundations.Strings AudioServer.Api.Schemas
open AudioServer.Db.Models AudioServer.Processing.Contracts AudioServer.Processing.ModelRuntime

/-- An exception by what catches it: `unreadable` is an `AttributeError`, a `TypeError` or a
`ValueError`. -/
structure Raised where
  unreadable : Bool
  description : Text

def valueError (message : String) : Raised := ⟨true, message.toList⟩

/-- An attribute, as `float` reads it. -/
abbrev Number := Except Raised PyFloat

structure RawWord where
  start : Option Number
  end_ : Option Number
  word : Text
  probability : Option Number

structure RawSegment where
  start : Number
  end_ : Number
  text : Text
  words : List RawWord
  avgLogprob : Option Number
  noSpeechProb : Option Number

/-- `stopped` is the exception that ended the iteration over the segments, if one did. -/
structure WhisperOutput where
  segments : List RawSegment
  stopped : Option Text
  language : Option Text
  languageProbability : Option Number

/-- `lower` is `str.lower`. -/
structure FasterWhisperProvider where
  lower : Text → Text

def optionalFloat : Option Number → Except Raised (Option PyFloat)
  | none => .ok none
  | some value => value.map some

def optionalText (value : Option Text) : Option Text :=
  value.bind (fun value => if strip value = [] then none else some (strip value))

def validateInterval (start end_ : PyFloat) (allowEmpty : Bool) :
    Except Raised {t : Seconds × Seconds // 0 ≤ t.1 ∧ t.1 ≤ t.2 ∧ (allowEmpty ∨ t.1 ≠ t.2)} :=
  match start, end_ with
  | .finite start, .finite end_ =>
    if h₁ : 0 ≤ start then
      if h₂ : start ≤ end_ ∧ (allowEmpty ∨ start ≠ end_) then .ok ⟨(start, end_), h₁, h₂⟩
      else .error (valueError "end timestamp must be after start timestamp")
    else .error (valueError "timestamps cannot be negative")
  | _, _ => .error (valueError "timestamps must be finite")

lemma none_probable : ∀ c ∈ (none : Option ℚ), 0 ≤ c ∧ c ≤ 1 :=
  fun _ hc => absurd hc (Option.not_mem_none _)

lemma some_probable {p : ℚ} (h : 0 ≤ p ∧ p ≤ 1) : ∀ c ∈ some p, 0 ≤ c ∧ c ≤ 1 :=
  fun _ hc => Option.some.inj hc ▸ h

def validateProbability :
    Option PyFloat → Except Raised {p : Option ℚ // ∀ c ∈ p, 0 ≤ c ∧ c ≤ 1}
  | none => .ok ⟨none, none_probable⟩
  | some (.finite p) =>
    if h : 0 ≤ p ∧ p ≤ 1 then .ok ⟨some p, some_probable h⟩
    else .error (valueError "probability must be between zero and one")
  | some _ => .error (valueError "probability must be between zero and one")

def wordTiming (start end_ : PyFloat) (text : Text) (probability : Option PyFloat) :
    Except Raised WordTiming := do
  let times ← validateInterval start end_ true
  if h : text ≠ [] then
    let probability ← validateProbability probability
    .ok ⟨times.1.1, times.1.2, text, probability.1, times.2.1, times.2.2.1, h, probability.2⟩
  else .error (valueError "word text cannot be empty")

def Finite : Option PyFloat → Bool
  | none | some (.finite _) => true
  | some _ => false

def transcriptionSegment (start end_ : PyFloat) (text : Text) (words : List WordTiming)
    (language : Option Text) (averageLogProbability noSpeechProbability : Option PyFloat) :
    Except Raised TranscriptionSegment := do
  let times ← validateInterval start end_ false
  let _ ← validateProbability noSpeechProbability
  require (Finite averageLogProbability) (valueError "average log probability must be finite")
  .ok ⟨times.1.1, times.1.2, text, words, language, times.2.1,
    lt_of_le_of_ne times.2.2.1 (times.2.2.2.resolve_left Bool.false_ne_true)⟩

def convertWord (word : RawWord) : Except Raised (Option WordTiming) :=
  match word.start, word.end_ with
  | some start, some end_ =>
    if word.word = [] then .ok none
    else do
      let start ← start
      let end_ ← end_
      let probability ← optionalFloat word.probability
      let timing ← wordTiming start end_ word.word probability
      .ok (some timing)
  | _, _ => .ok none

def convertSegment (language : Option Text) (segment : RawSegment) :
    Except Raised TranscriptionSegment := do
  let words ← segment.words.mapM convertWord
  let start ← segment.start
  let end_ ← segment.end_
  let averageLogProbability ← optionalFloat segment.avgLogprob
  let noSpeechProbability ← optionalFloat segment.noSpeechProb
  transcriptionSegment start end_ segment.text words.reduceOption language averageLogProbability
    noSpeechProbability

def invalidResult : Exn :=
  .processing "transcription_invalid_result"
    "The transcription provider returned invalid timestamps." false

section Provider

variable (provider : FasterWhisperProvider)

def runtimeFailure (description : Text) : Exn :=
  runtimeFailureOf provider.lower "The transcription device ran out of memory and may be retried."
    "transcription_failed" "Transcription failed and may be retried." description

def uncaught (raised : Raised) : Exn := runtimeFailure provider raised.description

def segmentFailure (raised : Raised) : Exn :=
  if raised.unreadable then invalidResult else uncaught provider raised

def iterated : Option Text → Except Exn Unit
  | none => .ok ()
  | some description => .error (runtimeFailure provider description)

/-- `transcribe`, once the model has returned or raised. -/
def transcribe (output : Except Text WhisperOutput) : Except Exn TranscriptionResult := do
  let output ← output.mapError (runtimeFailure provider)
  let language := optionalText output.language
  let segments ← output.segments.mapM
    (fun segment => (convertSegment language segment).mapError (segmentFailure provider))
  iterated provider output.stopped
  let languageProbability ← (optionalFloat output.languageProbability).mapError (uncaught provider)
  let _ ← (validateProbability languageProbability).mapError (uncaught provider)
  .ok ⟨segments, language⟩

end Provider

section Reading

def Timed (start end_ : Number) (allowEmpty : Bool) : Prop :=
  ∃ s e : ℚ, start = .ok (.finite s) ∧ end_ = .ok (.finite e) ∧ 0 ≤ s ∧ s ≤ e ∧ (allowEmpty ∨ s ≠ e)

def Probable (probability : Option Number) : Prop :=
  ∀ n ∈ probability, ∃ p : ℚ, n = .ok (.finite p) ∧ 0 ≤ p ∧ p ≤ 1

structure RawWord.Readable (word : RawWord) : Prop where
  times : ∀ start ∈ word.start, ∀ end_ ∈ word.end_, word.word ≠ [] → Timed start end_ true
  probability : word.start.isSome → word.end_.isSome → word.word ≠ [] → Probable word.probability

structure RawSegment.Readable (segment : RawSegment) : Prop where
  words : ∀ word ∈ segment.words, word.Readable
  times : Timed segment.start segment.end_ false
  avgLogprob : ∀ n ∈ segment.avgLogprob, ∃ q : ℚ, n = .ok (.finite q)
  noSpeechProb : Probable segment.noSpeechProb

structure WhisperOutput.Readable (output : WhisperOutput) : Prop where
  segments : ∀ segment ∈ output.segments, segment.Readable
  stopped : output.stopped = none
  languageProbability : Probable output.languageProbability

lemma validateInterval_ok {start end_ : PyFloat} {allowEmpty : Bool}
    {t : {t : Seconds × Seconds // 0 ≤ t.1 ∧ t.1 ≤ t.2 ∧ (allowEmpty ∨ t.1 ≠ t.2)}} :
    validateInterval start end_ allowEmpty = .ok t ↔
      start = .finite t.1.1 ∧ end_ = .finite t.1.2 := by
  constructor
  · intro h
    unfold validateInterval at h
    split at h
    · split at h
      · split at h
        · cases h
          exact ⟨rfl, rfl⟩
        · cases h
      · cases h
    · cases h
  · rintro ⟨rfl, rfl⟩
    have h := t.2
    rw [validateInterval, dif_pos h.1, dif_pos h.2]

lemma validateProbability_ok {p : Option PyFloat} :
    (∃ q, validateProbability p = .ok q) ↔ ∀ n ∈ p, ∃ q : ℚ, n = .finite q ∧ 0 ≤ q ∧ q ≤ 1 := by
  cases p with
  | none => exact ⟨fun _ => nofun, fun _ => ⟨_, rfl⟩⟩
  | some n =>
    simp only [Option.mem_some_iff, forall_eq']
    constructor
    · rintro ⟨q, h⟩
      unfold validateProbability at h
      split at h
      · rename_i hnone
        cases hnone
      · rename_i q hq
        cases hq
        split at h
        · rename_i hrange
          exact ⟨_, rfl, hrange⟩
        · cases h
      · cases h
    · rintro ⟨q, rfl, hrange⟩
      exact ⟨_, dif_pos hrange⟩

lemma optionalFloat_ok {value : Option Number} {p : Option PyFloat} :
    optionalFloat value = .ok p ↔ value = p.map .ok := by
  rcases value with _ | _ | v <;> cases p <;> simp [optionalFloat, Except.map]

lemma probable_iff {value : Option Number} : Probable value ↔
    ∃ p, optionalFloat value = .ok p ∧ ∃ q, validateProbability p = .ok q := by
  simp only [optionalFloat_ok, validateProbability_ok]
  constructor
  · intro h
    cases value with
    | none => exact ⟨none, rfl, nofun⟩
    | some n =>
      obtain ⟨q, rfl, hrange⟩ := h n rfl
      exact ⟨some (.finite q), rfl, by rintro _ ⟨⟩; exact ⟨q, rfl, hrange⟩⟩
  · rintro ⟨p, rfl, h⟩ n hn
    obtain ⟨v, hv, rfl⟩ := Option.map_eq_some_iff.mp hn
    obtain ⟨q, rfl, hrange⟩ := h v hv
    exact ⟨q, rfl, hrange⟩

def WordRead (word : RawWord) : Option WordTiming → Prop
  | some timing => word.start = some (.ok (.finite timing.start)) ∧
      word.end_ = some (.ok (.finite timing.end_)) ∧ word.word = timing.text
  | none => ¬ (word.start.isSome ∧ word.end_.isSome ∧ word.word ≠ [])

lemma wordTiming_ok {start end_ : PyFloat} {text : Text} {p : Option PyFloat} {timing : WordTiming}
    (h : wordTiming start end_ text p = .ok timing) :
    start = .finite timing.start ∧ end_ = .finite timing.end_ ∧ text = timing.text ∧
      ∃ q, validateProbability p = .ok q := by
  obtain ⟨times, htimes, h⟩ := bind_ok h
  split at h
  · obtain ⟨q, hq, h⟩ := bind_ok h
    obtain ⟨hstart, hend⟩ := validateInterval_ok.mp htimes
    cases h
    exact ⟨hstart, hend, rfl, q, hq⟩
  · cases h

lemma wordTiming_succeeds {s e : ℚ} {text : Text} {p : Option PyFloat} (hs : 0 ≤ s) (he : s ≤ e)
    (htext : text ≠ []) (hp : ∃ q, validateProbability p = .ok q) :
    ∃ timing, wordTiming (.finite s) (.finite e) text p = .ok timing := by
  obtain ⟨q, hq⟩ := hp
  have htimes : validateInterval (.finite s) (.finite e) true = .ok ⟨(s, e), hs, he, .inl rfl⟩ :=
    validateInterval_ok.mpr ⟨rfl, rfl⟩
  rw [wordTiming, htimes, ok_bind, dif_pos htext, hq]
  exact ⟨_, rfl⟩

lemma convertWord_read {word : RawWord} {converted : Option WordTiming}
    (h : convertWord word = .ok converted) : word.Readable ∧ WordRead word converted := by
  unfold convertWord at h
  split at h
  · rename_i start end_ hstart hend
    split at h
    · rename_i hempty
      cases h
      exact ⟨⟨fun _ _ _ _ hne => absurd hempty hne, fun _ _ hne => absurd hempty hne⟩,
        fun hall => hall.2.2 hempty⟩
    · obtain ⟨s, hs, h⟩ := bind_ok h
      obtain ⟨e, he, h⟩ := bind_ok h
      obtain ⟨p, hp, h⟩ := bind_ok h
      obtain ⟨timing, htiming, h⟩ := bind_ok h
      cases h
      obtain ⟨rfl, rfl, htext, hq⟩ := wordTiming_ok htiming
      subst hs he
      refine ⟨⟨?_, fun _ _ _ => probable_iff.mpr ⟨p, hp, hq⟩⟩, hstart, hend, htext⟩
      intro start hmem end_ hmem' _
      rw [hstart] at hmem
      rw [hend] at hmem'
      cases hmem
      cases hmem'
      exact ⟨timing.start, timing.end_, rfl, rfl, timing.start_nonneg, timing.start_le_end, .inl rfl⟩
  · rename_i hnone
    cases h
    have huntimed : ¬ (word.start.isSome ∧ word.end_.isSome) := by
      rintro ⟨hstart, hend⟩
      obtain ⟨start, hstart⟩ := Option.isSome_iff_exists.mp hstart
      obtain ⟨end_, hend⟩ := Option.isSome_iff_exists.mp hend
      exact hnone start end_ hstart hend
    refine ⟨⟨?_, fun hstart hend _ => absurd ⟨hstart, hend⟩ huntimed⟩,
      fun hall => huntimed ⟨hall.1, hall.2.1⟩⟩
    intro start hstart end_ hend
    exact absurd ⟨Option.isSome_of_mem hstart, Option.isSome_of_mem hend⟩ huntimed

lemma convertWord_succeeds {word : RawWord} (h : word.Readable) :
    ∃ converted, convertWord word = .ok converted := by
  unfold convertWord
  split
  · rename_i start end_ hstart hend
    split
    · exact ⟨_, rfl⟩
    · rename_i hword
      obtain ⟨s, e, rfl, rfl, hs, he, _⟩ := h.times start hstart end_ hend hword
      have hprobable := h.probability (Option.isSome_of_mem hstart) (Option.isSome_of_mem hend) hword
      obtain ⟨p, hp, hq⟩ := probable_iff.mp hprobable
      obtain ⟨timing, htiming⟩ := wordTiming_succeeds hs he hword hq
      rw [ok_bind, ok_bind, hp, ok_bind, htiming]
      exact ⟨_, rfl⟩
  · exact ⟨_, rfl⟩

lemma finite_iff {value : Option Number} :
    (∀ n ∈ value, ∃ q : ℚ, n = .ok (.finite q)) ↔
      ∃ p, optionalFloat value = .ok p ∧ Finite p := by
  simp only [optionalFloat_ok]
  constructor
  · intro h
    cases value with
    | none => exact ⟨none, rfl, rfl⟩
    | some n =>
      obtain ⟨q, rfl⟩ := h n rfl
      exact ⟨some (.finite q), rfl, rfl⟩
  · rintro ⟨p, rfl, h⟩ n hn
    obtain ⟨v, rfl, rfl⟩ := Option.map_eq_some_iff.mp hn
    cases v with
    | finite q => exact ⟨q, rfl⟩
    | _ => cases h

structure SegmentRead (language : Option Text) (segment : RawSegment)
    (converted : TranscriptionSegment) : Prop where
  start : segment.start = .ok (.finite converted.start)
  end_ : segment.end_ = .ok (.finite converted.end_)
  text : segment.text = converted.text
  language : converted.language = language
  words : ∃ words, List.Forall₂ WordRead segment.words words ∧ converted.words = words.reduceOption

lemma transcriptionSegment_ok {start end_ : PyFloat} {text : Text} {words : List WordTiming}
    {language : Option Text} {average noSpeech : Option PyFloat} {segment : TranscriptionSegment}
    (h : transcriptionSegment start end_ text words language average noSpeech = .ok segment) :
    start = .finite segment.start ∧ end_ = .finite segment.end_ ∧ text = segment.text ∧
      segment.words = words ∧ segment.language = language ∧ Finite average ∧
      ∃ q, validateProbability noSpeech = .ok q := by
  obtain ⟨times, htimes, h⟩ := bind_ok h
  obtain ⟨q, hq, h⟩ := bind_ok h
  obtain ⟨_, hfinite, h⟩ := bind_ok h
  obtain ⟨hstart, hend⟩ := validateInterval_ok.mp htimes
  cases h
  exact ⟨hstart, hend, rfl, rfl, rfl, require_ok.mp hfinite, q, hq⟩

lemma convertSegment_read {language : Option Text} {segment : RawSegment}
    {converted : TranscriptionSegment} (h : convertSegment language segment = .ok converted) :
    segment.Readable ∧ SegmentRead language segment converted := by
  obtain ⟨words, hwords, h⟩ := bind_ok h
  obtain ⟨s, hs, h⟩ := bind_ok h
  obtain ⟨e, he, h⟩ := bind_ok h
  obtain ⟨a, ha, h⟩ := bind_ok h
  obtain ⟨n, hn, h⟩ := bind_ok h
  obtain ⟨rfl, rfl, htext, hkept, hlanguage, hfinite, hq⟩ := transcriptionSegment_ok h
  refine ⟨⟨?_, ⟨converted.start, converted.end_, hs, he, converted.start_nonneg,
    converted.start_lt_end.le, .inr converted.start_lt_end.ne⟩, finite_iff.mpr ⟨a, ha, hfinite⟩,
    probable_iff.mpr ⟨n, hn, hq⟩⟩, hs, he, htext, hlanguage, words, ?_, hkept⟩
  · intro word hword
    obtain ⟨_, _, hread⟩ := mapM_image hwords hword
    exact (convertWord_read hread).1
  · exact (mapM_paired hwords).imp (fun _ _ hread => (convertWord_read hread).2)

lemma convertSegment_succeeds (language : Option Text) {segment : RawSegment}
    (h : segment.Readable) : ∃ converted, convertSegment language segment = .ok converted := by
  obtain ⟨words, hwords⟩ := mapM_succeeds (fun word hword => convertWord_succeeds (h.words word hword))
  obtain ⟨s, e, hs, he, hzero, hle, hne⟩ := h.times
  obtain ⟨a, ha, hfinite⟩ := finite_iff.mp h.avgLogprob
  obtain ⟨n, hn, q, hq⟩ := probable_iff.mp h.noSpeechProb
  have htimes : validateInterval (.finite s) (.finite e) false = .ok ⟨(s, e), hzero, hle, hne⟩ :=
    validateInterval_ok.mpr ⟨rfl, rfl⟩
  rw [convertSegment, hwords, ok_bind, hs, ok_bind, he, ok_bind, ha, ok_bind, hn, ok_bind,
    transcriptionSegment, htimes, ok_bind, hq, ok_bind, require_of hfinite]
  exact ⟨_, rfl⟩

end Reading

end AudioServer.Processing.Transcription
