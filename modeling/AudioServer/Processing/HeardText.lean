import AudioServer.Processing.Conservation
import AudioServer.Processing.Transcription

/-! What the transcript says is what the recogniser said. -/

namespace AudioServer.Processing.HeardText

open AudioServer.Foundations.Correspondence AudioServer.Foundations.Outcomes
open AudioServer.Foundations.Sorting AudioServer.Foundations.Strings AudioServer.Api.Schemas
open AudioServer.Db.Models AudioServer.Processing.Conservation AudioServer.Processing.Contracts
open AudioServer.Processing.Merge AudioServer.Processing.ModelRuntime
open AudioServer.Processing.Transcription AudioServer.Processing.Utterances

section Said

def moment : Number → Seconds
  | .ok (.finite t) => t
  | _ => 0

def rawWordKey (word : RawWord) : Seconds ×ₗ Seconds :=
  toLex (word.start.elim 0 moment, word.end_.elim 0 moment)

def rawSegmentKey (segment : RawSegment) : Seconds ×ₗ Seconds :=
  toLex (moment segment.start, moment segment.end_)

def said (segment : RawSegment) : List RawWord :=
  segment.words.filter (fun word => word.start.isSome && word.end_.isSome && ¬ Blank word.word)

def saidText (segment : RawSegment) : Text :=
  if said segment = [] then segment.text
  else (sortedByIndex rawWordKey (said segment)).flatMap (·.word)

lemma words_read {raws : List RawWord} {words : List (Option WordTiming)}
    (h : List.Forall₂ WordRead raws words) :
    List.Forall₂ (fun raw timing => WordRead raw (some timing))
      (raws.filter (fun word => word.start.isSome && word.end_.isSome && ¬ Blank word.word))
      (words.reduceOption.filter (fun timing => ¬ Blank timing.text)) := by
  induction h with
  | nil => exact .nil
  | @cons raw converted raws words hread _ ih =>
    cases converted with
    | none =>
      rw [List.reduceOption_cons_of_none, List.filter_cons_of_neg]
      · exact ih
      · intro hsaid
        simp only [Bool.and_eq_true, decide_eq_true_eq] at hsaid
        exact hread ⟨hsaid.1.1, hsaid.1.2, nonblank_ne_nil hsaid.2⟩
    | some timing =>
      obtain ⟨hstart, hend, htext⟩ := hread
      rw [List.reduceOption_cons_of_some]
      by_cases hblank : Blank timing.text
      · rw [List.filter_cons_of_neg, List.filter_cons_of_neg]
        · exact ih
        · simpa using hblank
        · simp [htext, hblank]
      · rw [List.filter_cons_of_pos, List.filter_cons_of_pos]
        · exact .cons ⟨hstart, hend, htext⟩ ih
        · simpa using hblank
        · simp [hstart, hend, htext, hblank]

lemma segmentRead_said {language : Option Text} {segment : RawSegment}
    {converted : TranscriptionSegment} (h : SegmentRead language segment converted) :
    List.Forall₂ (fun raw timing => WordRead raw (some timing)) (said segment)
      (heardWords converted) := by
  obtain ⟨words, hwords, hkept⟩ := h.words
  rw [heardWords, hkept]
  exact words_read hwords

lemma wordRead_key {raw : RawWord} {timing : WordTiming} (h : WordRead raw (some timing)) :
    rawWordKey raw = wordKey timing := by
  rw [rawWordKey, h.1, h.2.1]
  rfl

lemma segmentRead_key {language : Option Text} {segment : RawSegment}
    {converted : TranscriptionSegment} (h : SegmentRead language segment converted) :
    rawSegmentKey segment = segmentKey converted := by
  rw [rawSegmentKey, h.start, h.end_]
  rfl

lemma segmentRead_text {language : Option Text} {segment : RawSegment}
    {converted : TranscriptionSegment} (h : SegmentRead language segment converted) :
    spokenText converted = saidText segment := by
  have hsaid := segmentRead_said h
  have hempty : heardWords converted = [] ↔ said segment = [] := by
    rw [← List.length_eq_zero_iff, ← List.length_eq_zero_iff, hsaid.length_eq]
  have htexts : (sortedByIndex rawWordKey (said segment)).map (·.word) =
      (spokenWords converted).map (·.text) :=
    paired_map (fun _ _ hread => hread.2.2) (sort_paired (fun _ _ hread => wordRead_key hread) hsaid)
  rw [spokenText, saidText, h.text, List.flatMap_def, List.flatMap_def, htexts]
  by_cases hnone : said segment = []
  · rw [if_pos hnone, if_pos (hempty.mpr hnone)]
  · rw [if_neg hnone, if_neg (fun hheard => hnone (hempty.mp hheard))]

end Said

section Transcribed

variable {provider : FasterWhisperProvider} {output : Except Text WhisperOutput}

lemma segments_error {language : Option Text} {segments : List RawSegment} {e : Exn}
    (h : segments.mapM (fun segment =>
      (convertSegment language segment).mapError (segmentFailure provider)) = .error e) :
    (∃ segment ∈ segments, ¬ segment.Readable) ∧
      (e = invalidResult ∨ ∃ description, e = runtimeFailure provider description) := by
  constructor
  · by_contra! hall
    have hconverts : ∀ segment ∈ segments, ∃ converted,
        (convertSegment language segment).mapError (segmentFailure provider) = .ok converted := by
      intro segment hsegment
      obtain ⟨converted, hconverted⟩ := convertSegment_succeeds language (hall segment hsegment)
      exact ⟨converted, mapError_ok.mpr hconverted⟩
    obtain ⟨converted, hconverted⟩ := mapM_succeeds hconverts
    rw [hconverted] at h
    cases h
  · obtain ⟨segment, hsegment⟩ := mapM_error h
    obtain ⟨raised, _, rfl⟩ := mapError_error hsegment
    rw [segmentFailure]
    split
    · exact .inl rfl
    · exact .inr ⟨raised.description, rfl⟩

lemma segments_read {language : Option Text} {segments : List RawSegment}
    {converted : List TranscriptionSegment}
    (h : segments.mapM (fun segment =>
      (convertSegment language segment).mapError (segmentFailure provider)) = .ok converted) :
    (∀ segment ∈ segments, segment.Readable) ∧
      List.Forall₂ (SegmentRead language) segments converted := by
  constructor
  · intro segment hsegment
    obtain ⟨_, _, hread⟩ := mapM_image h hsegment
    exact (convertSegment_read (mapError_ok.mp hread)).1
  · exact (mapM_paired h).imp (fun _ _ hread => (convertSegment_read (mapError_ok.mp hread)).2)

lemma transcribe_ok {result : TranscriptionResult} (h : transcribe provider output = .ok result) :
    ∃ heard, output = .ok heard ∧ heard.Readable ∧ result.language = optionalText heard.language ∧
      List.Forall₂ (SegmentRead result.language) heard.segments result.segments := by
  obtain ⟨heard, hheard, h⟩ := bind_ok h
  obtain ⟨segments, hsegments, h⟩ := bind_ok h
  obtain ⟨_, hstopped, h⟩ := bind_ok h
  obtain ⟨p, hp, h⟩ := bind_ok h
  obtain ⟨q, hq, h⟩ := bind_ok h
  cases h
  obtain ⟨hreadable, hread⟩ := segments_read hsegments
  refine ⟨heard, mapError_ok.mp hheard, ⟨hreadable, ?_, ?_⟩, rfl, hread⟩
  · cases hnone : heard.stopped with
    | none => rfl
    | some description =>
      rw [hnone] at hstopped
      cases hstopped
  · exact probable_iff.mpr ⟨p, mapError_ok.mp hp, q, mapError_ok.mp hq⟩

inductive Refused (provider : FasterWhisperProvider) (output : Except Text WhisperOutput) : Exn → Prop
  | raised {description : Text} (h : output = .error description) :
    Refused provider output (runtimeFailure provider description)
  | segment {heard : WhisperOutput} {segment : RawSegment} {e : Exn} (h : output = .ok heard)
    (hsegment : segment ∈ heard.segments) (hread : ¬ segment.Readable)
    (he : e = invalidResult ∨ ∃ description, e = runtimeFailure provider description) :
    Refused provider output e
  | stopped {heard : WhisperOutput} {description : Text} (h : output = .ok heard)
    (hsegments : ∀ segment ∈ heard.segments, segment.Readable)
    (hstopped : heard.stopped = some description) :
    Refused provider output (runtimeFailure provider description)
  | probability {heard : WhisperOutput} {description : Text} (h : output = .ok heard)
    (hsegments : ∀ segment ∈ heard.segments, segment.Readable) (hstopped : heard.stopped = none)
    (hprobability : ¬ Probable heard.languageProbability) :
    Refused provider output (runtimeFailure provider description)

lemma iterated_ok {stopped : Option Text} {u : Unit} (h : iterated provider stopped = .ok u) :
    stopped = none := by
  cases stopped with
  | none => rfl
  | some description => cases h

lemma transcribe_error {e : Exn} (h : transcribe provider output = .error e) :
    Refused provider output e := by
  rcases bind_error h with h | ⟨heard, hheard, h⟩
  · obtain ⟨description, hraised, rfl⟩ := mapError_error h
    exact .raised hraised
  have hheard := mapError_ok.mp hheard
  rcases bind_error h with h | ⟨segments, hsegments, h⟩
  · obtain ⟨⟨segment, hsegment, hread⟩, he⟩ := segments_error h
    exact .segment hheard hsegment hread he
  have hreadable := (segments_read hsegments).1
  rcases bind_error h with h | ⟨_, hstopped, h⟩
  · cases hdescription : heard.stopped with
    | none =>
      rw [hdescription] at h
      cases h
    | some description =>
      rw [hdescription] at h
      cases h
      exact .stopped hheard hreadable hdescription
  have hstopped := iterated_ok hstopped
  rcases bind_error h with h | ⟨p, hp, h⟩
  · obtain ⟨raised, hraised, rfl⟩ := mapError_error h
    refine .probability hheard hreadable hstopped ?_
    intro hprobable
    obtain ⟨p, hp, _⟩ := probable_iff.mp hprobable
    rw [hraised] at hp
    cases hp
  rcases bind_error h with h | ⟨_, _, h⟩
  · obtain ⟨raised, hraised, rfl⟩ := mapError_error h
    refine .probability hheard hreadable hstopped ?_
    intro hprobable
    obtain ⟨q, hq, hvalid⟩ := probable_iff.mp hprobable
    rw [mapError_ok.mp hp] at hq
    cases hq
    obtain ⟨_, hvalid⟩ := hvalid
    rw [hraised] at hvalid
    cases hvalid
  · cases h

theorem transcript_says_what_was_heard (provider : FasterWhisperProvider)
    (merger : TimestampTranscriptMerger) (output : Except Text WhisperOutput)
    (diarization : Except Exn DiarizationResult) :
    match pipelineRun merger (transcribe provider output) diarization with
    | .ok result => ∃ heard, output = .ok heard ∧ heard.Readable ∧ Numbered result.transcript ∧
        ∃ parts : List (List MergedTranscriptSegment), result.transcript = parts.flatten ∧
          List.Forall₂ (fun segment part =>
              visible (part.flatMap (·.text)) = visible (saidText segment))
            (sortedByIndex rawSegmentKey heard.segments) parts
    | .error e => Refused provider output e ∨
        (∃ heard, output = .ok heard ∧ heard.Readable) ∧ diarization = .error e := by
  rw [pipelineRun]
  cases htranscribed : transcribe provider output with
  | error e => exact .inl (transcribe_error htranscribed)
  | ok result =>
    obtain ⟨heard, hheard, hreadable, _, hread⟩ := transcribe_ok htranscribed
    cases diarization with
    | error e => exact .inr ⟨⟨heard, hheard, hreadable⟩, rfl⟩
    | ok d =>
      obtain ⟨parts, hmerge, hnumbered, hparts⟩ := merge_conserves merger result d
      rw [ok_bind, ok_bind, hmerge]
      refine ⟨heard, hheard, hreadable, hnumbered, parts, rfl, ?_⟩
      have hsorted := sort_paired (fun _ _ hsegment => segmentRead_key hsegment) hread
      refine paired_trans hsorted hparts ?_
      intro segment converted part hsegment hconserved
      rw [hconserved.text, segmentRead_text hsegment]

end Transcribed

end AudioServer.Processing.HeardText
