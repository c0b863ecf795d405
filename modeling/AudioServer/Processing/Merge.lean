import AudioServer.Processing.Sentences
import Mathlib.Data.List.Sort

/-! Deterministic reconciliation of Whisper and diarization timelines. -/

namespace AudioServer.Processing.Merge

open AudioServer.Foundations.Outcomes AudioServer.Foundations.Strings AudioServer.Api.Schemas
open AudioServer.Db.Models AudioServer.Processing.Contracts AudioServer.Processing.Sentences

def unknownSpeaker : Text := "SPEAKER_UNKNOWN".toList

structure AssignedWord where
  word : WordTiming
  speakerLabel : Text
  hasOverlap : Bool

/-- `isAlnum` is `str.isalnum` on one code point. -/
structure TimestampTranscriptMerger where
  nearestTurnSeconds : Seconds
  isAlnum : Char → Bool
  tolerance_nonneg : 0 ≤ nearestTurnSeconds

def TurnOrder (a b : SpeakerTurn) : Prop :=
  a.start < b.start ∨ (a.start = b.start ∧
    (a.end_ < b.end_ ∨ (a.end_ = b.end_ ∧ ¬ b.speakerLabel < a.speakerLabel)))

instance : DecidableRel TurnOrder := fun _ _ => inferInstanceAs (Decidable (_ ∨ _))

def overlap (firstStart firstEnd secondStart secondEnd : Seconds) : Seconds :=
  max 0 (min firstEnd secondEnd - max firstStart secondStart)

def contains (turn : SpeakerTurn) (timestamp : Seconds) : Bool :=
  turn.start ≤ timestamp && timestamp ≤ turn.end_

def distanceToInterval (start end_ : Seconds) (turn : SpeakerTurn) : Seconds :=
  if turn.end_ < start then start - turn.end_
  else if end_ < turn.start then turn.start - end_
  else 0

def OverlapOrder (start end_ : Seconds) (a b : SpeakerTurn) : Prop :=
  let shared (t : SpeakerTurn) := overlap start end_ t.start t.end_
  let inside (t : SpeakerTurn) := contains t ((start + end_) / 2)
  shared b < shared a ∨ (shared a = shared b ∧
    ((inside a ∧ ¬ inside b) ∨ (inside a = inside b ∧ TurnOrder a b)))

instance (start end_ : Seconds) : DecidableRel (OverlapOrder start end_) :=
  fun _ _ => inferInstanceAs (Decidable (_ ∨ _))

def DistanceOrder (start end_ : Seconds) (a b : SpeakerTurn) : Prop :=
  distanceToInterval start end_ a < distanceToInterval start end_ b ∨
    (distanceToInterval start end_ a = distanceToInterval start end_ b ∧ TurnOrder a b)

instance (start end_ : Seconds) : DecidableRel (DistanceOrder start end_) :=
  fun _ _ => inferInstanceAs (Decidable (_ ∨ _))

def chooseSpeaker (start end_ : Seconds) (turns : List SpeakerTurn) (nearestTurnSeconds : Seconds) :
    Text :=
  let positive := turns.filter (fun t => 0 < overlap start end_ t.start t.end_)
  let containing := turns.filter (contains · ((start + end_) / 2))
  match (positive.insertionSort (OverlapOrder start end_)).head?,
    (containing.insertionSort TurnOrder).head?,
    (turns.insertionSort (DistanceOrder start end_)).head? with
  | some turn, _, _ => turn.speakerLabel
  | none, some turn, _ => turn.speakerLabel
  | none, none, some turn =>
    if distanceToInterval start end_ turn ≤ nearestTurnSeconds then turn.speakerLabel
    else unknownSpeaker
  | none, none, none => unknownSpeaker

def hasSimultaneousSpeech (start end_ : Seconds) (regularTurns : List SpeakerTurn) : Bool :=
  if end_ = start then
    let labels := (regularTurns.filter (contains · start)).map (·.speakerLabel)
    1 < labels.dedup.length
  else
    let relevant := regularTurns.filter (fun t => 0 < overlap start end_ t.start t.end_)
    relevant.tails.any (fun rest =>
      match rest with
      | [] => false
      | first :: others => others.any (fun second =>
          first.speakerLabel ≠ second.speakerLabel ∧
            max start (max first.start second.start) < min end_ (min first.end_ second.end_)))

def isPunctuationOnly (isAlnum : Char → Bool) (text : Text) : Bool :=
  let stripped := strip text
  !stripped.isEmpty && !stripped.any isAlnum

def isAsciiAlnum (c : Char) : Bool := c.toNat < 128 && c.isAlphanum

def needsAsciiSeparator (existing nextText : Text) : Bool :=
  match existing.getLast?, nextText.head? with
  | some left, some right =>
    !isSpace left && !isSpace right && isAsciiAlnum left && isAsciiAlnum right
  | _, _ => false

def joinWordText (words : List AssignedWord) : Text :=
  words.foldl (fun text item =>
    (if needsAsciiSeparator text item.word.text then text ++ [' '] else text) ++ item.word.text) []

def TimestampTranscriptMerger.assignWords (merger : TimestampTranscriptMerger)
    (words : List WordTiming) (primaryTurns regularTurns : List SpeakerTurn) : List AssignedWord :=
  (words.insertionSort (fun a b => a.start < b.start ∨ (a.start = b.start ∧ a.end_ ≤ b.end_))).foldl
    (fun assigned word =>
      let own : AssignedWord := ⟨word,
        chooseSpeaker word.start word.end_ primaryTurns merger.nearestTurnSeconds,
        hasSimultaneousSpeech word.start word.end_ regularTurns⟩
      let next := match isPunctuationOnly merger.isAlnum word.text, assigned.getLast? with
        | true, some previous => ⟨word, previous.speakerLabel, previous.hasOverlap⟩
        | _, _ => own
      assigned ++ [next]) []

def groupBySpeaker (assigned : List AssignedWord) : List (List AssignedWord) :=
  assigned.splitBy (fun a b => a.speakerLabel = b.speakerLabel)

def fmean (values : List ℚ) : Option ℚ :=
  if values = [] then none else some (values.sum / values.length)

/-- `segment.language or transcription.language`: an empty name counts as none. -/
def languageOf (segment : TranscriptionSegment) (transcription : TranscriptionResult) : Option Text :=
  match segment.language with
  | some (c :: cs) => some (c :: cs)
  | _ => transcription.language

def mergeGroup (language : Option Text) (merged : List MergedTranscriptSegment)
    (group : List AssignedWord) : Except Exn (List MergedTranscriptSegment) :=
  let text := strip (joinWordText group)
  match group with
  | [] => .ok merged
  | first :: rest =>
    if text = [] then .ok merged
    else do
      let segment ← MergedTranscriptSegment.make merged.length first.speakerLabel
        (rest.foldl (fun s item => min s item.word.start) first.word.start)
        (rest.foldl (fun e item => max e item.word.end_) first.word.end_)
        text language (fmean ((first :: rest).filterMap (·.word.probability)))
        ((first :: rest).any (·.hasOverlap))
      .ok (merged ++ [segment])

def TimestampTranscriptMerger.mergeSegment (merger : TimestampTranscriptMerger)
    (transcription : TranscriptionResult) (primaryTurns regularTurns : List SpeakerTurn)
    (merged : List MergedTranscriptSegment) (segment : TranscriptionSegment) :
    Except Exn (List MergedTranscriptSegment) :=
  let language := languageOf segment transcription
  let words := segment.words.filter (fun w => ¬ Blank w.text)
  if words ≠ [] then
    (groupBySpeaker (merger.assignWords words primaryTurns regularTurns)).foldlM
      (mergeGroup language) merged
  else
    let text := strip segment.text
    if text = [] then .ok merged
    else do
      let segment ← MergedTranscriptSegment.make merged.length
        (chooseSpeaker segment.start segment.end_ primaryTurns merger.nearestTurnSeconds)
        segment.start segment.end_ text language none
        (hasSimultaneousSpeech segment.start segment.end_ regularTurns)
      .ok (merged ++ [segment])

def TimestampTranscriptMerger.merge (merger : TimestampTranscriptMerger)
    (transcription : TranscriptionResult) (diarization : DiarizationResult) :
    Except Exn (List MergedTranscriptSegment) :=
  let primaryTurns := diarization.primaryTurns.insertionSort TurnOrder
  let regularTurns := diarization.regularTurns.insertionSort TurnOrder
  let segments := transcription.segments.insertionSort
    (fun a b => a.start < b.start ∨ (a.start = b.start ∧ a.end_ ≤ b.end_))
  segments.foldlM (merger.mergeSegment transcription primaryTurns regularTurns) []

def Numbered (segments : List MergedTranscriptSegment) : Prop :=
  segments.map (·.sequence) = (List.range segments.length).map (fun n : ℕ => (n : ℤ))

lemma Numbered.snoc {segments : List MergedTranscriptSegment} {m : MergedTranscriptSegment}
    (h : Numbered segments) (hm : m.sequence = segments.length) : Numbered (segments ++ [m]) := by
  rw [Numbered, List.map_append, List.length_append, List.length_singleton, List.range_succ,
    List.map_append, h, List.map_singleton, List.map_singleton, hm]

lemma mergeGroup_numbered {language : Option Text} {merged merged' : List MergedTranscriptSegment}
    {group : List AssignedWord} (hn : Numbered merged)
    (h : mergeGroup language merged group = .ok merged') : Numbered merged' := by
  simp only [mergeGroup] at h
  split at h
  · cases h
    exact hn
  · split at h
    · cases h
      exact hn
    · obtain ⟨m, hm, h⟩ := bind_ok h
      cases h
      exact hn.snoc (MergedTranscriptSegment.make_ok hm).1

lemma mergeSegment_numbered {merger : TimestampTranscriptMerger} {transcription : TranscriptionResult}
    {primaryTurns regularTurns : List SpeakerTurn} {merged merged' : List MergedTranscriptSegment}
    {segment : TranscriptionSegment} (hn : Numbered merged)
    (h : merger.mergeSegment transcription primaryTurns regularTurns merged segment = .ok merged') :
    Numbered merged' := by
  simp only [TimestampTranscriptMerger.mergeSegment] at h
  split at h
  · exact foldlM_keeps (fun _ _ _ _ => mergeGroup_numbered) hn h
  · split at h
    · cases h
      exact hn
    · obtain ⟨m, hm, h⟩ := bind_ok h
      cases h
      exact hn.snoc (MergedTranscriptSegment.make_ok hm).1

lemma merge_numbered {merger : TimestampTranscriptMerger} {transcription : TranscriptionResult}
    {diarization : DiarizationResult} {merged : List MergedTranscriptSegment}
    (h : merger.merge transcription diarization = .ok merged) : Numbered merged := by
  have hstart : Numbered [] := rfl
  exact foldlM_keeps (fun _ _ _ _ => mergeSegment_numbered) hstart h

lemma Numbered.ascending {segments : List MergedTranscriptSegment} (h : Numbered segments) :
    Ascending segments := by
  have hsorted : (segments.map (·.sequence)).Pairwise (· < ·) := by
    rw [h, List.pairwise_map]
    apply List.pairwise_lt_range.imp
    intro a b hab
    exact Int.ofNat_lt.mpr hab
  exact List.pairwise_map.mp hsorted

/-- `ProcessingPipeline.run`, from what the two providers heard to what the job commits. -/
def pipelineRun (merger : TimestampTranscriptMerger) (transcription : Except Exn TranscriptionResult)
    (diarization : Except Exn DiarizationResult) : Except Exn PipelineResult := do
  let transcription ← transcription
  let diarization ← diarization
  let transcript ← merger.merge transcription diarization
  .ok ⟨transcript⟩

lemma pipelineRun_numbered {merger : TimestampTranscriptMerger}
    {transcription : Except Exn TranscriptionResult} {diarization : Except Exn DiarizationResult}
    {result : PipelineResult} (h : pipelineRun merger transcription diarization = .ok result) :
    Numbered result.transcript := by
  obtain ⟨_, _, h⟩ := bind_ok h
  obtain ⟨_, _, h⟩ := bind_ok h
  obtain ⟨transcript, hm, h⟩ := bind_ok h
  cases h
  exact merge_numbered hm

end AudioServer.Processing.Merge
