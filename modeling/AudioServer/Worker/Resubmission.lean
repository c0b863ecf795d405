import AudioServer.Api.Requests
import AudioServer.Worker.Regrouping

/-! Whether the transcript a job commits can be saved back unchanged. -/

namespace AudioServer.Worker.Resubmission

open AudioServer.Foundations.Correspondence AudioServer.Foundations.Outcomes
open AudioServer.Foundations.Strings AudioServer.Api.Schemas AudioServer.Api.Requests
open AudioServer.Db.Models AudioServer.Processing.Contracts AudioServer.Processing.Merge
open AudioServer.Processing.Translation AudioServer.Processing.Utterances
open AudioServer.Services.Recordings AudioServer.Services.Editing AudioServer.Services.Consistency
open AudioServer.Worker.Persisters AudioServer.Worker.DocumentInvariant
open AudioServer.Worker.CommittedResults AudioServer.Worker.Grounding AudioServer.Worker.Regrouping

def payloadOf (s : TranscriptSegment) : SegmentPayload :=
  ⟨s.id, s.speakerLabel, s.startTime, s.endTime, s.text⟩

/-- `PUT /{recording_id}/transcript`: the body is validated, then the service called. -/
def submitTranscript (id : RecordingId) (expectedRevision : ℕ) (payloads : List SegmentPayload) :
    Transaction Database Exn Unit := fun db => do
  let updates ← payloads.mapM SegmentPayload.validate
  updateTranscript id expectedRevision updates db

/-- Every utterance lasts some time, ends within the recording, and fits the fields of an update. -/
def Editable (durationSeconds : Seconds) (speech : List Utterance) : Prop :=
  ∀ u ∈ speech, u.start < u.end_ ∧ u.end_ ≤ durationSeconds ∧ Sized 64 u.speakerLabel ∧
    u.speakerLabel.all isSafe ∧ u.text.length ≤ 100000

lemma utterance_stripped {merger : TimestampTranscriptMerger} {transcription : TranscriptionResult}
    {diarization : DiarizationResult} {u : Utterance}
    (h : u ∈ speech merger transcription diarization) : strip u.text = u.text := by
  obtain ⟨segment, _, hu⟩ := List.mem_flatMap.mp h
  unfold utterances at hu
  split at hu
  · obtain ⟨group, _, hgroup⟩ := List.mem_filterMap.mp hu
    cases group with
    | nil => cases hgroup
    | cons first rest =>
      cases hgroup
      exact strip_strip _
  · split at hu
    · cases hu
    · rw [List.mem_singleton.mp hu]
      exact strip_strip _

lemma editTranscript_accepts {durationSeconds : Seconds} {updates : List TranscriptSegmentUpdate}
    {doc : Document} (hids : updates.map (·.id) = doc.segments.map (·.id))
    (hnodup : (doc.segments.map (·.id)).Nodup) (hend : ∀ u ∈ updates, u.endTime ≤ durationSeconds) :
    ∃ doc', editTranscript durationSeconds updates doc = .ok doc' := by
  have hsame : (updates.map (·.id)).Nodup ∧ updates.map (·.id) ⊆ doc.segments.map (·.id) ∧
      doc.segments.map (·.id) ⊆ updates.map (·.id) := by
    rw [hids]
    exact ⟨hnodup, List.Subset.refl _, List.Subset.refl _⟩
  have hordered : ∀ item ∈ updates.insertionSort UpdateOrder, item.endTime ≤ durationSeconds :=
    fun item hitem => hend item ((List.mem_insertionSort _).mp hitem)
  simp only [editTranscript]
  rw [require_of hsame, ok_bind, require_of hordered, ok_bind]
  exact ⟨_, rfl⟩

lemma editTranscript_end {durationSeconds : Seconds} {updates : List TranscriptSegmentUpdate}
    {doc doc' : Document} (h : editTranscript durationSeconds updates doc = .ok doc') :
    ∀ u ∈ updates, u.endTime ≤ durationSeconds := by
  obtain ⟨_, _, h⟩ := bind_ok h
  obtain ⟨_, hend, _⟩ := bind_ok h
  exact fun u hu => require_ok.mp hend u ((List.mem_insertionSort _).mpr hu)

lemma placeSegment_payload {segments : List TranscriptSegment}
    {updates : List TranscriptSegmentUpdate} (hnodup : (segments.map (·.id)).Nodup)
    (hpayloads : updates.map updatePayload = segments.map payloadOf) {s : TranscriptSegment}
    (hs : s ∈ segments) :
    payloadOf (placeSegment (placements (updates.insertionSort UpdateOrder)) s) = payloadOf s := by
  unfold placeSegment
  split
  · rfl
  · rename_i p hp
    have hid : p.item.id = s.id := by simpa using List.find?_some hp
    have hitem : p.item ∈ updates :=
      (List.mem_insertionSort _).mp (mem_placements.mpr ⟨p, List.mem_of_find?_eq_some hp, rfl⟩)
    have hmem : updatePayload p.item ∈ segments.map payloadOf := hpayloads ▸ List.mem_map_of_mem hitem
    obtain ⟨s', hs', hsame⟩ := List.mem_map.mp hmem
    have hid' : s'.id = s.id := (congrArg SegmentPayload.id hsame).trans hid
    obtain rfl : s' = s := List.inj_on_of_nodup_map hnodup hs' hs hid'
    rw [hsame, ← hid]
    rfl

lemma mem_newSegments {segmentIds : ℕ → SegmentId} {merged : List MergedTranscriptSegment}
    {s : TranscriptSegment} (h : s ∈ newSegments segmentIds merged) :
    ∃ m ∈ merged, ∃ id, s = newSegment id m := by
  obtain ⟨p, hp, rfl⟩ := List.mem_map.mp h
  exact ⟨p.1, List.fst_mem_of_mem_zipIdx hp, _, rfl⟩

lemma newSegment_mem {segmentIds : ℕ → SegmentId} {merged : List MergedTranscriptSegment}
    {m : MergedTranscriptSegment} (h : m ∈ merged) :
    ∃ id, newSegment id m ∈ newSegments segmentIds merged := by
  rw [← List.zipIdx_map_fst 0 merged] at h
  obtain ⟨p, hp, rfl⟩ := List.mem_map.mp h
  exact ⟨_, List.mem_map_of_mem hp⟩

lemma editTranscript_segments {durationSeconds : Seconds} {updates : List TranscriptSegmentUpdate}
    {doc doc' : Document} (h : editTranscript durationSeconds updates doc = .ok doc') :
    doc'.segments = doc.segments.map
      (placeSegment (placements (updates.insertionSort UpdateOrder))) := by
  obtain ⟨_, rfl⟩ := editTranscript_doc h
  rw [staleAnalysis_segments, staleTranslations_segments]

lemma validated_payloads {payloads : List SegmentPayload} {updates : List TranscriptSegmentUpdate}
    (hvalid : ∀ p ∈ payloads, ∃ u, p.validate = .ok u ∧ updatePayload u = p)
    (h : payloads.mapM SegmentPayload.validate = .ok updates) : updates.map updatePayload = payloads := by
  have hpaired := (List.forall₂_and_left _ updates).mpr ⟨hvalid, mapM_paired h⟩
  have hsame : List.Forall₂ (fun p u => updatePayload u = p) payloads updates := by
    refine hpaired.imp ?_
    rintro p u ⟨⟨v, hv, hpayload⟩, hu⟩
    rw [hu] at hv
    cases hv
    exact hpayload
  rw [← List.forall₂_eq_eq_eq, List.forall₂_map_left_iff]
  exact hsame.flip

lemma persistTranscript_segments {merged : List MergedTranscriptSegment} {ids : FreshIds}
    {now : Instant} {doc doc' : Document} (h : persistTranscript ⟨merged⟩ ids now doc = .ok doc') :
    doc'.segments = newSegments ids.segmentIds merged ∧
      ((newSegments ids.segmentIds merged).map (·.id)).Nodup := by
  obtain ⟨_, _, _, hnodup, _, rfl⟩ := persistTranscript_ok h
  exact ⟨staleCompleted_segments _, hnodup⟩

theorem resubmission_iff {merger : TimestampTranscriptMerger} {transcription : TranscriptionResult}
    {diarization : DiarizationResult} {merged : List MergedTranscriptSegment} {ids : FreshIds}
    {now : Instant} {doc doc' : Document} {db : Database} {id : RecordingId} {recording : Recording}
    (hmerge : merger.merge transcription diarization = .ok merged)
    (hcommit : persistTranscript ⟨merged⟩ ids now doc = .ok doc')
    (hrecording : db.recording id = some recording)
    (hcurrent : (db.documents id).segments = doc'.segments) (hidle : db.activeJob id = none) :
    (∃ db', submitTranscript id (db.documents id).transcriptRevision (doc'.segments.map payloadOf) db =
        .ok ((), db') ∧
      (db'.documents id).segments.map payloadOf = doc'.segments.map payloadOf) ↔
    Editable recording.durationSeconds (speech merger transcription diarization) := by
  obtain ⟨hsegments, hnodup⟩ := persistTranscript_segments hcommit
  rw [hsegments] at hcurrent ⊢
  obtain ⟨merged', hmerge', hspeech⟩ := merge_speech merger transcription diarization
  obtain rfl : merged = merged' := Except.ok.inj (hmerge.symm.trans hmerge')
  constructor
  · rintro ⟨db', h, _⟩ u hu
    obtain ⟨updates, hupdates, h⟩ := bind_ok h
    obtain ⟨recording', doc, hrecording', _, _, hedit, _⟩ := editDocument_ok h
    obtain rfl : recording = recording' := Option.some.inj (hrecording.symm.trans hrecording')
    rw [← hspeech] at hu
    obtain ⟨m, hm, rfl⟩ := List.mem_map.mp hu
    obtain ⟨segmentId, hs⟩ := newSegment_mem hm
    obtain ⟨v, hv, hvalid⟩ := paired_mem (mapM_paired hupdates) (List.mem_map_of_mem hs)
    obtain ⟨hfields, hinterval, hpayload⟩ := validate_ok hvalid
    have hend := editTranscript_end hedit v hv
    have hsame : v.endTime = m.end_ := congrArg SegmentPayload.endTime hpayload
    rw [hsame] at hend
    exact ⟨hinterval, hend, hfields.1.1, hfields.1.2, hfields.2.2.2.2⟩
  · intro heditable
    have hfits : ∀ p ∈ (newSegments ids.segmentIds merged).map payloadOf,
        p.endTime ≤ recording.durationSeconds ∧ ∃ u, p.validate = .ok u ∧ updatePayload u = p := by
      intro p hp
      obtain ⟨s, hs, rfl⟩ := List.mem_map.mp hp
      obtain ⟨m, hm, segmentId, rfl⟩ := mem_newSegments hs
      have hu : utteranceOf m ∈ speech merger transcription diarization :=
        hspeech ▸ List.mem_map_of_mem hm
      obtain ⟨hinterval, hend, hlabel, hsafe, hlength⟩ := heditable _ hu
      have hwords : 1 ≤ m.text.length := List.length_pos_iff.mpr (nonblank_ne_nil m.text_nonblank)
      exact ⟨hend, validate_succeeds
        ⟨⟨hlabel, hsafe⟩, m.start_nonneg, m.start_nonneg.trans_lt hinterval, hwords, hlength⟩
        hinterval m.speaker_nonblank m.text_nonblank (utterance_stripped hu)⟩
    obtain ⟨updates, hupdates⟩ := mapM_succeeds (fun p hp =>
      (hfits p hp).2.imp (fun _ h => h.1))
    have hpayloads := validated_payloads (fun p hp => (hfits p hp).2) hupdates
    have hids : updates.map (·.id) = (db.documents id).segments.map (·.id) := by
      have := congrArg (List.map SegmentPayload.id) hpayloads
      rw [List.map_map, List.map_map, ← hcurrent] at this
      exact this
    have hend : ∀ u ∈ updates, u.endTime ≤ recording.durationSeconds := by
      intro u hu
      have hmem : updatePayload u ∈ (newSegments ids.segmentIds merged).map payloadOf :=
        hpayloads ▸ List.mem_map_of_mem hu
      exact (hfits _ hmem).1
    obtain ⟨edited, hedit⟩ := editTranscript_accepts hids (hcurrent ▸ hnodup) hend
    refine ⟨{ db with documents := Function.update db.documents id edited }, ?_, ?_⟩
    · rw [submitTranscript, hupdates, ok_bind]
      exact editDocument_succeeds hrecording hidle hedit
    · have hdoc : ({ db with documents := Function.update db.documents id edited } :
          Database).documents id = edited := Function.update_self _ _ _
      rw [hdoc, editTranscript_segments hedit, hcurrent, List.map_map]
      exact List.map_congr_left (fun s hs => placeSegment_payload hnodup hpayloads hs)

def idleWith (doc : Document) : Database := ⟨[exampleRecording], [], [], none, fun _ => doc⟩

def committedExample : Document :=
  valueOr .empty (persistTranscript exampleTranscript exampleIds 1 .empty)

theorem resubmission_iff_example :
    (∃ db', submitTranscript 1 ((idleWith committedExample).documents 1).transcriptRevision
        (committedExample.segments.map payloadOf) (idleWith committedExample) = .ok ((), db') ∧
      (db'.documents 1).segments.map payloadOf = committedExample.segments.map payloadOf) ↔
    Editable exampleRecording.durationSeconds (speech exampleMerger exampleSpeech exampleVoices) := by
  have hmerge : exampleMerger.merge exampleSpeech exampleVoices = .ok exampleTranscript.transcript := by
    decide +kernel
  have hcommit : persistTranscript exampleTranscript exampleIds 1 .empty = .ok committedExample :=
    ok_valueOr _ (by decide +kernel)
  have hrecording : (idleWith committedExample).recording 1 = some exampleRecording := rfl
  exact resubmission_iff hmerge hcommit hrecording rfl rfl

theorem instant_word_refused : ¬ ∀ merger transcription diarization merged ids now doc doc' db id
    recording, TimestampTranscriptMerger.merge merger transcription diarization = .ok merged →
    persistTranscript ⟨merged⟩ ids now doc = .ok doc' → Database.recording db id = some recording →
    (db.documents id).segments = doc'.segments → db.activeJob id = none →
    ∃ db', submitTranscript id (db.documents id).transcriptRevision (doc'.segments.map payloadOf) db =
        .ok ((), db') ∧
      (db'.documents id).segments.map payloadOf = doc'.segments.map payloadOf := by
  intro h
  have hrefused : ∃ transcription merged doc,
      exampleMerger.merge transcription exampleVoices = .ok merged ∧
      persistTranscript ⟨merged⟩ exampleIds 1 .empty = .ok doc ∧
      (submitTranscript 1 doc.transcriptRevision (doc.segments.map payloadOf)
        (idleWith doc)).isOk = false := by
    refine ⟨⟨[⟨0, 2, "はい".toList, [⟨1, 1, "はい".toList, none, ?_, ?_, ?_, ?_⟩], none, ?_, ?_⟩],
      none⟩, _, _, ok_valueOr [] ?_, ok_valueOr .empty ?_, ?_⟩
    all_goals decide +kernel
  obtain ⟨transcription, merged, doc, hmerge, hcommit, hrefused⟩ := hrefused
  obtain ⟨db', hdb, _⟩ := h exampleMerger transcription exampleVoices merged exampleIds 1 .empty doc
    (idleWith doc) 1 exampleRecording hmerge hcommit rfl rfl rfl
  have hsent : submitTranscript 1 doc.transcriptRevision (doc.segments.map payloadOf) (idleWith doc) =
      .ok ((), db') := hdb
  rw [hsent] at hrefused
  cases hrefused

end AudioServer.Worker.Resubmission
