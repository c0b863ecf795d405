import AudioServer.Worker.Regrouping

/-! Where a re-transcription puts the translations written by hand. -/

namespace AudioServer.Worker.CarryOver

open AudioServer.Foundations.Correspondence AudioServer.Foundations.Dicts
open AudioServer.Foundations.Outcomes AudioServer.Api.Schemas AudioServer.Db.Models
open AudioServer.Processing.Contracts AudioServer.Processing.Sentences
open AudioServer.Worker.Persisters AudioServer.Worker.CommittedResults
open AudioServer.Worker.HandWritten AudioServer.Worker.Regrouping AudioServer.Worker.Grounding

def NearSentence (s : TranscriptSentence) (p : PreservedTranslation) : Prop :=
  p.sourceJa = s.text ∧ ∃ t ∈ p.startTime, |t - s.startTime| ≤ sameUtteranceSeconds

instance (s : TranscriptSentence) (p : PreservedTranslation) : Decidable (NearSentence s p) :=
  inferInstanceAs (Decidable (_ ∧ _))

structure OnlyMatch (sentences : List TranscriptSentence) (preserved : List PreservedTranslation)
    (i : ℕ) (p : PreservedTranslation) (s : TranscriptSentence) : Prop where
  sentence : s ∈ sentences
  near : NearSentence s p
  onlySentence : ∀ s' ∈ sentences, NearSentence s' p → s' = s
  onlyRendering : ∀ (j : ℕ) (q : PreservedTranslation), preserved[j]? = some q →
    NearSentence s q → j = i

lemma sentences_nodup {transcript : List MergedTranscriptSegment} {sentences : List TranscriptSentence}
    {maxChars : ℕ} (h : groupSentences transcript maxChars = .ok sentences)
    (hasc : Ascending transcript) : sentences.Nodup :=
  (groupSentences_starts h hasc).imp (fun hlt he => absurd (congrArg _ he) hlt.ne)

lemma uniqueMatch_iff {sentences : List TranscriptSentence} (hnodup : sentences.Nodup) {t : Seconds}
    {s : TranscriptSentence} : uniqueMatch sentences t = some s ↔
      s ∈ sentences ∧ |s.startTime - t| ≤ sameUtteranceSeconds ∧
        ∀ s' ∈ sentences, |s'.startTime - t| ≤ sameUtteranceSeconds → s' = s := by
  have hsingle := filter_singleton_iff (p := fun s : TranscriptSentence =>
    decide (|s.startTime - t| ≤ sameUtteranceSeconds)) hnodup (a := s)
  simp only [decide_eq_true_eq] at hsingle
  rw [← hsingle, uniqueMatch]
  constructor
  · intro h
    split at h
    · rename_i sentence hone
      cases h
      exact hone
    · cases h
  · intro h
    rw [h]

lemma matchOf_iff {sentences : List TranscriptSentence} {preserved : List PreservedTranslation}
    (hnodup : sentences.Nodup) {i : ℕ} {p : PreservedTranslation} (hp : preserved[i]? = some p)
    {s : TranscriptSentence} :
    matchOf sentences preserved p = some s ↔ OnlyMatch sentences preserved i p s := by
  have hcount : NearSentence s p → (countWithin (writtenAt preserved p.sourceJa) s.startTime = 1 ↔
      ∀ (j : ℕ) (q : PreservedTranslation), preserved[j]? = some q → NearSentence s q → j = i) := by
    intro hnear
    rw [countWithin_preserved]
    have hone := countP_one_iff (p := fun q => decide (q.sourceJa = p.sourceJa ∧
      ∃ t ∈ q.startTime, |t - s.startTime| ≤ sameUtteranceSeconds)) hp
      (by simpa using hnear.2)
    simp only [decide_eq_true_eq, hnear.1] at hone ⊢
    exact hone
  have hfilter : (sentences.filter (fun s => s.text = p.sourceJa)).Nodup := hnodup.filter _
  rw [matchOf, Option.filter_eq_some_iff, Option.bind_eq_some_iff, decide_eq_true_eq]
  constructor
  · rintro ⟨⟨t, ht, hunique⟩, hone⟩
    obtain ⟨hmem, hnear, honly⟩ := (uniqueMatch_iff hfilter).mp hunique
    obtain ⟨hmem, htext⟩ := List.mem_filter.mp hmem
    rw [decide_eq_true_eq] at htext
    have hmoment : NearSentence s p := ⟨htext.symm, t, ht, by rwa [abs_sub_comm]⟩
    refine ⟨hmem, hmoment, ?_, (hcount hmoment).mp hone⟩
    rintro s' hs' ⟨htext', t', ht', hnear'⟩
    obtain rfl : t = t' := Option.mem_unique ht ht'
    exact honly s' (List.mem_filter.mpr ⟨hs', decide_eq_true htext'.symm⟩) (by rwa [abs_sub_comm])
  · rintro ⟨hmem, hnear, honly, hrendering⟩
    obtain ⟨htext, t, ht, hmoment⟩ := hnear
    refine ⟨⟨t, ht, (uniqueMatch_iff hfilter).mpr ⟨?_, ?_, ?_⟩⟩,
      (hcount ⟨htext, t, ht, hmoment⟩).mpr hrendering⟩
    · exact List.mem_filter.mpr ⟨hmem, decide_eq_true htext.symm⟩
    · rwa [abs_sub_comm]
    · intro s' hs' hnear'
      obtain ⟨hs', htext'⟩ := List.mem_filter.mp hs'
      rw [decide_eq_true_eq] at htext'
      exact honly s' hs' ⟨htext'.symm, t, ht, by rwa [abs_sub_comm]⟩

def AttachedTo (segments : List TranscriptSegment) (s : TranscriptSentence)
    (row : TranscriptTranslation) : Prop :=
  ∃ start ∈ segments, ∃ end_ ∈ segments, start.sequence = s.startSequence ∧
    end_.sequence = s.endSequence ∧ row.startSegmentId = some start.id ∧
    row.endSegmentId = some end_.id ∧ row.stale = false

section Attachment

variable {segmentIds : ℕ → SegmentId} {transcript : List MergedTranscriptSegment}
  {sentences : List TranscriptSentence}

lemma attached_iff (hids : ((newSegments segmentIds transcript).map (·.id)).Nodup)
    (hasc : Ascending transcript) (hsentences : groupSentences transcript maxSentenceChars = .ok sentences)
    {preserved : List PreservedTranslation} {p : PreservedTranslation} {id : ℕ} {now : Instant}
    {s : TranscriptSentence} (hs : s ∈ sentences) :
    AttachedTo (newSegments segmentIds transcript) s
        (carriedRow (newSegments segmentIds transcript) sentences preserved p id now) ↔
      matchOf sentences preserved p = some s := by
  have hsequences : ((newSegments segmentIds transcript).map (·.sequence)).Nodup := by
    rw [newSegments_sequences]
    exact (List.pairwise_map.mpr hasc).imp ne_of_lt
  constructor
  · rintro ⟨start, hstart, _, _, hss, _, hrow, _, hfresh⟩
    obtain ⟨s', hmatch, start', hstart', _, _, hss', _, hrow', _⟩ := carriedRow_attached hfresh
    have hid : start.id = start'.id := Option.some.inj (hrow.symm.trans hrow')
    obtain rfl : start = start' := List.inj_on_of_nodup_map hids hstart hstart' hid
    have hkeys : (sentences.map (·.startSequence)).Nodup :=
      (List.pairwise_map.mpr (groupSentences_starts hsentences hasc)).imp ne_of_lt
    obtain rfl : s = s' := List.inj_on_of_nodup_map hkeys hs (matchOf_some hmatch).1
      (hss.symm.trans hss')
    exact hmatch
  · intro hmatch
    obtain ⟨_, ⟨a, ha, hastart⟩, ⟨b, hb, hbend⟩⟩ := groupSentences_text hsentences hasc hs
    have hstored : ∀ m ∈ transcript, ∃ row ∈ newSegments segmentIds transcript,
        row.sequence = m.sequence := by
      intro m hm
      have hmem : m.sequence ∈ (newSegments segmentIds transcript).map (·.sequence) := by
        rw [newSegments_sequences]
        exact List.mem_map_of_mem hm
      exact List.mem_map.mp hmem
    obtain ⟨start, hstart, hss⟩ := hstored a ha
    obtain ⟨end_, hend, hes⟩ := hstored b hb
    have hgets : ∀ row ∈ newSegments segmentIds transcript,
        dictGet (·.sequence) (newSegments segmentIds transcript) row.sequence = some row :=
      fun row hrow => dictGet_eq_some hsequences hrow
    have hstartGet := hgets start hstart
    have hendGet := hgets end_ hend
    rw [hss, hastart] at hstartGet
    rw [hes, hbend] at hendGet
    refine ⟨start, hstart, end_, hend, hss.trans hastart, hes.trans hbend, ?_⟩
    simp [carriedRow, hmatch, hstartGet, hendGet]

lemma matchOf_perm {preserved preserved' : List PreservedTranslation}
    (h : preserved.Perm preserved') (p : PreservedTranslation) :
    matchOf sentences preserved p = matchOf sentences preserved' p := by
  have hcount : ∀ moment, countWithin (writtenAt preserved p.sourceJa) moment =
      countWithin (writtenAt preserved' p.sourceJa) moment :=
    fun moment => ((h.filter _).filterMap _).countP_eq _
  simp only [matchOf, hcount]

def withoutId (row : TranscriptTranslation) : TranscriptTranslation := { row with id := 0 }

def SameRows : Except Exn (List TranscriptTranslation) → Except Exn (List TranscriptTranslation) → Prop
  | .ok rows, .ok rows' => (rows.map withoutId).Perm (rows'.map withoutId)
  | .error e, .error e' => e = e'
  | _, _ => False

def carriedRows (segments : List TranscriptSegment) (sentences : List TranscriptSentence)
    (preserved : List PreservedTranslation) (rowIds : ℕ → ℕ) (now : Instant) :
    List TranscriptTranslation :=
  preserved.zipIdx.map (fun p => carriedRow segments sentences preserved p.1 (rowIds p.2) now)

lemma carriedRows_withoutId (segments : List TranscriptSegment) (preserved : List PreservedTranslation)
    (rowIds : ℕ → ℕ) (now : Instant) :
    (carriedRows segments sentences preserved rowIds now).map withoutId =
      preserved.map (fun p => withoutId (carriedRow segments sentences preserved p 0 now)) := by
  have hmap : (carriedRows segments sentences preserved rowIds now).map withoutId =
      (preserved.zipIdx.map Prod.fst).map
        (fun p => withoutId (carriedRow segments sentences preserved p 0 now)) := by
    rw [carriedRows, List.map_map, List.map_map]
    rfl
  rw [hmap, List.zipIdx_map_fst]

lemma carriedRows_perm (segments : List TranscriptSegment)
    {preserved preserved' : List PreservedTranslation} (h : preserved.Perm preserved')
    (rowIds : ℕ → ℕ) (now : Instant) :
    ((carriedRows segments sentences preserved rowIds now).map withoutId).Perm
      ((carriedRows segments sentences preserved' rowIds now).map withoutId) := by
  have hrow : ∀ p, carriedRow segments sentences preserved p 0 now =
      carriedRow segments sentences preserved' p 0 now := by
    intro p
    simp only [carriedRow, matchOf_perm h]
  simp only [carriedRows_withoutId, hrow]
  exact h.map _

lemma carriedRows_ids (segments : List TranscriptSegment) (preserved : List PreservedTranslation)
    (rowIds : ℕ → ℕ) (now : Instant) : (carriedRows segments sentences preserved rowIds now).map (·.id) =
      (List.range' 0 preserved.length).map rowIds := by
  rw [← List.zipIdx_map_snd, carriedRows, List.map_map, List.map_map]
  rfl

lemma flush_carried (hids : ((newSegments segmentIds transcript).map (·.id)).Nodup)
    (hasc : Ascending transcript)
    (hsentences : groupSentences transcript maxSentenceChars = .ok sentences)
    (preserved : List PreservedTranslation) (rowIds : ℕ → ℕ) (now : Instant) :
    flushTranslations
        (carriedRows (newSegments segmentIds transcript) sentences preserved rowIds now) =
      if ((List.range' 0 preserved.length).map rowIds).Nodup then
        .ok (carriedRows (newSegments segmentIds transcript) sentences preserved rowIds now)
      else .error (.integrityError .translationsPkey) := by
  have hstarts : ((carriedRows (newSegments segmentIds transcript) sentences preserved rowIds
    now).filterMap (·.startSegmentId)).Nodup := carried_starts hids hsentences hasc
  rw [flushTranslations, carriedRows_ids]
  split
  · rename_i hkeys
    rw [require_of hkeys, ok_bind, require_of hstarts]
    rfl
  · rename_i hkeys
    rw [require_of_not hkeys]
    rfl

lemma carry_perm (hids : ((newSegments segmentIds transcript).map (·.id)).Nodup)
    (hasc : Ascending transcript) {preserved preserved' : List PreservedTranslation}
    (h : preserved.Perm preserved') (rowIds : ℕ → ℕ) (now : Instant) :
    SameRows (carryManualTranslations (newSegments segmentIds transcript) transcript preserved rowIds now)
      (carryManualTranslations (newSegments segmentIds transcript) transcript preserved' rowIds now) := by
  rw [carryManualTranslations, carryManualTranslations, h.isEmpty_eq]
  split
  · exact .nil
  · cases hsentences : groupSentences transcript maxSentenceChars with
    | error e => rfl
    | ok sentences =>
      have hrows : ((carriedRows (newSegments segmentIds transcript) sentences preserved rowIds
          now).map withoutId).Perm ((carriedRows (newSegments segmentIds transcript) sentences
          preserved' rowIds now).map withoutId) := carriedRows_perm _ h rowIds now
      rw [ok_bind, ok_bind]
      change SameRows (flushTranslations (carriedRows _ sentences preserved rowIds now))
        (flushTranslations (carriedRows _ sentences preserved' rowIds now))
      rw [flush_carried hids hasc hsentences, flush_carried hids hasc hsentences, h.length_eq]
      split
      · exact hrows
      · rfl

lemma carry_succeeds (hids : ((newSegments segmentIds transcript).map (·.id)).Nodup)
    (hasc : Ascending transcript)
    (hsentences : groupSentences transcript maxSentenceChars = .ok sentences)
    {preserved : List PreservedTranslation} {rowIds : ℕ → ℕ}
    (hkeys : ((List.range preserved.length).map rowIds).Nodup) (now : Instant) :
    ∃ rows, carryManualTranslations (newSegments segmentIds transcript) transcript preserved rowIds
      now = .ok rows := by
  rw [carryManualTranslations]
  split
  · exact ⟨[], rfl⟩
  · refine ⟨carriedRows (newSegments segmentIds transcript) sentences preserved rowIds now, ?_⟩
    rw [hsentences, ok_bind]
    change flushTranslations (carriedRows _ sentences preserved rowIds now) = _
    rw [flush_carried hids hasc hsentences, if_pos (List.range_eq_range' ▸ hkeys)]

lemma carry_rows (hsentences : groupSentences transcript maxSentenceChars = .ok sentences)
    {segments : List TranscriptSegment} {preserved : List PreservedTranslation} {rowIds : ℕ → ℕ}
    {now : Instant} {rows : List TranscriptTranslation}
    (h : carryManualTranslations segments transcript preserved rowIds now = .ok rows) :
    rows = carriedRows segments sentences preserved rowIds now := by
  rcases carryManualTranslations_ok h with ⟨rfl, rfl⟩ | ⟨sentences', hs', rfl, _⟩
  · rfl
  · rw [hsentences] at hs'
    cases hs'
    rfl

lemma carriedRows_getElem (segments : List TranscriptSegment) (preserved : List PreservedTranslation)
    (rowIds : ℕ → ℕ) (now : Instant) (i : ℕ) :
    (carriedRows segments sentences preserved rowIds now)[i]? =
      preserved[i]?.map (fun p => carriedRow segments sentences preserved p (rowIds i) now) := by
  rw [carriedRows, List.getElem?_map, List.getElem?_zipIdx, Option.map_map]
  simp [Function.comp_def]

lemma carriedRow_detached {segments : List TranscriptSegment} {preserved : List PreservedTranslation}
    {p : PreservedTranslation} {id : ℕ} {now : Instant}
    (h : (carriedRow segments sentences preserved p id now).stale = true) :
    (carriedRow segments sentences preserved p id now).startSegmentId = none ∧
      (carriedRow segments sentences preserved p id now).endSegmentId = none := by
  simp only [carriedRow, Bool.not_eq_true'] at h ⊢
  rw [h]
  exact ⟨rfl, rfl⟩

structure CarriedTo (segments : List TranscriptSegment) (sentences : List TranscriptSentence)
    (preserved : List PreservedTranslation) (i : ℕ) (p : PreservedTranslation)
    (row : TranscriptTranslation) : Prop where
  words : row.sourceJa = p.sourceJa ∧ row.textZhHk = p.textZhHk ∧ row.source = .manual
  attached : ∀ s ∈ sentences, AttachedTo segments s row ↔ OnlyMatch sentences preserved i p s
  detached : (∀ s ∈ sentences, ¬ AttachedTo segments s row) →
    row.startSegmentId = none ∧ row.endSegmentId = none ∧ row.stale = true

lemma carriedRow_carried (hids : ((newSegments segmentIds transcript).map (·.id)).Nodup)
    (hasc : Ascending transcript)
    (hsentences : groupSentences transcript maxSentenceChars = .ok sentences)
    {preserved : List PreservedTranslation} {i : ℕ} {p : PreservedTranslation}
    (hp : preserved[i]? = some p) (id : ℕ) (now : Instant) :
    CarriedTo (newSegments segmentIds transcript) sentences preserved i p
      (carriedRow (newSegments segmentIds transcript) sentences preserved p id now) := by
  refine ⟨⟨rfl, rfl, rfl⟩, ?_, ?_⟩
  · intro s hs
    rw [attached_iff hids hasc hsentences hs, matchOf_iff (sentences_nodup hsentences hasc) hp]
  · intro hnone
    cases hstale : (carriedRow (newSegments segmentIds transcript) sentences preserved p id
        now).stale with
    | true => exact ⟨(carriedRow_detached hstale).1, (carriedRow_detached hstale).2, rfl⟩
    | false =>
      obtain ⟨s, hmatch, _⟩ := carriedRow_attached hstale
      have hs := (matchOf_some hmatch).1
      exact absurd ((attached_iff hids hasc hsentences hs).mpr hmatch) (hnone s hs)

theorem carry_over (hids : ((newSegments segmentIds transcript).map (·.id)).Nodup)
    (hasc : Ascending transcript) {preserved preserved' : List PreservedTranslation}
    (hperm : preserved.Perm preserved') (rowIds : ℕ → ℕ) (now : Instant) :
    SameRows
      (carryManualTranslations (newSegments segmentIds transcript) transcript preserved rowIds now)
      (carryManualTranslations (newSegments segmentIds transcript) transcript preserved' rowIds now) ∧
    ∀ sentences, groupSentences transcript maxSentenceChars = .ok sentences →
      (((List.range preserved.length).map rowIds).Nodup →
        ∃ rows, carryManualTranslations (newSegments segmentIds transcript) transcript preserved
          rowIds now = .ok rows) ∧
      ∀ rows, carryManualTranslations (newSegments segmentIds transcript) transcript preserved rowIds
          now = .ok rows →
        rows.length = preserved.length ∧
        (∀ (i : ℕ) p, preserved[i]? = some p → ∃ row, rows[i]? = some row ∧
          CarriedTo (newSegments segmentIds transcript) sentences preserved i p row) ∧
        ∀ (i j : ℕ) row row', rows[i]? = some row → rows[j]? = some row' → ∀ s ∈ sentences,
          AttachedTo (newSegments segmentIds transcript) s row →
            AttachedTo (newSegments segmentIds transcript) s row' → i = j := by
  refine ⟨carry_perm hids hasc hperm rowIds now, ?_⟩
  intro sentences hsentences
  refine ⟨fun hkeys => carry_succeeds hids hasc hsentences hkeys now, ?_⟩
  intro rows hrows
  obtain rfl := carry_rows hsentences hrows
  refine ⟨by rw [carriedRows, List.length_map, List.length_zipIdx], ?_, ?_⟩
  · intro i p hp
    rw [carriedRows_getElem, hp]
    exact ⟨_, rfl, carriedRow_carried hids hasc hsentences hp (rowIds i) now⟩
  · intro i j row row' hi hj s hs ha hb
    rw [carriedRows_getElem, Option.map_eq_some_iff] at hi hj
    obtain ⟨p, hp, rfl⟩ := hi
    obtain ⟨q, hq, rfl⟩ := hj
    have hmatch := ((carriedRow_carried hids hasc hsentences hp (rowIds i) now).attached s hs).mp ha
    have hmatch' := ((carriedRow_carried hids hasc hsentences hq (rowIds j) now).attached s hs).mp hb
    exact hmatch'.onlyRendering i p hp hmatch.near

end Attachment

def exampleRenderings : List PreservedTranslation :=
  [⟨"はい。".toList, some 0, "係。".toList⟩, ⟨"はい。".toList, some 9, "係呀。".toList⟩,
    ⟨"はい。".toList, none, "好。".toList⟩]

theorem carry_over_reversed :
    SameRows
      (carryManualTranslations (newSegments exampleIds.segmentIds exampleTranscript.transcript)
        exampleTranscript.transcript exampleRenderings exampleIds.rowIds 1)
      (carryManualTranslations (newSegments exampleIds.segmentIds exampleTranscript.transcript)
        exampleTranscript.transcript exampleRenderings.reverse exampleIds.rowIds 1) ∧
    ∃ rows, carryManualTranslations (newSegments exampleIds.segmentIds exampleTranscript.transcript)
        exampleTranscript.transcript exampleRenderings exampleIds.rowIds 1 = .ok rows ∧
      ∀ (i : ℕ) p, exampleRenderings[i]? = some p →
        ∃ row, rows[i]? = some row ∧ row.textZhHk = p.textZhHk := by
  have hids : ((newSegments exampleIds.segmentIds exampleTranscript.transcript).map (·.id)).Nodup := by
    decide +kernel
  have hasc : Ascending exampleTranscript.transcript := by
    unfold Ascending
    decide +kernel
  obtain ⟨hsame, hcarried⟩ := carry_over hids hasc (List.reverse_perm exampleRenderings).symm
    exampleIds.rowIds 1
  obtain ⟨sentences, hsentences⟩ : ∃ sentences,
      groupSentences exampleTranscript.transcript maxSentenceChars = .ok sentences := by
    cases h : groupSentences exampleTranscript.transcript maxSentenceChars with
    | ok sentences => exact ⟨sentences, rfl⟩
    | error e =>
      have hok : (groupSentences exampleTranscript.transcript maxSentenceChars).isOk := by
        decide +kernel
      rw [h] at hok
      cases hok
  obtain ⟨hexists, hall⟩ := hcarried sentences hsentences
  obtain ⟨rows, hrows⟩ := hexists (by decide +kernel)
  refine ⟨hsame, rows, hrows, ?_⟩
  intro i p hp
  obtain ⟨row, hrow, hcarried⟩ := (hall rows hrows).2.1 i p hp
  exact ⟨row, hrow, hcarried.words.2.1⟩

end AudioServer.Worker.CarryOver
