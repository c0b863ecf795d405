import AudioServer.Worker.DocumentInvariant

/-! The three persisters keep what the rows of a recording always satisfy. -/

namespace AudioServer.Worker.CommittedResults

open AudioServer.Foundations.Outcomes AudioServer.Foundations.Strings AudioServer.Foundations.Dicts
open AudioServer.Api.Schemas AudioServer.Db.Models AudioServer.Jobs.Queue
open AudioServer.Processing.Contracts AudioServer.Processing.Sentences AudioServer.Processing.Analysis
open AudioServer.Processing.Translation AudioServer.Processing.Merge
open AudioServer.Services.Editing AudioServer.Worker.Persisters AudioServer.Worker.DocumentInvariant

lemma flushTranslations_ok {rows rows' : List TranscriptTranslation}
    (h : flushTranslations rows = .ok rows') :
    rows' = rows ∧ (rows.map (·.id)).Nodup ∧ (rows.filterMap (·.startSegmentId)).Nodup := by
  obtain ⟨_, hids, h⟩ := bind_ok h
  obtain ⟨_, hstarts, h⟩ := bind_ok h
  cases h
  exact ⟨rfl, require_ok.mp hids, require_ok.mp hstarts⟩

lemma newSegments_lines (segmentIds : ℕ → SegmentId) (transcript : List MergedTranscriptSegment) :
    (newSegments segmentIds transcript).map lineOf = transcript.map mergedLine := by
  have hfirst : (newSegments segmentIds transcript).map lineOf =
      (transcript.zipIdx.map (·.1)).map mergedLine := by
    rw [newSegments, List.map_map, List.map_map]
    rfl
  rw [hfirst, List.zipIdx_map_fst]

lemma newSegments_sequences (segmentIds : ℕ → SegmentId) (transcript : List MergedTranscriptSegment) :
    (newSegments segmentIds transcript).map (·.sequence) = transcript.map (·.sequence) := by
  have hlines := congrArg (List.map Prod.fst) (newSegments_lines segmentIds transcript)
  rw [List.map_map, List.map_map] at hlines
  exact hlines

lemma newSegments_ordered {segmentIds : ℕ → SegmentId} {transcript : List MergedTranscriptSegment}
    (hasc : Ascending transcript) :
    orderedSegments (newSegments segmentIds transcript) = newSegments segmentIds transcript := by
  apply List.Pairwise.insertionSort_eq
  have hmerged : (transcript.map (·.sequence)).Pairwise (· < ·) := List.pairwise_map.mpr hasc
  rw [← newSegments_sequences segmentIds] at hmerged
  exact (List.pairwise_map.mp hmerged).imp (fun h => le_of_lt h)

lemma uniqueMatch_some {sentences : List TranscriptSentence} {startTime : Seconds}
    {s : TranscriptSentence} (h : uniqueMatch sentences startTime = some s) :
    s ∈ sentences ∧ |s.startTime - startTime| ≤ sameUtteranceSeconds := by
  unfold uniqueMatch at h
  split at h
  · rename_i t ht
    cases h
    have hmem : s ∈ sentences.filter
        (fun s => |s.startTime - startTime| ≤ sameUtteranceSeconds) := by
      rw [ht]
      exact List.mem_singleton_self s
    simpa using hmem
  · cases h

lemma matchOf_some {sentences : List TranscriptSentence} {preserved : List PreservedTranslation}
    {p : PreservedTranslation} {s : TranscriptSentence} (h : matchOf sentences preserved p = some s) :
    s ∈ sentences ∧ s.text = p.sourceJa ∧
      (∃ t, p.startTime = some t ∧ |s.startTime - t| ≤ sameUtteranceSeconds) ∧
      countWithin (writtenAt preserved p.sourceJa) s.startTime = 1 := by
  obtain ⟨hmatch, hcount⟩ := Option.filter_eq_some_iff.mp h
  obtain ⟨t, ht, hunique⟩ := Option.bind_eq_some_iff.mp hmatch
  obtain ⟨hmem, hnear⟩ := uniqueMatch_some hunique
  obtain ⟨hmem, htext⟩ := List.mem_filter.mp hmem
  exact ⟨hmem, of_decide_eq_true htext, ⟨t, ht, hnear⟩, of_decide_eq_true hcount⟩

lemma carriedRow_attached {segments : List TranscriptSegment} {sentences : List TranscriptSentence}
    {preserved : List PreservedTranslation} {p : PreservedTranslation} {id : ℕ} {now : Instant}
    (h : (carriedRow segments sentences preserved p id now).stale = false) :
    ∃ s, matchOf sentences preserved p = some s ∧ ∃ start ∈ segments, ∃ end_ ∈ segments,
      start.sequence = s.startSequence ∧ end_.sequence = s.endSequence ∧
      (carriedRow segments sentences preserved p id now).startSegmentId = some start.id ∧
      (carriedRow segments sentences preserved p id now).endSegmentId = some end_.id := by
  simp only [carriedRow] at h ⊢
  rw [Bool.not_eq_false'] at h
  simp only [h, if_true]
  obtain ⟨hstart, hend⟩ := Bool.and_eq_true_iff.mp h
  obtain ⟨startId, hstart⟩ := Option.isSome_iff_exists.mp hstart
  obtain ⟨endId, hend⟩ := Option.isSome_iff_exists.mp hend
  obtain ⟨s, hs, hstart'⟩ := Option.bind_eq_some_iff.mp hstart
  obtain ⟨s', hs', hend'⟩ := Option.bind_eq_some_iff.mp hend
  obtain rfl : s = s' := Option.some_inj.mp (hs.symm.trans hs')
  obtain ⟨start, hsget, rfl⟩ := Option.map_eq_some_iff.mp hstart'
  obtain ⟨end_, heget, rfl⟩ := Option.map_eq_some_iff.mp hend'
  obtain ⟨hsmem, hsseq⟩ := dictGet_some hsget
  obtain ⟨hemem, heseq⟩ := dictGet_some heget
  exact ⟨s, hs, start, hsmem, end_, hemem, hsseq, heseq, hstart, hend⟩

lemma carriedRow_describes {segmentIds : ℕ → SegmentId} {transcript : List MergedTranscriptSegment}
    {sentences : List TranscriptSentence} {preserved : List PreservedTranslation}
    {p : PreservedTranslation} {id : ℕ} {now : Instant} (hasc : Ascending transcript)
    (hsentences : groupSentences transcript maxSentenceChars = .ok sentences)
    (h : (carriedRow (newSegments segmentIds transcript) sentences preserved p id now).stale = false) :
    Describes (newSegments segmentIds transcript)
      (carriedRow (newSegments segmentIds transcript) sentences preserved p id now) := by
  obtain ⟨s, hmatch, start, hstart, end_, hend, hsseq, heseq, hsid, heid⟩ := carriedRow_attached h
  obtain ⟨hmem, htext, _, _⟩ := matchOf_some hmatch
  refine ⟨start, hstart, end_, hend, hsid, heid, ?_⟩
  have hspan : s.text = joined (covered transcript s.startSequence s.endSequence) :=
    (groupSentences_text hsentences hasc hmem).1
  rw [newSegments_ordered hasc, hsseq, heseq,
    spanText_joined (newSegments_lines segmentIds transcript).symm, ← hspan,
    if_neg (nonblank_ne_nil s.text_nonblank), htext]
  rfl

lemma staleCompleted_segments (doc : Document) :
    (staleCompleted doc).segments = doc.segments := by
  unfold staleCompleted
  split
  · split <;> rfl
  · rfl

lemma staleCompleted_status {doc : Document} {analysis : Analysis}
    (h : (staleCompleted doc).analysis = some analysis) : analysis.status ≠ .completed := by
  unfold staleCompleted at h
  split at h
  · rename_i stored hstored
    split at h
    · cases h
      exact nofun
    · rename_i hne
      rw [hstored] at h
      cases h
      exact hne
  · rename_i hnone
    rw [hnone] at h
    cases h

lemma carryManualTranslations_ok {segments : List TranscriptSegment}
    {transcript : List MergedTranscriptSegment} {preserved : List PreservedTranslation}
    {rowIds : ℕ → ℕ} {now : Instant} {rows : List TranscriptTranslation}
    (h : carryManualTranslations segments transcript preserved rowIds now = .ok rows) :
    (preserved = [] ∧ rows = []) ∨
    ∃ sentences, groupSentences transcript maxSentenceChars = .ok sentences ∧
      rows = preserved.zipIdx.map
        (fun p => carriedRow segments sentences preserved p.1 (rowIds p.2) now) ∧
      (rows.map (·.id)).Nodup ∧ (rows.filterMap (·.startSegmentId)).Nodup := by
  unfold carryManualTranslations at h
  split at h
  · rename_i hempty
    cases h
    exact .inl ⟨List.isEmpty_iff.mp hempty, rfl⟩
  · obtain ⟨sentences, hs, h⟩ := bind_ok h
    obtain ⟨rfl, hids, hstarts⟩ := flushTranslations_ok h
    exact .inr ⟨sentences, hs, rfl, hids, hstarts⟩

lemma persistTranscript_ok {result : PipelineResult} {ids : FreshIds} {now : Instant}
    {doc doc' : Document} (h : persistTranscript result ids now doc = .ok doc') :
    ∃ preserved rows, captureManualTranslations doc = .ok preserved ∧
      ((newSegments ids.segmentIds result.transcript).map (·.id)).Nodup ∧
      carryManualTranslations (newSegments ids.segmentIds result.transcript) result.transcript
        preserved ids.rowIds now = .ok rows ∧
      doc' = { staleCompleted { doc with
          segments := newSegments ids.segmentIds result.transcript
          translations := []
          transcriptRevision := doc.transcriptRevision + 1 } with
        translations := rows
        translationRevision := doc.translationRevision + 1 } := by
  obtain ⟨preserved, hp, h⟩ := bind_ok h
  obtain ⟨_, hids, h⟩ := bind_ok h
  obtain ⟨_, _, h⟩ := bind_ok h
  obtain ⟨rows, hrows, h⟩ := bind_ok h
  cases h
  refine ⟨preserved, rows, hp, require_ok.mp hids, hrows, ?_⟩
  unfold staleCompleted
  cases doc.analysis with
  | none => rfl
  | some analysis =>
    by_cases hc : analysis.status = .completed
    · simp [hc]
    · simp [hc]

lemma persistTranscript_keeps {result : PipelineResult} {ids : FreshIds} {now : Instant}
    {doc doc' : Document} (hn : Numbered result.transcript)
    (h : persistTranscript result ids now doc = .ok doc') : DocumentOk doc' := by
  obtain ⟨preserved, rows, _, hids, hrows, rfl⟩ := persistTranscript_ok h
  have hasc := hn.ascending
  have hsequences : ((newSegments ids.segmentIds result.transcript).map (·.sequence)).Nodup := by
    rw [newSegments_sequences]
    exact (List.pairwise_map.mpr hasc).imp ne_of_lt
  refine ⟨?_, ?_, ?_, ?_⟩
  · rw [staleCompleted_segments]
    exact hids
  · rw [staleCompleted_segments]
    exact hsequences
  · rw [staleCompleted_segments]
    rcases carryManualTranslations_ok hrows with ⟨_, rfl⟩ | ⟨sentences, hs, rfl, hrowIds, hstarts⟩
    · exact noRows_ok _
    · refine ⟨hrowIds, hstarts, ?_⟩
      intro row hrow hfresh
      obtain ⟨p, _, rfl⟩ := List.mem_map.mp hrow
      exact carriedRow_describes hasc hs hfresh
  · intro analysis ha hcompleted
    exact absurd hcompleted (staleCompleted_status ha)

inductive Written (segments : List TranscriptSegment) (stored : List TranscriptTranslation)
    (t : SentenceTranslation) (id : ℕ) (now : Instant) (rows : List TranscriptTranslation) :
    List TranscriptTranslation → Prop
  | kept : Written segments stored t id now rows rows
  | added {start end_} (hs : start ∈ segments) (he : end_ ∈ segments)
      (hss : start.sequence = t.startSequence) (hes : end_.sequence = t.endSequence) :
      Written segments stored t id now rows (rows ++
        [⟨id, some start.id, some end_.id, t.sourceJa, t.textZhHk, .llm, false, now⟩])
  | refreshed {start end_ row} (hs : start ∈ segments) (he : end_ ∈ segments)
      (hss : start.sequence = t.startSequence) (hes : end_.sequence = t.endSequence)
      (hrow : row ∈ stored) (hstart : row.startSegmentId = some start.id)
      (hsource : row.source ≠ .manual) :
      Written segments stored t id now rows (replaceRow (·.id) { row with
        endSegmentId := some end_.id
        sourceJa := t.sourceJa
        textZhHk := t.textZhHk
        source := .llm
        stale := false } rows)

lemma writeTranslation_written (segments : List TranscriptSegment)
    (stored : List TranscriptTranslation) (now : Instant) (rows : List TranscriptTranslation)
    (t : SentenceTranslation) (id : ℕ) :
    Written segments stored t id now rows (writeTranslation segments stored now rows t id) := by
  simp only [writeTranslation]
  split
  · rename_i startId endId hstart hend
    obtain ⟨start, hs, rfl⟩ := Option.map_eq_some_iff.mp hstart
    obtain ⟨end_, he, rfl⟩ := Option.map_eq_some_iff.mp hend
    obtain ⟨hs, hss⟩ := dictGet_some hs
    obtain ⟨he, hes⟩ := dictGet_some he
    split
    · exact .added hs he hss hes
    · rename_i row hrow
      obtain ⟨hrow, hrs⟩ := dictGet_some hrow
      split
      · exact .kept
      · rename_i hsource
        exact .refreshed hs he hss hes hrow hrs hsource
  · exact .kept

lemma sentence_describes {doc : Document} {transcript : List MergedTranscriptSegment}
    (hread : readTranscript doc = .ok transcript) {translations : List SentenceTranslation}
    (hof : OfSentences transcript translations) {t : SentenceTranslation} (ht : t ∈ translations)
    {start end_ : TranscriptSegment} (hs : start ∈ doc.segments) (he : end_ ∈ doc.segments)
    (hss : start.sequence = t.startSequence) (hes : end_.sequence = t.endSequence)
    {row : TranscriptTranslation} (hrs : row.startSegmentId = some start.id)
    (hre : row.endSegmentId = some end_.id) (hja : row.sourceJa = t.sourceJa) :
    Describes doc.segments row := by
  obtain ⟨hne, htext⟩ := hof.text t ht
  refine ⟨start, hs, end_, he, hrs, hre, ?_⟩
  rw [hss, hes, spanText_joined (readTranscript_lines hread), ← htext, if_neg hne, hja]

lemma written_described {doc : Document} {transcript : List MergedTranscriptSegment}
    (hread : readTranscript doc = .ok transcript) {translations : List SentenceTranslation}
    (hof : OfSentences transcript translations) {t : SentenceTranslation} (ht : t ∈ translations)
    {stored rows rows' : List TranscriptTranslation} {now : Instant} {id : ℕ}
    (h : Written doc.segments stored t id now rows rows')
    (hrows : ∀ row ∈ rows, row.stale = false → Describes doc.segments row) :
    ∀ row ∈ rows', row.stale = false → Describes doc.segments row := by
  intro row hrow hfresh
  cases h with
  | kept => exact hrows row hrow hfresh
  | added hs he hss hes =>
    rcases List.mem_append.mp hrow with hrow | hrow
    · exact hrows row hrow hfresh
    · rw [List.mem_singleton.mp hrow]
      exact sentence_describes hread hof ht hs he hss hes rfl rfl rfl
  | refreshed hs he hss hes _ hstart _ =>
    rcases mem_replaceRow hrow with rfl | ⟨hrow, _⟩
    · exact sentence_describes hread hof ht hs he hss hes hstart rfl rfl
    · exact hrows row hrow hfresh

lemma rounds_keep (P : List TranscriptTranslation → Prop) {segments : List TranscriptSegment}
    {stored : List TranscriptTranslation} {rowIds : ℕ → ℕ} {now : Instant}
    {translations : List SentenceTranslation}
    (hround : ∀ t ∈ translations, ∀ id rows rows', P rows →
      Written segments stored t id now rows rows' → P rows')
    {rounds : List (SentenceTranslation × ℕ)} (hmem : ∀ r ∈ rounds, r.1 ∈ translations)
    {rows : List TranscriptTranslation} (hp : P rows) :
    P (rounds.foldl (fun rows t => writeTranslation segments stored now rows t.1 (rowIds t.2)) rows) := by
  induction rounds generalizing rows with
  | nil => exact hp
  | cons r rounds ih =>
    have hmem' := List.forall_mem_cons.mp hmem
    rw [List.foldl_cons]
    apply ih hmem'.2
    exact hround r.1 hmem'.1 _ _ _ hp (writeTranslation_written segments stored now rows r.1 _)

lemma persistTranslations_ok {result : TranslationResult} {ids : FreshIds} {now : Instant}
    {doc doc' : Document} (h : persistTranslations result ids now doc = .ok doc') :
    ∃ rows, doc' = { doc with
        translations := rows, translationRevision := doc.translationRevision + 1 } ∧
      (rows = doc.translations ∨ ((rows.map (·.id)).Nodup ∧
        (rows.filterMap (·.startSegmentId)).Nodup ∧
        ∀ P : List TranscriptTranslation → Prop, P doc.translations →
          (∀ t ∈ result.translations, ∀ id rows rows', P rows →
            Written doc.segments doc.translations t id now rows rows' → P rows') → P rows)) := by
  obtain ⟨rows, hrows, h⟩ := bind_ok h
  cases h
  refine ⟨rows, rfl, ?_⟩
  unfold writeTranslations at hrows
  split at hrows
  · cases hrows
    exact .inl rfl
  · obtain ⟨rfl, hids, hstarts⟩ := flushTranslations_ok hrows
    refine .inr ⟨hids, hstarts, ?_⟩
    intro P hp hround
    apply rounds_keep P hround _ hp
    intro r hr
    exact (List.mem_zipIdx' hr).2 ▸ List.getElem_mem _

lemma persistTranslations_keeps {result : TranslationResult} {ids : FreshIds} {now : Instant}
    {doc doc' : Document} {transcript : List MergedTranscriptSegment} (hok : DocumentOk doc)
    (hread : readTranscript doc = .ok transcript) (hof : OfSentences transcript result.translations)
    (h : persistTranslations result ids now doc = .ok doc') : DocumentOk doc' := by
  obtain ⟨rows, rfl, rfl | ⟨hids, hstarts, hrounds⟩⟩ := persistTranslations_ok h
  · exact ⟨hok.segmentIds, hok.sequences, hok.rows, hok.grounded⟩
  · refine ⟨hok.segmentIds, hok.sequences, ⟨hids, hstarts, ?_⟩, hok.grounded⟩
    apply hrounds (fun rows => ∀ row ∈ rows, row.stale = false → Describes doc.segments row)
      hok.rows.described
    intro t ht id rows rows' hrows hwritten
    exact written_described hread hof ht hwritten hrows

lemma persistAnalysis_keeps {claim : ClaimedJob} {result : AnalysisResult} {now : Instant}
    {doc doc' : Document} {transcript : List MergedTranscriptSegment} (hok : DocumentOk doc)
    (hread : readTranscript doc = .ok transcript)
    (hgrounded : ∀ data, result.data = some data → ∀ q ∈ data.quotes,
      Grounded transcript q.segmentSequence q.originalJa)
    (h : persistAnalysis claim result now doc = .ok doc') : DocumentOk doc' := by
  unfold persistAnalysis at h
  split at h
  · cases h
    exact hok
  · cases h
    refine ⟨hok.segmentIds, hok.sequences, hok.rows, ?_⟩
    intro analysis ha _ data hdata q hq
    cases ha
    exact readTranscript_grounded hread (hgrounded data hdata q hq)

end AudioServer.Worker.CommittedResults
