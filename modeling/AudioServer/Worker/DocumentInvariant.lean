import AudioServer.Worker.Persisters

/-! What the rows of one recording always satisfy, and that each of the six
writers of those rows keeps it. -/

namespace AudioServer.Worker.DocumentInvariant

open AudioServer.Foundations.Outcomes AudioServer.Foundations.Strings AudioServer.Foundations.Dicts
open AudioServer.Api.Schemas AudioServer.Db.Models AudioServer.Jobs.Queue
open AudioServer.Processing.Contracts AudioServer.Processing.Sentences AudioServer.Processing.Analysis
open AudioServer.Processing.Translation AudioServer.Processing.Merge
open AudioServer.Services.Editing AudioServer.Worker.Persisters

def Describes (segments : List TranscriptSegment) (row : TranscriptTranslation) : Prop :=
  ∃ s ∈ segments, ∃ e ∈ segments, row.startSegmentId = some s.id ∧ row.endSegmentId = some e.id ∧
    spanText (orderedSegments segments) (some s.sequence) (some e.sequence) = some row.sourceJa

def GroundedIn (segments : List TranscriptSegment) (result : AnalysisResultV2) : Prop :=
  ∀ q ∈ result.quotes, ∃ s ∈ segments, s.sequence = q.segmentSequence ∧ Occurs q.originalJa s.text

structure RowsOk (segments : List TranscriptSegment) (rows : List TranscriptTranslation) : Prop where
  rowIds : (rows.map (·.id)).Nodup
  starts : (rows.filterMap (·.startSegmentId)).Nodup
  described : ∀ row ∈ rows, row.stale = false → Describes segments row

structure DocumentOk (doc : Document) : Prop where
  segmentIds : (doc.segments.map (·.id)).Nodup
  sequences : (doc.segments.map (·.sequence)).Nodup
  rows : RowsOk doc.segments doc.translations
  grounded : ∀ analysis, doc.analysis = some analysis → analysis.status = .completed →
    ∀ result, analysis.result = some result → GroundedIn doc.segments result

lemma noRows_ok (segments : List TranscriptSegment) : RowsOk segments [] :=
  ⟨List.nodup_nil, List.nodup_nil, fun _ h => absurd h List.not_mem_nil⟩

lemma empty_ok : DocumentOk Document.empty where
  segmentIds := List.nodup_nil
  sequences := List.nodup_nil
  rows := noRows_ok []
  grounded _ h := nomatch h

def lineOf (s : TranscriptSegment) : ℤ × Text := (s.sequence, s.text)

def mergedLine (m : MergedTranscriptSegment) : ℤ × Text := (m.sequence, m.text)

lemma flatMap_filter_line {α : Type} (line : α → ℤ × Text) (p : ℤ → Bool) (xs : List α) :
    (xs.filter (fun x => p (line x).1)).flatMap (fun x => (line x).2) =
      ((xs.map line).filter (fun l => p l.1)).flatMap (·.2) := by
  rw [List.filter_map, List.flatMap_map]
  rfl

lemma spanText_joined {segments : List TranscriptSegment} {merged : List MergedTranscriptSegment}
    (h : merged.map mergedLine = segments.map lineOf) (start end_ : ℤ) :
    spanText segments (some start) (some end_) =
      if joined (covered merged start end_) = [] then none
      else some (joined (covered merged start end_)) := by
  have hrows := flatMap_filter_line lineOf (fun n => decide (start ≤ n ∧ n ≤ end_)) segments
  have hmerged := flatMap_filter_line mergedLine (fun n => decide (start ≤ n ∧ n ≤ end_)) merged
  have hsame : (segments.filter (fun s => decide (start ≤ s.sequence ∧ s.sequence ≤ end_))).flatMap
      (·.text) = (covered merged start end_).flatMap (·.text) := by
    rw [covered]
    exact hrows.trans ((congrArg _ (congrArg _ h.symm)).trans hmerged.symm)
  simp only [spanText, joined, hsame]
  congr

lemma mem_ordered {segments : List TranscriptSegment} {s : TranscriptSegment} :
    s ∈ orderedSegments segments ↔ s ∈ segments := List.mem_insertionSort _

lemma ordered_nodup {segments : List TranscriptSegment} {β : Type} {f : TranscriptSegment → β}
    (h : (segments.map f).Nodup) : ((orderedSegments segments).map f).Nodup :=
  ((List.perm_insertionSort _ segments).map f).nodup_iff.mpr h

lemma ordered_ascending {segments : List TranscriptSegment} (h : (segments.map (·.sequence)).Nodup) :
    (orderedSegments segments).Pairwise (fun a b => a.sequence < b.sequence) := by
  have hle : (orderedSegments segments).Pairwise (fun a b => a.sequence ≤ b.sequence) := by
    have : IsTrans TranscriptSegment (fun a b => a.sequence ≤ b.sequence) := ⟨fun _ _ _ => le_trans⟩
    have : Std.Total (fun a b : TranscriptSegment => a.sequence ≤ b.sequence) :=
      ⟨fun a b => le_total a.sequence b.sequence⟩
    exact List.pairwise_insertionSort _ segments
  have hne : (orderedSegments segments).Pairwise (fun a b => a.sequence ≠ b.sequence) :=
    List.pairwise_map.mp (ordered_nodup h)
  exact (hle.and hne).imp (fun h => lt_of_le_of_ne h.1 h.2)

lemma readTranscript_lines {doc : Document} {transcript : List MergedTranscriptSegment}
    (h : readTranscript doc = .ok transcript) :
    transcript.map mergedLine = (orderedSegments doc.segments).map lineOf := by
  apply mapM_map ?_ h
  intro row m hm
  obtain ⟨hsequence, _, _, _, htext⟩ := MergedTranscriptSegment.make_ok hm
  rw [mergedLine, lineOf, hsequence, htext]

lemma readTranscript_ascending {doc : Document} {transcript : List MergedTranscriptSegment}
    (hok : DocumentOk doc) (h : readTranscript doc = .ok transcript) : Ascending transcript := by
  have hsorted := ordered_ascending hok.sequences
  have hlines := congrArg (List.map Prod.fst) (readTranscript_lines h)
  simp only [List.map_map] at hlines
  have hrows : ((orderedSegments doc.segments).map (·.sequence)).Pairwise (· < ·) :=
    List.pairwise_map.mpr hsorted
  have hmerged : (transcript.map (·.sequence)).Pairwise (· < ·) := by
    have hsame : transcript.map (·.sequence) = (orderedSegments doc.segments).map (·.sequence) := hlines
    rwa [hsame]
  exact List.pairwise_map.mp hmerged

lemma readTranscript_grounded {doc : Document} {transcript : List MergedTranscriptSegment}
    (h : readTranscript doc = .ok transcript) {sequence : ℤ} {quote : Text}
    (hg : Grounded transcript sequence quote) :
    ∃ s ∈ doc.segments, s.sequence = sequence ∧ Occurs quote s.text := by
  obtain ⟨m, hm, rfl, hoccurs⟩ := hg
  obtain ⟨s, hs, hmerge⟩ := mapM_mem h hm
  obtain ⟨hsequence, _, _, _, htext⟩ := MergedTranscriptSegment.make_ok hmerge
  exact ⟨s, mem_ordered.mp hs, hsequence.symm, htext ▸ hoccurs⟩

lemma placements_items (ordered : List TranscriptSegmentUpdate) :
    (placements ordered).map (·.sequence) = List.range (placements ordered).length := by
  have hmap : (placements ordered).map (·.sequence) =
      ((ordered.zip (overlapFlags none ordered)).zipIdx).map (·.2) := by
    rw [placements, List.map_map]
    rfl
  have hlen : (placements ordered).length = (ordered.zip (overlapFlags none ordered)).length := by
    simp [placements]
  rw [hmap, hlen, List.zipIdx_map_snd, List.range_eq_range']

lemma overlapFlags_length (ordered : List TranscriptSegmentUpdate) (before : Option Seconds) :
    (overlapFlags before ordered).length = ordered.length := by
  induction ordered generalizing before with
  | nil => rfl
  | cons item rest ih => simp [overlapFlags, ih]

lemma placements_map_item (ordered : List TranscriptSegmentUpdate) :
    (placements ordered).map (·.item) = ordered := by
  have hflags := overlapFlags_length ordered none
  have hitems : (placements ordered).map (·.item) =
      (((ordered.zip (overlapFlags none ordered)).zipIdx).map (·.1)).map (·.1) := by
    rw [placements, List.map_map, List.map_map]
    rfl
  rw [hitems, List.zipIdx_map_fst, List.map_fst_zip (le_of_eq hflags.symm)]

lemma mem_placements {ordered : List TranscriptSegmentUpdate} {item : TranscriptSegmentUpdate} :
    item ∈ ordered ↔ ∃ p ∈ placements ordered, p.item = item := by
  conv_lhs => rw [← placements_map_item ordered]
  exact List.mem_map

lemma placeSegment_id (placed : List Placement) (segment : TranscriptSegment) :
    (placeSegment placed segment).id = segment.id := by
  unfold placeSegment
  split <;> rfl

def placedSegment (p : Placement) (segment : TranscriptSegment) : TranscriptSegment :=
  { segment with
    sequence := p.sequence
    speakerLabel := p.item.speakerLabel
    startTime := p.item.startTime
    endTime := p.item.endTime
    text := p.item.text
    confidence := none
    hasOverlap := p.hasOverlap }

lemma placeSegment_placed {ordered : List TranscriptSegmentUpdate} {s : TranscriptSegment}
    (h : ∃ u ∈ ordered, u.id = s.id) : ∃ p ∈ placements ordered, p.item.id = s.id ∧
      placeSegment (placements ordered) s = placedSegment p s := by
  obtain ⟨u, hu, hus⟩ := h
  obtain ⟨p₀, hp₀, rfl⟩ := mem_placements.mp hu
  cases hf : (placements ordered).find? (fun p => p.item.id = s.id) with
  | none => exact absurd (decide_eq_true hus) (List.find?_eq_none.mp hf p₀ hp₀)
  | some p =>
    have hid : p.item.id = s.id := by simpa using List.find?_some hf
    refine ⟨p, List.mem_of_find?_eq_some hf, hid, ?_⟩
    rw [placeSegment, hf]
    rfl

lemma placements_nodup (ordered : List TranscriptSegmentUpdate) :
    ((placements ordered).map (·.sequence)).Nodup := by
  rw [placements_items]
  exact List.nodup_range

lemma placed_sequences {segments : List TranscriptSegment} {ordered : List TranscriptSegmentUpdate}
    (hids : (segments.map (·.id)).Nodup) (hall : ∀ s ∈ segments, ∃ u ∈ ordered, u.id = s.id) :
    ((segments.map (placeSegment (placements ordered))).map (·.sequence)).Nodup := by
  have hnodup : segments.Nodup := hids.of_map
  rw [List.map_map]
  apply (List.nodup_map_iff_inj_on hnodup).mpr
  intro a ha b hb he
  obtain ⟨p, hp, hpa, hsa⟩ := placeSegment_placed (hall a ha)
  obtain ⟨q, hq, hqb, hsb⟩ := placeSegment_placed (hall b hb)
  rw [Function.comp_apply, Function.comp_apply, hsa, hsb] at he
  have hpq : p = q :=
    List.inj_on_of_nodup_map (placements_nodup ordered) hp hq (Int.ofNat_inj.mp he)
  exact List.inj_on_of_nodup_map hids ha hb (hpa.symm.trans ((congrArg (fun p => p.item.id) hpq).trans hqb))

lemma editTranscript_doc {durationSeconds : Seconds} {updates : List TranscriptSegmentUpdate}
    {doc doc' : Document} (h : editTranscript durationSeconds updates doc = .ok doc') :
    (∀ s ∈ doc.segments, ∃ u ∈ updates.insertionSort UpdateOrder, u.id = s.id) ∧
    doc' = staleAnalysis (staleTranslations { doc with
      segments := doc.segments.map (placeSegment (placements (updates.insertionSort UpdateOrder)))
      transcriptRevision := doc.transcriptRevision + 1 }) := by
  obtain ⟨_, hids, h⟩ := bind_ok h
  obtain ⟨_, _, h⟩ := bind_ok h
  cases h
  refine ⟨?_, rfl⟩
  intro s hs
  obtain ⟨u, hu, hus⟩ := List.mem_map.mp ((require_ok.mp hids).2.2 (List.mem_map_of_mem hs))
  exact ⟨u, (List.mem_insertionSort _).mpr hu, hus⟩

lemma staleTranslations_rows (doc : Document) :
    (staleTranslations doc).translations = doc.translations.map (fun t => { t with stale := true }) := by
  unfold staleTranslations
  split
  · rename_i h
    rw [h]
    rfl
  · rfl

@[simp] lemma staleTranslations_segments (doc : Document) :
    (staleTranslations doc).segments = doc.segments := by
  unfold staleTranslations
  split <;> rfl

@[simp] lemma staleTranslations_analysis (doc : Document) :
    (staleTranslations doc).analysis = doc.analysis := by
  unfold staleTranslations
  split <;> rfl

@[simp] lemma staleAnalysis_segments (doc : Document) :
    (staleAnalysis doc).segments = doc.segments := by
  unfold staleAnalysis
  split <;> rfl

@[simp] lemma staleAnalysis_translations (doc : Document) :
    (staleAnalysis doc).translations = doc.translations := by
  unfold staleAnalysis
  split <;> rfl

lemma staleAnalysis_status {doc : Document} {analysis : Analysis}
    (h : (staleAnalysis doc).analysis = some analysis) : analysis.status = .stale := by
  unfold staleAnalysis at h
  split at h
  · rename_i hnone
    rw [hnone] at h
    cases h
  · cases h
    rfl

lemma editTranscript_keeps {durationSeconds : Seconds} {updates : List TranscriptSegmentUpdate}
    {doc doc' : Document} (hok : DocumentOk doc)
    (h : editTranscript durationSeconds updates doc = .ok doc') : DocumentOk doc' := by
  obtain ⟨hall, rfl⟩ := editTranscript_doc h
  have hrows : (staleTranslations { doc with
      segments := doc.segments.map (placeSegment (placements (updates.insertionSort UpdateOrder)))
      transcriptRevision := doc.transcriptRevision + 1 }).translations =
      doc.translations.map (fun t => { t with stale := true }) := staleTranslations_rows _
  refine ⟨?_, ?_, ⟨?_, ?_, ?_⟩, ?_⟩
  · have hids : (doc.segments.map
        (placeSegment (placements (updates.insertionSort UpdateOrder)))).map (·.id) =
        doc.segments.map (·.id) := by
      rw [List.map_map]
      exact List.map_congr_left (fun s _ => placeSegment_id _ s)
    simpa only [staleAnalysis_segments, staleTranslations_segments, hids] using hok.segmentIds
  · simpa only [staleAnalysis_segments, staleTranslations_segments]
      using placed_sequences hok.segmentIds hall
  · rw [staleAnalysis_translations, hrows, List.map_map]
    exact hok.rows.rowIds
  · rw [staleAnalysis_translations, hrows, List.filterMap_map]
    exact hok.rows.starts
  · intro row hrow hfresh
    rw [staleAnalysis_translations, hrows] at hrow
    obtain ⟨t, _, rfl⟩ := List.mem_map.mp hrow
    cases hfresh
  · intro analysis hanalysis hcompleted
    rw [staleAnalysis_status hanalysis] at hcompleted
    cases hcompleted

lemma groundResultQuote_grounded {segments : List TranscriptSegment} {q q' : AnalysisQuote}
    (h : groundResultQuote segments q = .ok q') :
    ∃ s ∈ segments, s.sequence = q'.segmentSequence ∧ Occurs q'.originalJa s.text := by
  unfold groundResultQuote at h
  split at h
  · rename_i s hs
    split at h
    · rename_i hoccurs
      cases h
      exact ⟨s, (dictGet_some hs).1, (dictGet_some hs).2, hoccurs⟩
    · cases h
  · cases h

lemma groundAnalysisResult_grounded {segments : List TranscriptSegment} {r r' : AnalysisResultV2}
    (h : groundAnalysisResult segments r = .ok r') : GroundedIn segments r' := by
  obtain ⟨expressions, he, h⟩ := bind_ok h
  obtain ⟨highlights, hh, h⟩ := bind_ok h
  obtain ⟨_, _, h⟩ := bind_ok h
  cases h
  intro q hq
  rcases List.mem_append.mp hq with hq | hq
  · obtain ⟨_, _, hground⟩ := mapM_mem he hq
    exact groundResultQuote_grounded hground
  · obtain ⟨_, _, hground⟩ := mapM_mem hh hq
    exact groundResultQuote_grounded hground

lemma editAnalysis_ok {latest : Option JobId} {result : AnalysisResultV2} {now : Instant}
    {doc doc' : Document} (h : editAnalysis latest result now doc = .ok doc') :
    ∃ grounded jobId, groundAnalysisResult doc.segments result = .ok grounded ∧
      doc' = { doc with
        analysis := some (manualAnalysis jobId grounded now)
        analysisRevision := doc.analysisRevision + 1 } := by
  obtain ⟨grounded, hg, h⟩ := bind_ok h
  obtain ⟨jobId, _, h⟩ := bind_ok h
  cases h
  exact ⟨grounded, jobId, hg, rfl⟩

lemma editAnalysis_keeps {latest : Option JobId} {result : AnalysisResultV2} {now : Instant}
    {doc doc' : Document} (hok : DocumentOk doc) (h : editAnalysis latest result now doc = .ok doc') :
    DocumentOk doc' := by
  obtain ⟨grounded, jobId, hg, rfl⟩ := editAnalysis_ok h
  refine ⟨hok.segmentIds, hok.sequences, hok.rows, ?_⟩
  intro analysis ha _ r hr
  cases ha
  cases hr
  exact groundAnalysisResult_grounded hg

lemma spanText_some {segments : List TranscriptSegment} {start end_ : Option ℤ} {text : Text}
    (h : spanText segments start end_ = some text) : ∃ n m, start = some n ∧ end_ = some m := by
  unfold spanText at h
  split at h
  · exact ⟨_, _, rfl, rfl⟩
  · cases h

lemma currentJa_describes {segments : List TranscriptSegment} {row : TranscriptTranslation}
    {current : Text} (h : currentJa (orderedSegments segments) row = some current) :
    ∃ s ∈ segments, ∃ e ∈ segments, row.startSegmentId = some s.id ∧ row.endSegmentId = some e.id ∧
      spanText (orderedSegments segments) (some s.sequence) (some e.sequence) = some current := by
  have hfind : ∀ {id : Option SegmentId} {n : ℤ}, (id.bind (fun id =>
      (dictGet (·.id) (orderedSegments segments) id).map (·.sequence))) = some n →
      ∃ s ∈ segments, id = some s.id ∧ s.sequence = n := by
    intro id n hn
    obtain ⟨sid, rfl, hn⟩ := Option.bind_eq_some_iff.mp hn
    obtain ⟨s, hs, rfl⟩ := Option.map_eq_some_iff.mp hn
    obtain ⟨hmem, rfl⟩ := dictGet_some hs
    exact ⟨s, mem_ordered.mp hmem, rfl, rfl⟩
  simp only [currentJa] at h
  obtain ⟨n, m, hstart, hend⟩ := spanText_some h
  rw [hstart, hend] at h
  obtain ⟨s, hs, hsid, rfl⟩ := hfind hstart
  obtain ⟨e, he, heid, rfl⟩ := hfind hend
  exact ⟨s, hs, e, he, hsid, heid, h⟩

lemma saveTranslation_ok {segments : List TranscriptSegment} {rows rows' : List TranscriptTranslation}
    {update : TranslationUpdate} (h : saveTranslation segments rows update = .ok rows') :
    ∃ row ∈ rows, ∃ current, row.startSegmentId = some update.startSegmentId ∧
      currentJa segments row = some current ∧
      rows' = replaceRow (·.id) { row with
        textZhHk := update.textZhHk, sourceJa := current, source := .manual, stale := false } rows := by
  obtain ⟨row, hrow, h⟩ := bind_ok h
  obtain ⟨current, hcurrent, h⟩ := bind_ok h
  cases h
  obtain ⟨hmem, hstart⟩ := dictGet_some (found_ok.mp hrow)
  exact ⟨row, hmem, current, hstart, found_ok.mp hcurrent, rfl⟩

lemma replaceRow_ok {segments : List TranscriptSegment} {rows : List TranscriptTranslation}
    {row row' : TranscriptTranslation} (hok : RowsOk segments rows) (hrow : row ∈ rows)
    (hid : row'.id = row.id) (hstart : row'.startSegmentId = row.startSegmentId)
    (hdescribes : row'.stale = false → Describes segments row') :
    RowsOk segments (replaceRow (·.id) row' rows) := by
  refine ⟨?_, ?_, ?_⟩
  · rw [replaceRow_keys]
    exact hok.rowIds
  · have hstarts := replaceRow_map (f := (·.startSegmentId)) hok.rowIds hrow hid hstart
    have hids : ∀ rows : List TranscriptTranslation, rows.filterMap (·.startSegmentId) =
        (rows.map (·.startSegmentId)).filterMap id := by
      intro rows
      rw [List.filterMap_map, Function.id_comp]
    rw [hids, hstarts, ← hids]
    exact hok.starts
  · intro r hr hfresh
    rcases mem_replaceRow hr with rfl | ⟨hr, _⟩
    · exact hdescribes hfresh
    · exact hok.described r hr hfresh

lemma saveTranslation_keeps {segments : List TranscriptSegment}
    {rows rows' : List TranscriptTranslation} {update : TranslationUpdate}
    (hok : RowsOk segments rows)
    (h : saveTranslation (orderedSegments segments) rows update = .ok rows') :
    RowsOk segments rows' := by
  obtain ⟨row, hrow, current, _, hcurrent, rfl⟩ := saveTranslation_ok h
  exact replaceRow_ok hok hrow rfl rfl (fun _ => currentJa_describes hcurrent)

lemma editTranslations_ok {updates : List TranslationUpdate} {doc doc' : Document}
    (h : editTranslations updates doc = .ok doc') :
    ∃ rows, updates.foldlM (saveTranslation (orderedSegments doc.segments)) doc.translations =
        .ok rows ∧
      doc' = { doc with
        translations := rows, translationRevision := doc.translationRevision + 1 } := by
  obtain ⟨rows, hrows, h⟩ := bind_ok h
  cases h
  exact ⟨rows, hrows, rfl⟩

lemma editTranslations_keeps {updates : List TranslationUpdate} {doc doc' : Document}
    (hok : DocumentOk doc) (h : editTranslations updates doc = .ok doc') : DocumentOk doc' := by
  obtain ⟨rows, hrows, rfl⟩ := editTranslations_ok h
  have hkept : RowsOk doc.segments rows :=
    foldlM_keeps (fun _ _ _ _ => saveTranslation_keeps) hok.rows hrows
  exact ⟨hok.segmentIds, hok.sequences, hkept, hok.grounded⟩

end AudioServer.Worker.DocumentInvariant
