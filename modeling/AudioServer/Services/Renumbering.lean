import AudioServer.Api.Requests
import AudioServer.Foundations.Effects
import AudioServer.Foundations.RowWrites
import AudioServer.Foundations.Sorting
import AudioServer.Worker.DocumentInvariant

/-! A transcript save row by row, through the two flushes that renumber the segments. -/

namespace AudioServer.Services.Renumbering

open AudioServer.Foundations.Effects AudioServer.Foundations.Outcomes AudioServer.Foundations.Dicts
open AudioServer.Foundations.RowWrites AudioServer.Foundations.Sorting AudioServer.Foundations.Strings
open AudioServer.Api.Schemas AudioServer.Api.Requests
open AudioServer.Db.Models AudioServer.Services.Recordings AudioServer.Services.Editing
open AudioServer.Worker.DocumentInvariant

/-- The orders the database and the session choose: of the rows selected without `ORDER BY`, and
of the row updates of the two flushes. -/
structure RowOrders where
  selected : List TranscriptSegment → List TranscriptSegment
  temporary : List TranscriptSegment → List TranscriptSegment
  final : List TranscriptSegment → List TranscriptSegment
  selected_perm : ∀ rows, (selected rows).Perm rows
  temporary_perm : ∀ rows, (temporary rows).Perm rows
  final_perm : ∀ rows, (final rows).Perm rows

abbrev Session := EStateM Exn Database

def raising {α : Type} : Except Exn α → Session α
  | .ok a => pure a
  | .error e => throw e

def withSegments (id : RecordingId) (segments : List TranscriptSegment) (db : Database) : Database :=
  { db with
    documents := Function.update db.documents id { db.documents id with segments := segments } }

/-- One row of a flush, held against `uq_transcript_recording_sequence` as it is written. -/
def writeSegment (id : RecordingId) (row : TranscriptSegment) : Session Unit := do
  let segments := ((← get).documents id).segments
  if segments.any (fun s => s.id ≠ row.id ∧ s.sequence = row.sequence) then
    throw (.integrityError .transcriptRecordingSequence)
  else modify (withSegments id (replaceRow (·.id) row segments))

def flushSegments (id : RecordingId) : List TranscriptSegment → Session Unit
  | [] => pure ()
  | row :: rows => do
    writeSegment id row
    flushSegments id rows

def temporarySegments (segments : List TranscriptSegment) : List TranscriptSegment :=
  (segments.zipIdx 1).map (fun p => { p.1 with sequence := -(p.2 : ℤ) })

def markDependents (id : RecordingId) (db : Database) : Database :=
  let doc := db.documents id
  let edited := { doc with transcriptRevision := doc.transcriptRevision + 1 }
  { db with
    documents := Function.update db.documents id (staleAnalysis (staleTranslations edited)) }

def Complete (updates : List TranscriptSegmentUpdate) (segments : List TranscriptSegment) : Prop :=
  (updates.map (·.id)).Nodup ∧ updates.map (·.id) ⊆ segments.map (·.id) ∧
    segments.map (·.id) ⊆ updates.map (·.id)

instance (updates : List TranscriptSegmentUpdate) (segments : List TranscriptSegment) :
    Decidable (Complete updates segments) := inferInstanceAs (Decidable (_ ∧ _))

def placedSegments (updates : List TranscriptSegmentUpdate) (segments : List TranscriptSegment) :
    List TranscriptSegment :=
  segments.map (placeSegment (placements (updates.insertionSort UpdateOrder)))

def updateTranscriptRows (orders : RowOrders) (id : RecordingId) (expectedRevision : ℕ)
    (updates : List TranscriptSegmentUpdate) : Session (Recording × List TranscriptSegment) := do
  let db ← get
  let recording ← raising (found (db.recording id) recordingNotFound)
  raising (require ((db.documents id).transcriptRevision = expectedRevision)
    (.recordingService "transcript_revision_conflict"
      "The transcript changed in another session. Reload before saving." 409))
  raising (rejectActiveJob db id)
  let segments := orders.selected (db.documents id).segments
  raising (require (Complete updates segments)
    (.recordingService "transcript_segments_incomplete"
      "The complete current transcript segment list is required." 422))
  raising (require (∀ item ∈ updates.insertionSort UpdateOrder, item.endTime ≤ recording.durationSeconds)
    (.recordingService "transcript_time_out_of_range"
      "Transcript timestamps must stay within the recording duration." 422))
  let temporary := temporarySegments segments
  flushSegments id (orders.temporary temporary)
  let placed := placedSegments updates temporary
  modify (markDependents id)
  flushSegments id (orders.final placed)
  return (recording, orderedSegments placed)

structure Stored (segments : List TranscriptSegment) : Prop where
  ids : (segments.map (·.id)).Nodup
  sequences : (segments.map (·.sequence)).Nodup
  nonneg : ∀ s ∈ segments, 0 ≤ s.sequence

section Flushes

variable {id : RecordingId} {db : Database} {rows written : List TranscriptSegment}

lemma withSegments_segments : ((withSegments id rows db).documents id).segments = rows := by
  simp [withSegments]

lemma withSegments_twice (rows' : List TranscriptSegment) :
    withSegments id rows' (withSegments id rows db) = withSegments id rows' db := by
  simp [withSegments]

structure Writable (rows written : List TranscriptSegment) : Prop where
  ids : (written.map (·.id)).Nodup
  sequences : (written.map (·.sequence)).Nodup
  free : ∀ x ∈ written, ∀ r ∈ rows, x.sequence ≠ r.sequence

lemma Writable.perm {written' : List TranscriptSegment} (h : Writable rows written)
    (hperm : written'.Perm written) : Writable rows written' where
  ids := (hperm.map _).nodup_iff.mpr h.ids
  sequences := (hperm.map _).nodup_iff.mpr h.sequences
  free x hx := h.free x (hperm.mem_iff.mp hx)

lemma Writable.initial {before after : List TranscriptSegment}
    (h : Writable rows (before ++ after)) : Writable rows before where
  ids := (List.map_append ▸ h.ids).of_append_left
  sequences := (List.map_append ▸ h.sequences).of_append_left
  free x hx := h.free x (List.mem_append_left _ hx)

lemma writeSegment_ok {x : TranscriptSegment} (h : Writable rows (written ++ [x])) :
    writeSegment id x (withSegments id (rows.map (overlay (·.id) written)) db) =
      .ok () (withSegments id (rows.map (overlay (·.id) (written ++ [x]))) db) := by
  have hapart : ∀ r ∈ rows.map (overlay (·.id) written), r.sequence ≠ x.sequence :=
    overlay_apart h.sequences (h.free x (List.mem_append_right _ List.mem_cons_self))
  have hnew : ∀ y ∈ written, y.id ≠ x.id := by
    have hids := h.ids
    rw [List.map_append, List.nodup_append] at hids
    exact fun y hy => hids.2.2 _ (List.mem_map_of_mem hy) _ (List.mem_singleton.mpr rfl)
  have hpass : ¬ (rows.map (overlay (·.id) written)).any
      (fun s => s.id ≠ x.id ∧ s.sequence = x.sequence) := by
    simp only [List.any_eq_true, decide_eq_true_eq, not_exists, not_and]
    exact fun s hs _ => hapart s hs
  rw [overlay_concat hnew, writeSegment]
  show (if _ then _ else _ : Session Unit) _ = _
  rw [withSegments_segments, if_neg hpass]
  show EStateM.Result.ok () (withSegments id _ (withSegments id _ db)) = _
  rw [withSegments_twice]

lemma flushSegments_ok {rest : List TranscriptSegment} (h : Writable rows (written ++ rest)) :
    flushSegments id rest (withSegments id (rows.map (overlay (·.id) written)) db) =
      .ok () (withSegments id (rows.map (overlay (·.id) (written ++ rest))) db) := by
  induction rest generalizing written with
  | nil => simp [flushSegments, pure, EStateM.pure]
  | cons x rest ih =>
    rw [List.append_cons] at h ⊢
    rw [flushSegments, bind_run_ok _ (writeSegment_ok h.initial)]
    exact ih h

lemma flush_ok (hrows : (db.documents id).segments = rows) (h : Writable rows written) :
    flushSegments id written db = .ok () (withSegments id (rows.map (overlay (·.id) written)) db) := by
  have hbefore : withSegments id (rows.map (overlay (·.id) [])) db = db := by
    have hmap : rows.map (overlay (·.id) []) = (db.documents id).segments := by
      rw [hrows]
      exact List.map_id rows
    rw [hmap, withSegments, Function.update_eq_self]
  conv_lhs => rw [← hbefore]
  exact flushSegments_ok (List.nil_append written ▸ h)

lemma flush_distinct (hrows : (db.documents id).segments = rows) (hids : (rows.map (·.id)).Nodup)
    (hsequences : (rows.map (·.sequence)).Nodup) (h : Writable rows written) :
    ∃ db', flushSegments id written db = .ok () db' ∧
      ((db'.documents id).segments.map (·.sequence)).Nodup := by
  refine ⟨_, flush_ok hrows h, ?_⟩
  rw [withSegments_segments]
  exact overlay_nodup hids hsequences h.sequences h.free

end Flushes

section Renumbering

variable {segments selected : List TranscriptSegment} {updates : List TranscriptSegmentUpdate}

lemma temporary_ids (selected : List TranscriptSegment) :
    (temporarySegments selected).map (·.id) = selected.map (·.id) := by
  have hmap : (temporarySegments selected).map (·.id) = ((selected.zipIdx 1).map Prod.fst).map (·.id) := by
    rw [temporarySegments, List.map_map, List.map_map]
    rfl
  rw [hmap, List.zipIdx_map_fst]

lemma temporary_negative {t : TranscriptSegment} (h : t ∈ temporarySegments selected) :
    t.sequence < 0 ∧ ∃ s ∈ selected, t = { s with sequence := t.sequence } := by
  obtain ⟨⟨s, n⟩, hp, rfl⟩ := List.mem_map.mp h
  obtain ⟨hn, _, hs⟩ := List.mem_zipIdx hp
  refine ⟨by show -(n : ℤ) < 0; omega, s, ?_, rfl⟩
  rw [hs]
  exact List.getElem_mem _

lemma temporary_sequences (selected : List TranscriptSegment) :
    ((temporarySegments selected).map (·.sequence)).Nodup := by
  have hmap : (temporarySegments selected).map (·.sequence) =
      ((selected.zipIdx 1).map Prod.snd).map (fun n : ℕ => -(n : ℤ)) := by
    rw [temporarySegments, List.map_map, List.map_map]
    rfl
  rw [hmap, List.zipIdx_map_snd]
  exact (List.nodup_range').map (fun a b h => Int.ofNat_inj.mp (neg_inj.mp h))

lemma temporary_writable (hstored : Stored segments) (hperm : selected.Perm segments) :
    Writable segments (temporarySegments selected) where
  ids := by
    rw [temporary_ids]
    exact (hperm.map _).nodup_iff.mpr hstored.ids
  sequences := temporary_sequences selected
  free t ht r hr := by
    have hneg := (temporary_negative ht).1
    have hpos := hstored.nonneg r hr
    omega

lemma complete_perm (hperm : selected.Perm segments) :
    Complete updates selected ↔ Complete updates segments := by
  have hids : ∀ i, i ∈ selected.map (·.id) ↔ i ∈ segments.map (·.id) := fun i =>
    (hperm.map _).mem_iff
  simp only [Complete, List.subset_def, hids]

lemma complete_covers (hcomplete : Complete updates segments) :
    ∀ s ∈ segments, ∃ u ∈ updates.insertionSort UpdateOrder, u.id = s.id := by
  intro s hs
  obtain ⟨u, hu, hus⟩ := List.mem_map.mp (hcomplete.2.2 (List.mem_map_of_mem hs))
  exact ⟨u, (List.mem_insertionSort _).mpr hu, hus⟩

lemma placeSegment_temporary (hcomplete : Complete updates segments) {s t : TranscriptSegment}
    (hs : s ∈ segments) (ht : t = { s with sequence := t.sequence }) :
    placeSegment (placements (updates.insertionSort UpdateOrder)) t =
      placeSegment (placements (updates.insertionSort UpdateOrder)) s := by
  obtain ⟨p, hp, hps, _⟩ := placeSegment_placed (complete_covers hcomplete s hs)
  cases hf : (placements (updates.insertionSort UpdateOrder)).find? (fun p => p.item.id = s.id) with
  | none => exact absurd (decide_eq_true hps) (List.find?_eq_none.mp hf p hp)
  | some p =>
    rw [ht]
    simp only [placeSegment, hf]

lemma placed_writable (hstored : Stored segments) (hperm : selected.Perm segments)
    (hcomplete : Complete updates segments) (written : List TranscriptSegment)
    (hwritten : written.Perm (temporarySegments selected)) :
    Writable (segments.map (overlay (·.id) written))
      (placedSegments updates (temporarySegments selected)) := by
  have htemporary := (temporary_writable hstored hperm).perm hwritten
  have hcovers : ∀ t ∈ temporarySegments selected,
      ∃ u ∈ updates.insertionSort UpdateOrder, u.id = t.id := by
    intro t ht
    obtain ⟨_, s, hs, hts⟩ := temporary_negative ht
    rw [hts]
    exact complete_covers hcomplete s (hperm.mem_iff.mp hs)
  have hids : ((temporarySegments selected).map (·.id)).Nodup := by
    rw [temporary_ids]
    exact (hperm.map _).nodup_iff.mpr hstored.ids
  refine ⟨?_, placed_sequences hids hcovers, ?_⟩
  · rw [placedSegments, List.map_map]
    exact (List.map_congr_left (fun s _ => placeSegment_id _ s)).symm ▸ hids
  · intro x hx r hr
    obtain ⟨t, ht, rfl⟩ := List.mem_map.mp hx
    obtain ⟨p, _, _, hplace⟩ := placeSegment_placed (hcovers t ht)
    obtain ⟨row, hrow, rfl⟩ := List.mem_map.mp hr
    -- Every stored row carries a temporary sequence by now, and those are negative.
    obtain ⟨hmem, _⟩ | ⟨_, hnone⟩ := overlay_cases (·.id) written row
    · have hneg := (temporary_negative (hwritten.mem_iff.mp hmem)).1
      have hpos : (placeSegment (placements (updates.insertionSort UpdateOrder)) t).sequence =
          p.sequence := by rw [hplace]; rfl
      omega
    · have hid : row.id ∈ (temporarySegments selected).map (·.id) := by
        rw [temporary_ids]
        exact List.mem_map_of_mem (hperm.mem_iff.mpr hrow)
      obtain ⟨t, ht, hti⟩ := List.mem_map.mp hid
      exact absurd hti (hnone t (hwritten.mem_iff.mpr ht))

lemma flushed_rows (hstored : Stored segments) (hperm : selected.Perm segments)
    (hcomplete : Complete updates segments) {written final : List TranscriptSegment}
    (hwritten : written.Perm (temporarySegments selected))
    (hfinal : final.Perm (placedSegments updates (temporarySegments selected))) :
    (segments.map (overlay (·.id) written)).map (overlay (·.id) final) =
      placedSegments updates segments := by
  have htemporary := (temporary_writable hstored hperm).perm hwritten
  have hplaced := (placed_writable hstored hperm hcomplete written hwritten).perm hfinal
  rw [List.map_map, placedSegments]
  apply List.map_congr_left
  intro s hs
  have hid : s.id ∈ (temporarySegments selected).map (·.id) := by
    rw [temporary_ids]
    exact List.mem_map_of_mem (hperm.mem_iff.mpr hs)
  obtain ⟨t, ht, hts⟩ := List.mem_map.mp hid
  have hsame : t = { s with sequence := t.sequence } := by
    obtain ⟨_, s', hs', hts'⟩ := temporary_negative ht
    have hss : s' = s := List.inj_on_of_nodup_map hstored.ids (hperm.mem_iff.mp hs') hs
      ((congrArg (·.id) hts').symm.trans hts)
    rw [← hss]
    exact hts'
  rw [Function.comp_apply, overlay_written htemporary.ids (hwritten.mem_iff.mpr ht) hts,
    ← placeSegment_temporary hcomplete hs hsame]
  exact overlay_written hplaced.ids (hfinal.mem_iff.mpr (List.mem_map_of_mem ht)) (placeSegment_id _ t)

end Renumbering

section Refinement

variable (orders : RowOrders) {id : RecordingId} {expectedRevision : ℕ}
  {updates : List TranscriptSegmentUpdate} {db db' : Database} {exn : Exn}

lemma raising_ok {α : Type} {x : Except Exn α} {a : α} (h : x = .ok a) : raising x db = .ok a db := by
  rw [h]
  rfl

lemma raising_error {α : Type} {x : Except Exn α} (h : x = .error exn) :
    raising x db = .error exn db := by
  rw [h]
  rfl

lemma stale_segments (doc : Document) (rows : List TranscriptSegment) :
    staleAnalysis (staleTranslations { doc with segments := rows }) =
      { staleAnalysis (staleTranslations doc) with segments := rows } := by
  unfold staleTranslations staleAnalysis
  by_cases h : doc.translations = [] <;> cases ha : doc.analysis <;> simp [h, ha]

def savedDocument (rows : List TranscriptSegment) (doc : Document) : Document :=
  staleAnalysis (staleTranslations { doc with
    segments := rows
    transcriptRevision := doc.transcriptRevision + 1 })

def savedTranscript (id : RecordingId) (rows : List TranscriptSegment) (db : Database) : Database :=
  { db with
    documents := Function.update db.documents id (savedDocument rows (db.documents id)) }

lemma marked_segments (rows rows' : List TranscriptSegment) :
    withSegments id rows' (markDependents id (withSegments id rows db)) =
      savedTranscript id rows' db := by
  have hnew := stale_segments
    { db.documents id with transcriptRevision := (db.documents id).transcriptRevision + 1 } rows'
  have hold := stale_segments
    { db.documents id with transcriptRevision := (db.documents id).transcriptRevision + 1 } rows
  simp only [withSegments, markDependents, savedTranscript, savedDocument, Function.update_self,
    Function.update_idem] at hnew hold ⊢
  rw [hnew, hold]

lemma marked_rows (rows : List TranscriptSegment) :
    ((markDependents id (withSegments id rows db)).documents id).segments = rows := by
  simp [markDependents, withSegments]

lemma updateTranscript_ok {u : Unit} (h : updateTranscript id expectedRevision updates db = .ok (u, db')) :
    ∃ recording, db.recording id = some recording ∧
      (db.documents id).transcriptRevision = expectedRevision ∧ db.activeJob id = none ∧
      Complete updates (db.documents id).segments ∧
      (∀ item ∈ updates.insertionSort UpdateOrder, item.endTime ≤ recording.durationSeconds) ∧
      db' = savedTranscript id (placedSegments updates (db.documents id).segments) db := by
  obtain ⟨recording, doc, hrecording, hrevision, hidle, hedit, rfl⟩ := editDocument_ok h
  obtain ⟨_, hcomplete, hedit⟩ := bind_ok hedit
  obtain ⟨_, hrange, hedit⟩ := bind_ok hedit
  cases hedit
  exact ⟨recording, hrecording, hrevision, hidle, require_ok.mp hcomplete, require_ok.mp hrange, rfl⟩

lemma selected_complete (segments : List TranscriptSegment) :
    Complete updates (orders.selected segments) ↔ Complete updates segments :=
  complete_perm (orders.selected_perm segments)

lemma updateTranscriptRows_ok (hstored : Stored (db.documents id).segments) {u : Unit}
    (h : updateTranscript id expectedRevision updates db = .ok (u, db')) :
    ∃ recording, updateTranscriptRows orders id expectedRevision updates db = .ok (recording,
        orderedSegments (placedSegments updates
          (temporarySegments (orders.selected (db.documents id).segments)))) db' := by
  obtain ⟨recording, hrecording, hrevision, hidle, hcomplete, hrange, rfl⟩ := updateTranscript_ok h
  have hselected := orders.selected_perm (db.documents id).segments
  have htemporary := orders.temporary_perm (temporarySegments (orders.selected (db.documents id).segments))
  have hfinal := orders.final_perm
    (placedSegments updates (temporarySegments (orders.selected (db.documents id).segments)))
  have hactive : rejectActiveJob db id = .ok () := require_of hidle
  refine ⟨recording, ?_⟩
  rw [updateTranscriptRows, get_bind,
    bind_run_ok _ (raising_ok (hrecording ▸ found_some recording recordingNotFound)),
    bind_run_ok _ (raising_ok (require_of hrevision)), bind_run_ok _ (raising_ok hactive)]
  dsimp only
  rw [bind_run_ok _ (raising_ok (require_of ((selected_complete orders _).mpr hcomplete))),
    bind_run_ok _ (raising_ok (require_of hrange)),
    bind_run_ok _ (flush_ok rfl ((temporary_writable hstored hselected).perm htemporary)), modify_bind,
    bind_run_ok _ (flush_ok (marked_rows _) ((placed_writable hstored hselected hcomplete _ htemporary).perm hfinal)),
    flushed_rows hstored hselected hcomplete htemporary hfinal, marked_segments]
  rfl

lemma updateTranscriptRows_error (h : updateTranscript id expectedRevision updates db = .error exn) :
    updateTranscriptRows orders id expectedRevision updates db = .error exn db := by
  rw [updateTranscriptRows, get_bind]
  rcases bind_error h with h | ⟨recording, hrecording, h⟩
  · exact bind_run_error _ (raising_error h)
  rw [bind_run_ok _ (raising_ok hrecording)]
  rcases bind_error h with h | ⟨_, hrevision, h⟩
  · exact bind_run_error _ (raising_error h)
  rw [bind_run_ok _ (raising_ok hrevision)]
  rcases bind_error h with h | ⟨_, hidle, h⟩
  · exact bind_run_error _ (raising_error h)
  rw [bind_run_ok _ (raising_ok hidle)]
  dsimp only
  rcases bind_error h with h | ⟨_, _, h⟩
  · rcases bind_error h with h | ⟨_, hcomplete, h⟩
    · apply bind_run_error
      apply raising_error
      simp only [require, selected_complete] at h ⊢
      exact h
    rw [bind_run_ok _ (raising_ok (require_of ((selected_complete orders _).mpr (require_ok.mp hcomplete))))]
    rcases bind_error h with h | ⟨_, _, h⟩
    · exact bind_run_error _ (raising_error h)
    · cases h
  · cases h

lemma updateTranscript_rejects (h : updateTranscript id expectedRevision updates db = .error exn) :
    ∃ code message status, exn = .recordingService code message status := by
  rcases bind_error h with h | ⟨_, _, h⟩
  · cases hr : db.recording id with
    | none =>
      rw [hr] at h
      cases h
      exact ⟨_, _, _, rfl⟩
    | some r =>
      rw [hr] at h
      cases h
  rcases bind_error h with h | ⟨_, _, h⟩
  · exact ⟨_, _, _, require_error h⟩
  rcases bind_error h with h | ⟨_, _, h⟩
  · exact ⟨_, _, _, require_error h⟩
  rcases bind_error h with h | ⟨_, _, h⟩
  · rcases bind_error h with h | ⟨_, _, h⟩
    · exact ⟨_, _, _, require_error h⟩
    rcases bind_error h with h | ⟨_, _, h⟩
    · exact ⟨_, _, _, require_error h⟩
    · cases h
  · cases h

end Refinement

section Order

variable {segments : List TranscriptSegment} {updates : List TranscriptSegmentUpdate}

def SegmentOrder (a b : TranscriptSegment) : Prop :=
  a.startTime < b.startTime ∨ (a.startTime = b.startTime ∧
    (a.endTime < b.endTime ∨ (a.endTime = b.endTime ∧ a.id < b.id)))

def Takes (u : TranscriptSegmentUpdate) (s : TranscriptSegment) : Prop :=
  s.id = u.id ∧ s.speakerLabel = u.speakerLabel ∧ s.startTime = u.startTime ∧
    s.endTime = u.endTime ∧ s.text = u.text

lemma updateOrder_iff (a b : TranscriptSegmentUpdate) : UpdateOrder a b ↔
    toLex (a.startTime, toLex (a.endTime, a.id)) ≤ toLex (b.startTime, toLex (b.endTime, b.id)) := by
  rw [UpdateOrder, Prod.Lex.toLex_le_toLex, Prod.Lex.toLex_le_toLex]

lemma updates_ordered (updates : List TranscriptSegmentUpdate) :
    (updates.insertionSort UpdateOrder).Pairwise UpdateOrder :=
  (sort_ordered updateOrder_iff updates).imp (updateOrder_iff _ _).mpr

lemma placements_ordered (updates : List TranscriptSegmentUpdate) :
    (placements (updates.insertionSort UpdateOrder)).Pairwise
      (fun p q => p.sequence < q.sequence ∧ UpdateOrder p.item q.item) := by
  have hitems : (placements (updates.insertionSort UpdateOrder)).Pairwise
      (fun p q => UpdateOrder p.item q.item) := by
    apply List.pairwise_map.mp
    rw [placements_map_item]
    exact updates_ordered updates
  have hsequences : (placements (updates.insertionSort UpdateOrder)).Pairwise
      (fun p q => p.sequence < q.sequence) := by
    apply List.pairwise_map.mp
    rw [placements_items]
    exact List.pairwise_lt_range
  exact hsequences.and hitems

lemma placement_order {p q : Placement} (hp : p ∈ placements (updates.insertionSort UpdateOrder))
    (hq : q ∈ placements (updates.insertionSort UpdateOrder)) (h : p.sequence < q.sequence) :
    UpdateOrder p.item q.item := by
  let either := fun p q : Placement => (p.sequence < q.sequence ∧ UpdateOrder p.item q.item) ∨
    (q.sequence < p.sequence ∧ UpdateOrder q.item p.item)
  have hsymm : Std.Symm either := ⟨fun _ _ => Or.symm⟩
  have hpairs : (placements (updates.insertionSort UpdateOrder)).Pairwise either :=
    (placements_ordered updates).imp .inl
  have hne : p ≠ q := fun he => (he ▸ h).ne rfl
  rcases hpairs.forall hp hq hne with ⟨_, h⟩ | ⟨hlt, _⟩
  · exact h
  · exact absurd h hlt.asymm

lemma saved_row (hcomplete : Complete updates segments) {s : TranscriptSegment}
    (hs : s ∈ placedSegments updates segments) :
    ∃ p ∈ placements (updates.insertionSort UpdateOrder), s.sequence = p.sequence ∧ Takes p.item s := by
  obtain ⟨old, hold, rfl⟩ := List.mem_map.mp hs
  obtain ⟨p, hp, hid, hplace⟩ := placeSegment_placed (complete_covers hcomplete old hold)
  rw [hplace]
  exact ⟨p, hp, rfl, hid.symm, rfl, rfl, rfl, rfl⟩

lemma saved_ids (updates : List TranscriptSegmentUpdate) (segments : List TranscriptSegment) :
    (placedSegments updates segments).map (·.id) = segments.map (·.id) := by
  rw [placedSegments, List.map_map]
  exact List.map_congr_left (fun s _ => placeSegment_id _ s)

lemma complete_length (hids : (segments.map (·.id)).Nodup) (hcomplete : Complete updates segments) :
    updates.length = segments.length := by
  have hle := (List.subperm_of_subset hcomplete.1 hcomplete.2.1).length_le
  have hge := (List.subperm_of_subset hids hcomplete.2.2).length_le
  simp only [List.length_map] at hle hge
  omega

lemma saved_ascending (hids : (segments.map (·.id)).Nodup) (hcomplete : Complete updates segments) :
    (orderedSegments (placedSegments updates segments)).Pairwise
      (fun a b => a.sequence < b.sequence) :=
  ordered_ascending (placed_sequences hids (complete_covers hcomplete))

lemma saved_sequences (hids : (segments.map (·.id)).Nodup) (hcomplete : Complete updates segments) :
    (orderedSegments (placedSegments updates segments)).map (·.sequence) =
      (List.range segments.length).map (fun n : ℕ => (n : ℤ)) := by
  have hlength : ((orderedSegments (placedSegments updates segments)).map (·.sequence)).length =
      segments.length := by
    simp [orderedSegments, placedSegments]
  rw [← hlength]
  apply ascending_eq_range (List.pairwise_map.mpr (saved_ascending hids hcomplete))
  intro n hn
  obtain ⟨s, hs, rfl⟩ := List.mem_map.mp hn
  obtain ⟨p, hp, hsequence, _⟩ := saved_row hcomplete (mem_ordered.mp hs)
  have hp := List.mem_map_of_mem (f := (·.sequence)) hp
  rw [placements_items, List.mem_range] at hp
  have hitems := congrArg List.length (placements_map_item (updates.insertionSort UpdateOrder))
  rw [List.length_map, List.length_insertionSort] at hitems
  have hall := complete_length hids hcomplete
  rw [hlength]
  omega

lemma saved_ordered (hids : (segments.map (·.id)).Nodup) (hcomplete : Complete updates segments) :
    (orderedSegments (placedSegments updates segments)).Pairwise SegmentOrder := by
  have hdistinct := ordered_nodup ((saved_ids updates segments).symm ▸ hids)
  refine ((saved_ascending hids hcomplete).and (List.pairwise_map.mp hdistinct)).imp_of_mem ?_
  rintro a b ha hb ⟨hlt, hne⟩
  obtain ⟨p, hp, hpa, hida, _, hstarta, henda, _⟩ := saved_row hcomplete (mem_ordered.mp ha)
  obtain ⟨q, hq, hqb, hidb, _, hstartb, hendb, _⟩ := saved_row hcomplete (mem_ordered.mp hb)
  have horder := placement_order hp hq (by omega)
  rw [UpdateOrder, ← hstarta, ← hstartb, ← henda, ← hendb, ← hida, ← hidb] at horder
  exact horder.imp_right (.imp_right (.imp_right (.imp_right (fun h => lt_of_le_of_ne h hne))))

end Order

section Save

variable (orders : RowOrders) (id : RecordingId) (expectedRevision : ℕ)
  (updates : List TranscriptSegmentUpdate) (db : Database)

def DistinctThroughout (rows : List TranscriptSegment) (db : Database) : Prop :=
  ∀ written rest, rows = written ++ rest → ∃ db', flushSegments id written db = .ok () db' ∧
    ((db'.documents id).segments.map (·.sequence)).Nodup

def firstFlush (segments : List TranscriptSegment) : List TranscriptSegment :=
  orders.temporary (temporarySegments (orders.selected segments))

def secondFlush (segments : List TranscriptSegment) : List TranscriptSegment :=
  orders.final (placedSegments updates (temporarySegments (orders.selected segments)))

lemma first_flush_distinct (hstored : Stored (db.documents id).segments) :
    DistinctThroughout id (firstFlush orders (db.documents id).segments) db := by
  intro written rest h
  have hwritable := (temporary_writable hstored (orders.selected_perm _)).perm (orders.temporary_perm _)
  rw [← firstFlush, h] at hwritable
  exact flush_distinct rfl hstored.ids hstored.sequences hwritable.initial

lemma second_flush_distinct (hstored : Stored (db.documents id).segments)
    (hcomplete : Complete updates (db.documents id).segments) {flushed : Database}
    (hflushed : flushSegments id (firstFlush orders (db.documents id).segments) db = .ok () flushed) :
    DistinctThroughout id (secondFlush orders updates (db.documents id).segments)
      (markDependents id flushed) := by
  intro written rest h
  have hselected := orders.selected_perm (db.documents id).segments
  have htemporary := orders.temporary_perm (temporarySegments (orders.selected (db.documents id).segments))
  have hfirst := (temporary_writable hstored hselected).perm htemporary
  have hsecond := (placed_writable hstored hselected hcomplete _ htemporary).perm (orders.final_perm _)
  rw [firstFlush, flush_ok rfl hfirst] at hflushed
  cases hflushed
  rw [← secondFlush, h] at hsecond
  refine flush_distinct (marked_rows _) ?_ ?_ hsecond.initial
  · rw [overlay_keys]
    exact hstored.ids
  · exact overlay_nodup hstored.ids hstored.sequences hfirst.sequences hfirst.free

theorem transcript_save_renumbers (hstored : Stored (db.documents id).segments) :
    (∀ result db', updateTranscriptRows orders id expectedRevision updates db = .ok result db' →
      (db'.documents id).segments.map (·.id) = (db.documents id).segments.map (·.id) ∧
      (∀ s ∈ (db'.documents id).segments, ∃ u ∈ updates, Takes u s) ∧
      (orderedSegments (db'.documents id).segments).map (·.sequence) =
        (List.range (db.documents id).segments.length).map (fun n : ℕ => (n : ℤ)) ∧
      (orderedSegments (db'.documents id).segments).Pairwise SegmentOrder) ∧
    (DistinctThroughout id (firstFlush orders (db.documents id).segments) db ∧
      ∀ flushed, Complete updates (db.documents id).segments →
        flushSegments id (firstFlush orders (db.documents id).segments) db = .ok () flushed →
        DistinctThroughout id (secondFlush orders updates (db.documents id).segments)
          (markDependents id flushed)) ∧
    ∀ exn db', updateTranscriptRows orders id expectedRevision updates db = .error exn db' →
      (∃ code message status, exn = .recordingService code message status) ∧ db' = db := by
  refine ⟨?_, ⟨first_flush_distinct orders id db hstored, fun flushed hcomplete =>
    second_flush_distinct orders id updates db hstored hcomplete⟩, ?_⟩
  · intro result db' h
    cases hu : updateTranscript id expectedRevision updates db with
    | error exn =>
      rw [updateTranscriptRows_error orders hu] at h
      cases h
    | ok saved =>
      obtain ⟨u, saved⟩ := saved
      obtain ⟨_, hrows⟩ := updateTranscriptRows_ok orders hstored hu
      rw [hrows] at h
      cases h
      obtain ⟨_, _, _, _, hcomplete, _, rfl⟩ := updateTranscript_ok hu
      have hsegments : ((savedTranscript id (placedSegments updates (db.documents id).segments)
          db).documents id).segments = placedSegments updates (db.documents id).segments := by
        simp [savedTranscript, savedDocument]
      rw [hsegments]
      refine ⟨saved_ids updates _, ?_, saved_sequences hstored.ids hcomplete,
        saved_ordered hstored.ids hcomplete⟩
      intro s hs
      obtain ⟨p, hp, _, htakes⟩ := saved_row hcomplete hs
      exact ⟨p.item, (List.mem_insertionSort _).mp (mem_placements.mpr ⟨p, hp, rfl⟩), htakes⟩
  · intro exn db' h
    cases hu : updateTranscript id expectedRevision updates db with
    | error exn' =>
      rw [updateTranscriptRows_error orders hu] at h
      cases h
      exact ⟨updateTranscript_rejects hu, rfl⟩
    | ok saved =>
      obtain ⟨_, hrows⟩ := updateTranscriptRows_ok orders hstored hu
      rw [hrows] at h
      cases h

end Save

def reversedOrders : RowOrders where
  selected := List.reverse
  temporary := List.reverse
  final := List.reverse
  selected_perm := List.reverse_perm
  temporary_perm := List.reverse_perm
  final_perm := List.reverse_perm

def storedLine (id : SegmentId) (sequence : ℤ) : TranscriptSegment where
  id := id
  sequence := sequence
  speakerLabel := "SPEAKER_00".toList
  startTime := sequence
  endTime := sequence + 1
  text := "hai".toList
  language := none
  confidence := none
  hasOverlap := false

def linesDatabase : Database where
  recordings := [⟨4, "mic".toList, "ab".toList, 10, ⟨3, 4, "wav".toList⟩, 0, 60, .completed⟩]
  jobs := []
  activity := []
  settings := none
  documents := fun _ => { Document.empty with segments := [storedLine 41 0, storedLine 42 1] }

def swappedUpdates : List TranscriptSegmentUpdate :=
  [(⟨41, "SPEAKER_00".toList, 4, 6, "owari".toList⟩ : SegmentPayload),
    ⟨42, "SPEAKER_01".toList, 1, 3, "hai".toList⟩].filterMap (·.validate.toOption)

theorem transcript_save_renumbers_swapped :
    ∃ result db', updateTranscriptRows reversedOrders 4 0 swappedUpdates linesDatabase = .ok result db' ∧
      (orderedSegments (db'.documents 4).segments).map (·.sequence) = [0, 1] ∧
      (orderedSegments (db'.documents 4).segments).Pairwise SegmentOrder := by
  have hstored : Stored (linesDatabase.documents 4).segments := ⟨by decide, by decide, by decide⟩
  obtain ⟨hsaved, _, hrejected⟩ :=
    transcript_save_renumbers reversedOrders 4 0 swappedUpdates linesDatabase hstored
  cases h : updateTranscriptRows reversedOrders 4 0 swappedUpdates linesDatabase with
  | ok result db' =>
    obtain ⟨_, _, hsequences, horder⟩ := hsaved result db' h
    exact ⟨result, db', rfl, hsequences, horder⟩
  | error exn db' =>
    have haccepted : (updateTranscript 4 0 swappedUpdates linesDatabase).isOk := by decide +kernel
    cases hu : updateTranscript 4 0 swappedUpdates linesDatabase with
    | ok saved =>
      obtain ⟨_, hrows⟩ := updateTranscriptRows_ok reversedOrders hstored hu
      rw [hrows] at h
      cases h
    | error exn' =>
      rw [hu] at haccepted
      cases haccepted

end AudioServer.Services.Renumbering
