import AudioServer.Foundations.Correspondence
import AudioServer.Foundations.Sorting
import AudioServer.Foundations.Upserts
import AudioServer.Worker.CommittedResults

/-! The translation rows of a recording: what a committed run makes of them, and the one the page
puts under a segment. -/

namespace AudioServer.Worker.TranslationRows

open AudioServer.Foundations.Outcomes AudioServer.Foundations.Dicts AudioServer.Foundations.Upserts
open AudioServer.Foundations.Sorting AudioServer.Foundations.Correspondence
open AudioServer.Db.Models AudioServer.Processing.Contracts AudioServer.Processing.Sentences
open AudioServer.Processing.Translation AudioServer.Services.Editing
open AudioServer.Worker.Persisters AudioServer.Worker.DocumentInvariant
open AudioServer.Worker.CommittedResults

def ends (s : TranscriptSentence) : ℤ × ℤ := (s.startSequence, s.endSequence)

def segmentAt (doc : Document) (sequence : ℤ) : Option SegmentId :=
  (dictGet (·.sequence) doc.segments sequence).map (·.id)

def rank (row : TranscriptTranslation) : Instant ×ₗ ℕ := toLex (row.createdAt, row.id)

def RankOrder (a b : TranscriptTranslation) : Prop :=
  a.createdAt < b.createdAt ∨ (a.createdAt = b.createdAt ∧ a.id ≤ b.id)

instance : DecidableRel RankOrder := fun _ _ => inferInstanceAs (Decidable (_ ∨ _))

def listTranslations (doc : Document) : List TranscriptTranslation :=
  doc.translations.insertionSort RankOrder

def shownAfter (doc : Document) (id : SegmentId) : Option TranscriptTranslation :=
  dictGet (·.endSegmentId) (listTranslations doc) (some id)

def OwnRow (doc : Document) (x : ℤ × ℤ) (row : TranscriptTranslation) : Prop :=
  ∃ start, segmentAt doc x.1 = some start ∧
    doc.translations.filter (fun r => r.startSegmentId = some start) = [row]

def Shown (doc : Document) (x : ℤ × ℤ) : Prop :=
  ∃ row, OwnRow doc x row ∧ ∃ last, segmentAt doc x.2 = some last ∧ shownAfter doc last = some row

lemma rankOrder_iff (a b : TranscriptTranslation) : RankOrder a b ↔ rank a ≤ rank b := by
  rw [rank, rank, Prod.Lex.toLex_le_toLex]
  rfl

lemma ranks_nodup {rows : List TranscriptTranslation} (h : (rows.map (·.id)).Nodup) :
    (rows.map rank).Nodup := by
  have hids : ((rows.map rank).map (fun r => (ofLex r).2)).Nodup := by
    rw [List.map_map]
    exact h
  exact hids.of_map

def Fits (rows : List TranscriptTranslation) (first last : Option SegmentId) : Prop :=
  ∃ row ∈ rows, row.startSegmentId = first ∧ row.endSegmentId = last ∧
    ∀ other ∈ rows, other.endSegmentId = last → rank other ≤ rank row

lemma ownRow_iff {doc : Document} (hok : DocumentOk doc) {x : ℤ × ℤ} {row : TranscriptTranslation} :
    OwnRow doc x row ↔ (segmentAt doc x.1).isSome ∧ row ∈ doc.translations ∧
      row.startSegmentId = segmentAt doc x.1 := by
  have hrows := hok.rows.rowIds.of_map
  constructor
  · rintro ⟨start, hstart, hone⟩
    obtain ⟨hmem, hs, _⟩ := (filter_singleton_iff hrows).mp hone
    exact ⟨hstart ▸ rfl, hmem, (of_decide_eq_true hs).trans hstart.symm⟩
  · rintro ⟨hsome, hmem, hs⟩
    obtain ⟨start, hstart⟩ := Option.isSome_iff_exists.mp hsome
    refine ⟨start, hstart, (filter_singleton_iff hrows).mpr ⟨hmem, ?_, ?_⟩⟩
    · rw [hs, hstart]
      exact decide_eq_true rfl
    · intro b hb hbs
      exact eq_of_nodup_filterMap hok.rows.starts hb hmem (of_decide_eq_true hbs) (hs.trans hstart)

lemma shown_iff {doc : Document} (hok : DocumentOk doc) {x : ℤ × ℤ} :
    Shown doc x ↔ (segmentAt doc x.1).isSome ∧ (segmentAt doc x.2).isSome ∧
      Fits doc.translations (segmentAt doc x.1) (segmentAt doc x.2) := by
  constructor
  · rintro ⟨row, hown, last, hlast, hshown⟩
    obtain ⟨hfirst, hmem, hs⟩ := (ownRow_iff hok).mp hown
    obtain ⟨_, hend, hmax⟩ := (dictGet_sort rankOrder_iff (ranks_nodup hok.rows.rowIds)).mp hshown
    rw [hlast]
    exact ⟨hfirst, rfl, row, hmem, hs, hend, hmax⟩
  · rintro ⟨hfirst, hlast, row, hmem, hs, hend, hmax⟩
    obtain ⟨last, hlast⟩ := Option.isSome_iff_exists.mp hlast
    rw [hlast] at hend hmax
    refine ⟨row, (ownRow_iff hok).mpr ⟨hfirst, hmem, hs⟩, last, hlast, ?_⟩
    exact (dictGet_sort rankOrder_iff (ranks_nodup hok.rows.rowIds)).mpr ⟨hmem, hend, hmax⟩

def translationWriter (doc : Document) (now : Instant) (rowIds : ℕ → ℕ) :
    Writer TranscriptTranslation (SentenceTranslation × ℕ) (Option SegmentId) ℕ where
  key := (·.startSegmentId)
  id := (·.id)
  keyOf p := segmentAt doc p.1.startSequence
  frozen row := row.source = .manual
  new p := ⟨rowIds p.2, segmentAt doc p.1.startSequence, segmentAt doc p.1.endSequence, p.1.sourceJa,
    p.1.textZhHk, .llm, false, now⟩
  update p row := { row with
    endSegmentId := segmentAt doc p.1.endSequence
    sourceJa := p.1.sourceJa
    textZhHk := p.1.textZhHk
    source := .llm
    stale := false }
  update_id _ _ := rfl

structure Spans (doc : Document) (spans : List (ℤ × ℤ)) : Prop where
  first : ∀ x ∈ spans, (segmentAt doc x.1).isSome
  last : ∀ x ∈ spans, (segmentAt doc x.2).isSome
  firsts : (spans.map (fun x => segmentAt doc x.1)).Nodup
  lasts : (spans.map (fun x => segmentAt doc x.2)).Nodup

lemma writeTranslation_write {doc : Document} {now : Instant} {rowIds : ℕ → ℕ}
    {stored rows : List TranscriptTranslation} {p : SentenceTranslation × ℕ}
    (hfirst : (segmentAt doc p.1.startSequence).isSome)
    (hlast : (segmentAt doc p.1.endSequence).isSome) :
    writeTranslation doc.segments stored now rows p.1 (rowIds p.2) =
      (translationWriter doc now rowIds).write stored rows p := by
  obtain ⟨first, hfirst⟩ := Option.isSome_iff_exists.mp hfirst
  obtain ⟨last, hlast⟩ := Option.isSome_iff_exists.mp hlast
  simp only [writeTranslation, Writer.write, translationWriter, segmentAt] at hfirst hlast ⊢
  rw [hfirst, hlast]
  dsimp only
  cases dictGet (·.startSegmentId) stored (some first) with
  | none => rfl
  | some row => simp only [decide_eq_true_eq]

def resultEnds (t : SentenceTranslation) : ℤ × ℤ := (t.startSequence, t.endSequence)

lemma zipIdx_fst {α : Type} (f : α → ℤ × ℤ) (xs : List α) :
    xs.zipIdx.map (fun p => f p.1) = xs.map f := by
  conv_rhs => rw [← List.zipIdx_map_fst 0 xs, List.map_map]
  rfl

lemma writeTranslations_rows {doc : Document} {result : TranslationResult} {rowIds : ℕ → ℕ}
    {now : Instant} {rows : List TranscriptTranslation} (hok : DocumentOk doc)
    (hspans : Spans doc (result.translations.map resultEnds)) (hstatus : result.status = .completed)
    (h : writeTranslations result rowIds now doc = .ok rows) :
    let W := translationWriter doc now rowIds
    rows = doc.translations.map (W.rewritten result.translations.zipIdx) ++
      (W.fresh doc.translations result.translations.zipIdx).map W.new := by
  intro W
  have hends : result.translations.zipIdx.map (fun p => resultEnds p.1) =
      result.translations.map resultEnds := zipIdx_fst resultEnds _
  have hin : ∀ p ∈ result.translations.zipIdx, resultEnds p.1 ∈ result.translations.map resultEnds :=
    fun p hp => hends ▸ List.mem_map_of_mem hp
  rw [writeTranslations, if_neg (fun hne => hne hstatus)] at h
  have hloop : result.translations.zipIdx.foldl (fun rows t =>
      writeTranslation doc.segments doc.translations now rows t.1 (rowIds t.2)) doc.translations =
      result.translations.zipIdx.foldl (W.write doc.translations) doc.translations := by
    apply List.foldl_ext
    intro rows p hp
    exact writeTranslation_write (hspans.first _ (hin p hp)) (hspans.last _ (hin p hp))
  rw [hloop] at h
  obtain ⟨rfl, hids, _⟩ := flushTranslations_ok h
  have hnodup := W.foldl_ids doc.translations result.translations.zipIdx ▸ hids
  apply W.foldl_write doc.translations hok.rows.rowIds
  · have hkeys : result.translations.zipIdx.map W.keyOf =
        (result.translations.map resultEnds).map (fun x => segmentAt doc x.1) := by
      rw [← hends, List.map_map]
      rfl
    rw [hkeys]
    exact hspans.firsts
  · intro a ha b hb hab hin
    obtain ⟨p, hp, hpa⟩ := List.mem_map.mp hin
    obtain ⟨first, hfirst⟩ := Option.isSome_iff_exists.mp (hspans.first _ (hends ▸ List.mem_map_of_mem hp))
    have hkey : a.startSegmentId = some first := hpa.symm.trans hfirst
    exact eq_of_nodup_filterMap hok.rows.starts ha hb hkey (hab.symm.trans hkey)
  · intro p hp hold
    exact (List.nodup_append.mp hnodup).2.2 _ hold _
      (List.mem_map_of_mem (List.mem_map_of_mem hp)) rfl

def Spared (doc : Document) (spans : List (ℤ × ℤ)) (row : TranscriptTranslation) : Prop :=
  row.source = .manual ∨ ∀ x ∈ spans, row.startSegmentId ≠ segmentAt doc x.1

def ownRank (doc : Document) (x : ℤ × ℤ) (new : Instant ×ₗ ℕ) : Instant ×ₗ ℕ :=
  match dictGet (·.startSegmentId) doc.translations (segmentAt doc x.1) with
  | some row => rank row
  | none => new

lemma ownRank_none {doc : Document} {x : ℤ × ℤ} {new : Instant ×ₗ ℕ}
    (h : dictGet (·.startSegmentId) doc.translations (segmentAt doc x.1) = none) :
    ownRank doc x new = new := by
  rw [ownRank, h]

lemma ownRank_some {doc : Document} {x : ℤ × ℤ} {new : Instant ×ₗ ℕ} {row : TranscriptTranslation}
    (h : dictGet (·.startSegmentId) doc.translations (segmentAt doc x.1) = some row) :
    ownRank doc x new = rank row := by
  rw [ownRank, h]

/-- The state of the rows before a run in which nothing will hide the row of a span: one written by
hand ends where the span ends, and what else stays there is listed before. -/
structure Unmasked (doc : Document) (spans : List (ℤ × ℤ)) (x : ℤ × ℤ) (new : Instant ×ₗ ℕ) :
    Prop where
  byHand : ∀ row ∈ doc.translations, row.source = .manual →
    row.startSegmentId = segmentAt doc x.1 → row.endSegmentId = segmentAt doc x.2
  before : ∀ row ∈ doc.translations, Spared doc spans row →
    row.endSegmentId = segmentAt doc x.2 → rank row ≤ ownRank doc x new

structure RunRows (doc : Document) (spans : List (ℤ × ℤ)) (new : ℕ → Instant ×ₗ ℕ)
    (rows : List TranscriptTranslation) : Prop where
  own : ∀ p ∈ spans.zipIdx, ∃ row ∈ rows, row.startSegmentId = segmentAt doc p.1.1 ∧
    rank row = ownRank doc p.1 (new p.2) ∧ ((row ∈ doc.translations ∧ row.source = .manual) ∨
      row.endSegmentId = segmentAt doc p.1.2)
  others : ∀ row ∈ rows, (row ∈ doc.translations ∧ Spared doc spans row) ∨
    ∃ x ∈ spans, row.startSegmentId = segmentAt doc x.1 ∧ row.endSegmentId = segmentAt doc x.2
  spared : ∀ row ∈ doc.translations, Spared doc spans row → row ∈ rows

lemma writeTranslations_runRows {doc : Document} {result : TranslationResult} {rowIds : ℕ → ℕ}
    {now : Instant} {rows : List TranscriptTranslation} (hok : DocumentOk doc)
    (hspans : Spans doc (result.translations.map resultEnds)) (hstatus : result.status = .completed)
    (h : writeTranslations result rowIds now doc = .ok rows) :
    RunRows doc (result.translations.map resultEnds) (fun n => toLex (now, rowIds n)) rows := by
  obtain rfl := writeTranslations_rows hok hspans hstatus h
  set W := translationWriter doc now rowIds
  set ts := result.translations.zipIdx
  have hends : ts.map (fun p => resultEnds p.1) = result.translations.map resultEnds :=
    zipIdx_fst resultEnds _
  have hkeys : (ts.map W.keyOf).Nodup := by
    have hnodup := hspans.firsts
    rw [← hends, List.map_map] at hnodup
    exact hnodup
  have honly : ∀ p ∈ ts, ∀ row, W.keyOf p = W.key row → ∀ p' ∈ ts, W.keyOf p' = W.key row → p' = p :=
    fun p hp row hk p' hp' hk' => List.inj_on_of_nodup_map hkeys hp' hp (hk'.trans hk.symm)
  refine ⟨?_, ?_, ?_⟩
  · rw [List.zipIdx_map]
    intro q hq
    obtain ⟨p, hp, rfl⟩ := List.mem_map.mp hq
    cases hd : dictGet (·.startSegmentId) doc.translations (segmentAt doc p.1.startSequence) with
    | none =>
      have hfresh : p ∈ W.fresh doc.translations ts :=
        List.mem_filter.mpr ⟨hp, by rw [show dictGet W.key _ (W.keyOf p) = none from hd]; rfl⟩
      exact ⟨W.new p, List.mem_append_right _ (List.mem_map_of_mem hfresh), rfl,
        (ownRank_none (x := resultEnds p.1) hd).symm, .inr rfl⟩
    | some row =>
      obtain ⟨hrow, hkey⟩ := dictGet_some hd
      refine ⟨W.rewritten ts row, List.mem_append_left _ (List.mem_map_of_mem hrow), ?_, ?_, ?_⟩
      all_goals
        rw [W.rewritten_of_key hp hkey.symm (honly p hp row hkey.symm)]
        by_cases hfrozen : W.frozen row
        all_goals simp only [hfrozen, if_true, Bool.false_eq_true, if_false]
      · exact hkey
      · exact hkey
      · exact (ownRank_some (x := resultEnds p.1) hd).symm
      · exact (ownRank_some (x := resultEnds p.1) hd).symm
      · exact .inl ⟨hrow, of_decide_eq_true hfrozen⟩
      · exact .inr rfl
  · intro row hrow
    rcases List.mem_append.mp hrow with hrow | hrow
    · obtain ⟨old, hold, rfl⟩ := List.mem_map.mp hrow
      by_cases hp : ∃ p ∈ ts, W.keyOf p = W.key old
      · obtain ⟨p, hp, hk⟩ := hp
        rw [W.rewritten_of_key hp hk (honly p hp old hk)]
        by_cases hfrozen : W.frozen old
        · rw [if_pos hfrozen]
          exact .inl ⟨hold, .inl (of_decide_eq_true hfrozen)⟩
        · rw [if_neg hfrozen]
          exact .inr ⟨resultEnds p.1, hends ▸ List.mem_map_of_mem hp, hk.symm, rfl⟩
      · have hnone : ∀ p ∈ ts, W.keyOf p ≠ W.key old := fun p hmem hk => hp ⟨p, hmem, hk⟩
        rw [W.rewritten_of_no_key hnone]
        refine .inl ⟨hold, .inr ?_⟩
        rw [← hends]
        intro x hx
        obtain ⟨p, hmem, rfl⟩ := List.mem_map.mp hx
        exact fun hk => hnone p hmem hk.symm
    · obtain ⟨p, hp, rfl⟩ := List.mem_map.mp hrow
      refine .inr ⟨resultEnds p.1, ?_, rfl, rfl⟩
      exact hends ▸ List.mem_map_of_mem (List.mem_of_mem_filter hp)
  · intro row hrow hspared
    have hsame : W.rewritten ts row = row := by
      rcases hspared with hmanual | hnone
      · exact W.rewritten_frozen ts (decide_eq_true hmanual)
      · apply W.rewritten_of_no_key
        intro p hp hk
        have hin : resultEnds p.1 ∈ result.translations.map resultEnds :=
          hends ▸ List.mem_map_of_mem hp
        exact hnone (resultEnds p.1) hin hk.symm
    exact List.mem_append_left _ (hsame ▸ List.mem_map_of_mem hrow)

lemma runRows_fits {doc : Document} {spans : List (ℤ × ℤ)} {new : ℕ → Instant ×ₗ ℕ}
    {rows : List TranscriptTranslation} (hspans : Spans doc spans) (h : RunRows doc spans new rows)
    (hstarts : (rows.filterMap (·.startSegmentId)).Nodup) {p : (ℤ × ℤ) × ℕ}
    (hp : p ∈ spans.zipIdx) :
    Fits rows (segmentAt doc p.1.1) (segmentAt doc p.1.2) ↔ Unmasked doc spans p.1 (new p.2) := by
  have hx : p.1 ∈ spans := List.fst_mem_of_mem_zipIdx hp
  obtain ⟨own, hown, hstart, hrank, hend⟩ := h.own p hp
  obtain ⟨first, hfirst⟩ := Option.isSome_iff_exists.mp (hspans.first _ hx)
  have honly : ∀ row ∈ rows, row.startSegmentId = segmentAt doc p.1.1 → row = own :=
    fun row hrow hs => eq_of_nodup_filterMap hstarts hrow hown (hs.trans hfirst)
      (hstart.trans hfirst)
  constructor
  · rintro ⟨row, hrow, hs, he, hmax⟩
    obtain rfl := honly row hrow hs
    refine ⟨?_, ?_⟩
    · intro r hr hmanual hrs
      have hkept := h.spared r hr (.inl hmanual)
      rw [honly r hkept hrs]
      exact he
    · intro r hr hspared hre
      rw [← hrank]
      exact hmax r (h.spared r hr hspared) hre
  · rintro ⟨hbyHand, hbefore⟩
    have hlast : own.endSegmentId = segmentAt doc p.1.2 := by
      rcases hend with ⟨hstored, hmanual⟩ | hlast
      · exact hbyHand own hstored hmanual hstart
      · exact hlast
    refine ⟨own, hown, hstart, hlast, ?_⟩
    intro other hother hoe
    rcases h.others other hother with ⟨hstored, hspared⟩ | ⟨x, hxs, hs, he⟩
    · rw [hrank]
      exact hbefore other hstored hspared hoe
    · -- Two spans never end at one segment, so this is the row of the span itself.
      have hsame : x = p.1 :=
        List.inj_on_of_nodup_map hspans.lasts hxs hx (he.symm.trans hoe)
      rw [honly other hother (hsame ▸ hs)]

structure Place where
  id : ℕ
  start : Option SegmentId
  last : Option SegmentId
  createdAt : Instant

def placeOf (row : TranscriptTranslation) : Place :=
  ⟨row.id, row.startSegmentId, row.endSegmentId, row.createdAt⟩

lemma fits_of_places {rows rows' : List TranscriptTranslation}
    (h : rows'.map placeOf = rows.map placeOf) {first last : Option SegmentId}
    (hfits : Fits rows first last) : Fits rows' first last := by
  have hback : ∀ row ∈ rows, ∃ row' ∈ rows', placeOf row' = placeOf row :=
    fun row hrow => List.mem_map.mp (h ▸ List.mem_map_of_mem hrow)
  have hforth : ∀ row' ∈ rows', ∃ row ∈ rows, placeOf row = placeOf row' :=
    fun row' hrow' => List.mem_map.mp (h ▸ List.mem_map_of_mem hrow')
  have hranks : ∀ {a b : TranscriptTranslation}, placeOf a = placeOf b → rank a = rank b := by
    intro a b hab
    have hcreated : a.createdAt = b.createdAt := congrArg Place.createdAt hab
    have hid : a.id = b.id := congrArg Place.id hab
    rw [rank, rank, hcreated, hid]
  obtain ⟨row, hrow, hs, he, hmax⟩ := hfits
  obtain ⟨row', hrow', hplace⟩ := hback row hrow
  refine ⟨row', hrow', (congrArg Place.start hplace).trans hs, (congrArg Place.last hplace).trans he, ?_⟩
  intro other' hother' hoe
  obtain ⟨other, hother, hsame⟩ := hforth other' hother'
  rw [hranks hplace, ← hranks hsame]
  exact hmax other hother ((congrArg Place.last hsame).trans hoe)

end AudioServer.Worker.TranslationRows
