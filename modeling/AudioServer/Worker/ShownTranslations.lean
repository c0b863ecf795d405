import AudioServer.Api.Requests
import AudioServer.Worker.HandWritten
import AudioServer.Worker.Revisions
import AudioServer.Worker.TranslationRows

/-! The translation the page puts under a sentence, from the run that wrote it to the next change of
the transcript. -/

namespace AudioServer.Worker.ShownTranslations

open AudioServer.Foundations.Outcomes AudioServer.Foundations.Strings AudioServer.Foundations.Runs
open AudioServer.Foundations.Dicts AudioServer.Foundations.Upserts
open AudioServer.Foundations.Correspondence
open AudioServer.Api.Schemas AudioServer.Api.Requests AudioServer.Db.Models AudioServer.Jobs.Queue
open AudioServer.Processing.Contracts AudioServer.Processing.Sentences
open AudioServer.Processing.Translation AudioServer.Processing.Merge
open AudioServer.Services.Consistency AudioServer.Services.Transactions AudioServer.Services.Editing
open AudioServer.Worker.Persisters AudioServer.Worker.DocumentInvariant
open AudioServer.Worker.CommittedResults AudioServer.Worker.System AudioServer.Worker.Invariant
open AudioServer.Worker.Grounding AudioServer.Worker.HandWritten AudioServer.Worker.Revisions
open AudioServer.Worker.TranslationRows

def currentSentences (doc : Document) : Except Exn (List TranscriptSentence) := do
  let transcript ← readTranscript doc
  groupSentences transcript maxSentenceChars

lemma currentSentences_congr {doc doc' : Document} (h : doc'.segments = doc.segments) :
    currentSentences doc' = currentSentences doc := by
  rw [currentSentences, currentSentences, readTranscript, readTranscript, h]

lemma currentSentences_nil {doc : Document} {sentences : List TranscriptSentence}
    (hnone : doc.segments = []) (h : currentSentences doc = .ok sentences) : sentences = [] := by
  have hempty : currentSentences .empty = .ok [] := rfl
  rw [currentSentences_congr (show doc.segments = Document.empty.segments from hnone), hempty] at h
  cases h
  rfl

lemma segmentAt_congr {doc doc' : Document} (h : doc'.segments = doc.segments) :
    segmentAt doc' = segmentAt doc := by
  funext sequence
  rw [segmentAt, segmentAt, h]

lemma segmentAt_injective {doc : Document} (hok : DocumentOk doc) {a b : ℤ}
    (hsome : (segmentAt doc a).isSome) (h : segmentAt doc a = segmentAt doc b) : a = b := by
  obtain ⟨id, hid⟩ := Option.isSome_iff_exists.mp hsome
  obtain ⟨s, hs, hsid⟩ := Option.map_eq_some_iff.mp hid
  obtain ⟨t, ht, htid⟩ := Option.map_eq_some_iff.mp (h ▸ hid)
  obtain ⟨hsmem, rfl⟩ := dictGet_some hs
  obtain ⟨htmem, rfl⟩ := dictGet_some ht
  rw [List.inj_on_of_nodup_map hok.segmentIds hsmem htmem (hsid.trans htid.symm)]

lemma segmentAt_isSome {doc : Document} {transcript : List MergedTranscriptSegment}
    (hread : readTranscript doc = .ok transcript) {sequence : ℤ}
    (h : ∃ m ∈ transcript, m.sequence = sequence) : (segmentAt doc sequence).isSome := by
  obtain ⟨m, hm, rfl⟩ := h
  have hline : mergedLine m ∈ (orderedSegments doc.segments).map lineOf :=
    readTranscript_lines hread ▸ List.mem_map_of_mem hm
  obtain ⟨s, hs, hsm⟩ := List.mem_map.mp hline
  rw [segmentAt, Option.isSome_map]
  by_contra hnone
  rw [Option.not_isSome_iff_eq_none] at hnone
  exact dictGet_none.mp hnone s (mem_ordered.mp hs) (congrArg Prod.fst hsm)

lemma sentences_spans {doc : Document} (hok : DocumentOk doc) {sentences : List TranscriptSentence}
    (h : currentSentences doc = .ok sentences) : Spans doc (sentences.map ends) := by
  obtain ⟨transcript, hread, hs⟩ := bind_ok h
  have hasc := readTranscript_ascending hok hread
  have hfirst : ∀ x ∈ sentences.map ends, (segmentAt doc x.1).isSome := by
    intro x hx
    obtain ⟨s, hs', rfl⟩ := List.mem_map.mp hx
    exact segmentAt_isSome hread (groupSentences_text hs hasc hs').2.1
  have hlast : ∀ x ∈ sentences.map ends, (segmentAt doc x.2).isSome := by
    intro x hx
    obtain ⟨s, hs', rfl⟩ := List.mem_map.mp hx
    exact segmentAt_isSome hread (groupSentences_text hs hasc hs').2.2
  refine ⟨hfirst, hlast, ?_, ?_⟩
  · rw [List.Nodup, List.pairwise_map, List.pairwise_map]
    refine (groupSentences_starts hs hasc).imp_of_mem ?_
    intro a b ha _ hab heq
    exact hab.ne (segmentAt_injective hok (hfirst _ (List.mem_map_of_mem ha)) heq)
  · rw [List.Nodup, List.pairwise_map, List.pairwise_map]
    refine (groupSentences_ends hs hasc).imp_of_mem ?_
    intro a b ha _ hab heq
    exact hab.ne (segmentAt_injective hok (hlast _ (List.mem_map_of_mem ha)) heq)

def Filled (doc : Document) (spans : List (ℤ × ℤ)) : Prop :=
  ∀ x ∈ spans, ∃ row ∈ doc.translations, row.startSegmentId = segmentAt doc x.1 ∧
    (row.source = .manual ∨ row.endSegmentId = segmentAt doc x.2)

lemma computed_ends {doc : Document} {transcript : List MergedTranscriptSegment}
    {provider : TranslationProvider} {identifier : Except Exn Text}
    {render : TranscriptSentence → Except Exn Text} {result : TranslationResult}
    (hread : readTranscript doc = .ok transcript)
    (h : provider.translate identifier render transcript = .ok result)
    (hstatus : result.status = .completed) :
    ∃ sentences, currentSentences doc = .ok sentences ∧
      result.translations.map resultEnds = sentences.map ends := by
  rcases translate_cases h with ⟨hskipped, _⟩ | ⟨_, sentences, hs, ht⟩
  · rw [hskipped] at hstatus
    cases hstatus
  · refine ⟨sentences, ?_, ?_⟩
    · rw [currentSentences, hread]
      exact hs
    · apply mapM_map ?_ ht
      intro s t hst
      obtain ⟨hstart, hend, _⟩ := sentenceTranslation_ok hst
      rw [resultEnds, ends, hstart, hend]

lemma persistTranslations_runRows {doc doc' : Document} {result : TranslationResult}
    {ids : FreshIds} {now : Instant} {spans : List (ℤ × ℤ)} (hok : DocumentOk doc)
    (hspans : Spans doc spans) (hends : result.translations.map resultEnds = spans)
    (hstatus : result.status = .completed)
    (h : persistTranslations result ids now doc = .ok doc') :
    doc'.segments = doc.segments ∧
      RunRows doc spans (fun n => toLex (now, ids.rowIds n)) doc'.translations := by
  obtain ⟨rows, hrows, h⟩ := bind_ok h
  cases h
  subst hends
  exact ⟨rfl, writeTranslations_runRows hok hspans hstatus hrows⟩

lemma runRows_filled {doc doc' : Document} {spans : List (ℤ × ℤ)} {new : ℕ → Instant ×ₗ ℕ}
    (hsegments : doc'.segments = doc.segments) (h : RunRows doc spans new doc'.translations) :
    Filled doc' spans := by
  intro x hx
  obtain ⟨i, hi, rfl⟩ := List.mem_iff_getElem.mp hx
  have hp : (spans[i], i) ∈ spans.zipIdx := by simp [List.mk_mem_zipIdx_iff_getElem?, hi]
  obtain ⟨row, hrow, hstart, _, hend⟩ := h.own _ hp
  rw [segmentAt_congr hsegments]
  exact ⟨row, hrow, hstart, hend.imp_left And.right⟩

lemma persistTranslations_places {doc doc' : Document} {result : TranslationResult} {ids : FreshIds}
    {now : Instant} {spans : List (ℤ × ℤ)} (hok : DocumentOk doc) (hspans : Spans doc spans)
    (hends : result.translations.map resultEnds = spans) (hstatus : result.status = .completed)
    (hfilled : Filled doc spans) (h : persistTranslations result ids now doc = .ok doc') :
    doc'.translations.map placeOf = doc.translations.map placeOf := by
  obtain ⟨rows, hrows, h⟩ := bind_ok h
  cases h
  subst hends
  obtain rfl := writeTranslations_rows hok hspans hstatus hrows
  set W := translationWriter doc now ids.rowIds
  have hin : ∀ p ∈ result.translations.zipIdx, resultEnds p.1 ∈ result.translations.map resultEnds :=
    fun p hp => List.mem_map_of_mem (List.fst_mem_of_mem_zipIdx hp)
  have hfresh : W.fresh doc.translations result.translations.zipIdx = [] := by
    rw [Writer.fresh, List.filter_eq_nil_iff]
    intro p hp hnone
    obtain ⟨row, hrow, hstart, _⟩ := hfilled _ (hin p hp)
    exact dictGet_none.mp (Option.isNone_iff_eq_none.mp hnone) row hrow hstart
  have hplace : ∀ row ∈ doc.translations,
      placeOf (W.rewritten result.translations.zipIdx row) = placeOf row := by
    intro row hrow
    unfold Writer.rewritten
    split
    · rename_i p hp
      have hfound : W.keyOf p = W.key row := by simpa using List.find?_some hp
      have hkey : segmentAt doc p.1.startSequence = row.startSegmentId := hfound
      have hx := hin p (List.mem_of_find?_eq_some hp)
      obtain ⟨own, hown, hstart, hend⟩ := hfilled _ hx
      obtain ⟨first, hfirst⟩ := Option.isSome_iff_exists.mp (hspans.first _ hx)
      obtain rfl : own = row := eq_of_nodup_filterMap hok.rows.starts hown hrow
        (hstart.trans hfirst) (hkey.symm.trans hfirst)
      split
      · rfl
      · rename_i hfrozen
        rcases hend with hmanual | hend
        · exact absurd (decide_eq_true hmanual) hfrozen
        · exact congrArg (fun last => (⟨own.id, own.startSegmentId, last, own.createdAt⟩ : Place))
            hend.symm
    · rfl
  rw [hfresh, List.map_nil, List.append_nil, List.map_map]
  exact List.map_congr_left hplace

lemma editTranslations_places {updates : List TranslationUpdate} {doc doc' : Document}
    (hok : DocumentOk doc) (h : editTranslations updates doc = .ok doc') :
    doc'.translations.map placeOf = doc.translations.map placeOf := by
  obtain ⟨rows, hrows, rfl⟩ := editTranslations_ok h
  have hkept : RowsOk doc.segments rows ∧ rows.map placeOf = doc.translations.map placeOf := by
    refine foldlM_keeps (P := fun rows => RowsOk doc.segments rows ∧
      rows.map placeOf = doc.translations.map placeOf) ?_ ⟨hok.rows, rfl⟩ hrows
    rintro b c u _ ⟨hb, hplaces⟩ hc
    refine ⟨saveTranslation_keeps hb hc, ?_⟩
    obtain ⟨row, hrow, _, _, _, rfl⟩ := saveTranslation_ok hc
    rw [← hplaces]
    exact replaceRow_map hb.rowIds hrow rfl rfl
  exact hkept.2

lemma editTranslations_filled {updates : List TranslationUpdate} {doc doc' : Document}
    {spans : List (ℤ × ℤ)} (hok : DocumentOk doc) (hfilled : Filled doc spans)
    (h : editTranslations updates doc = .ok doc') : Filled doc' spans := by
  have hsaved := editTranslations_saved hok h
  have hsegments : doc'.segments = doc.segments := by
    obtain ⟨_, _, rfl⟩ := editTranslations_ok h
    rfl
  intro x hx
  obtain ⟨row, hrow, hstart, hend⟩ := hfilled x hx
  obtain ⟨row', hrow', hsame⟩ := paired_mem hsaved hrow
  rw [segmentAt_congr hsegments]
  refine ⟨row', hrow', hsame.start.trans hstart, ?_⟩
  rcases hsame.kept with rfl | ⟨hmanual, _⟩
  · exact hend
  · exact .inl hmanual

lemma persistAnalysis_rows {claim : ClaimedJob} {result : AnalysisResult} {now : Instant}
    {doc doc' : Document} (h : persistAnalysis claim result now doc = .ok doc') :
    doc'.segments = doc.segments ∧ doc'.translations = doc.translations := by
  unfold persistAnalysis at h
  split at h
  all_goals
    cases h
    exact ⟨rfl, rfl⟩

def KeepsTranscript (id : RecordingId) (e : Event World Act) : Prop :=
  (docAt id e.after).transcriptRevision = (docAt id e.before).transcriptRevision ∧
    (docAt id e.after).segments = (docAt id e.before).segments

structure Rests (spans : List (ℤ × ℤ)) (doc doc' : Document) : Prop where
  segments : doc'.segments = doc.segments
  filled : Filled doc' spans
  places : spans = [] ∨ doc'.translations.map placeOf = doc.translations.map placeOf

lemma step_rests {w : World} {act : Act} (hok : WorldInvariant w) (hallowed : act.Allowed w)
    {id : RecordingId} (hkeeps : KeepsTranscript id ⟨w, act, perform w act⟩)
    {sentences : List TranscriptSentence} (hs : currentSentences (docAt id w) = .ok sentences)
    (hfilled : Filled (docAt id w) (sentences.map ends)) :
    Rests (sentences.map ends) (docAt id w) (docAt id (perform w act)) := by
  obtain ⟨hrevision, hsegments⟩ := hkeeps
  simp only [docAt] at hrevision hsegments hs hfilled ⊢
  have hwrote := step_wrote hok.statuses hallowed id
  have hdoc := hok.documents id
  have hsame : ∀ doc, doc.segments = (w.db.documents id).segments →
      doc.translations = (w.db.documents id).translations →
      Rests (sentences.map ends) (w.db.documents id) doc := by
    intro doc hseg htrans
    refine ⟨hseg, ?_, .inr (congrArg _ htrans)⟩
    intro x hx
    rw [htrans, segmentAt_congr hseg]
    exact hfilled x hx
  generalize (perform w act).db.documents id = doc at hrevision hsegments hwrote ⊢
  cases hwrote with
  | kept => exact hsame _ rfl rfl
  | cleared =>
    have hnone := currentSentences_nil hsegments.symm hs
    subst hnone
    exact ⟨hsegments, fun x hx => absurd hx List.not_mem_nil, .inl rfl⟩
  | transcriptEdited _ _ hedit =>
    rw [editTranscript_revision hedit] at hrevision
    omega
  | analysisEdited _ _ hedit =>
    obtain ⟨_, _, _, rfl⟩ := editAnalysis_ok hedit
    exact hsame _ rfl rfl
  | translationsEdited _ _ hedit =>
    exact ⟨hsegments, editTranslations_filled hdoc hfilled hedit,
      .inr (editTranslations_places hdoc hedit)⟩
  | @committed _ claim work _ _ job _ hjob howns hscope hcomputed _ hpersist =>
    cases work with
    | transcript result ids at_ =>
      rw [persistTranscript_revision hpersist] at hrevision
      omega
    | analysis result at_ =>
      obtain ⟨hseg, htrans⟩ := persistAnalysis_rows hpersist
      exact hsame _ hseg htrans
    | translations result ids at_ =>
      obtain ⟨_, l, hl, rfl, _, _, _, htranslate⟩ := hcomputed
      have hread := hok.current l hl job hjob howns id hscope
      by_cases hstatus : result.status = .completed
      · obtain ⟨sentences', hs', hends⟩ := computed_ends hread htranslate hstatus
        obtain rfl : sentences' = sentences := Except.ok.inj (hs'.symm.trans hs)
        have hspans := sentences_spans hdoc hs
        have hrows := persistTranslations_runRows hdoc hspans hends hstatus hpersist
        exact ⟨hsegments, runRows_filled hrows.1 hrows.2,
          .inr (persistTranslations_places hdoc hspans hends hstatus hfilled hpersist)⟩
      · obtain ⟨rows, hrows, hpersist⟩ := bind_ok hpersist
        cases hpersist
        rw [writeTranslations, if_pos hstatus] at hrows
        cases hrows
        exact hsame _ rfl rfl

lemma Rests.trans {spans : List (ℤ × ℤ)} {a b c : Document} (h : Rests spans a b)
    (k : Rests spans b c) : Rests spans a c := by
  refine ⟨k.segments.trans h.segments, k.filled, ?_⟩
  rcases h.places with hnone | hab
  · exact .inl hnone
  · exact k.places.imp_right (fun hbc => hbc.trans hab)

lemma run_rests {w w' : World} {es : List (Event World Act)} (h : WorldRun w es w')
    (hok : WorldInvariant w) {id : RecordingId} (hkeeps : ∀ e ∈ es, KeepsTranscript id e)
    {sentences : List TranscriptSentence} (hs : currentSentences (docAt id w) = .ok sentences)
    (hfilled : Filled (docAt id w) (sentences.map ends)) :
    Rests (sentences.map ends) (docAt id w) (docAt id w') := by
  induction h with
  | nil s => exact ⟨rfl, hfilled, .inr rfl⟩
  | @cons s act t es u hstep _ ih =>
    obtain ⟨hfirst, hrest⟩ := List.forall_mem_cons.mp hkeeps
    have hok' := step_invariant hok hstep
    obtain ⟨hallowed, rfl⟩ := hstep
    have hstepped := step_rests hok hallowed hfirst hs hfilled
    have hs' := (currentSentences_congr hstepped.segments).trans hs
    exact hstepped.trans (ih hok' hrest hs' hstepped.filled)

lemma rests_shown {spans : List (ℤ × ℤ)} {doc doc' : Document} (hok : DocumentOk doc)
    (hok' : DocumentOk doc') (h : Rests spans doc doc') {x : ℤ × ℤ} (hx : x ∈ spans) :
    Shown doc' x ↔ Shown doc x := by
  have hplaces : doc'.translations.map placeOf = doc.translations.map placeOf := by
    rcases h.places with hnone | hplaces
    · rw [hnone] at hx
      cases hx
    · exact hplaces
  rw [shown_iff hok, shown_iff hok', segmentAt_congr h.segments]
  have hfits : Fits doc'.translations (segmentAt doc x.1) (segmentAt doc x.2) ↔
      Fits doc.translations (segmentAt doc x.1) (segmentAt doc x.2) :=
    ⟨fits_of_places hplaces.symm, fits_of_places hplaces⟩
  rw [hfits]

lemma filled_own {doc : Document} (hok : DocumentOk doc) {spans : List (ℤ × ℤ)}
    (hspans : Spans doc spans) (h : Filled doc spans) {x : ℤ × ℤ} (hx : x ∈ spans) :
    ∃ row, OwnRow doc x row := by
  obtain ⟨row, hrow, hstart, _⟩ := h x hx
  exact ⟨row, (ownRow_iff hok).mpr ⟨hspans.first x hx, hrow, hstart⟩⟩

/-- From a COMPLETED run to the next change of the transcript: each sentence has one row at its first
segment, the run changed none that was written by hand, and the page shows the row of each sentence
after its last segment exactly if nothing was there to hide it. -/
theorem shown_translations_iff {settings : Option ProcessingSettings} {w w' : World}
    {before es : List (Event World Act)} {queue : JobQueue} {claim : ClaimedJob}
    {result : TranslationResult} {ids : FreshIds} {at_ now : Instant} {row : RowDefaults}
    {id : RecordingId} (hrun : WorldRun (World.init settings) before w)
    (hallowed : (Act.commit queue claim (.translations result ids at_) now row).Allowed w)
    (haccepted : Accepted w (.commit queue claim (.translations result ids at_) now row))
    (hscope : claim.recordingId = some id) (hstatus : result.status = .completed)
    (hlater : WorldRun (perform w (.commit queue claim (.translations result ids at_) now row)) es w')
    (hkeeps : ∀ e ∈ es, KeepsTranscript id e) :
    ∃ sentences, currentSentences (docAt id w) = .ok sentences ∧
      currentSentences (docAt id w') = .ok sentences ∧
      (∀ s ∈ sentences, ∃ row, OwnRow (docAt id w') (ends s) row) ∧
      manualRows (docAt id (perform w (.commit queue claim (.translations result ids at_) now row))) =
        manualRows (docAt id w) ∧
      ((∀ s ∈ sentences, Shown (docAt id w') (ends s)) ↔
        ∀ p ∈ (sentences.map ends).zipIdx, Unmasked (docAt id w) (sentences.map ends) p.1
          (toLex (at_, ids.rowIds p.2))) := by
  have hok := run_invariant hrun
  have hdoc : DocumentOk (docAt id w) := hok.documents id
  set act := Act.commit queue claim (.translations result ids at_) now row
  have hok₁ := step_invariant hok ⟨hallowed, rfl⟩
  have hdoc₁ : DocumentOk (docAt id (perform w act)) := hok₁.documents id
  have hdoc' : DocumentOk (docAt id w') :=
    (hlater.keeps WorldInvariant (fun _ _ _ => step_invariant) hok₁).documents id
  obtain ⟨job, hjob, howns, hpersist⟩ : ∃ job ∈ w.db.jobs, Owns claim job ∧
      persistTranslations result ids at_ (docAt id w) = .ok (docAt id (perform w act)) :=
    accepted_commit haccepted hscope
  obtain ⟨_, l, hl, hclaim, _, _, _, htranslate⟩ := hallowed.2
  have hread : readTranscript (docAt id w) = .ok l.transcript :=
    hok.current l hl job hjob (hclaim ▸ howns) id (hclaim ▸ hscope)
  obtain ⟨sentences, hs, hends⟩ := computed_ends hread htranslate hstatus
  have hspans := sentences_spans hdoc hs
  obtain ⟨hsegments, hrows⟩ := persistTranslations_runRows hdoc hspans hends hstatus hpersist
  have hfilled := runRows_filled hsegments hrows
  have hs₁ := (currentSentences_congr hsegments).trans hs
  have hrests := run_rests hlater hok₁ hkeeps hs₁ hfilled
  have hs' := (currentSentences_congr hrests.segments).trans hs₁
  refine ⟨sentences, hs, hs', ?_, persistTranslations_manual hdoc hpersist, ?_⟩
  · intro s hsmem
    exact filled_own hdoc' (sentences_spans hdoc' hs') hrests.filled (List.mem_map_of_mem hsmem)
  · have hshown : ∀ p ∈ (sentences.map ends).zipIdx, Shown (docAt id w') p.1 ↔
        Unmasked (docAt id w) (sentences.map ends) p.1 (toLex (at_, ids.rowIds p.2)) := by
      intro p hp
      have hx : p.1 ∈ sentences.map ends := List.fst_mem_of_mem_zipIdx hp
      rw [rests_shown hdoc₁ hdoc' hrests hx, shown_iff hdoc₁, segmentAt_congr hsegments,
        ← runRows_fits hspans hrows hdoc₁.rows.starts hp]
      exact ⟨fun h => h.2.2, fun h => ⟨hspans.first _ hx, hspans.last _ hx, h⟩⟩
    constructor
    · intro hall p hp
      obtain ⟨s, hsmem, hsp⟩ := List.mem_map.mp (List.fst_mem_of_mem_zipIdx hp)
      exact (hshown p hp).mp (hsp ▸ hall s hsmem)
    · intro hall s hsmem
      obtain ⟨i, hi, hsi⟩ := List.mem_iff_getElem.mp (List.mem_map_of_mem (f := ends) hsmem)
      have hp : (ends s, i) ∈ (sentences.map ends).zipIdx := by
        rw [List.mk_mem_zipIdx_iff_getElem?, List.getElem?_eq_getElem hi, hsi]
      exact (hshown _ hp).mpr (hall _ hp)

theorem shown_translations_iff_saved :
    ∃ sentences, currentSentences (docAt 1 translatedWorld) = .ok sentences ∧
      sentences.map ends = [(0, 0)] ∧ ∀ s ∈ sentences, Shown (docAt 1 translatedWorld) (ends s) := by
  have hrun : WorldRun analysedWorld (trail perform analysedWorld (translatedActs.take 2) ++
      (⟨(translatedActs.take 2).foldl perform analysedWorld,
        .commit exampleWorker translationClaim (.translations exampleTranslation exampleIds 5) 5 ⟨4, 5⟩,
        (translatedActs.take 3).foldl perform analysedWorld⟩ : Event World Act) ::
      trail perform ((translatedActs.take 3).foldl perform analysedWorld) (translatedActs.drop 3))
      translatedWorld := translatedRun
  obtain ⟨hbefore, hstep, hlater⟩ := hrun.around
  have haccepted : ((Act.commit exampleWorker translationClaim
      (.translations exampleTranslation exampleIds 5) 5 ⟨4, 5⟩).transaction
      ((translatedActs.take 2).foldl perform analysedWorld).db).isOk := by decide +kernel
  have hfirst : (docAt 1 ((translatedActs.take 2).foldl perform analysedWorld)).translations = [] := by
    decide +kernel
  obtain ⟨sentences, _, hs, _, _, hiff⟩ := shown_translations_iff (analysedRun.append hbefore) hstep.1
    ⟨_, ok_valueOr ((), Database.empty none) haccepted⟩ rfl (by decide +kernel) hlater (by
      intro e he
      rw [List.mem_singleton.mp he]
      exact ⟨by decide +kernel, by decide +kernel⟩)
  refine ⟨sentences, hs, ?_, hiff.mpr ?_⟩
  · have hends : (currentSentences (docAt 1 translatedWorld)).map (List.map ends) = .ok [(0, 0)] := by
      decide +kernel
    rw [hs] at hends
    exact Except.ok.inj hends
  · intro p _
    refine ⟨?_, ?_⟩
    all_goals
      intro row hrow
      rw [hfirst] at hrow
      cases hrow

def spoken (n : ℕ) (text : String) : TranscriptionSegment :=
  ⟨n, n + 1, text.toList, [], none, Nat.cast_nonneg n, lt_add_one (n : ℚ)⟩

def twoLines : TranscriptionResult := ⟨[spoken 0 "はい。", spoken 3 "行く。"], some "ja".toList⟩

lemma voice_nonblank : ¬ Blank "A".toList := by decide

def voice (n : ℕ) : SpeakerTurn :=
  ⟨n, n + 1, "A".toList, Nat.cast_nonneg n, lt_add_one (n : ℚ), voice_nonblank⟩

def twoSentences : PipelineResult :=
  valueOr ⟨[]⟩ (pipelineRun exampleMerger (.ok twoLines) (.ok ⟨[voice 0, voice 3], []⟩))

def renderLine (s : TranscriptSentence) : Except Exn Text := .ok ("譯".toList ++ s.text)

def renderedLines (transcript : List MergedTranscriptSegment) : TranslationResult :=
  valueOr ⟨.skipped, [], none, [], none, none⟩
    (TranslationProvider.lmstudio.translate (.ok "model".toList) renderLine transcript)

def lineClaim : ClaimedJob :=
  ⟨2, some 1, .translation, 8, "worker".toList, 1, 2, .translating, none⟩

def joinedClaim : ClaimedJob :=
  ⟨4, some 1, .translation, 9, "worker".toList, 1, 2, .translating, none⟩

def joinedLines : List TranscriptSegmentUpdate :=
  valueOr [] ([⟨10, "A".toList, 0, 1, "はい".toList⟩, ⟨11, "A".toList, 3, 4, "行く。".toList⟩].mapM
    SegmentPayload.validate)

def joinedActs : List Act :=
  [.server (.create exampleService exampleRecording ⟨1, 0⟩ 0),
    .server (.queue (.claimNext exampleWorker 0 7 none [])),
    .commit exampleWorker fullClaim (.transcript twoSentences exampleIds 1) 1 ⟨2, 1⟩,
    .server (.queue (.claimNext exampleWorker 2 8 none [])),
    .load lineClaim,
    .commit exampleWorker lineClaim
      (.translations (renderedLines twoSentences.transcript) exampleIds 3) 3 ⟨3, 3⟩,
    .updateTranscript 1 1 joinedLines,
    .server (.reprocessTranslation exampleService 1 ⟨4, 5⟩ 5),
    .server (.queue (.claimNext exampleWorker 6 9 none [])),
    .load joinedClaim]

def joinedWorld : World := joinedActs.foldl perform (World.init (some ⟨false, true⟩))

def joinedTranscript : List MergedTranscriptSegment :=
  valueOr [] (readTranscript (docAt 1 joinedWorld))

def joinedCommit : Act :=
  .commit exampleWorker joinedClaim (.translations (renderedLines joinedTranscript) exampleIds 7) 7
    ⟨5, 7⟩

lemma joinedRun : WorldRun (World.init (some ⟨false, true⟩))
    (trail perform (World.init (some ⟨false, true⟩)) joinedActs) joinedWorld := by
  apply run_trail
  refine ⟨trivial, claimNext_allowed ?_, ⟨?_, rfl, exampleMerger, _, _, ok_valueOr _ ?_⟩,
    claimNext_allowed ?_, load_allowed ?_,
    ⟨?_, rfl, ⟨lineClaim, twoSentences.transcript⟩, ?_, rfl, .lmstudio, _, _, ok_valueOr _ ?_⟩,
    trivial, trivial, claimNext_allowed ?_, load_allowed ?_, trivial⟩
  all_goals decide +kernel

lemma joinedCommit_allowed : joinedCommit.Allowed joinedWorld := by
  refine ⟨?_, rfl, ⟨joinedClaim, joinedTranscript⟩, ?_, rfl, .lmstudio, _, _, ok_valueOr _ ?_⟩
  all_goals decide +kernel

/-- The row of a sentence that is gone hides the row of the sentence it became a part of. -/
theorem old_rendering_shown : ¬ ∀ settings before w queue claim result ids at_ now row id sentences,
    WorldRun (World.init settings) before w →
    (Act.commit queue claim (.translations result ids at_) now row).Allowed w →
    Accepted w (.commit queue claim (.translations result ids at_) now row) →
    claim.recordingId = some id → result.status = .completed →
    currentSentences (docAt id (perform w (.commit queue claim (.translations result ids at_) now
      row))) = .ok sentences →
    ∀ s ∈ sentences, Shown (docAt id (perform w (.commit queue claim (.translations result ids at_)
      now row))) (ends s) := by
  intro h
  have haccepted : (joinedCommit.transaction joinedWorld.db).isOk := by decide +kernel
  have hs : (currentSentences (docAt 1 (perform joinedWorld joinedCommit))).isOk := by decide +kernel
  have hends : (valueOr [] (currentSentences (docAt 1 (perform joinedWorld joinedCommit)))).map ends =
      [(0, 1)] := by decide +kernel
  have hmem : ((0 : ℤ), (1 : ℤ)) ∈
      (valueOr [] (currentSentences (docAt 1 (perform joinedWorld joinedCommit)))).map ends := by
    rw [hends]
    exact List.mem_singleton_self _
  obtain ⟨s, hsmem, hse⟩ := List.mem_map.mp hmem
  have hshown := h _ _ _ _ _ _ _ _ _ _ 1 _ joinedRun joinedCommit_allowed
    ⟨_, ok_valueOr ((), Database.empty none) haccepted⟩ rfl (by decide +kernel) (ok_valueOr [] hs) s hsmem
  rw [hse] at hshown
  obtain ⟨row, ⟨start, hstart, hone⟩, last, hlast, hrow⟩ := hshown
  obtain rfl : 10 = start := Option.some.inj
    ((show some 10 = segmentAt (docAt 1 (perform joinedWorld joinedCommit)) 0 by
      decide +kernel).trans hstart)
  obtain rfl : 11 = last := Option.some.inj
    ((show some 11 = segmentAt (docAt 1 (perform joinedWorld joinedCommit)) 1 by
      decide +kernel).trans hlast)
  have hown : ((docAt 1 (perform joinedWorld joinedCommit)).translations.filter
      (fun r => r.startSegmentId = some 10)).map (·.id) = [20] := by decide +kernel
  have hlisted : (shownAfter (docAt 1 (perform joinedWorld joinedCommit)) 11).map (·.id) = some 21 := by
    decide +kernel
  rw [show (docAt 1 (perform joinedWorld joinedCommit)).translations.filter
    (fun r => r.startSegmentId = some 10) = [row] from hone] at hown
  rw [show shownAfter (docAt 1 (perform joinedWorld joinedCommit)) 11 = some row from hrow] at hlisted
  have hfirst : row.id = 20 := List.head_eq_of_cons_eq hown
  have hsecond : row.id = 21 := Option.some.inj hlisted
  omega

end AudioServer.Worker.ShownTranslations
