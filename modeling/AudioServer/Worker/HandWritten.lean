import AudioServer.Foundations.Correspondence
import AudioServer.Worker.Grounding

/-! Translations written by hand, through every way their rows can change. -/

namespace AudioServer.Worker.HandWritten

open AudioServer.Foundations.Outcomes AudioServer.Foundations.Strings AudioServer.Foundations.Runs
open AudioServer.Foundations.Dicts AudioServer.Foundations.Correspondence
open AudioServer.Api.Schemas AudioServer.Db.Models AudioServer.Jobs.Queue
open AudioServer.Processing.Contracts AudioServer.Processing.Sentences AudioServer.Processing.Merge
open AudioServer.Services.Consistency AudioServer.Services.Transactions AudioServer.Services.Editing
open AudioServer.Worker.Persisters AudioServer.Worker.DocumentInvariant
open AudioServer.Worker.CommittedResults AudioServer.Worker.System AudioServer.Worker.Invariant
open AudioServer.Worker.Grounding

def isManual (row : TranscriptTranslation) : Bool := row.source = .manual

def manualRows (doc : Document) : List TranscriptTranslation := doc.translations.filter isManual

structure Carried (row row' : TranscriptTranslation) : Prop where
  source : row'.source = .manual
  sourceJa : row'.sourceJa = row.sourceJa
  textZhHk : row'.textZhHk = row.textZhHk
  detached : row.startSegmentId = none → row'.startSegmentId = none
  placed : (row'.startSegmentId.isSome ∧ row'.endSegmentId.isSome ∧ row'.stale = false) ∨
    (row'.startSegmentId = none ∧ row'.endSegmentId = none ∧ row'.stale = true)

def sequenceAt (doc : Document) (id : SegmentId) : Option ℤ :=
  (dictGet (·.id) doc.segments id).map (·.sequence)

def preservedOf (doc : Document) (sentences : List TranscriptSentence) (row : TranscriptTranslation) :
    PreservedTranslation :=
  ⟨row.sourceJa, (row.startSegmentId.bind (sequenceAt doc)).bind (fun sequence =>
    (dictGet (·.startSequence) sentences sequence).map (·.startTime)), row.textZhHk⟩

lemma capture_ok {doc : Document} {preserved : List PreservedTranslation}
    (h : captureManualTranslations doc = .ok preserved) :
    ∃ sentences, preserved = (manualRows doc).map (preservedOf doc sentences) := by
  simp only [captureManualTranslations] at h
  split at h
  · rename_i hnone
    cases h
    refine ⟨[], ?_⟩
    have hrows : manualRows doc = [] := hnone
    rw [hrows, List.map_nil]
  · obtain ⟨transcript, _, h⟩ := bind_ok h
    obtain ⟨sentences, _, h⟩ := bind_ok h
    cases h
    exact ⟨sentences, rfl⟩

lemma carriedRow_carried {segments : List TranscriptSegment} {sentences : List TranscriptSentence}
    {preserved : List PreservedTranslation} {doc : Document} {before : List TranscriptSentence}
    {row : TranscriptTranslation} {id : ℕ} {now : Instant} :
    Carried row (carriedRow segments sentences preserved (preservedOf doc before row) id now) := by
  refine ⟨rfl, rfl, rfl, ?_, ?_⟩
  · intro hnone
    simp [carriedRow, preservedOf, matchOf, hnone]
  · simp only [carriedRow]
    split
    · rename_i hattached
      obtain ⟨hstart, hend⟩ := Bool.and_eq_true_iff.mp hattached
      exact .inl ⟨hstart, hend, by simp [hattached]⟩
    · rename_i hdetached
      refine .inr ⟨rfl, rfl, ?_⟩
      rw [Bool.not_eq_true', ← Bool.not_eq_true]
      exact hdetached

lemma carried_rows {segments : List TranscriptSegment} {sentences : List TranscriptSentence}
    {preserved : List PreservedTranslation} {doc : Document} {before : List TranscriptSentence}
    {rowIds : ℕ → ℕ} {now : Instant} (rows : List TranscriptTranslation) (n : ℕ) :
    List.Forall₂ Carried rows (((rows.map (preservedOf doc before)).zipIdx n).map
      (fun p => carriedRow segments sentences preserved p.1 (rowIds p.2) now)) := by
  induction rows generalizing n with
  | nil => exact .nil
  | cons row rows ih =>
    rw [List.map_cons, List.zipIdx_cons, List.map_cons]
    exact .cons carriedRow_carried (ih (n + 1))

lemma persistTranscript_carried {result : PipelineResult} {ids : FreshIds} {now : Instant}
    {doc doc' : Document} (h : persistTranscript result ids now doc = .ok doc') :
    List.Forall₂ Carried (manualRows doc) doc'.translations ∧
      (doc'.translations.filterMap (·.startSegmentId)).Nodup := by
  obtain ⟨preserved, rows, hp, _, hrows, rfl⟩ := persistTranscript_ok h
  obtain ⟨before, rfl⟩ := capture_ok hp
  rcases carryManualTranslations_ok hrows with ⟨hnone, rfl⟩ | ⟨sentences, _, rfl, _, hstarts⟩
  · rw [List.map_eq_nil_iff.mp hnone]
    exact ⟨.nil, List.nodup_nil⟩
  · exact ⟨carried_rows _ 0, hstarts⟩

lemma countWithin_preserved (preserved : List PreservedTranslation) (sourceJa : Text)
    (moment : Seconds) : countWithin (writtenAt preserved sourceJa) moment =
      preserved.countP (fun p => p.sourceJa = sourceJa ∧
        ∃ t ∈ p.startTime, |t - moment| ≤ sameUtteranceSeconds) := by
  induction preserved with
  | nil => rfl
  | cons p preserved ih =>
    rw [List.countP_cons, ← ih]
    by_cases hja : p.sourceJa = sourceJa
    · cases ht : p.startTime with
      | none => simp [countWithin, writtenAt, hja, ht]
      | some t => simp [countWithin, writtenAt, hja, ht, List.countP_cons]
    · simp [countWithin, writtenAt, hja]

lemma carriedRow_start {segments : List TranscriptSegment} {sentences : List TranscriptSentence}
    {preserved : List PreservedTranslation} {p : PreservedTranslation} {id start : ℕ} {now : Instant}
    (h : (carriedRow segments sentences preserved p id now).startSegmentId = some start) :
    ∃ s, matchOf sentences preserved p = some s ∧
      ∃ segment ∈ segments, segment.sequence = s.startSequence ∧ segment.id = start := by
  have hfresh : (carriedRow segments sentences preserved p id now).stale = false := by
    simp only [carriedRow] at h ⊢
    split at h
    · rename_i hattached
      simp [hattached]
    · cases h
  obtain ⟨s, hs, segment, hmem, _, _, hsequence, _, hstart, _⟩ := carriedRow_attached hfresh
  rw [h] at hstart
  exact ⟨s, hs, segment, hmem, hsequence, (Option.some.inj hstart).symm⟩

lemma matched_once {sentences : List TranscriptSentence} {preserved : List PreservedTranslation}
    {i j : ℕ} (hij : i < j) (hj : j < preserved.length) {s : TranscriptSentence}
    (hi : matchOf sentences preserved preserved[i] = some s)
    (hsame : matchOf sentences preserved preserved[j] = some s) : False := by
  obtain ⟨_, htext, ⟨t, ht, hnear⟩, hcount⟩ := matchOf_some hi
  obtain ⟨_, htext', ⟨t', ht', hnear'⟩, _⟩ := matchOf_some hsame
  rw [countWithin_preserved] at hcount
  have htwo := two_le_countP (p := fun p => decide (p.sourceJa = preserved[i].sourceJa ∧
    ∃ t ∈ p.startTime, |t - s.startTime| ≤ sameUtteranceSeconds)) hij hj
    (by simp [ht, abs_sub_comm t, hnear]) (by simp [ht', abs_sub_comm t', hnear', ← htext, htext'])
  omega

lemma carried_starts {segments : List TranscriptSegment} {transcript : List MergedTranscriptSegment}
    {sentences : List TranscriptSentence} {preserved : List PreservedTranslation} {rowIds : ℕ → ℕ}
    {now : Instant} (hids : (segments.map (·.id)).Nodup)
    (hsentences : groupSentences transcript maxSentenceChars = .ok sentences)
    (hasc : Ascending transcript) :
    ((preserved.zipIdx.map (fun p => carriedRow segments sentences preserved p.1 (rowIds p.2)
      now)).filterMap (·.startSegmentId)).Nodup := by
  have hstarts := groupSentences_starts hsentences hasc
  have hsame : ∀ a ∈ sentences, ∀ b ∈ sentences, a.startSequence = b.startSequence → a = b := by
    have hkeys : (sentences.map (·.startSequence)).Nodup :=
      (List.pairwise_map.mpr hstarts).imp ne_of_lt
    intro a ha b hb he
    exact List.inj_on_of_nodup_map hkeys ha hb he
  rw [List.filterMap_map, List.Nodup, List.pairwise_filterMap, List.pairwise_iff_getElem]
  intro i j hi hj hij start hstart start' hstart' he
  subst he
  simp only [List.length_zipIdx] at hi hj
  simp only [List.getElem_zipIdx, Function.comp] at hstart hstart'
  obtain ⟨s, hs, segment, hmem, hsequence, hid⟩ := carriedRow_start hstart
  obtain ⟨s', hs', segment', hmem', hsequence', hid'⟩ := carriedRow_start hstart'
  have hsegment : segment = segment' :=
    List.inj_on_of_nodup_map hids hmem hmem' (hid.trans hid'.symm)
  subst hsegment
  have hsentence := hsame s (matchOf_some hs).1 s' (matchOf_some hs').1
    (hsequence.symm.trans hsequence')
  subst hsentence
  exact matched_once hij hj hs hs'

lemma flush_no_clash {rows : List TranscriptTranslation}
    (h : (rows.filterMap (·.startSegmentId)).Nodup) :
    flushTranslations rows ≠ .error (.integrityError .translationRecordingStart) := by
  intro he
  rcases bind_error he with he | ⟨_, _, he⟩
  · cases require_error he
  · rw [require_of h] at he
    cases he

lemma carry_no_clash {segments : List TranscriptSegment} {transcript : List MergedTranscriptSegment}
    {preserved : List PreservedTranslation} {rowIds : ℕ → ℕ} {now : Instant}
    (hids : (segments.map (·.id)).Nodup) (hasc : Ascending transcript) :
    carryManualTranslations segments transcript preserved rowIds now ≠
      .error (.integrityError .translationRecordingStart) := by
  unfold carryManualTranslations
  split
  · exact nofun
  · intro he
    rcases bind_error he with he | ⟨sentences, hs, he⟩
    · obtain ⟨_, hvalue⟩ := groupSentences_error he
      cases hvalue
    · exact flush_no_clash (carried_starts hids hs hasc) he

lemma capture_error {doc : Document} {e : Exn} (h : captureManualTranslations doc = .error e) :
    ∃ message, e = .valueError message := by
  simp only [captureManualTranslations] at h
  split at h
  · cases h
  · rcases bind_error h with h | ⟨_, _, h⟩
    · obtain ⟨_, h⟩ := mapM_error h
      exact MergedTranscriptSegment.make_error h
    · rcases bind_error h with h | ⟨_, _, h⟩
      · exact groupSentences_error h
      · cases h

lemma persistTranscript_no_clash {result : PipelineResult} {ids : FreshIds} {now : Instant}
    {doc : Document} (hn : Numbered result.transcript) :
    persistTranscript result ids now doc ≠ .error (.integrityError .translationRecordingStart) := by
  intro he
  rcases bind_error he with he | ⟨preserved, _, he⟩
  · obtain ⟨_, hvalue⟩ := capture_error he
    cases hvalue
  rcases bind_error he with he | ⟨_, hids, he⟩
  · cases require_error he
  rcases bind_error he with he | ⟨_, _, he⟩
  · cases require_error he
  rcases bind_error he with he | ⟨_, _, he⟩
  · exact carry_no_clash (require_ok.mp hids) hn.ascending he
  · cases he

lemma staleTranslations_manual (doc : Document) :
    manualRows (staleTranslations doc) = (manualRows doc).map (fun t => { t with stale := true }) := by
  rw [manualRows, staleTranslations_rows, List.filter_map]
  rfl

lemma editTranscript_manual {durationSeconds : Seconds} {updates : List TranscriptSegmentUpdate}
    {doc doc' : Document} (h : editTranscript durationSeconds updates doc = .ok doc') :
    manualRows doc' = (manualRows doc).map (fun t => { t with stale := true }) := by
  obtain ⟨_, rfl⟩ := editTranscript_doc h
  rw [manualRows, staleAnalysis_translations]
  exact staleTranslations_manual _

structure Saved (updates : List TranslationUpdate) (row row' : TranscriptTranslation) : Prop where
  id : row'.id = row.id
  start : row'.startSegmentId = row.startSegmentId
  end_ : row'.endSegmentId = row.endSegmentId
  kept : row' = row ∨
    (row'.source = .manual ∧ ∃ u ∈ updates, row.startSegmentId = some u.startSegmentId)

lemma Saved.refl (updates : List TranslationUpdate) (row : TranscriptTranslation) :
    Saved updates row row := ⟨rfl, rfl, rfl, .inl rfl⟩

lemma saved_snd {updates : List TranslationUpdate} {a b c : TranscriptTranslation}
    (h : Saved updates a b) (k : Saved updates b c) : Saved updates a c := by
  refine ⟨k.id.trans h.id, k.start.trans h.start, k.end_.trans h.end_, ?_⟩
  rcases k.kept with rfl | ⟨hsource, u, hu, hstart⟩
  · exact h.kept
  · exact .inr ⟨hsource, u, hu, h.start.symm.trans hstart⟩

lemma saveTranslation_saved {segments : List TranscriptSegment} {updates : List TranslationUpdate}
    {before rows rows' : List TranscriptTranslation} {update : TranslationUpdate}
    (hu : update ∈ updates) (hids : (rows.map (·.id)).Nodup)
    (hbefore : List.Forall₂ (Saved updates) before rows)
    (h : saveTranslation segments rows update = .ok rows') :
    (rows'.map (·.id)).Nodup ∧ List.Forall₂ (Saved updates) before rows' := by
  obtain ⟨row, hrow, current, hstart, _, rfl⟩ := saveTranslation_ok h
  refine ⟨by rwa [replaceRow_keys], ?_⟩
  rw [replaceRow, List.forall₂_map_right_iff]
  have hmem : ∀ b, ∀ r ∈ rows, Saved updates b r → Saved updates b
      (if r.id = row.id then { row with
        textZhHk := update.textZhHk, sourceJa := current, source := .manual, stale := false } else r) := by
    intro b r hr hsaved
    by_cases he : r.id = row.id
    · have hsame : r = row := List.inj_on_of_nodup_map hids hr hrow he
      subst hsame
      rw [if_pos he]
      exact saved_snd hsaved ⟨rfl, rfl, rfl, .inr ⟨rfl, update, hu, hstart⟩⟩
    · rwa [if_neg he]
  rw [List.forall₂_iff_get] at hbefore ⊢
  refine ⟨hbefore.1, ?_⟩
  intro i hi hj
  exact hmem _ _ (List.get_mem _ _) (hbefore.2 i hi hj)

lemma editTranslations_saved {updates : List TranslationUpdate} {doc doc' : Document}
    (hok : DocumentOk doc) (h : editTranslations updates doc = .ok doc') :
    List.Forall₂ (Saved updates) doc.translations doc'.translations := by
  obtain ⟨rows, hrows, rfl⟩ := editTranslations_ok h
  have hkept : (rows.map (·.id)).Nodup ∧ List.Forall₂ (Saved updates) doc.translations rows := by
    refine foldlM_keeps (P := fun rows => (rows.map (·.id)).Nodup ∧
      List.Forall₂ (Saved updates) doc.translations rows) ?_ ⟨hok.rows.rowIds, ?_⟩ hrows
    · exact fun b c u hu hb hc => saveTranslation_saved hu hb.1 hb.2 hc
    · exact List.forall₂_same.mpr (fun row _ => .refl updates row)
  exact hkept.2

lemma replaceRow_filter {rows : List TranscriptTranslation} {row : TranscriptTranslation}
    (hrow : isManual row = false) (hrows : ∀ r ∈ rows, r.id = row.id → isManual r = false) :
    (replaceRow (·.id) row rows).filter isManual = rows.filter isManual := by
  induction rows with
  | nil => rfl
  | cons r rows ih =>
    have hrows' := List.forall_mem_cons.mp hrows
    have hrest := ih hrows'.2
    rw [replaceRow] at hrest ⊢
    rw [List.map_cons]
    by_cases he : r.id = row.id
    · simp only [if_pos he, List.filter_cons, hrow, hrows'.1 he]
      exact hrest
    · simp only [if_neg he, List.filter_cons]
      rw [hrest]

lemma persistTranslations_manual {result : TranslationResult} {ids : FreshIds} {now : Instant}
    {doc doc' : Document} (hok : DocumentOk doc)
    (h : persistTranslations result ids now doc = .ok doc') : manualRows doc' = manualRows doc := by
  obtain ⟨rows, rfl, rfl | ⟨_, _, hrounds⟩⟩ := persistTranslations_ok h
  · rfl
  · apply hrounds (fun rows => rows.filter isManual = manualRows doc) rfl
    intro t _ id rows rows' hrows hwritten
    cases hwritten with
    | kept => exact hrows
    | added =>
      rw [List.filter_append, hrows]
      simp [isManual]
    | @refreshed start end_ row _ _ _ _ hrow _ hsource =>
      rw [replaceRow_filter (by simp [isManual]), hrows]
      intro r hr he
      by_contra hmanual
      have hstored : r ∈ manualRows doc := by
        rw [← hrows]
        exact List.mem_filter.mpr ⟨hr, by simpa using hmanual⟩
      have hsame : r = row :=
        List.inj_on_of_nodup_map hok.rows.rowIds (List.mem_of_mem_filter hstored) hrow he
      subst hsame
      have hsourced := (List.mem_filter.mp hstored).2
      exact hsource (of_decide_eq_true hsourced)

lemma editAnalysis_manual {latest : Option JobId} {result : AnalysisResultV2} {now : Instant}
    {doc doc' : Document} (h : editAnalysis latest result now doc = .ok doc') :
    manualRows doc' = manualRows doc := by
  obtain ⟨_, _, _, rfl⟩ := editAnalysis_ok h
  rfl

lemma persistAnalysis_manual {claim : ClaimedJob} {result : AnalysisResult} {now : Instant}
    {doc doc' : Document} (h : persistAnalysis claim result now doc = .ok doc') :
    manualRows doc' = manualRows doc := by
  unfold persistAnalysis at h
  split at h
  · cases h
    rfl
  · cases h
    rfl

def Names (id : RecordingId) (act : Act) (row : TranscriptTranslation) : Prop :=
  match act with
  | .updateTranslations other _ updates =>
    other = id ∧ ∃ u ∈ updates, row.startSegmentId = some u.startSegmentId
  | _ => False

def Retranscribes (w : World) (act : Act) (id : RecordingId) : Prop :=
  ∃ queue claim result ids at_ now row,
    act = .commit queue claim (.transcript result ids at_) now row ∧ claim.recordingId = some id ∧
      Accepted w act

structure Survives (id : RecordingId) (w : World) (act : Act)
    (row row' : TranscriptTranslation) : Prop where
  text : ¬ Names id act row → row'.sourceJa = row.sourceJa ∧ row'.textZhHk = row.textZhHk
  detached : row.startSegmentId = none → row'.startSegmentId = none
  inPlace : ¬ Retranscribes w act id → row'.id = row.id ∧
    row'.startSegmentId = row.startSegmentId ∧ row'.endSegmentId = row.endSegmentId

abbrev Survived (id : RecordingId) (w : World) (act : Act) (doc doc' : Document) : Prop :=
  List.SublistForall₂ (Survives id w act) (manualRows doc) (manualRows doc')

lemma survived_same {id : RecordingId} {w : World} {act : Act} {doc doc' : Document}
    (h : manualRows doc' = manualRows doc) : Survived id w act doc doc' := by
  rw [Survived, h]
  apply paired_sublist
  apply List.forall₂_same.mpr
  exact fun row _ => ⟨fun _ => ⟨rfl, rfl⟩, fun hr => hr, fun _ => ⟨rfl, rfl, rfl⟩⟩

lemma survived_staled {id : RecordingId} {w : World} {act : Act} {doc doc' : Document}
    (h : manualRows doc' = (manualRows doc).map (fun t => { t with stale := true })) :
    Survived id w act doc doc' := by
  rw [Survived, h]
  apply paired_sublist
  rw [List.forall₂_map_right_iff]
  apply List.forall₂_same.mpr
  exact fun row _ => ⟨fun _ => ⟨rfl, rfl⟩, fun hr => hr, fun _ => ⟨rfl, rfl, rfl⟩⟩

lemma survived_saved {id : RecordingId} {w : World} {expectedRevision : ℕ}
    {updates : List TranslationUpdate} {doc doc' : Document}
    (h : List.Forall₂ (Saved updates) doc.translations doc'.translations) :
    Survived id w (.updateTranslations id expectedRevision updates) doc doc' := by
  refine filter_paired ?_ h
  intro row row' hsaved hmanual
  obtain ⟨hid, hstart, hend, hkept⟩ := hsaved
  refine ⟨?_, ?_, fun hr => hstart.trans hr, fun _ => ⟨hid, hstart, hend⟩⟩
  · rcases hkept with rfl | ⟨hsource, _⟩
    · exact hmanual
    · exact decide_eq_true hsource
  · intro hnames
    rcases hkept with rfl | ⟨_, hnamed⟩
    · exact ⟨rfl, rfl⟩
    · exact absurd ⟨rfl, hnamed⟩ hnames

lemma survived_carried {id : RecordingId} {w : World} {act : Act} {doc doc' : Document}
    (hact : Retranscribes w act id)
    (h : List.Forall₂ Carried (manualRows doc) doc'.translations) : Survived id w act doc doc' := by
  have htwice : (manualRows doc).filter isManual = manualRows doc := by
    rw [manualRows, List.filter_filter]
    simp only [Bool.and_self]
  rw [Survived, ← htwice]
  refine filter_paired ?_ h
  intro row row' hcarried _
  exact ⟨decide_eq_true hcarried.source, fun _ => ⟨hcarried.sourceJa, hcarried.textZhHk⟩,
    hcarried.detached, fun hnot => absurd hact hnot⟩

lemma wrote_survived {w : World} {id : RecordingId} {act : Act} {doc : Document}
    (hok : WorldInvariant w) (h : Wrote w id act doc) (hact : act ≠ .server (.deleteRecording id)) :
    Survived id w act (docAt id w) doc := by
  cases h with
  | kept => exact survived_same rfl
  | cleared _ hlife =>
    rcases hlife with hgone | ⟨rfl, _⟩
    · exact survived_same (congrArg manualRows (hok.absent id hgone).symm)
    · exact absurd rfl hact
  | transcriptEdited _ _ hdoc => exact survived_staled (editTranscript_manual hdoc)
  | analysisEdited _ _ hdoc => exact survived_same (editAnalysis_manual hdoc)
  | translationsEdited _ _ hdoc =>
    exact survived_saved (editTranslations_saved (hok.documents id) hdoc)
  | @committed queue claim work now row _ _ _ _ hscope _ haccepted hdoc =>
    cases work with
    | transcript result ids at_ =>
      exact survived_carried ⟨queue, claim, result, ids, at_, now, row, rfl, hscope, haccepted⟩
        (persistTranscript_carried hdoc).1
    | analysis result at_ => exact survived_same (persistAnalysis_manual hdoc)
    | translations result ids at_ =>
      exact survived_same (persistTranslations_manual (hok.documents id) hdoc)

def pairOf (row : TranscriptTranslation) : Text × Text := (row.sourceJa, row.textZhHk)

lemma carried_pairs {rows rows' : List TranscriptTranslation} (h : List.Forall₂ Carried rows rows') :
    rows'.map pairOf = rows.map pairOf := by
  induction h with
  | nil => rfl
  | cons hc _ ih =>
    rw [List.map_cons, List.map_cons, ih, pairOf, pairOf, hc.sourceJa, hc.textZhHk]

structure HandWrittenKept (id : RecordingId) (e : Event World Act) : Prop where
  survived : e.label ≠ .server (.deleteRecording id) →
    Survived id e.before e.label (docAt id e.before) (docAt id e.after)
  retranscribed : Retranscribes e.before e.label id →
    List.Forall₂ Carried (manualRows (docAt id e.before)) (docAt id e.after).translations ∧
    ((docAt id e.after).translations.map pairOf).Perm ((manualRows (docAt id e.before)).map pairOf) ∧
    ((docAt id e.after).translations.filterMap (·.startSegmentId)).Nodup
  unclashing : ∀ result ids now, Numbered result.transcript →
    persistTranscript result ids now (docAt id e.before) ≠
      .error (.integrityError .translationRecordingStart)
  translated : ∀ queue claim result ids at_ now row,
    e.label = .commit queue claim (.translations result ids at_) now row →
    manualRows (docAt id e.after) = manualRows (docAt id e.before)

lemma wrote_retranscribed {w : World} {id : RecordingId} {act : Act}
    (hact : Retranscribes w act id) :
    ∃ result ids at_, persistTranscript result ids at_ (docAt id w) =
      .ok (docAt id (perform w act)) := by
  obtain ⟨queue, claim, result, ids, at_, now, row, rfl, hscope, haccepted⟩ := hact
  obtain ⟨_, _, _, hdoc⟩ := accepted_commit haccepted hscope
  exact ⟨result, ids, at_, hdoc⟩

lemma step_handWritten {e : Event World Act} (hok : WorldInvariant e.before)
    (h : WorldStep e.before e.label e.after) (id : RecordingId) : HandWrittenKept id e := by
  obtain ⟨w, act, w'⟩ := e
  obtain ⟨hallowed, hafter⟩ := h
  obtain rfl : w' = perform w act := hafter
  have hwrote := step_wrote hok.statuses hallowed id
  refine ⟨wrote_survived hok hwrote, ?_, fun _ _ _ hn => persistTranscript_no_clash hn, ?_⟩
  · intro hact
    obtain ⟨result, ids, at_, hdoc⟩ := wrote_retranscribed hact
    obtain ⟨hcarried, hstarts⟩ := persistTranscript_carried hdoc
    exact ⟨hcarried, .of_eq (carried_pairs hcarried), hstarts⟩
  · rintro queue claim result ids at_ now row rfl
    show manualRows ((perform w _).db.documents id) = manualRows (w.db.documents id)
    generalize (perform w _).db.documents id = doc at hwrote ⊢
    cases hwrote with
    | kept => rfl
    | committed _ _ _ _ _ hdoc => exact persistTranslations_manual (hok.documents id) hdoc

def handWrittenCount (pair : Text × Text) (doc : Document) : ℕ :=
  (manualRows doc).countP (fun row => pairOf row = pair)

def detachedCount (pair : Text × Text) (doc : Document) : ℕ :=
  (manualRows doc).countP (fun row => pairOf row = pair ∧ row.startSegmentId = none)

def Untouched (id : RecordingId) (pair : Text × Text) (e : Event World Act) : Prop :=
  e.label ≠ .server (.deleteRecording id) ∧
    ∀ row ∈ manualRows (docAt id e.before), pairOf row = pair → ¬ Names id e.label row

lemma step_count {e : Event World Act} {id : RecordingId} {pair : Text × Text}
    (h : HandWrittenKept id e) (hu : Untouched id pair e) :
    handWrittenCount pair (docAt id e.before) ≤ handWrittenCount pair (docAt id e.after) := by
  apply countP_le_of_paired (h.survived hu.1)
  intro row hrow row' hsurvives hpair
  have hwas : pairOf row = pair := of_decide_eq_true hpair
  obtain ⟨hja, hzh⟩ := hsurvives.text (hu.2 row hrow hwas)
  apply decide_eq_true
  rw [← hwas, pairOf, pairOf, hja, hzh]

lemma not_named {id : RecordingId} {act : Act} {row : TranscriptTranslation}
    (h : row.startSegmentId = none) : ¬ Names id act row := by
  cases act with
  | updateTranslations other expectedRevision updates =>
    rintro ⟨_, u, _, hstart⟩
    rw [h] at hstart
    cases hstart
  | _ => exact nofun

lemma step_detached {e : Event World Act} {id : RecordingId} {pair : Text × Text}
    (h : HandWrittenKept id e) (hkept : e.label ≠ .server (.deleteRecording id)) :
    detachedCount pair (docAt id e.before) ≤ detachedCount pair (docAt id e.after) := by
  apply countP_le_of_paired (h.survived hkept)
  intro row _ row' hsurvives hpair
  obtain ⟨hwas, hdetached⟩ : pairOf row = pair ∧ row.startSegmentId = none := of_decide_eq_true hpair
  obtain ⟨hja, hzh⟩ := hsurvives.text (not_named hdetached)
  apply decide_eq_true
  refine ⟨?_, hsurvives.detached hdetached⟩
  rw [← hwas, pairOf, pairOf, hja, hzh]

theorem hand_written_translations_kept {settings : Option ProcessingSettings} {w w' : World}
    {before es : List (Event World Act)} (hrun : WorldRun (World.init settings) before w)
    (hafter : WorldRun w es w') (id : RecordingId) :
    (∀ e ∈ es, HandWrittenKept id e) ∧
    (∀ pair, (∀ e ∈ es, Untouched id pair e) →
      handWrittenCount pair (docAt id w) ≤ handWrittenCount pair (docAt id w')) ∧
    ((∀ e ∈ es, e.label ≠ .server (.deleteRecording id)) →
      ∀ pair, detachedCount pair (docAt id w) ≤ detachedCount pair (docAt id w')) := by
  have hw := run_invariant hrun
  have hkept : ∀ e ∈ es, HandWrittenKept id e := by
    intro e he
    have hinv := hafter.event_keeps WorldInvariant (fun _ _ _ => step_invariant) hw he
    exact step_handWritten hinv (hafter.event_step he) id
  refine ⟨hkept, ?_, ?_⟩
  · intro pair hu
    exact hafter.measure_le (fun w => handWrittenCount pair (docAt id w))
      (fun e he => step_count (hkept e he) (hu e he))
  · intro hdelete pair
    exact hafter.measure_le (fun w => detachedCount pair (docAt id w))
      (fun e he => step_detached (hkept e he) (hdelete e he))

def secondClaim : ClaimedJob :=
  ⟨5, some 1, .full, 10, "worker".toList, 1, 2, .preprocessing, none⟩

def retranscribedActs : List Act :=
  [.server (.reprocess exampleService 1 ⟨5, 7⟩ 7),
    .server (.queue (.claimNext exampleWorker 8 10 none [])),
    .commit exampleWorker secondClaim
      (.transcript exampleTranscript ⟨fun n => n + 30, fun n => n + 40⟩ 9) 9 ⟨6, 9⟩]

def retranscribedWorld : World := retranscribedActs.foldl perform translatedWorld

lemma retranscribedRun : WorldRun translatedWorld (trail perform translatedWorld retranscribedActs)
    retranscribedWorld := by
  apply run_trail
  refine ⟨trivial, claimNext_allowed ?_, ⟨?_, rfl, exampleMerger, _, _, ok_valueOr _ ?_⟩, trivial⟩
  all_goals decide +kernel

theorem hand_written_translations_kept_retranscribed :
    let pair := ("はい。".toList, "係呀。".toList)
    (docAt 1 retranscribedWorld).translations.map (fun t => (t.id, t.startSegmentId, t.stale)) =
        [(40, some 30, false)] ∧
      handWrittenCount pair (docAt 1 translatedWorld) = 1 ∧
      handWrittenCount pair (docAt 1 translatedWorld) ≤
        handWrittenCount pair (docAt 1 retranscribedWorld) := by
  intro pair
  refine ⟨by decide +kernel, by decide +kernel, ?_⟩
  have hkept := hand_written_translations_kept (analysedRun.append translatedRun) retranscribedRun 1
  apply hkept.2.1 pair
  intro e he
  simp only [retranscribedActs, trail, List.mem_cons, List.not_mem_nil, or_false] at he
  rcases he with rfl | rfl | rfl
  · exact ⟨nofun, fun _ _ _ => nofun⟩
  · exact ⟨nofun, fun _ _ _ => nofun⟩
  · exact ⟨nofun, fun _ _ _ => nofun⟩

end AudioServer.Worker.HandWritten
