import AudioServer.Worker.CarryOver
import AudioServer.Worker.ShownTranslations

/-! A rendering saved by hand, from the save to the re-transcription that puts it back. -/

namespace AudioServer.Worker.Reattachment

open AudioServer.Foundations.Outcomes AudioServer.Foundations.Strings AudioServer.Foundations.Runs
open AudioServer.Foundations.Dicts AudioServer.Foundations.Correspondence
open AudioServer.Api.Schemas AudioServer.Db.Models AudioServer.Jobs.Queue
open AudioServer.Processing.Contracts AudioServer.Processing.Sentences AudioServer.Processing.Merge
open AudioServer.Services.Consistency AudioServer.Services.Editing AudioServer.Services.Transactions
open AudioServer.Worker.Persisters
open AudioServer.Worker.DocumentInvariant AudioServer.Worker.CommittedResults
open AudioServer.Worker.System AudioServer.Worker.Invariant AudioServer.Worker.Grounding
open AudioServer.Worker.HandWritten AudioServer.Worker.TranslationRows
open AudioServer.Worker.ShownTranslations AudioServer.Worker.CarryOver

def UnderSentence (doc : Document) (row : TranscriptTranslation) (s : TranscriptSentence) : Prop :=
  ∃ sentences, currentSentences doc = .ok sentences ∧ s ∈ sentences ∧
    segmentAt doc s.startSequence = row.startSegmentId ∧
    segmentAt doc s.endSequence = row.endSegmentId

/-- The event saves this row by hand, under this sentence of the transcript as it then is. -/
structure SavedUnder (id : RecordingId) (row : TranscriptTranslation) (s : TranscriptSentence)
    (e : Event World Act) : Prop where
  accepted : Accepted e.before e.label
  named : Names id e.label row
  stored : row ∈ (docAt id e.after).translations
  under : UnderSentence (docAt id e.before) row s

def LeavesRow (id : RecordingId) (row : TranscriptTranslation) (e : Event World Act) : Prop :=
  Accepted e.before e.label → e.label ≠ .server (.deleteRecording id) ∧
    ¬ Retranscribes e.before e.label id ∧ ¬ Names id e.label row

/-- The first segment of the row still begins a sentence, said when `s` was. -/
def StillStarts (doc : Document) (row : TranscriptTranslation) (s : TranscriptSentence) : Prop :=
  ∃ sentences, currentSentences doc = .ok sentences ∧ ∃ s₀ ∈ sentences,
    segmentAt doc s₀.startSequence = row.startSegmentId ∧ s₀.startTime = s.startTime

structure Returns (doc : Document) (row : TranscriptTranslation) (s : TranscriptSentence)
    (sentences : List TranscriptSentence) (s' : TranscriptSentence) : Prop where
  sentence : s' ∈ sentences
  text : s'.text = s.text
  near : |s'.startTime - s.startTime| ≤ sameUtteranceSeconds
  only : ∀ other ∈ sentences, other.text = s.text →
    |other.startTime - s.startTime| ≤ sameUtteranceSeconds → other = s'
  alone : ∀ current, currentSentences doc = .ok current → ∀ other ∈ manualRows doc,
    other.id ≠ row.id → other.sourceJa = s.text →
      ∀ t ∈ (preservedOf doc current other).startTime, sameUtteranceSeconds < |t - s'.startTime|

section Saving

variable {segments : List TranscriptSegment}

def Reviewed (start : SegmentId) (rows : List TranscriptTranslation) : Prop :=
  ∀ row ∈ rows, row.startSegmentId = some start → row.source = .manual ∧ row.stale = false

lemma saveTranslation_reviewed {rows rows' : List TranscriptTranslation} {update : TranslationUpdate}
    (hok : RowsOk segments rows)
    (h : saveTranslation (orderedSegments segments) rows update = .ok rows') :
    Reviewed update.startSegmentId rows' := by
  obtain ⟨row, hrow, current, hstart, _, rfl⟩ := saveTranslation_ok h
  intro r hr hrstart
  rcases mem_replaceRow hr with rfl | ⟨hr, hne⟩
  · exact ⟨rfl, rfl⟩
  · have hsame : r = row := eq_of_nodup_filterMap hok.starts hr hrow hrstart hstart
    exact absurd (congrArg (·.id) hsame) hne

lemma saveTranslation_stillReviewed {start : SegmentId} {rows rows' : List TranscriptTranslation}
    {update : TranslationUpdate} (hrows : Reviewed start rows)
    (h : saveTranslation (orderedSegments segments) rows update = .ok rows') :
    Reviewed start rows' := by
  obtain ⟨row, _, current, _, _, rfl⟩ := saveTranslation_ok h
  intro r hr hstart
  rcases mem_replaceRow hr with rfl | ⟨hr, _⟩
  · exact ⟨rfl, rfl⟩
  · exact hrows r hr hstart

lemma saves_reviewed {updates : List TranslationUpdate} {rows rows' : List TranscriptTranslation}
    (hok : RowsOk segments rows)
    (h : updates.foldlM (saveTranslation (orderedSegments segments)) rows = .ok rows') :
    ∀ u ∈ updates, Reviewed u.startSegmentId rows' := by
  induction updates generalizing rows with
  | nil => exact fun u hu => absurd hu List.not_mem_nil
  | cons update updates ih =>
    rw [List.foldlM_cons] at h
    obtain ⟨first, hfirst, hrest⟩ := bind_ok h
    refine List.forall_mem_cons.mpr ⟨?_, ih (saveTranslation_keeps hok hfirst) hrest⟩
    exact foldlM_keeps (fun _ _ _ _ => saveTranslation_stillReviewed)
      (saveTranslation_reviewed hok hfirst) hrest

end Saving

lemma segmentAt_some {doc : Document} {sequence : ℤ} {id : SegmentId}
    (h : segmentAt doc sequence = some id) :
    ∃ segment ∈ doc.segments, segment.sequence = sequence ∧ segment.id = id := by
  obtain ⟨segment, hget, hid⟩ := Option.map_eq_some_iff.mp h
  obtain ⟨hmem, hsequence⟩ := dictGet_some hget
  exact ⟨segment, hmem, hsequence, hid⟩

lemma segment_sequence {doc : Document} (hok : DocumentOk doc) {sequence : ℤ}
    {segment : TranscriptSegment} (hmem : segment ∈ doc.segments)
    (h : segmentAt doc sequence = some segment.id) : segment.sequence = sequence := by
  obtain ⟨found, hfound, hsequence, hid⟩ := segmentAt_some h
  rw [← hsequence, List.inj_on_of_nodup_map hok.segmentIds hfound hmem hid]

lemma described_text {doc : Document} (hok : DocumentOk doc) {row : TranscriptTranslation}
    {s : TranscriptSentence} (hunder : UnderSentence doc row s)
    (hdescribes : Describes doc.segments row) : row.sourceJa = s.text := by
  obtain ⟨sentences, hsentences, hs, hstart, hend⟩ := hunder
  obtain ⟨transcript, hread, hgroup⟩ := bind_ok hsentences
  obtain ⟨a, ha, b, hb, hastart, hbend, hspan⟩ := hdescribes
  have hasequence : a.sequence = s.startSequence :=
    segment_sequence hok ha (hstart.trans hastart)
  have hbsequence : b.sequence = s.endSequence := segment_sequence hok hb (hend.trans hbend)
  have htext : s.text = joined (covered transcript s.startSequence s.endSequence) :=
    (groupSentences_text hgroup (readTranscript_ascending hok hread) hs).1
  rw [hasequence, hbsequence, spanText_joined (readTranscript_lines hread), ← htext,
    if_neg (nonblank_ne_nil s.text_nonblank)] at hspan
  exact (Option.some.inj hspan).symm

def StillThere (doc : Document) (row : TranscriptTranslation) : Prop :=
  ∃ kept ∈ manualRows doc, kept.id = row.id ∧ kept.startSegmentId = row.startSegmentId ∧
    kept.sourceJa = row.sourceJa ∧ kept.textZhHk = row.textZhHk

lemma saved_edit {id : RecordingId} {row : TranscriptTranslation} {s : TranscriptSentence}
    {e : Event World Act} (h : SavedUnder id row s e)
    (hstep : WorldStep e.before e.label e.after) :
    ∃ expectedRevision updates, e.label = .updateTranslations id expectedRevision updates ∧
      (∃ u ∈ updates, row.startSegmentId = some u.startSegmentId) ∧
      editTranslations updates (docAt id e.before) = .ok (docAt id e.after) := by
  obtain ⟨w, act, w'⟩ := e
  obtain ⟨haccepted, hnamed, _, _⟩ := h
  obtain ⟨_, hafter⟩ := hstep
  obtain rfl : w' = perform w act := hafter
  cases act with
  | updateTranslations other expectedRevision updates =>
    obtain ⟨rfl, hnamed⟩ := hnamed
    refine ⟨expectedRevision, updates, rfl, hnamed, ?_⟩
    rcases edited_documents other (accepted_db haccepted) with ⟨hother, _⟩ | ⟨_, _, _, _, _, hdoc⟩
    · exact absurd rfl hother
    · exact hdoc
  | _ => exact hnamed.elim

lemma saved_there {id : RecordingId} {row : TranscriptTranslation} {s : TranscriptSentence}
    {e : Event World Act} (hok : WorldInvariant e.before) (h : SavedUnder id row s e)
    (hstep : WorldStep e.before e.label e.after) :
    (docAt id e.after).segments = (docAt id e.before).segments ∧ row.sourceJa = s.text ∧
      StillThere (docAt id e.after) row := by
  have hdoc : DocumentOk (docAt id e.after) := (step_invariant hok hstep).documents id
  obtain ⟨_, updates, _, ⟨u, hu, hstart⟩, hedit⟩ := saved_edit h hstep
  obtain ⟨rows, hrows, hafter⟩ := editTranslations_ok hedit
  have hsegments : (docAt id e.after).segments = (docAt id e.before).segments := by
    rw [hafter]
  have hreviewed : Reviewed u.startSegmentId (docAt id e.after).translations := by
    rw [hafter]
    exact saves_reviewed (hok.documents id).rows hrows u hu
  obtain ⟨hmanual, hfresh⟩ := hreviewed row h.stored hstart
  have hdescribes := hdoc.rows.described row h.stored hfresh
  rw [hsegments] at hdescribes
  refine ⟨hsegments, described_text (hok.documents id) h.under hdescribes, row, ?_, rfl, rfl, rfl, rfl⟩
  exact List.mem_filter.mpr ⟨h.stored, decide_eq_true hmanual⟩

lemma not_names {id : RecordingId} {act : Act} {row kept : TranscriptTranslation}
    (hstart : kept.startSegmentId = row.startSegmentId) (h : ¬ Names id act row) :
    ¬ Names id act kept := by
  cases act with
  | updateTranslations other expectedRevision updates =>
    rintro ⟨rfl, u, hu, hnamed⟩
    exact h ⟨rfl, u, hu, hstart.symm.trans hnamed⟩
  | _ => exact h

lemma step_there {w w' : World} {act : Act} (hok : WorldInvariant w) (hstep : WorldStep w act w')
    {id : RecordingId} {row : TranscriptTranslation} (hleft : LeavesRow id row ⟨w, act, w'⟩)
    (h : StillThere (docAt id w) row) : StillThere (docAt id w') row := by
  have hkept := step_handWritten (e := ⟨w, act, w'⟩) hok hstep id
  obtain ⟨_, rfl⟩ := hstep
  rcases perform_db w act with hexec | ⟨hdb, _⟩
  · obtain ⟨hthere, htranscribed, hnamed⟩ := hleft ⟨_, hexec⟩
    obtain ⟨kept, hmem, hid, hstart, hja, hzh⟩ := h
    obtain ⟨kept', hmem', hsurvives⟩ := sublist_mem (hkept.survived hthere) hmem
    obtain ⟨hja', hzh'⟩ := hsurvives.text (not_names hstart hnamed)
    obtain ⟨hid', hstart', _⟩ := hsurvives.inPlace htranscribed
    exact ⟨kept', hmem', hid'.trans hid, hstart'.trans hstart, hja'.trans hja, hzh'.trans hzh⟩
  · rw [docAt, hdb]
    exact h

lemma run_there {w w' : World} {es : List (Event World Act)} (h : WorldRun w es w')
    (hok : WorldInvariant w) {id : RecordingId} {row : TranscriptTranslation}
    (hleft : ∀ e ∈ es, LeavesRow id row e) (hthere : StillThere (docAt id w) row) :
    StillThere (docAt id w') row := by
  induction h with
  | nil => exact hthere
  | cons hstep _ ih =>
    obtain ⟨hfirst, hrest⟩ := List.forall_mem_cons.mp hleft
    exact ih (step_invariant hok hstep) hrest (step_there hok hstep hfirst hthere)

lemma capture_current {doc : Document} {preserved : List PreservedTranslation}
    {sentences : List TranscriptSentence} (h : captureManualTranslations doc = .ok preserved)
    (hsentences : currentSentences doc = .ok sentences) :
    preserved = (manualRows doc).map (preservedOf doc sentences) := by
  simp only [captureManualTranslations] at h
  split at h
  · rename_i hnone
    cases h
    have hrows : manualRows doc = [] := hnone
    rw [hrows, List.map_nil]
  · obtain ⟨transcript, hread, h⟩ := bind_ok h
    obtain ⟨sentences', hgroup, h⟩ := bind_ok h
    cases h
    rw [currentSentences, hread, ok_bind, hgroup] at hsentences
    cases hsentences
    rfl

lemma captured_start {doc : Document} (hok : DocumentOk doc) {row kept : TranscriptTranslation}
    {s : TranscriptSentence} {sentences : List TranscriptSentence}
    (hsentences : currentSentences doc = .ok sentences) (h : StillStarts doc row s)
    (hstart : kept.startSegmentId = row.startSegmentId) :
    (preservedOf doc sentences kept).startTime = some s.startTime := by
  obtain ⟨current, hsame, s₀, hs₀, hsegment, htime⟩ := h
  obtain rfl : current = sentences := Except.ok.inj (hsame.symm.trans hsentences)
  obtain ⟨transcript, hread, hgroup⟩ := bind_ok hsame
  have hasc := readTranscript_ascending hok hread
  have hkeys : (current.map (·.startSequence)).Nodup :=
    (List.pairwise_map.mpr (groupSentences_starts hgroup hasc)).imp ne_of_lt
  obtain ⟨start, hfirst⟩ := Option.isSome_iff_exists.mp
    (segmentAt_isSome hread (groupSentences_text hgroup hasc hs₀).2.1)
  obtain ⟨segment, hmem, hsequence, rfl⟩ := segmentAt_some hfirst
  have hget : dictGet (·.id) doc.segments segment.id = some segment :=
    dictGet_eq_some hok.segmentIds hmem
  have hsentence : dictGet (·.startSequence) current s₀.startSequence = some s₀ :=
    dictGet_eq_some hkeys hs₀
  rw [preservedOf, hstart, ← hsegment, hfirst, Option.bind_some, sequenceAt, hget, Option.map_some,
    Option.bind_some, hsequence, hsentence, Option.map_some, htime]

section Commit

variable {doc : Document} {row : TranscriptTranslation} {s s' : TranscriptSentence}
  {sentences current : List TranscriptSentence}

lemma returns_onlyMatch (hok : DocumentOk doc) (hcurrent : currentSentences doc = .ok current)
    (hstarts : StillStarts doc row s) (hja : row.sourceJa = s.text)
    (h : Returns doc row s sentences s') {i : ℕ} {kept : TranscriptTranslation}
    (hkept : (manualRows doc)[i]? = some kept) (hid : kept.id = row.id)
    (hstart : kept.startSegmentId = row.startSegmentId) (hsource : kept.sourceJa = row.sourceJa)
    {s'' : TranscriptSentence} :
    OnlyMatch sentences ((manualRows doc).map (preservedOf doc current)) i
      (preservedOf doc current kept) s'' ↔ s'' = s' := by
  have htime := captured_start hok hcurrent hstarts hstart
  have htext : (preservedOf doc current kept).sourceJa = s.text := hsource.trans hja
  have hnear : ∀ {other}, NearSentence other (preservedOf doc current kept) →
      other.text = s.text ∧ |other.startTime - s.startTime| ≤ sameUtteranceSeconds := by
    rintro other ⟨hother, t, ht, hmoment⟩
    obtain rfl : s.startTime = t := Option.some.inj (htime.symm.trans ht)
    exact ⟨hother.symm.trans htext, by rwa [abs_sub_comm]⟩
  constructor
  · intro hmatch
    obtain ⟨hother, hmoment⟩ := hnear hmatch.near
    exact h.only s'' hmatch.sentence hother hmoment
  · rintro rfl
    refine ⟨h.sentence, ⟨htext.trans h.text.symm, s.startTime, htime, ?_⟩, ?_, ?_⟩
    · rw [abs_sub_comm]
      exact h.near
    · intro other hmem hother
      obtain ⟨hwords, hmoment⟩ := hnear hother
      exact h.only other hmem hwords hmoment
    · intro j q hq hmoment
      obtain ⟨other, hother, rfl⟩ : ∃ other, (manualRows doc)[j]? = some other ∧
          preservedOf doc current other = q := by
        rwa [List.getElem?_map, Option.map_eq_some_iff] at hq
      obtain ⟨hwords, t, ht, hclose⟩ := hmoment
      have hsame : other.id = kept.id := by
        by_contra hne
        have hfar := h.alone current hcurrent other (List.mem_of_getElem? hother)
          (fun he => hne (he.trans hid.symm)) (hwords.trans h.text) t ht
        exact absurd hclose (not_le.mpr hfar)
      have hids : ((manualRows doc).map (·.id)).Nodup :=
        hok.rows.rowIds.sublist (List.filter_sublist.map _)
      obtain ⟨hj, _⟩ := List.getElem?_eq_some_iff.mp hother
      apply (List.getElem?_inj (by rwa [List.length_map]) hids).mp
      rw [List.getElem?_map, List.getElem?_map, hother, hkept, Option.map_some, Option.map_some, hsame]

lemma attached_once {rows : List TranscriptTranslation} {segments : List TranscriptSegment}
    (hsequences : (segments.map (·.sequence)).Nodup)
    (hstarts : (rows.filterMap (·.startSegmentId)).Nodup) {a b : TranscriptTranslation}
    (ha : a ∈ rows) (hb : b ∈ rows) (hattached : AttachedTo segments s a)
    (hattached' : AttachedTo segments s b) : a = b := by
  obtain ⟨start, hmem, _, _, hsequence, _, hastart, _⟩ := hattached
  obtain ⟨start', hmem', _, _, hsequence', _, hbstart, _⟩ := hattached'
  obtain rfl : start = start' :=
    List.inj_on_of_nodup_map hsequences hmem hmem' (hsequence.trans hsequence'.symm)
  exact eq_of_nodup_filterMap hstarts ha hb hastart hbstart

/-- The rendering stands under one sentence of the transcript, which has no other row. -/
def StandsUnder (doc : Document) (row : TranscriptTranslation) (sentences : List TranscriptSentence)
    (s : TranscriptSentence) : Prop :=
  ∃ row' ∈ doc.translations, row'.textZhHk = row.textZhHk ∧ row'.source = .manual ∧
    (∀ other ∈ sentences, AttachedTo doc.segments other row' ↔ other = s) ∧
    ∀ other ∈ doc.translations, AttachedTo doc.segments s other → other = row'

lemma persistTranscript_returns {doc' : Document} {result : PipelineResult} {ids : FreshIds}
    {now : Instant} (hok : DocumentOk doc) (hn : Numbered result.transcript)
    (hcommit : persistTranscript result ids now doc = .ok doc') (hthere : StillThere doc row)
    (hstarts : StillStarts doc row s) (hja : row.sourceJa = s.text)
    (hsentences : groupSentences result.transcript maxSentenceChars = .ok sentences)
    (h : Returns doc row s sentences s') : StandsUnder doc' row sentences s' := by
  have hok' : DocumentOk doc' := persistTranscript_keeps hn hcommit
  obtain ⟨preserved, rows, hcapture, hids, hrows, hdoc⟩ := persistTranscript_ok hcommit
  obtain ⟨current, hcurrent, _⟩ := id hstarts
  obtain rfl := capture_current hcapture hcurrent
  obtain ⟨kept, hmem, hid, hstart, hsource, hzh⟩ := hthere
  obtain ⟨i, hi, hikept⟩ := List.mem_iff_getElem.mp hmem
  have hkept : (manualRows doc)[i]? = some kept := List.getElem?_eq_some_iff.mpr ⟨hi, hikept⟩
  have hp : ((manualRows doc).map (preservedOf doc current))[i]? =
      some (preservedOf doc current kept) := by
    rw [List.getElem?_map, hkept, Option.map_some]
  have hsegments : doc'.segments = newSegments ids.segmentIds result.transcript := by
    rw [hdoc]
    exact staleCompleted_segments _
  have htranslations : doc'.translations = rows := by rw [hdoc]
  rcases carryManualTranslations_ok hrows with ⟨hnone, _⟩ | ⟨sentences', hsame, hcarried, _, _⟩
  · rw [hnone] at hp
    cases hp
  obtain rfl : sentences' = sentences := Except.ok.inj (hsame.symm.trans hsentences)
  set row' := carriedRow (newSegments ids.segmentIds result.transcript) sentences'
    ((manualRows doc).map (preservedOf doc current)) (preservedOf doc current kept) (ids.rowIds i) now
  have hrow' : row' ∈ doc'.translations := by
    rw [htranslations, hcarried]
    refine List.mem_map.mpr ⟨(preservedOf doc current kept, i), ?_, rfl⟩
    rwa [List.mk_mem_zipIdx_iff_getElem?]
  have hattached : ∀ other ∈ sentences', AttachedTo doc'.segments other row' ↔ other = s' := by
    intro other hother
    rw [hsegments, attached_iff hids hn.ascending hsame hother,
      matchOf_iff (sentences_nodup hsame hn.ascending) hp]
    exact returns_onlyMatch hok hcurrent hstarts hja h hkept hid hstart hsource
  refine ⟨row', hrow', hzh, rfl, hattached, ?_⟩
  intro other hother hunder
  exact attached_once hok'.sequences hok'.rows.starts hother hrow' hunder
    ((hattached s' h.sentence).mpr rfl)

end Commit

/-- A rendering saved under a sentence of the transcript that a FULL job replaces goes back to the one
sentence of the new transcript with those words at that moment. Edits in between do no harm while the
row still begins a sentence said then. -/
theorem saved_rendering_returns {settings : Option ProcessingSettings} {w : World}
    {before es : List (Event World Act)} {e : Event World Act} {id : RecordingId}
    {row : TranscriptTranslation} {s : TranscriptSentence}
    (hrun : WorldRun (World.init settings) (before ++ e :: es) w) (hsaved : SavedUnder id row s e)
    (hleft : ∀ e' ∈ es, LeavesRow id row e') :
    ((docAt id w).segments = (docAt id e.after).segments → StillStarts (docAt id w) row s) ∧
    (StillStarts (docAt id w) row s → ∀ queue claim result ids at_ now defaults,
      (Act.commit queue claim (.transcript result ids at_) now defaults).Allowed w →
      Accepted w (.commit queue claim (.transcript result ids at_) now defaults) →
      claim.recordingId = some id →
      ∀ sentences, groupSentences result.transcript maxSentenceChars = .ok sentences →
        ∀ s', Returns (docAt id w) row s sentences s' →
          StandsUnder (docAt id (perform w
            (.commit queue claim (.transcript result ids at_) now defaults))) row sentences s') := by
  obtain ⟨hbefore, hstep, hafter⟩ := hrun.around
  have hok := run_invariant hbefore
  obtain ⟨hsegments, hja, hthere⟩ := saved_there hok hsaved hstep
  constructor
  · intro hsame
    obtain ⟨sentences, hsentences, hs, hstart, _⟩ := hsaved.under
    have hnow := hsame.trans hsegments
    refine ⟨sentences, (currentSentences_congr hnow).trans hsentences, s, hs, ?_, rfl⟩
    rw [segmentAt_congr hnow]
    exact hstart
  · intro hstarts queue claim result ids at_ now defaults hallowed haccepted hscope sentences
      hsentences s' h
    obtain ⟨_, _, merger, transcription, diarization, hpipeline⟩ := hallowed
    have hlater := run_there hafter (step_invariant hok hstep) hleft hthere
    obtain ⟨_, _, _, hpersist⟩ := accepted_commit haccepted hscope
    exact persistTranscript_returns ((run_invariant hrun).documents id)
      (pipelineRun_numbered hpipeline) hpersist hlater hstarts hja hsentences h

lemma not_retranscribes {w : World} {call : ServerCall} {id : RecordingId} :
    ¬ Retranscribes w (.server call) id := by
  rintro ⟨_, _, _, _, _, _, _, hact, _⟩
  cases hact

lemma server_leaves {w w' : World} {call : ServerCall} {id : RecordingId} {row : TranscriptTranslation}
    (h : call ≠ .deleteRecording id) : LeavesRow id row ⟨w, .server call, w'⟩ :=
  fun _ => ⟨fun he => h (Act.server.inj he), not_retranscribes, not_false⟩

def savedRow : TranscriptTranslation :=
  ⟨20, some 10, some 10, "はい。".toList, "係呀。".toList, .manual, false, 5⟩

def savedEvent : Event World Act :=
  ⟨(translatedActs.take 3).foldl perform analysedWorld,
    translatedActs.getLastD (.load translationClaim), translatedWorld⟩

def claimedWorld : World := (retranscribedActs.take 2).foldl perform translatedWorld

def returningCommit : Act :=
  .commit exampleWorker secondClaim
    (.transcript exampleTranscript ⟨fun n => n + 30, fun n => n + 40⟩ 9) 9 ⟨6, 9⟩

lemma claimedRun :
    WorldRun (World.init none) ((trail perform (World.init none) analysedActs ++
        trail perform analysedWorld (translatedActs.take 3)) ++
      savedEvent :: trail perform translatedWorld (retranscribedActs.take 2)) claimedWorld ∧
      WorldStep claimedWorld returningCommit retranscribedWorld := by
  have hsave : WorldRun analysedWorld
      (trail perform analysedWorld (translatedActs.take 3) ++ [savedEvent]) translatedWorld :=
    translatedRun
  have hagain : WorldRun translatedWorld (trail perform translatedWorld (retranscribedActs.take 2) ++
      [⟨claimedWorld, returningCommit, retranscribedWorld⟩]) retranscribedWorld := retranscribedRun
  obtain ⟨hbetween, hstep, _⟩ := hagain.around
  have hrun := (analysedRun.append hsave).append hbetween
  rw [← List.append_assoc, List.append_assoc, List.singleton_append] at hrun
  exact ⟨hrun, hstep⟩

theorem saved_rendering_returns_retranscribed :
    ∃ sentences s, groupSentences exampleTranscript.transcript maxSentenceChars = .ok sentences ∧
      s.text = "はい。".toList ∧ StandsUnder (docAt 1 retranscribedWorld) savedRow sentences s := by
  have hsentences := ok_valueOr [] (x := groupSentences exampleTranscript.transcript maxSentenceChars)
    (by decide +kernel)
  have hlist : (valueOr [] (groupSentences exampleTranscript.transcript maxSentenceChars)).map
      (fun s => (ends s, s.text)) = [((0, 0), "はい。".toList)] := by decide +kernel
  obtain ⟨s, hs, hline⟩ := List.map_eq_singleton_iff.mp hlist
  obtain ⟨hends, htext⟩ := Prod.ext_iff.mp hline
  obtain ⟨hstart, hend⟩ := Prod.ext_iff.mp hends
  rw [hs] at hsentences
  obtain ⟨hrun, hallowed, hafter⟩ := claimedRun
  have hsaved : SavedUnder 1 savedRow s savedEvent := by
    have hread : readTranscript (docAt 1 savedEvent.before) = .ok exampleTranscript.transcript := by
      decide +kernel
    have hok : (savedEvent.label.transaction savedEvent.before.db).isOk := by decide +kernel
    refine ⟨⟨_, ok_valueOr ((), Database.empty none) hok⟩, ⟨rfl, _, List.mem_singleton_self _, rfl⟩,
      by decide +kernel, [s], ?_, List.mem_singleton_self s, ?_, ?_⟩
    · rw [currentSentences, hread, ok_bind, hsentences]
    · rw [show s.startSequence = 0 from hstart]
      decide +kernel
    · rw [show s.endSequence = 0 from hend]
      decide +kernel
  have hleft : ∀ e ∈ trail perform translatedWorld (retranscribedActs.take 2),
      LeavesRow 1 savedRow e := by
    intro e he
    simp only [retranscribedActs, List.take, trail, List.mem_cons, List.not_mem_nil, or_false] at he
    rcases he with rfl | rfl
    · exact server_leaves (fun h => by cases h)
    · exact server_leaves (fun h => by cases h)
  have hsegments : (docAt 1 claimedWorld).segments = (docAt 1 translatedWorld).segments := by
    decide +kernel
  have hcommitted : (returningCommit.transaction claimedWorld.db).isOk := by decide +kernel
  obtain ⟨hstill, hreturns⟩ := saved_rendering_returns hrun hsaved hleft
  refine ⟨[s], s, hsentences, htext, ?_⟩
  rw [hafter]
  refine hreturns (hstill hsegments) _ _ _ _ _ _ _ hallowed
    ⟨_, ok_valueOr ((), Database.empty none) hcommitted⟩ rfl [s] hsentences s ?_
  refine ⟨List.mem_singleton_self s, rfl, ?_, ?_, ?_⟩
  · rw [sub_self, abs_zero]
    decide +kernel
  · exact fun other hother _ _ => List.mem_singleton.mp hother
  · intro current _ other hother hne
    have honly : (manualRows (docAt 1 claimedWorld)).map (·.id) = [20] := by decide +kernel
    have hid : other.id ∈ (manualRows (docAt 1 claimedWorld)).map (·.id) := List.mem_map_of_mem hother
    rw [honly] at hid
    exact absurd (List.mem_singleton.mp hid) hne

end AudioServer.Worker.Reattachment
