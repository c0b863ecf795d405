import AudioServer.Processing.DayDrafts

/-! What is stored of a day summary, against what the reader of the stored result accepts. -/

namespace AudioServer.Processing.DayData

open AudioServer.Foundations.Dicts AudioServer.Foundations.Outcomes AudioServer.Foundations.Strings
open AudioServer.Api.Schemas AudioServer.Db.Models AudioServer.Services.Daily
open AudioServer.Foundations.Requests AudioServer.Processing.Reduction AudioServer.Processing.DayDrafts

def structuredSummary (summary : Option DailySummary) : Option DailySummaryResultV1 :=
  summary.bind (fun s => s.result.filter (fun result => result.Valid))

variable {draft : DailyDraft} {digests : List DailyRecordingDigest}

abbrev OfTheDay (digests : List DailyRecordingDigest) (p : DraftPoint) : Prop :=
  p.recordingIndex ∈ digests.map (·.index)

def StoredAs (digests : List DailyRecordingDigest) (p : DraftPoint) (k : DailyKeyPoint) : Prop :=
  ∃ digest ∈ digests, digest.index = p.recordingIndex ∧
    k = ⟨digest.recordingId, strip p.ja, strip p.zhHk⟩

def NothingBlank (draft : DailyDraft) (digests : List DailyRecordingDigest) : Prop :=
  (¬ Blank draft.overview.ja ∧ ¬ Blank draft.overview.zhHk) ∧
    (∀ p ∈ draft.keyPoints, OfTheDay digests p → ¬ Blank p.ja ∧ ¬ Blank p.zhHk) ∧
    ∀ t ∈ draft.tags, ¬ Blank t.ja ∧ ¬ Blank t.zhHk

lemma ofTheDay_iff {p : DraftPoint} :
    OfTheDay digests p ↔ ∃ digest, dictGet (·.index) digests p.recordingIndex = some digest := by
  rw [← Option.ne_none_iff_exists', Ne, dictGet_none]
  simp

lemma points_stored (points : List DraftPoint) :
    List.Forall₂ (StoredAs digests) (points.filter (OfTheDay digests ·))
      (points.filterMap (fun p => (dictGet (·.index) digests p.recordingIndex).map
        (fun digest => ⟨digest.recordingId, strip p.ja, strip p.zhHk⟩))) := by
  induction points with
  | nil => exact .nil
  | cons p points ih =>
    cases hdigest : dictGet (·.index) digests p.recordingIndex with
    | none =>
      have hout : ¬ OfTheDay digests p := by
        rw [ofTheDay_iff, hdigest]
        simp
      rw [List.filter_cons_of_neg (by simpa using hout), List.filterMap_cons_none (by rw [hdigest]; rfl)]
      exact ih
    | some digest =>
      have hin : OfTheDay digests p := ofTheDay_iff.mpr ⟨digest, hdigest⟩
      obtain ⟨hmem, hindex⟩ := dictGet_some hdigest
      rw [List.filter_cons_of_pos (by simpa using hin), List.filterMap_cons_some (by rw [hdigest]; rfl)]
      exact .cons ⟨digest, hmem, hindex, rfl⟩ ih

lemma points_valid :
    (∀ k ∈ (toData draft digests).keyPoints, k.Valid) ↔
      ∀ p ∈ draft.keyPoints, OfTheDay digests p → ¬ Blank p.ja ∧ ¬ Blank p.zhHk := by
  have hsized := draft.points_valid.2
  constructor
  · intro hvalid p hp hday
    obtain ⟨digest, hdigest⟩ := ofTheDay_iff.mp hday
    have hk := hvalid ⟨digest.recordingId, strip p.ja, strip p.zhHk⟩
      (List.mem_filterMap.mpr ⟨p, hp, by rw [hdigest]; rfl⟩)
    exact ⟨(sized_strip (hsized p hp).1).mp hk.1, (sized_strip (hsized p hp).2).mp hk.2⟩
  · intro hblank k hk
    obtain ⟨p, hp, hk⟩ := List.mem_filterMap.mp hk
    obtain ⟨digest, hdigest, rfl⟩ := Option.map_eq_some_iff.mp hk
    obtain ⟨hja, hzh⟩ := hblank p hp (ofTheDay_iff.mpr ⟨digest, hdigest⟩)
    exact ⟨(sized_strip (hsized p hp).1).mpr hja, (sized_strip (hsized p hp).2).mpr hzh⟩

lemma tags_valid :
    (∀ t ∈ (toData draft digests).tags, t.Valid) ↔
      ∀ t ∈ draft.tags, ¬ Blank t.ja ∧ ¬ Blank t.zhHk := by
  rw [toData, List.forall_mem_map]
  refine forall₂_congr (fun t ht => and_congr ?_ ?_)
  · exact sized_strip (draft.tags_valid.2 t ht).1
  · exact sized_strip (draft.tags_valid.2 t ht).2

lemma toData_valid : (toData draft digests).Valid ↔ NothingBlank draft digests := by
  have hpoints : (toData draft digests).keyPoints.length ≤ 10 :=
    (List.length_filterMap_le _ _).trans draft.points_valid.1
  have htags : (toData draft digests).tags.length ≤ 12 :=
    (List.length_map _).trans_le draft.tags_valid.1
  have hoverview : (toData draft digests).overview.Valid ↔
      ¬ Blank draft.overview.ja ∧ ¬ Blank draft.overview.zhHk :=
    and_congr (sized_strip draft.overview_valid.1) (sized_strip draft.overview_valid.2)
  rw [DailySummaryResultV1.Valid, NothingBlank, hoverview, points_valid, tags_valid]
  simp only [hpoints, htags, true_and]

lemma summary_read_back (day : Day) (identifier : Text) (revisions : List SourceRevision)
    (data : DailySummaryResultV1) :
    structuredSummary (some (writtenSummary day (completedDay identifier data) revisions)) =
      if data.Valid then some data else none := by
  change (some data).filter (fun data => decide data.Valid) = _
  by_cases h : data.Valid <;> simp [Option.filter, h]

theorem day_data_readable_iff (draft : DailyDraft) (digests : List DailyRecordingDigest) (day : Day)
    (identifier : Text) (revisions : List SourceRevision) :
    ((toData draft digests).Valid ∧
      (∀ k ∈ (toData draft digests).keyPoints, k.recordingId ∈ digests.map (·.recordingId)) ∧
      List.Forall₂ (StoredAs digests) (draft.keyPoints.filter (OfTheDay digests ·))
        (toData draft digests).keyPoints ∧
      structuredSummary (some (writtenSummary day
        (completedDay identifier (toData draft digests)) revisions)) =
          some (toData draft digests)) ↔
      NothingBlank draft digests := by
  rw [summary_read_back, ← toData_valid]
  refine ⟨And.left, fun hvalid => ⟨hvalid, ?_, points_stored draft.keyPoints, if_pos hvalid⟩⟩
  intro k hk
  obtain ⟨p, _, hk⟩ := List.mem_filterMap.mp hk
  obtain ⟨digest, hdigest, rfl⟩ := Option.map_eq_some_iff.mp hk
  exact List.mem_map_of_mem (dictGet_some hdigest).1

def blankReply : DailyDraft := draftOf [' '] (by decide)

theorem blank_overview_lost :
    summarize [⟨[], answeringDay (fun _ _ => blankReply)⟩] smallestSettings (wordyDay 1) =
        .ok (completedDay [] (toData blankReply (wordyDay 1))) ∧
      ∀ day revisions, structuredSummary (some (writtenSummary day
        (completedDay [] (toData blankReply (wordyDay 1))) revisions)) = none := by
  have hmap : askAll (answeringDay (fun _ _ => blankReply)) [] ((wordyChunks 1).map .map) =
      .ok ([blankReply], (wordyChunks 1).map .map) := by
    decide +kernel
  constructor
  · rw [summarize_reduces (fun _ _ => blankReply) [] (by decide) (wordyChunks_eq (by decide +kernel))
      hmap]
    rfl
  · intro day revisions
    rw [summary_read_back, if_neg (by decide +kernel)]

end AudioServer.Processing.DayData
