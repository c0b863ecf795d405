import AudioServer.Foundations.Segments
import AudioServer.Processing.DayDrafts

/-! What a day summary asks of the model: each recording once, in as few requests as their size
allows, and then each partial result once a pass until one is left. -/

namespace AudioServer.Processing.DayRequests

open AudioServer.Foundations.Blocks AudioServer.Foundations.Outcomes AudioServer.Foundations.Packing
open AudioServer.Foundations.Requests AudioServer.Foundations.Runs AudioServer.Foundations.Segments
open AudioServer.Foundations.Strings AudioServer.Processing.Chunks AudioServer.Processing.DayDrafts
open AudioServer.Processing.DraftGroups AudioServer.Processing.Reduction AudioServer.Services.Daily

section Chunks

variable (maxChars : ℕ)

def blockOf (digest : DailyRecordingDigest) : Text := (digestBlock digest).take maxChars

def dayChunk (group : List DailyRecordingDigest) : Text :=
  List.intercalate ['\n', '\n'] (group.map (blockOf maxChars))

def Room (group : List DailyRecordingDigest) (digest : DailyRecordingDigest) : Prop :=
  (dayChunk maxChars group).length + (blockOf maxChars digest).length + 2 ≤ maxChars

instance (group : List DailyRecordingDigest) (digest : DailyRecordingDigest) :
    Decidable (Room maxChars group digest) := inferInstanceAs (Decidable (_ ≤ _))

def FitsRequest (group : List DailyRecordingDigest) : Prop := (dayChunk maxChars group).length ≤ maxChars

def shownChunks (s : List (List DailyRecordingDigest) × List DailyRecordingDigest) : Chunking :=
  ⟨s.1.map (dayChunk maxChars), dayChunk maxChars s.2⟩

variable {maxChars} {group : List DailyRecordingDigest} {digest : DailyRecordingDigest}

lemma dayChunk_append {others : List DailyRecordingDigest} (hgroup : group ≠ []) (hothers : others ≠ []) :
    dayChunk maxChars (group ++ others) =
      dayChunk maxChars group ++ (['\n', '\n'] ++ dayChunk maxChars others) := by
  rw [dayChunk, List.map_append]
  exact intercalate_append (by simpa using hgroup) (by simpa using hothers)

lemma dayChunk_singleton (digest : DailyRecordingDigest) :
    dayChunk maxChars [digest] = blockOf maxChars digest := List.intercalate_singleton

lemma dayChunk_snoc (hgroup : group ≠ []) (digest : DailyRecordingDigest) :
    dayChunk maxChars (group ++ [digest]) =
      dayChunk maxChars group ++ '\n' :: '\n' :: blockOf maxChars digest := by
  rw [dayChunk_append hgroup (List.cons_ne_nil digest []), dayChunk_singleton]
  rfl

lemma blockOf_ne_nil (hmax : 0 < maxChars) (digest : DailyRecordingDigest) :
    blockOf maxChars digest ≠ [] := by
  intro hnil
  rcases List.take_eq_nil_iff.mp hnil with h | h
  · omega
  · exact digestBlock_ne_nil digest h

lemma dayChunk_eq_nil (hmax : 0 < maxChars) : dayChunk maxChars group = [] ↔ group = [] := by
  constructor
  · intro hnil
    by_contra hgroup
    obtain ⟨before, last, rfl⟩ := (List.eq_nil_or_concat' group).resolve_left hgroup
    by_cases hbefore : before = []
    · rw [hbefore, List.nil_append, dayChunk_singleton] at hnil
      exact blockOf_ne_nil hmax last hnil
    · rw [dayChunk_snoc hbefore] at hnil
      exact List.append_ne_nil_of_right_ne_nil _ (List.cons_ne_nil _ _) hnil
  · rintro rfl
    rfl

lemma addBlock_shown (hmax : 0 < maxChars)
    (s : List (List DailyRecordingDigest) × List DailyRecordingDigest) (digest : DailyRecordingDigest) :
    addBlock maxChars (shownChunks maxChars s) (blockOf maxChars digest) =
      shownChunks maxChars (place (Room maxChars) s digest) := by
  obtain ⟨done, block⟩ := s
  simp only [addBlock, place, shownChunks, dayChunk_eq_nil hmax]
  by_cases hopen : block = []
  · rw [if_pos hopen, if_pos (.inl hopen), hopen, List.nil_append, dayChunk_singleton]
  · rw [if_neg hopen]
    by_cases hroom : Room maxChars block digest
    · rw [if_pos (.inr hroom), dayChunk_snoc hopen]
      exact if_pos hroom
    · rw [if_neg (fun h => h.elim hopen hroom), List.map_append, List.map_singleton,
        dayChunk_singleton]
      exact if_neg hroom

lemma chunkDigests_cut {digests : List DailyRecordingDigest} (hmax : 100 ≤ maxChars) :
    chunkDigests digests maxChars = .ok ((cut (Room maxChars) digests).map (dayChunk maxChars)) := by
  have hpos : 0 < maxChars := by omega
  have hfold : ∀ s, digests.foldl (fun s d => addBlock maxChars s ((digestBlock d).take maxChars))
      (shownChunks maxChars s) = shownChunks maxChars (digests.foldl (place (Room maxChars)) s) := by
    induction digests with
    | nil => exact fun _ => rfl
    | cons d digests ih =>
      intro s
      rw [List.foldl_cons, List.foldl_cons, ← ih]
      have hadded : addBlock maxChars (shownChunks maxChars s) ((digestBlock d).take maxChars) = _ :=
        addBlock_shown hpos s d
      rw [hadded]
  have hstart : digests.foldl (fun s d => addBlock maxChars s ((digestBlock d).take maxChars))
      ⟨[], []⟩ = _ := hfold ([], [])
  rw [chunkDigests, require_of hmax, ok_bind, hstart, ← place_cut]
  generalize digests.foldl (place (Room maxChars)) ([], []) = s
  simp only [shownChunks, flush, ne_eq, dayChunk_eq_nil hpos, ite_not]
  split
  · rfl
  · rw [List.map_append, List.map_singleton]

lemma grown_fits (h : Grown (Room maxChars) group) : FitsRequest maxChars group := by
  cases h with
  | one digest =>
    rw [FitsRequest, dayChunk_singleton]
    exact List.length_take_le _ _
  | snoc hblock hroom =>
    rw [FitsRequest, dayChunk_snoc hblock.ne_nil]
    rw [Room] at hroom
    simp only [List.length_append, List.length_cons]
    omega

lemma fits_part (xs ys zs : List DailyRecordingDigest) (hys : ys ≠ [])
    (h : FitsRequest maxChars (xs ++ ys ++ zs)) : FitsRequest maxChars ys := by
  have hright : (dayChunk maxChars (xs ++ ys)).length ≤ (dayChunk maxChars (xs ++ ys ++ zs)).length := by
    by_cases hzs : zs = []
    · rw [hzs, List.append_nil]
    · rw [dayChunk_append (by simp [hys]) hzs, List.length_append]
      exact Nat.le_add_right _ _
  have hleft : (dayChunk maxChars ys).length ≤ (dayChunk maxChars (xs ++ ys)).length := by
    by_cases hxs : xs = []
    · rw [hxs, List.nil_append]
    · rw [dayChunk_append hxs hys, List.length_append, List.length_append]
      omega
  exact hleft.trans (hright.trans h)

lemma fits_room (group : List DailyRecordingDigest) (digest : DailyRecordingDigest) (hgroup : group ≠ [])
    (h : FitsRequest maxChars (group ++ [digest])) : Room maxChars group digest := by
  rw [FitsRequest, dayChunk_snoc hgroup] at h
  simp only [List.length_append, List.length_cons] at h
  rw [Room]
  omega

end Chunks

section Passes

abbrev DayState := List DailyDraft × List (Prompt DailyDraft)

def DayPass (ask : DayModel) (maxChars : ℕ) (s : DayState) (groups : List (List DailyDraft))
    (t : DayState) : Prop :=
  1 < s.1.length ∧ groups = groupDailyDrafts s.1 maxChars ∧ askAll ask s.2 (groups.map .reduce) = .ok t

structure SplitsDay (e : Event DayState (List (List DailyDraft))) : Prop where
  flatten : e.label.flatten = e.before.1
  nonempty : ∀ g ∈ e.label, g ≠ []
  fewer : e.label.length < e.before.1.length
  replies : e.after.1.length = e.label.length
  asked : e.after.2 = e.before.2 ++ e.label.map .reduce

variable {ask : DayModel} {maxChars : ℕ}

lemma dayPass_splits {s t : DayState} {groups : List (List DailyDraft)}
    (h : DayPass ask maxChars s groups t) : SplitsDay ⟨s, groups, t⟩ := by
  obtain ⟨hmany, rfl, hask⟩ := h
  obtain ⟨hasked, hlen⟩ := askAll_ok hask
  exact ⟨groupBySize_flatten s.1, fun g hg => groupBySize_ne_nil hg, groupBySize_lt hmany,
    hlen.trans (List.length_map _), hasked⟩

lemma reducePasses_run {passes : ℕ} {s t : DayState} (hne : s.1 ≠ [])
    (h : reducePasses ask maxChars passes s.1 s.2 = .ok t) :
    ∃ es, Run (DayPass ask maxChars) s es t ∧ es.length ≤ passes := by
  induction passes generalizing s with
  | zero =>
    cases h
    exact ⟨[], .nil _, le_rfl⟩
  | succ passes ih =>
    rw [reducePasses] at h
    by_cases hone : s.1.length = 1
    · rw [if_pos hone] at h
      cases h
      exact ⟨[], .nil _, Nat.zero_le _⟩
    · rw [if_neg hone] at h
      obtain ⟨⟨next, asked⟩, hnext, h⟩ := bind_ok h
      have hpos := List.length_pos_iff.mpr hne
      have hpass : DayPass ask maxChars s (groupDailyDrafts s.1 maxChars) (next, asked) :=
        ⟨by omega, rfl, hnext⟩
      have hsome : next ≠ [] := by
        rintro rfl
        exact groupDailyDrafts_ne_nil hne (List.length_eq_zero_iff.mp (dayPass_splits hpass).replies.symm)
      obtain ⟨es, hrun, hlen⟩ := ih (s := (next, asked)) hsome h
      exact ⟨_, .cons hpass hrun, Nat.succ_le_succ hlen⟩

end Passes

structure Mapped (maxChars : ℕ) (digests : List DailyRecordingDigest)
    (groups : List (List DailyRecordingDigest)) : Prop where
  divides : Divides (FitsRequest maxChars) groups digests
  fewest : ∀ others, Divides (FitsRequest maxChars) others digests → groups.length ≤ others.length

lemma cut_mapped (maxChars : ℕ) (digests : List DailyRecordingDigest) :
    Mapped maxChars digests (cut (Room maxChars) digests) :=
  ⟨⟨cut_flatten digests, fun _ hg => ⟨(cut_grown hg).ne_nil, grown_fits (cut_grown hg)⟩⟩,
    fun _ hothers => cut_fewest fits_part fits_room hothers⟩

theorem day_requests {digests : List DailyRecordingDigest} (hne : digests ≠ [])
    (model : LoadedModel DailyDraft) (settings : LMStudioSettings) {result : DailyResult}
    (h : summarize [model] settings digests = .ok result) :
    ∃ groups drafts asked passes draft asked', Mapped settings.chunkChars digests groups ∧
      asked = groups.map (fun group => .map (dayChunk settings.chunkChars group)) ∧
      askAll model.respond [] asked = .ok (drafts, asked) ∧ drafts.length = groups.length ∧
      Run (DayPass model.respond settings.chunkChars) (drafts, asked) passes ([draft], asked') ∧
      passes.length ≤ maxReducePasses ∧ (∀ e ∈ passes, SplitsDay e) ∧
      result = completedDay model.identifier (toData draft digests) := by
  have hmax : 100 ≤ settings.chunkChars := by
    have := settings.chunk_in_range.1
    omega
  rw [summarize, if_neg hne] at h
  dsimp only at h
  rw [chunkDigests_cut hmax, ok_bind] at h
  obtain ⟨⟨drafts, asked⟩, hdrafts, hreduce⟩ := bind_ok h
  obtain ⟨draft, hdraft, hresult⟩ := bind_ok hreduce
  obtain ⟨hasked, hlen⟩ := askAll_ok hdrafts
  rw [List.nil_append] at hasked
  subst hasked
  rw [List.length_map, List.length_map] at hlen
  have hgroups : cut (Room settings.chunkChars) digests ≠ [] := by
    intro hnil
    have hflat : (cut (Room settings.chunkChars) digests).flatten = digests := cut_flatten digests
    rw [hnil] at hflat
    exact hne hflat.symm
  have hsome : drafts ≠ [] := by
    rintro rfl
    exact hgroups (List.length_eq_zero_iff.mp hlen.symm)
  obtain ⟨⟨reduced, asked'⟩, hreduced, hdraft⟩ := bind_ok hdraft
  obtain ⟨passes, hrun, hpasses⟩ := reducePasses_run hsome hreduced
  have hone : reduced = [draft] := by
    dsimp only at hdraft
    split at hdraft
    · cases hdraft
      rfl
    · cases hdraft
  subst hone
  cases hresult
  refine ⟨_, drafts, _, passes, draft, asked', cut_mapped _ digests, ?_, hdrafts, hlen, hrun, hpasses,
    fun e he => dayPass_splits (hrun.event_step he), rfl⟩
  rw [List.map_map]
  rfl

abbrev wordyModel : LoadedModel DailyDraft := ⟨[], answeringDay (fun _ _ => longDraft)⟩

theorem day_requests_two : ∃ result groups,
    summarize [wordyModel] smallestSettings (wordyDay 2) = .ok result ∧
      Mapped smallestSettings.chunkChars (wordyDay 2) groups := by
  have hok : (summarize [wordyModel] smallestSettings (wordyDay 2)).isOk := by decide +kernel
  cases hresult : summarize [wordyModel] smallestSettings (wordyDay 2) with
  | error e =>
    rw [hresult] at hok
    cases hok
  | ok result =>
    obtain ⟨groups, _, _, _, _, _, hmapped, _⟩ :=
      day_requests (by decide) wordyModel smallestSettings hresult
    exact ⟨result, groups, rfl, hmapped⟩

end AudioServer.Processing.DayRequests
