import AudioServer.Processing.Reduction
import AudioServer.Services.Daily

/-! The day summary provider: partial summaries of a day, reduced to one in a bounded number of
passes. -/

namespace AudioServer.Processing.DayDrafts

open AudioServer.Foundations.Blocks AudioServer.Foundations.Packing AudioServer.Foundations.Dicts
open AudioServer.Foundations.Json AudioServer.Foundations.Numerals AudioServer.Foundations.Outcomes
open AudioServer.Foundations.Requests AudioServer.Foundations.Strings AudioServer.Api.Schemas
open AudioServer.Db.Models
open AudioServer.Processing.Analysis AudioServer.Processing.Chunks AudioServer.Processing.DraftGroups
open AudioServer.Processing.Reduction AudioServer.Services.Daily

structure DraftPoint where
  recordingIndex : ℕ
  ja : Text
  zhHk : Text
deriving DecidableEq

structure DailyDraft where
  overview : BilingualDescription
  keyPoints : List DraftPoint
  tags : List BilingualTag
  overview_valid : overview.Valid
  points_valid : keyPoints.length ≤ 10 ∧ ∀ p ∈ keyPoints, Sized 1000 p.ja ∧ Sized 1000 p.zhHk
  tags_valid : tags.length ≤ 12 ∧ ∀ t ∈ tags, t.Valid
deriving DecidableEq

def dailyDraftJson (draft : DailyDraft) : Text :=
  jsonObject spaced [("overview", bilingualJson spaced draft.overview.ja draft.overview.zhHk),
    ("key_points", jsonArray spaced (draft.keyPoints.map (fun p =>
      jsonObject spaced [("recording_index", numeral p.recordingIndex), ("ja", jsonString p.ja),
        ("zh_hk", jsonString p.zhHk)]))),
    ("tags", jsonArray spaced (draft.tags.map (fun t => bilingualJson spaced t.ja t.zhHk)))]

def digestBlock (digest : DailyRecordingDigest) : Text :=
  List.intercalate ['\n'] (
    ["RECORDING ".toList ++ numeral digest.index ++ " | ".toList ++ digest.timeLabel,
      "description_ja: ".toList ++ digest.descriptionJa,
      "description_zh_hk: ".toList ++ digest.descriptionZhHk] ++
    (if digest.summaryJa = [] then [] else ["summary_ja: ".toList ++ digest.summaryJa]) ++
    (if digest.summaryZhHk = [] then [] else ["summary_zh_hk: ".toList ++ digest.summaryZhHk]) ++
    (if digest.tagsJa = [] then []
      else ["tags_ja: ".toList ++ List.intercalate ", ".toList digest.tagsJa]) ++
    digest.highlightsJa.map ("highlight_ja: ".toList ++ ·))

def addBlock (maxChars : ℕ) (s : Chunking) (block : Text) : Chunking :=
  if s.current = [] then ⟨s.chunks, block⟩
  else if s.current.length + block.length + 2 ≤ maxChars then
    ⟨s.chunks, s.current ++ '\n' :: '\n' :: block⟩
  else ⟨s.chunks ++ [s.current], block⟩

def chunkDigests (digests : List DailyRecordingDigest) (maxChars : ℕ) : Except Exn (List Text) := do
  require (100 ≤ maxChars) (.valueError "max_chars is too small")
  let s := digests.foldl (fun s d => addBlock maxChars s ((digestBlock d).take maxChars)) ⟨[], []⟩
  .ok (if s.current ≠ [] then s.chunks ++ [s.current] else s.chunks)

abbrev draftSize (draft : DailyDraft) : ℕ := (dailyDraftJson draft).length

/-- `_group_drafts` of the day summary closes no group before its size does. -/
def groupDailyDrafts (drafts : List DailyDraft) (maxChars : ℕ) : List (List DailyDraft) :=
  groupBySize draftSize maxChars (fun _ => false) drafts

abbrev DayModel := Service (Prompt DailyDraft) DailyDraft Exn

def maxReducePasses : ℕ := 6

/-- The `for` loop of `summarize`, with the passes it has left. -/
def reducePasses (ask : DayModel) (maxChars : ℕ) : ℕ → List DailyDraft →
    List (Prompt DailyDraft) → Except Exn (List DailyDraft × List (Prompt DailyDraft))
  | 0, drafts, asked => .ok (drafts, asked)
  | passes + 1, drafts, asked =>
    if drafts.length = 1 then .ok (drafts, asked)
    else do
      let (drafts, asked) ← askAll ask asked ((groupDailyDrafts drafts maxChars).map .reduce)
      reducePasses ask maxChars passes drafts asked

def notConverging : Exn :=
  .processing "lmstudio_daily_summary_not_converging"
    "The day summary could not be reduced to one result." false

def reduceToOne (ask : DayModel) (maxChars : ℕ) (drafts : List DailyDraft)
    (asked : List (Prompt DailyDraft)) : Except Exn DailyDraft := do
  let (drafts, _) ← reducePasses ask maxChars maxReducePasses drafts asked
  match drafts with
  | [draft] => .ok draft
  | _ => .error notConverging

/-- `_to_data`, whose texts are stripped after the draft was validated. -/
def toData (draft : DailyDraft) (digests : List DailyRecordingDigest) : DailySummaryResultV1 where
  overview := ⟨strip draft.overview.ja, strip draft.overview.zhHk⟩
  keyPoints := draft.keyPoints.filterMap (fun p =>
    (dictGet (·.index) digests p.recordingIndex).map
      (fun digest => ⟨digest.recordingId, strip p.ja, strip p.zhHk⟩))
  tags := draft.tags.map (fun t => ⟨strip t.ja, strip t.zhHk⟩)

def completedDay (identifier : Text) (data : DailySummaryResultV1) : DailyResult :=
  ⟨.completed, "lmstudio".toList, some identifier, 1, some data, none, none⟩

def summarize (loaded : List (LoadedModel DailyDraft)) (settings : LMStudioSettings)
    (digests : List DailyRecordingDigest) : Except Exn DailyResult :=
  if digests = [] then .ok ⟨.skipped, "lmstudio".toList, none, 1, none, none, none⟩
  else match loaded with
    | [model] => do
      let chunks ← chunkDigests digests settings.chunkChars
      let (drafts, asked) ← askAll model.respond [] (chunks.map .map)
      let draft ← reduceToOne model.respond settings.chunkChars drafts asked
      .ok (completedDay model.identifier (toData draft digests))
    | [] => .error (.processing "lmstudio_model_not_loaded"
        "Load exactly one LLM in LM Studio before running this step." false)
    | _ => .error (.processing "lmstudio_multiple_models"
        "Unload extra LLMs in LM Studio so exactly one remains loaded." false)

def BeforeEachPass (P : List DailyDraft → Prop) (ask : DayModel) (maxChars : ℕ) :
    ℕ → List DailyDraft → List (Prompt DailyDraft) → Prop
  | 0, _, _ => True
  | passes + 1, drafts, asked => drafts.length ≠ 1 → P drafts ∧
    ∀ next asked', askAll ask asked ((groupDailyDrafts drafts maxChars).map .reduce) =
      .ok (next, asked') → BeforeEachPass P ask maxChars passes next asked'

def Halved (maxChars : ℕ) (drafts : List DailyDraft) : Prop :=
  (groupDailyDrafts drafts maxChars).length ≤ (drafts.length + 1) / 2

abbrev WithinBudget (maxChars : ℕ) (group : List DailyDraft) : Prop :=
  group.length = 1 ∨ (group.map draftSize).sum ≤ maxChars

/-- No two neighbours fit into one request, or half as many requests as there are drafts, rounded
up, have room for all of them as they come. -/
def Pairable (maxChars : ℕ) (drafts : List DailyDraft) : Prop :=
  drafts.IsChain (fun a b => maxChars < draftSize a + draftSize b) ∨
    ∃ groups, Divides (WithinBudget maxChars) groups drafts ∧
      groups.length ≤ (drafts.length + 1) / 2

section Passes

variable {maxChars : ℕ} {drafts : List DailyDraft}

abbrev DayJoins (maxChars : ℕ) : List DailyDraft → DailyDraft → Prop :=
  Joins draftSize maxChars (fun _ => false)

lemma joins_one {a b : DailyDraft} :
    ¬ DayJoins maxChars [a] b ↔ maxChars < draftSize a + draftSize b := by
  simp [DayJoins, Joins]

lemma withinBudget_part (xs ys zs : List DailyDraft) (hys : ys ≠ [])
    (h : WithinBudget maxChars (xs ++ ys ++ zs)) : WithinBudget maxChars ys := by
  have hpos := List.length_pos_iff.mpr hys
  rcases h with h | h
  · simp only [List.length_append] at h
    exact .inl (by omega)
  · simp only [List.map_append, List.sum_append] at h
    exact .inr (by omega)

lemma withinBudget_joins (block : List DailyDraft) (x : DailyDraft) (hblock : block ≠ [])
    (h : WithinBudget maxChars (block ++ [x])) : DayJoins maxChars block x := by
  have hpos := List.length_pos_iff.mpr hblock
  rcases h with h | h
  · rw [List.length_append, List.length_singleton] at h
    omega
  · rw [List.map_append, List.sum_append, List.map_singleton, List.sum_singleton] at h
    exact ⟨h, Bool.false_ne_true⟩

lemma grown_withinBudget {block : List DailyDraft} (h : Grown (DayJoins maxChars) block) :
    WithinBudget maxChars block := by
  cases h with
  | one x => exact .inl rfl
  | snoc _ hx =>
    right
    rw [List.map_append, List.sum_append, List.map_singleton, List.sum_singleton]
    exact hx.1

lemma halved_iff : Halved maxChars drafts ↔ Pairable maxChars drafts := by
  rw [Halved, groupDailyDrafts, groupBySize_cut]
  change (if (cut (DayJoins maxChars) drafts).length = drafts.length ∧
    ∀ g ∈ cut (DayJoins maxChars) drafts, g.length = 1 then slices 2 drafts
    else cut (DayJoins maxChars) drafts).length ≤ _ ↔ _
  split
  · rename_i hapart
    rw [slices_length]
    refine ⟨fun _ => .inl ?_, fun _ => le_of_eq rfl⟩
    exact (apart_of_singletons hapart.2).imp (fun _ _ => joins_one.mp)
  · rename_i htogether
    constructor
    · intro hle
      refine .inr ⟨_, ⟨cut_flatten drafts, ?_⟩, hle⟩
      exact fun g hg => ⟨(cut_grown hg).ne_nil, grown_withinBudget (cut_grown hg)⟩
    · rintro (hapart | ⟨groups, hdivides, hle⟩)
      · have hsingle := cut_apart (hapart.imp (fun _ _ => joins_one.mpr))
        refine absurd ⟨?_, ?_⟩ htogether
        · rw [hsingle, List.length_map]
        · rw [hsingle]
          simp
      · exact (cut_fewest withinBudget_part withinBudget_joins hdivides).trans hle

variable {ask : DayModel}

lemma beforeEachPass_iff {P Q : List DailyDraft → Prop} (h : ∀ drafts, P drafts ↔ Q drafts)
    (passes : ℕ) (drafts : List DailyDraft) (asked : List (Prompt DailyDraft)) :
    BeforeEachPass P ask maxChars passes drafts asked ↔
      BeforeEachPass Q ask maxChars passes drafts asked := by
  induction passes generalizing drafts asked with
  | zero => exact Iff.rfl
  | succ passes ih => simp only [BeforeEachPass, h, ih]

def answeringDay (reply : List (Prompt DailyDraft) → Prompt DailyDraft → DailyDraft) : DayModel :=
  fun asked prompt => .ok (reply asked prompt)

variable (reply : List (Prompt DailyDraft) → Prompt DailyDraft → DailyDraft)

lemma answeringDay_all (asked ps : List (Prompt DailyDraft)) :
    ∃ drafts, askAll (answeringDay reply) asked ps = .ok (drafts, asked ++ ps) ∧
      drafts.length = ps.length := askAll_answers (fun _ _ => ⟨_, rfl⟩) asked ps

lemma groupDailyDrafts_ne_nil (hne : drafts ≠ []) : groupDailyDrafts drafts maxChars ≠ [] := by
  intro hnil
  have hflat : (groupDailyDrafts drafts maxChars).flatten = drafts := groupBySize_flatten drafts
  rw [hnil] at hflat
  exact hne hflat.symm

lemma halved_reaches_one {passes : ℕ} (hne : drafts ≠ []) (hlen : drafts.length ≤ 2 ^ passes)
    {asked : List (Prompt DailyDraft)}
    (h : BeforeEachPass (Halved maxChars) (answeringDay reply) maxChars passes drafts asked) :
    ∃ draft asked', reducePasses (answeringDay reply) maxChars passes drafts asked =
      .ok ([draft], asked') := by
  induction passes generalizing drafts asked with
  | zero =>
    have hpos := List.length_pos_iff.mpr hne
    obtain ⟨draft, rfl⟩ := List.length_eq_one_iff.mp (show drafts.length = 1 by omega)
    exact ⟨draft, asked, rfl⟩
  | succ passes ih =>
    rw [reducePasses]
    by_cases hone : drafts.length = 1
    · obtain ⟨draft, rfl⟩ := List.length_eq_one_iff.mp hone
      exact ⟨draft, asked, if_pos rfl⟩
    · obtain ⟨hhalved, hrest⟩ := h hone
      obtain ⟨next, hnext, hcount⟩ :=
        answeringDay_all reply asked ((groupDailyDrafts drafts maxChars).map .reduce)
      rw [List.length_map] at hcount
      have hsome : next ≠ [] := by
        rintro rfl
        exact groupDailyDrafts_ne_nil hne (List.length_eq_zero_iff.mp hcount.symm)
      rw [if_neg hone, hnext]
      apply ih hsome ?_ (hrest next _ hnext)
      rw [Halved] at hhalved
      rw [pow_succ] at hlen
      omega

lemma reduceToOne_iff (hne : drafts ≠ []) (hlen : drafts.length ≤ 2 ^ maxReducePasses)
    (asked : List (Prompt DailyDraft)) :
    (BeforeEachPass (Halved maxChars) (answeringDay reply) maxChars maxReducePasses drafts asked ∧
      ∃ draft, reduceToOne (answeringDay reply) maxChars drafts asked = .ok draft) ↔
    BeforeEachPass (Pairable maxChars) (answeringDay reply) maxChars maxReducePasses drafts asked := by
  rw [← beforeEachPass_iff (fun _ => halved_iff)]
  refine ⟨And.left, fun hhalved => ⟨hhalved, ?_⟩⟩
  obtain ⟨draft, asked', hpasses⟩ := halved_reaches_one reply hne hlen hhalved
  exact ⟨draft, by rw [reduceToOne, hpasses]; rfl⟩

end Passes

section Summary

lemma addBlock_current {maxChars : ℕ} {s : Chunking} {block : Text} (hblock : block ≠ []) :
    (addBlock maxChars s block).current ≠ [] := by
  rw [addBlock]
  split
  · exact hblock
  · split
    · exact List.append_ne_nil_of_right_ne_nil _ (List.cons_ne_nil _ _)
    · exact hblock

lemma digestBlock_ne_nil (digest : DailyRecordingDigest) : digestBlock digest ≠ [] := by
  have hfirst : ∃ rest, digestBlock digest = 'R' :: rest := ⟨_, rfl⟩
  obtain ⟨rest, hrest⟩ := hfirst
  rw [hrest]
  exact List.cons_ne_nil _ _

lemma chunkDigests_ne_nil {digests : List DailyRecordingDigest} {maxChars : ℕ} {chunks : List Text}
    (h : chunkDigests digests maxChars = .ok chunks) (hne : digests ≠ []) : chunks ≠ [] := by
  obtain ⟨_, hmax, h⟩ := bind_ok h
  rw [require_ok] at hmax
  obtain ⟨before, last, rfl⟩ := List.eq_nil_or_concat' digests |>.resolve_left hne
  have hcurrent : ((before ++ [last]).foldl (fun s d => addBlock maxChars s
      ((digestBlock d).take maxChars)) ⟨[], []⟩).current ≠ [] := by
    rw [List.foldl_append]
    apply addBlock_current
    intro hnil
    rcases List.take_eq_nil_iff.mp hnil with h | h
    · omega
    · exact digestBlock_ne_nil last h
  simp only [Except.ok.injEq] at h
  rw [← h, if_pos hcurrent]
  exact List.append_ne_nil_of_right_ne_nil _ (List.cons_ne_nil _ _)

variable (reply : List (Prompt DailyDraft) → Prompt DailyDraft → DailyDraft)

lemma summarize_reduces (identifier : Text) {settings : LMStudioSettings}
    {digests : List DailyRecordingDigest} (hne : digests ≠ []) {chunks : List Text}
    (hchunks : chunkDigests digests settings.chunkChars = .ok chunks) {drafts : List DailyDraft}
    {asked : List (Prompt DailyDraft)}
    (hmap : askAll (answeringDay reply) [] (chunks.map .map) = .ok (drafts, asked)) :
    summarize [⟨identifier, answeringDay reply⟩] settings digests =
      reduceToOne (answeringDay reply) settings.chunkChars drafts asked >>= fun draft =>
        .ok (completedDay identifier (toData draft digests)) := by
  rw [summarize, if_neg hne]
  dsimp only
  rw [hchunks, ok_bind, hmap, ok_bind]

theorem day_converges_iff (identifier : Text) (settings : LMStudioSettings)
    {digests : List DailyRecordingDigest} (hne : digests ≠ []) {chunks : List Text}
    (hchunks : chunkDigests digests settings.chunkChars = .ok chunks)
    (hlen : chunks.length ≤ 2 ^ maxReducePasses) {drafts : List DailyDraft}
    {asked : List (Prompt DailyDraft)}
    (hmap : askAll (answeringDay reply) [] (chunks.map .map) = .ok (drafts, asked)) :
    (BeforeEachPass (Halved settings.chunkChars) (answeringDay reply) settings.chunkChars
        maxReducePasses drafts asked ∧
      ∃ draft, summarize [⟨identifier, answeringDay reply⟩] settings digests =
        .ok (completedDay identifier (toData draft digests))) ↔
    BeforeEachPass (Pairable settings.chunkChars) (answeringDay reply) settings.chunkChars
      maxReducePasses drafts asked := by
  have hcount : drafts.length = chunks.length := by
    rw [(askAll_ok hmap).2, List.length_map]
  have hsome : drafts ≠ [] := by
    rintro rfl
    exact chunkDigests_ne_nil hchunks hne (List.length_eq_zero_iff.mp hcount.symm)
  rw [← reduceToOne_iff reply hsome (hcount ▸ hlen) asked,
    summarize_reduces reply identifier hne hchunks hmap]
  refine and_congr_right (fun _ => ⟨?_, ?_⟩)
  · rintro ⟨_, h⟩
    obtain ⟨draft, hdraft, _⟩ := bind_ok h
    exact ⟨draft, hdraft⟩
  · rintro ⟨draft, hdraft⟩
    exact ⟨draft, by rw [hdraft, ok_bind]⟩

def draftOf (overview : Text) (hsized : Sized 4000 overview) : DailyDraft :=
  ⟨⟨overview, overview⟩, [], [], ⟨hsized, hsized⟩, by decide, noTags_valid⟩

def longDraft : DailyDraft := draftOf (List.replicate 900 'あ') (by decide +kernel)

def shortDraft : DailyDraft := draftOf "散歩".toList (by decide)

def wordyDigest (index : ℕ) : DailyRecordingDigest :=
  ⟨index, index, "10:00".toList, List.replicate 600 'あ', List.replicate 600 'い', [], [], [], []⟩

def wordyDay (n : ℕ) : List DailyRecordingDigest := (List.range n).map wordyDigest

def lastTwoShort (asked : List (Prompt DailyDraft)) (_ : Prompt DailyDraft) : DailyDraft :=
  if asked.length ∈ [6, 7, 13, 14, 19, 20, 24, 25, 28, 29, 31, 32] then shortDraft else longDraft

def wordyChunks (n : ℕ) : List Text :=
  valueOr [] (chunkDigests (wordyDay n) smallestSettings.chunkChars)

lemma wordyChunks_eq {n : ℕ} (h : (chunkDigests (wordyDay n) smallestSettings.chunkChars).isOk) :
    chunkDigests (wordyDay n) smallestSettings.chunkChars = .ok (wordyChunks n) := ok_valueOr [] h

theorem day_converges_iff_two :
    ∃ draft, summarize [⟨[], answeringDay (fun _ _ => longDraft)⟩] smallestSettings (wordyDay 2) =
      .ok (completedDay [] (toData draft (wordyDay 2))) := by
  have hmap : askAll (answeringDay (fun _ _ => longDraft)) [] ((wordyChunks 2).map .map) =
      .ok ([longDraft, longDraft], (wordyChunks 2).map .map) := by
    decide +kernel
  refine ((day_converges_iff (fun _ _ => longDraft) [] smallestSettings (by decide)
    (wordyChunks_eq (by decide +kernel)) (by decide +kernel) hmap).mpr ?_).2
  refine fun _ => ⟨.inl (by decide +kernel), fun next asked hnext => ?_⟩
  obtain ⟨_, hlen⟩ := askAll_ok hnext
  have hone : next.length = 1 := by
    rw [hlen]
    decide +kernel
  exact fun hmany => absurd hone hmany

theorem eight_partial_days_left :
    (wordyChunks 8).length = 8 ∧
      chunkDigests (wordyDay 8) smallestSettings.chunkChars = .ok (wordyChunks 8) ∧
      summarize [⟨[], answeringDay lastTwoShort⟩] smallestSettings (wordyDay 8) =
        .error notConverging := by
  have hchunks := wordyChunks_eq (n := 8) (by decide +kernel)
  have hmap : askAll (answeringDay lastTwoShort) [] ((wordyChunks 8).map .map) =
      .ok (List.replicate 6 longDraft ++ [shortDraft, shortDraft], (wordyChunks 8).map .map) := by
    decide +kernel
  have hpasses : reduceToOne (answeringDay lastTwoShort) smallestSettings.chunkChars
      (List.replicate 6 longDraft ++ [shortDraft, shortDraft]) ((wordyChunks 8).map .map) =
        .error notConverging := by
    decide +kernel
  refine ⟨by decide +kernel, hchunks, ?_⟩
  rw [summarize_reduces lastTwoShort [] (by decide) hchunks hmap, hpasses]
  rfl

end Summary

end AudioServer.Processing.DayDrafts
