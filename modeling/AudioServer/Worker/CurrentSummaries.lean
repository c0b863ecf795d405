import AudioServer.Foundations.Correspondence
import AudioServer.Worker.DaySummaries

/-! A summary that the day views do not call stale was written from the digests of today. -/

namespace AudioServer.Worker.CurrentSummaries

open AudioServer.Foundations.Outcomes AudioServer.Foundations.Runs AudioServer.Foundations.Correspondence
open AudioServer.Api.Schemas AudioServer.Core.Datetimes AudioServer.Db.Models AudioServer.Jobs.Queue
open AudioServer.Services.Transactions AudioServer.Services.Consistency AudioServer.Services.Recordings
open AudioServer.Services.Ownership AudioServer.Services.Daily
open AudioServer.Worker.System AudioServer.Worker.Invariant AudioServer.Worker.DaySummaries

def unnumbered (digest : DailyRecordingDigest) : DailyRecordingDigest := { digest with index := 0 }

/-- The stored summary of the day was written from the digests `_collect` builds now. -/
def WrittenFromCurrent (w : DayWorld) (day : Day) : Prop :=
  ∃ draft, w.origin day = some draft ∧
    (collect w.db day).1.map unnumbered = draft.digests.map unnumbered

/-- No upload takes the id of a recording that was deleted. -/
def NoReuse (w : DayWorld) : DayAct → Prop
  | .act (.server (.create _ recording _ _)) => w.history.deleted recording.id = 0
  | _ => True

instance (w : DayWorld) : (act : DayAct) → Decidable (NoReuse w act)
  | .act (.server (.create _ recording _ _)) =>
    inferInstanceAs (Decidable (w.history.deleted recording.id = 0))
  | .act (.server (.queue _)) | .act (.server (.retry ..)) | .act (.server (.reprocess ..)) => isTrue trivial
  | .act (.server (.reprocessAnalysis ..)) | .act (.server (.reprocessTranslation ..)) => isTrue trivial
  | .act (.server (.deleteRecording _)) | .act (.server (.dailySummary ..)) => isTrue trivial
  | .act (.server (.switches _)) | .act (.load _) | .act (.commit ..) => isTrue trivial
  | .act (.updateTranscript ..) | .act (.updateAnalysis ..) | .act (.updateTranslations ..) => isTrue trivial
  | .collectDigests .. | .commitSummary .. => isTrue trivial

section Ordered

variable {db : Database} {day : Day}

lemma sources_recordings :
    ((sources db day).map (·.recording)).Sublist (dayRecordings db day) := by
  have hrows : ((analysedRows db day).map (·.1)).Sublist ((dayRecordings db day).map id) :=
    map_filterMap_sublist (fun r row h => (analysedRow_some h).1) _
  have hnumbered : ((sources db day).map (·.recording)).Sublist
      ((analysedRows db day).zipIdx.map (·.1.1)) := by
    apply map_filterMap_sublist
    intro row s h
    obtain ⟨digest, _, rfl⟩ := Option.map_eq_some_iff.mp h
    rfl
  have hzip : (analysedRows db day).zipIdx.map (·.1.1) = (analysedRows db day).map (·.1) := by
    have hfst := congrArg (List.map Prod.fst) (List.zipIdx_map_fst 0 (analysedRows db day))
    rwa [List.map_map] at hfst
  rw [hzip] at hnumbered
  rw [List.map_id] at hrows
  exact hnumbered.trans hrows

lemma sources_ordered :
    (sources db day).Pairwise (fun a b => ListOrder a.recording b.recording) :=
  List.pairwise_map.mp ((List.pairwise_insertionSort ListOrder _).sublist sources_recordings)

end Ordered

section Matching

def currentDigest (db : Database) (id : RecordingId) : Option DailyRecordingDigest := do
  let recording ← db.recording id
  let analysis ← (db.documents id).analysis
  digestFromAnalysis 0 recording analysis

def currentStart (db : Database) (id : RecordingId) : Instant :=
  ((db.recording id).map (·.startedAt)).getD 0

structure Agrees (db : Database) (s : Source) : Prop where
  start : currentStart db s.recording.id = s.recording.startedAt
  digest : currentDigest db s.recording.id = some (unnumbered s.digest)

variable {db : Database} {day : Day} {draft : Draft} {h : History}

lemma digestFromAnalysis_unnumbered {index : ℕ} {r : Recording} {a : Analysis}
    {digest : DailyRecordingDigest} (hfrom : digestFromAnalysis index r a = some digest) :
    digestFromAnalysis 0 r a = some (unnumbered digest) := by
  obtain ⟨result, hresult, hfrom⟩ := Option.bind_eq_some_iff.mp hfrom
  obtain ⟨description, hdescription, hfrom⟩ := Option.bind_eq_some_iff.mp hfrom
  cases hfrom
  rw [digestFromAnalysis, hresult]
  show (bilingual result.description >>= _) = _
  rw [hdescription]
  rfl

lemma source_agrees {s : Source} (hids : (db.recordings.map (·.id)).Nodup)
    (hs : s ∈ sources db day) : Agrees db s := by
  obtain ⟨hr, _, a, ha, _, hfrom⟩ := source_ok hs
  have hfound := recording_of_mem hids hr
  refine ⟨by simp only [currentStart, hfound, Option.map_some, Option.getD_some], ?_⟩
  simp only [currentDigest, hfound, ha]
  exact digestFromAnalysis_unnumbered hfrom

lemma kept_agrees {seen : Database} {s : Source} (hids : (db.recordings.map (·.id)).Nodup)
    (hs : s ∈ sources seen day) (hkept : Kept seen db s.recording.id)
    (hrevision : (db.documents s.recording.id).analysisRevision =
      (seen.documents s.recording.id).analysisRevision) : Agrees db s := by
  obtain ⟨hr, _, a, ha, _, hfrom⟩ := source_ok hs
  obtain ⟨r, hr', hsame⟩ := hkept.row s.recording hr rfl
  have hid : r.id = s.recording.id := congrArg (·.id) hsame
  have hstart : r.startedAt = s.recording.startedAt := congrArg (·.startedAt) hsame
  have hfound := recording_of_mem hids hr'
  rw [hid] at hfound
  refine ⟨by simp only [currentStart, hfound, Option.map_some, Option.getD_some, hstart], ?_⟩
  simp only [currentDigest, hfound, hkept.analysis.same_content hrevision, ha]
  refine digestFromAnalysis_unnumbered ((digestFromAnalysis_identity hsame _ a).trans hfrom)

lemma agreeing_ordered {l : List Source} (hagree : ∀ s ∈ l, Agrees db s)
    (hordered : l.Pairwise (fun a b => ListOrder a.recording b.recording)) :
    (l.map (·.recording.id)).Pairwise (fun i j => currentStart db i < currentStart db j ∨
      (currentStart db i = currentStart db j ∧ i ≤ j)) := by
  rw [List.pairwise_map]
  apply hordered.imp_of_mem
  intro a b ha hb hab
  rw [(hagree a ha).start, (hagree b hb).start]
  exact hab

lemma agreeing_digests {l : List Source} (hagree : ∀ s ∈ l, Agrees db s) :
    (l.map (·.recording.id)).map (currentDigest db) =
      ((l.map (·.digest)).map unnumbered).map some := by
  rw [List.map_map, List.map_map, List.map_map]
  exact List.map_congr_left (fun s hs => (hagree s hs).digest)

lemma agreeing_eq {l k : List Source} (hl : ∀ s ∈ l, Agrees db s) (hk : ∀ s ∈ k, Agrees db s)
    (hlordered : l.Pairwise (fun a b => ListOrder a.recording b.recording))
    (hkordered : k.Pairwise (fun a b => ListOrder a.recording b.recording))
    (hids : (l.map (·.recording.id)).Perm (k.map (·.recording.id))) :
    (l.map (·.digest)).map unnumbered = (k.map (·.digest)).map unnumbered := by
  have hsame : l.map (·.recording.id) = k.map (·.recording.id) := by
    refine List.Perm.eq_of_pairwise ?_ (agreeing_ordered hl hlordered)
      (agreeing_ordered hk hkordered) hids
    intro i j _ _ hij hji
    rcases hij with hlt | ⟨he, hij⟩
    · rcases hji with hgt | ⟨he, _⟩
      · exact absurd (hlt.trans hgt) (lt_irrefl _)
      · exact absurd he (ne_of_gt hlt)
    · rcases hji with hgt | ⟨_, hji⟩
      · exact absurd he (ne_of_gt hgt)
      · exact le_antisymm hij hji
  apply List.map_injective_iff.mpr (Option.some_injective _)
  rw [← agreeing_digests hl, ← agreeing_digests hk, hsame]

end Matching

section Runs

variable {w w' : DayWorld}

lemma created_by_upload {h : History} {act : Act} {db : Database} {id : RecordingId}
    (hne : (h.after act db).created id ≠ h.created id) :
    ∃ service recording row now, act = .server (.create service recording row now) ∧
      recording.id = id := by
  unfold History.after at hne
  split at hne
  · rename_i service recording row now _ _
    refine ⟨service, recording, row, now, rfl, ?_⟩
    by_contra hid
    exact hne (Function.update_of_ne (Ne.symm hid) ..)
  · exact absurd rfl hne
  · exact absurd rfl hne

def NeverReplaced (w : DayWorld) : Prop :=
  ∀ d ∈ w.drafts, ∀ id, ¬ Absent d.seen id → w.history.created id = d.history.created id

lemma act_neverReplaced {a : Act} (h : DayInvariant w) (hnever : NeverReplaced w)
    (hreuse : NoReuse w (.act a)) : NeverReplaced (w.perform (.act a)) := by
  intro d hd id hseen
  have hbefore := hnever d hd id hseen
  have hturn : Turn w.db (System.perform w.world a).db w.history (w.history.after a w.db) id :=
    perform_turn h.world.statuses.jobIds a id
  cases hturn with
  | born habsent hcreated _ =>
    have hchanged : (w.history.after a w.db).created id ≠ w.history.created id := by omega
    obtain ⟨service, recording, row, now, rfl, hid⟩ := created_by_upload hchanged
    have hnone : w.history.deleted id = 0 := hid ▸ hreuse
    rcases (h.tracked d hd id hseen).fate hbefore with ⟨_, hkept⟩ | ⟨hlt, _⟩
    · exact absurd habsent (kept_row_present hkept.row hseen)
    · omega
  | died _ hcreated _ => exact hcreated.trans hbefore
  | lived hcreated _ _ _ => exact hcreated.trans hbefore

lemma step_neverReplaced {act : DayAct} (h : DayInvariant w) (hnever : NeverReplaced w)
    (hreuse : NoReuse w act) (hstep : DayStep w act w') : NeverReplaced w' := by
  obtain ⟨hallowed, rfl⟩ := hstep
  cases act with
  | act a => exact act_neverReplaced h hnever hreuse
  | collectDigests claim day =>
    by_cases hinside : dateMin < day ∧ day < dateMax
    swap
    · rwa [perform_uncollected w claim hinside]
    rw [perform_collect w claim hinside]
    intro d hd id hseen
    rcases List.mem_cons.mp hd with rfl | hd
    · rfl
    · exact hnever d hd id hseen
  | commitSummary queue draft result now row =>
    rcases perform_commit w queue draft result now row with ⟨db, _, he⟩ | ⟨_, he⟩
    · rw [he, DayWorld.land]
      split
      · exact hnever
      · exact hnever
    · rw [he]
      exact hnever

lemma matching_current {d : Draft} (h : DayInvariant w) (hd : d ∈ w.drafts)
    (hnever : NeverReplaced w) (hmatch : matchesRevisions w.db d.day d.revisions) :
    (collect w.db d.day).1.map unnumbered = d.digests.map unnumbered := by
  have hids := h.world.statuses.recordingIds
  have hperm := matchesRevisions_perm hmatch
  have hkept : ∀ s ∈ sources d.seen d.day, Agrees w.db s := by
    intro s hs
    have hdrafted : (⟨s.recording.id, (d.seen.documents s.recording.id).analysisRevision⟩ :
        SourceRevision) ∈ d.revisions := by
      rw [d.revisions_eq]
      exact List.mem_map_of_mem (f := fun s : Source =>
        (⟨s.recording.id, (d.seen.documents s.recording.id).analysisRevision⟩ : SourceRevision)) hs
    have hseen : ¬ Absent d.seen s.recording.id :=
      fun habsent => habsent s.recording (source_ok hs).1 rfl
    obtain ⟨hnow, hcurrent⟩ := collect_revision (hperm.mem_iff.mp hdrafted)
    obtain ⟨_, hkept⟩ := revision_kept (h.tracked d hd) hdrafted (hnever d hd _ hseen) hnow
    exact kept_agrees hids hs hkept hcurrent.symm
  rw [d.digests_eq]
  refine agreeing_eq (fun s hs => source_agrees hids hs) hkept sources_ordered sources_ordered ?_
  have hsame := (hperm.map (·.recordingId)).symm
  rw [d.revisions_eq, collect, collect, List.map_map, List.map_map] at hsame
  exact hsame

lemma notStale_matches {day : Day} {s : DailySummary} {db : Database}
    (hstatus : s.status = .completed) (hstale : isStale db day s = false) :
    matchesRevisions db day s.sourceRevisions := by
  rw [isStale, hstatus] at hstale
  simpa using hstale

lemma summaryOf_current {day : Day} {s : DailySummary} (h : DayInvariant w)
    (hnever : NeverReplaced w) (hs : summaryOf w.summaries day = some s)
    (hstatus : s.status = .completed) (hstale : isStale w.db day s = false) :
    WrittenFromCurrent w day := by
  have hmem := List.mem_of_find?_eq_some hs
  have hday : s.summaryDate = day := by simpa using List.find?_some hs
  obtain ⟨d, horigin, hrevisions⟩ := h.written s hmem
  rw [hday] at horigin
  obtain ⟨hd, rfl⟩ := h.origins day d horigin
  refine ⟨d, horigin, matching_current h hd hnever ?_⟩
  rw [← hrevisions]
  exact notStale_matches hstatus hstale

end Runs

theorem shown_summaries_current {settings : Option ProcessingSettings} {w : DayWorld}
    {es : List (Event DayWorld DayAct)} (hrun : DayRun (DayWorld.init settings) es w)
    (hreuse : ∀ e ∈ es, NoReuse e.before e.label) :
    (∀ day, ∀ s, (getDay w.db w.summaries day).summary = some s → s.status = .completed →
      (getDay w.db w.summaries day).stale = false → WrittenFromCurrent w day) ∧
    (∀ limit offset, ∀ entry ∈ listDays w.db w.summaries limit offset,
      entry.summaryStatus = some .completed → entry.summaryStale = false →
        WrittenFromCurrent w entry.day) := by
  have hinit : NeverReplaced (DayWorld.init settings) := by
    intro d hd
    cases hd
  obtain ⟨hinv, hnever⟩ := hrun.keeps_if (fun w => DayInvariant w ∧ NeverReplaced w) NoReuse
    (fun _ _ _ hw hact hstep =>
      ⟨step_dayInvariant hw.1 hstep, step_neverReplaced hw.1 hw.2 hact hstep⟩)
    ⟨init_dayInvariant settings, hinit⟩ hreuse
  constructor
  · intro day s hs hstatus hstale
    have hsummary : summaryOf w.summaries day = some s := hs
    have hfresh : (summaryOf w.summaries day).any (isStale w.db day) = false := hstale
    rw [hsummary] at hfresh
    exact summaryOf_current hinv hnever hsummary hstatus hfresh
  · intro limit offset entry hentry hstatus hstale
    obtain ⟨c, _, rfl⟩ := List.mem_map.mp hentry
    obtain ⟨s, hsummary, hcompleted⟩ := Option.map_eq_some_iff.mp hstatus
    have hfresh : (summaryOf w.summaries c.day).any (isStale w.db c.day) = false := hstale
    rw [hsummary] at hfresh
    exact summaryOf_current hinv hnever hsummary hcompleted hfresh

theorem shown_summaries_current_at_once :
    let w := storedAtOnce.foldl DayWorld.perform claimedWorld
    (getDay w.db w.summaries 0).summary.map (·.status) = some .completed ∧
      (listDays w.db w.summaries 5 0).map (·.summaryStale) = [false] ∧ WrittenFromCurrent w 0 := by
  intro w
  have hstatus : (getDay w.db w.summaries 0).summary.map (·.status) = some .completed := by
    decide +kernel
  obtain ⟨s, hs, hcompleted⟩ := Option.map_eq_some_iff.mp hstatus
  have hstored : DayRun claimedWorld (trail DayWorld.perform claimedWorld storedAtOnce) w :=
    run_trail _ _ ⟨collected_allowed, collectedDraft_mem, trivial⟩
  have hcurrent := shown_summaries_current (claimedRun.append hstored) (by decide +kernel)
  exact ⟨hstatus, by decide +kernel, hcurrent.1 0 s hs hcompleted (by decide +kernel)⟩

end AudioServer.Worker.CurrentSummaries
