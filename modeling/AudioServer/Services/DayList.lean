import AudioServer.Foundations.Grouping
import AudioServer.Services.DayReads
import Mathlib.Data.List.Dedup

/-! The list of days, against the grouping of every recording by its day. -/

namespace AudioServer.Services.DayList

open AudioServer.Foundations.Grouping AudioServer.Foundations.Outcomes
open AudioServer.Core.Datetimes AudioServer.Db.Models AudioServer.Services.Days
open AudioServer.Services.DayRange
open AudioServer.Services.Daily (DayCount DayDetail DayListEntry ListOrder analysed countDays
  countRecording dayEntry dayRecordings getDay inWindow inWindow_iff)

def allDays (db : Database) : List Day :=
  ((db.recordings.filterMap (fun r => (dayOf r.startedAt).toOption)).dedup).insertionSort
    (fun a b => b ≤ a)

def slice (db : Database) (limit offset : ℕ) : List Day := ((allDays db).drop offset).take limit

def entryOf (detail : DayDetail) : DayListEntry where
  day := detail.day
  recordingCount := detail.recordings.length
  analysedCount := detail.analysedIds.length
  summaryStatus := detail.summary.map (·.status)
  summaryStale := detail.stale

def ListsSlice (db : Database) (summaries : List DailySummary) (limit offset : ℕ) : Prop :=
  ∃ entries, DayReads.listDays db summaries limit offset = .ok entries ∧
    entries.map (·.day) = slice db limit offset ∧
    ∀ entry ∈ entries, ∃ detail, DayReads.getDay db summaries entry.day = .ok detail ∧
      entry.recordingCount = detail.recordings.length ∧
      entry.analysedCount = detail.analysedIds.length

def WithinYears (db : Database) (limit offset : ℕ) : Prop :=
  (∀ r ∈ db.recordings, r.startedAt < (dateMax + 1) * dayLength - dayTimezone) ∧
    ∀ day ∈ slice db limit offset, day ≠ dateMin ∧ day ≠ dateMax

instance (db : Database) (limit offset : ℕ) : Decidable (WithinYears db limit offset) :=
  inferInstanceAs (Decidable ((∀ r ∈ _, _ < _) ∧ ∀ day ∈ _, _ ∧ _))

section Stream

variable {db : Database}

def dayTally (db : Database) : Tally Recording DayCount Day where
  key r := localDay r.startedAt
  entryKey c := c.day
  first r := ⟨localDay r.startedAt, 1, if analysed db r.id then 1 else 0⟩
  more r c := ⟨localDay r.startedAt, c.recordings + 1,
    if analysed db r.id then c.analysed + 1 else c.analysed⟩
  first_key _ := rfl
  more_key _ _ _ := rfl

lemma countRecording_put (r : Recording) (counts : List DayCount) :
    countRecording (localDay r.startedAt) (analysed db r.id) counts = (dayTally db).put r counts := by
  simp only [countRecording, Nat.zero_add]
  rfl

lemma countDays_stream (wanted : ℕ) (rows : List Recording) (counts : List DayCount) :
    countDays db wanted rows counts = (dayTally db).stream wanted rows counts := by
  induction rows generalizing counts with
  | nil => rfl
  | cons r rest ih =>
    rw [countDays, Tally.stream, countRecording_put, ih]
    rfl

lemma localDay_mono {a b : Instant} (h : a ≤ b) : localDay a ≤ localDay b :=
  Int.ediv_le_ediv (by decide) (add_le_add_left h dayTimezone)

def newestFirst (db : Database) : List Recording := (db.recordings.insertionSort ListOrder).reverse

lemma mem_newestFirst {r : Recording} : r ∈ newestFirst db ↔ r ∈ db.recordings := by
  rw [newestFirst, List.mem_reverse, List.mem_insertionSort]

lemma newestFirst_perm (db : Database) : (newestFirst db).Perm db.recordings :=
  (List.reverse_perm _).trans (List.perm_insertionSort ..)

lemma newestFirst_starts (db : Database) :
    (newestFirst db).Pairwise (fun a b => b.startedAt ≤ a.startedAt) := by
  apply List.pairwise_reverse.mpr
  refine (List.pairwise_insertionSort ListOrder db.recordings).imp ?_
  rintro a b (h | ⟨h, _⟩)
  · exact h.le
  · exact h.le

lemma newestFirst_descending (db : Database) :
    (newestFirst db).Pairwise (fun a b => localDay b.startedAt ≤ localDay a.startedAt) :=
  (newestFirst_starts db).imp localDay_mono

def fullCounts (db : Database) : List DayCount := (dayTally db).group (newestFirst db) []

lemma countDays_take (wanted : ℕ) :
    countDays db wanted (newestFirst db) [] = (fullCounts db).take wanted := by
  rw [countDays_stream]
  exact Tally.stream_take (newestFirst_descending db) (by simp) (Nat.zero_le _)

lemma fullCounts_keys (db : Database) :
    (fullCounts db).map (dayTally db).entryKey = (fullCounts db).map (·.day) := rfl

lemma fullCounts_descending (db : Database) :
    ((fullCounts db).map (·.day)).Pairwise (fun a b => b < a) := by
  rw [← fullCounts_keys]
  exact Tally.group_descending (newestFirst_descending db)

lemma allDays_descending (db : Database) : (allDays db).Pairwise (fun a b => b < a) := by
  have htrans : IsTrans Day (fun a b => b ≤ a) := ⟨fun _ _ _ hab hbc => hbc.trans hab⟩
  have htotal : Std.Total (fun a b : Day => b ≤ a) := ⟨fun a b => le_total b a⟩
  have hle := List.pairwise_insertionSort (fun a b : Day => b ≤ a)
    (db.recordings.filterMap (fun r => (dayOf r.startedAt).toOption)).dedup
  have hne : (allDays db).Nodup := (List.perm_insertionSort ..).nodup_iff.mpr (List.nodup_dedup _)
  exact (hle.and hne).imp (fun h => lt_of_le_of_ne h.1 (Ne.symm h.2))

lemma mem_allDays {day : Day} : day ∈ allDays db ↔ ∃ r ∈ db.recordings, dayOf r.startedAt = .ok day := by
  have hvalue : ∀ x : Except Exn Day, x.toOption = some day ↔ x = .ok day := by
    intro x
    cases x with
    | error exn => exact ⟨nofun, nofun⟩
    | ok other => simp [Except.toOption]
  simp only [allDays, List.mem_insertionSort, List.mem_dedup, List.mem_filterMap, hvalue]

def Readable (db : Database) : Prop :=
  ∀ r ∈ db.recordings, IsDatetime (r.startedAt + dayTimezone)

lemma fullCounts_days (h : Readable db) : (fullCounts db).map (·.day) = allDays db := by
  have hmem : ∀ day, day ∈ (fullCounts db).map (·.day) ↔ day ∈ allDays db := by
    intro day
    rw [← fullCounts_keys, fullCounts, Tally.group_keys_mem, mem_allDays]
    simp only [List.map_nil, List.not_mem_nil, false_or, mem_newestFirst]
    refine exists_congr fun r => and_congr_right fun hr => ?_
    rw [dayOf_ok]
    exact (and_iff_right (h r hr)).symm
  have hcounts := fullCounts_descending db
  have hdays := allDays_descending db
  have hperm := (List.perm_ext_iff_of_nodup (hcounts.imp ne_of_gt) (hdays.imp ne_of_gt)).mpr hmem
  exact hperm.eq_of_pairwise (fun a b _ _ hab hba => absurd hab hba.asymm) hcounts hdays

lemma more_counts (rest : List Recording) (c : DayCount) :
    (rest.foldl (fun c r => (dayTally db).more r c) c).recordings = c.recordings + rest.length ∧
      (rest.foldl (fun c r => (dayTally db).more r c) c).analysed =
        c.analysed + rest.countP (fun r => analysed db r.id) := by
  induction rest generalizing c with
  | nil => exact ⟨rfl, rfl⟩
  | cons r rest ih =>
    obtain ⟨hrecordings, hanalysed⟩ := ih ((dayTally db).more r c)
    rw [List.foldl_cons, hrecordings, hanalysed, List.countP_cons, List.length_cons]
    refine ⟨by simp only [dayTally]; omega, ?_⟩
    by_cases h : analysed db r.id
    · simp only [dayTally, h, if_true]
      omega
    · simp [dayTally, h]

lemma fullCounts_count {c : DayCount} (h : c ∈ fullCounts db) :
    c.recordings = (dayRecordings db c.day).length ∧
      c.analysed = (dayRecordings db c.day).countP (fun r => analysed db r.id) := by
  obtain ⟨a, rest, hrows, hfold⟩ := Tally.group_made _ c h
  have hperm : (a :: rest).Perm (dayRecordings db c.day) := by
    rw [← hrows]
    refine .trans ?_ (List.perm_insertionSort ListOrder _).symm
    have hday : ∀ r : Recording, decide ((dayTally db).key r = (dayTally db).entryKey c) =
        decide (inWindow c.day r) := fun r => decide_eq_decide.mpr inWindow_iff.symm
    simp only [hday]
    exact (newestFirst_perm db).filter _
  obtain ⟨hrecordings, hanalysed⟩ := more_counts rest ((dayTally db).first a)
  rw [← hfold] at hrecordings hanalysed
  rw [← hperm.length_eq, ← hperm.countP_eq, hrecordings, hanalysed, List.length_cons, List.countP_cons]
  simp only [dayTally]
  omega

lemma dayEntry_detail {summaries : List DailySummary} {c : DayCount} (h : c ∈ fullCounts db) :
    dayEntry db summaries c = entryOf (getDay db summaries c.day) := by
  obtain ⟨hrecordings, hanalysed⟩ := fullCounts_count h
  have hids : (getDay db summaries c.day).analysedIds.length =
      (dayRecordings db c.day).countP (fun r => analysed db r.id) := by
    rw [getDay, ← List.countP_eq_length_filter, List.countP_map]
    rfl
  rw [dayEntry, entryOf, hids, hrecordings, hanalysed]
  rfl

end Stream

section Slices

variable {db : Database} {summaries : List DailySummary} {limit offset : ℕ}

def slicedCounts (db : Database) (limit offset : ℕ) : List DayCount :=
  ((fullCounts db).drop offset).take limit

lemma slicedCounts_mem {c : DayCount} (h : c ∈ slicedCounts db limit offset) : c ∈ fullCounts db :=
  List.mem_of_mem_drop (List.mem_of_mem_take h)

lemma slicedCounts_days (h : Readable db) :
    (slicedCounts db limit offset).map (·.day) = slice db limit offset := by
  rw [slicedCounts, slice, List.map_take, List.map_drop, fullCounts_days h]

lemma listDays_read (h : Readable db) : DayReads.listDays db summaries limit offset =
    (slicedCounts db limit offset).mapM (DayReads.dayEntry db summaries) := by
  have hread : ∀ r ∈ newestFirst db, IsDatetime (r.startedAt + dayTimezone) :=
    fun r hr => h r (mem_newestFirst.mp hr)
  have hsorted : ((fullCounts db).take (limit + offset)).insertionSort (fun a b => b.day ≤ a.day) =
      (fullCounts db).take (limit + offset) := by
    apply List.Pairwise.insertionSort_eq
    have hdescending := List.pairwise_map.mp (fullCounts_descending db)
    exact (hdescending.sublist (List.take_sublist _ _)).imp le_of_lt
  have hslice : (((fullCounts db).take (limit + offset)).drop offset).take limit =
      slicedCounts db limit offset := by
    rw [slicedCounts, List.drop_take, List.take_take]
    congr 1
    omega
  rw [DayReads.listDays, ← newestFirst, DayReads.countDays_inside _ hread, ok_bind, countDays_take,
    hsorted, hslice]

lemma listDays_readable {entries : List DayListEntry}
    (hstarts : ∀ r ∈ db.recordings, IsDatetime r.startedAt)
    (h : DayReads.listDays db summaries limit offset = .ok entries) : Readable db := by
  rw [DayReads.listDays, ← newestFirst] at h
  obtain ⟨counts, hcounts, _⟩ := bind_ok h
  intro r hr
  have hmem := mem_newestFirst.mpr hr
  cases hrows : newestFirst db with
  | nil =>
    rw [hrows] at hmem
    cases hmem
  | cons first rest =>
    have hnewest := newestFirst_starts db
    rw [hrows] at hcounts hmem hnewest
    have hfirst := DayReads.countDays_first hcounts
    rcases List.mem_cons.mp hmem with rfl | hrest
    · exact hfirst
    · have hle := List.rel_of_pairwise_cons hnewest hrest
      exact ⟨(hstarts r hr).1.trans (le_add_of_nonneg_right (by decide)),
        (add_le_add_left hle dayTimezone).trans_lt hfirst.2⟩

lemma readable_iff (hstarts : ∀ r ∈ db.recordings, IsDatetime r.startedAt) : Readable db ↔
    ∀ r ∈ db.recordings, r.startedAt < (dateMax + 1) * dayLength - dayTimezone := by
  refine forall₂_congr fun r hr => ?_
  rw [lt_sub_iff_add_lt, IsDatetime]
  exact and_iff_right ((hstarts r hr).1.trans (le_add_of_nonneg_right (by decide)))

lemma slice_inside (h : WithinYears db limit offset) {day : Day} (hday : day ∈ slice db limit offset) :
    dateMin < day ∧ day < dateMax := by
  obtain ⟨r, _, hr⟩ := mem_allDays.mp (List.mem_of_mem_drop (List.mem_of_mem_take hday))
  obtain ⟨hrange, rfl⟩ := dayOf_ok.mp hr
  obtain ⟨hmin, hmax⟩ := hrange.date
  obtain ⟨hfirst, hlast⟩ := h.2 _ hday
  exact ⟨lt_of_le_of_ne hmin hfirst.symm, lt_of_le_of_ne hmax hlast⟩

lemma listDays_within (hstarts : ∀ r ∈ db.recordings, IsDatetime r.startedAt)
    (h : WithinYears db limit offset) : DayReads.listDays db summaries limit offset =
      .ok ((slicedCounts db limit offset).map (dayEntry db summaries)) := by
  have hread := (readable_iff hstarts).mpr h.1
  rw [listDays_read hread]
  apply mapM_values
  intro c hc
  apply DayReads.dayEntry_inside
  apply slice_inside h
  rw [← slicedCounts_days hread]
  exact List.mem_map_of_mem hc

lemma listDays_values {entries : List DayListEntry}
    (hstarts : ∀ r ∈ db.recordings, IsDatetime r.startedAt)
    (h : DayReads.listDays db summaries limit offset = .ok entries) : Readable db ∧
      entries = (slicedCounts db limit offset).map (dayEntry db summaries) := by
  have hread := listDays_readable hstarts h
  rw [listDays_read hread] at h
  have hvalues := mapM_map (q := id) (fun _ _ => DayReads.dayEntry_value) h
  rw [List.map_id] at hvalues
  exact ⟨hread, hvalues⟩

lemma countP_dayOf (h : Readable db) (day : Day) (p : Recording → Bool) :
    (dayRecordings db day).countP p =
      (db.recordings.filter (fun r => dayOf r.startedAt = .ok day)).countP p := by
  have hday : ∀ r ∈ db.recordings,
      decide (inWindow day r) = decide (dayOf r.startedAt = .ok day) := by
    intro r hr
    apply decide_eq_decide.mpr
    rw [inWindow_iff, dayOf_ok]
    exact (and_iff_right (h r hr)).symm
  rw [dayRecordings, (List.perm_insertionSort ListOrder _).countP_eq, List.filter_congr hday]

end Slices

theorem listDays_slice (db : Database) (summaries : List DailySummary) (limit offset : ℕ)
    (hstarts : ∀ r ∈ db.recordings, IsDatetime r.startedAt) :
    (ListsSlice db summaries limit offset ↔ WithinYears db limit offset) ∧
    (WithinYears db limit offset →
      ∃ details, (slice db limit offset).mapM (DayReads.getDay db summaries) = .ok details ∧
        DayReads.listDays db summaries limit offset = .ok (details.map entryOf)) ∧
    ∀ entries, DayReads.listDays db summaries limit offset = .ok entries →
      entries.map (·.day) = slice db limit offset ∧ ∀ entry ∈ entries,
        entry.recordingCount =
          (db.recordings.filter (fun r => dayOf r.startedAt = .ok entry.day)).length ∧
        entry.analysedCount = (db.recordings.filter
          (fun r => dayOf r.startedAt = .ok entry.day)).countP (fun r => analysed db r.id) := by
  have hdays : ∀ entries, entries = (slicedCounts db limit offset).map (dayEntry db summaries) →
      Readable db → entries.map (·.day) = slice db limit offset := by
    rintro _ rfl hread
    rw [← slicedCounts_days hread, List.map_map]
    rfl
  have hentry : ∀ c ∈ slicedCounts db limit offset,
      dayEntry db summaries c = entryOf (getDay db summaries c.day) :=
    fun c hc => dayEntry_detail (slicedCounts_mem hc)
  refine ⟨⟨?_, fun hwithin => ?_⟩, fun hwithin => ?_, fun entries hlist => ?_⟩
  · rintro ⟨entries, hlist, hslice, hcounts⟩
    obtain ⟨hread, _⟩ := listDays_values hstarts hlist
    refine ⟨(readable_iff hstarts).mp hread, fun day hday => ?_⟩
    rw [← hslice] at hday
    obtain ⟨entry, hmem, rfl⟩ := List.mem_map.mp hday
    obtain ⟨detail, hdetail, _⟩ := hcounts entry hmem
    obtain ⟨hmin, hmax⟩ := (DayReads.getDay_ok.mp hdetail).1
    exact ⟨hmin.ne', hmax.ne⟩
  · have hread := (readable_iff hstarts).mpr hwithin.1
    refine ⟨_, listDays_within hstarts hwithin, hdays _ rfl hread, fun entry hmem => ?_⟩
    obtain ⟨c, hc, rfl⟩ := List.mem_map.mp hmem
    have hday : c.day ∈ slice db limit offset := by
      rw [← slicedCounts_days hread]
      exact List.mem_map_of_mem hc
    rw [hentry c hc]
    exact ⟨_, DayReads.getDay_ok.mpr ⟨slice_inside hwithin hday, rfl⟩, rfl, rfl⟩
  · have hread := (readable_iff hstarts).mpr hwithin.1
    refine ⟨_, mapM_values (fun day hday => DayReads.getDay_ok.mpr ⟨slice_inside hwithin hday, rfl⟩), ?_⟩
    rw [listDays_within hstarts hwithin, ← slicedCounts_days hread, List.map_map, List.map_map]
    exact congrArg Except.ok (List.map_congr_left hentry)
  · obtain ⟨hread, hvalues⟩ := listDays_values hstarts hlist
    refine ⟨hdays entries hvalues hread, fun entry hmem => ?_⟩
    rw [hvalues] at hmem
    obtain ⟨c, hc, rfl⟩ := List.mem_map.mp hmem
    obtain ⟨hrecordings, hanalysed⟩ := fullCounts_count (slicedCounts_mem hc)
    refine ⟨?_, ?_⟩
    · rw [← List.countP_true, ← countP_dayOf hread, List.countP_true]
      exact hrecordings
    · rw [← countP_dayOf hread]
      exact hanalysed

def recordingAt (id : RecordingId) (startedAt : Instant) : Recording :=
  ⟨id, "pendant".toList, "5f".toList, 12, ⟨0, id, "m4a".toList⟩, startedAt, 30, .completed⟩

def heldAt (starts : List Instant) : Database :=
  { Database.empty none with recordings := (starts.zipIdx 1).map (fun s => recordingAt s.2 s.1) }

theorem listDays_slice_second_page : ListsSlice (heldAt
      [3 * 86400000000, 54000000000, 2 * 86400000000 - 32400000001, 3 * 86400000000]) [] 1 1 ∧
    (DayReads.listDays (heldAt
      [3 * 86400000000, 54000000000, 2 * 86400000000 - 32400000001, 3 * 86400000000]) [] 1 1).toOption =
        some [⟨1, 2, 0, none, false⟩] := by
  have hlists := (listDays_slice (heldAt
    [3 * 86400000000, 54000000000, 2 * 86400000000 - 32400000001, 3 * 86400000000]) [] 1 1
      (by decide +kernel)).1
  exact ⟨hlists.mpr (by decide +kernel), by decide +kernel⟩

/-- The last nine hours of the year 9999 are on no day in Japan. -/
theorem last_recording_ends_list :
    let db := heldAt [(dateMax + 1) * dayLength - dayTimezone]
    (∀ r ∈ db.recordings, IsDatetime r.startedAt) ∧
      DayReads.listDays db [] 20 0 = .error .overflowError ∧ ¬ ListsSlice db [] 20 0 := by
  intro db
  have hraises : DayReads.listDays db [] 20 0 = .error .overflowError := by decide +kernel
  refine ⟨by decide +kernel, hraises, ?_⟩
  rintro ⟨entries, hlist, _⟩
  rw [hraises] at hlist
  cases hlist

end AudioServer.Services.DayList
