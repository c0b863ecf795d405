import AudioServer.Foundations.Correspondence
import AudioServer.Foundations.Pools
import AudioServer.Web.RecordingsPage

/-! Reviewing the recordings of a list page by page: what the button to the next
page brings up, after any marks set and cleared on the way. -/

namespace AudioServer.Web.ReviewPaging

open AudioServer.Foundations.Correspondence AudioServer.Foundations.Outcomes
open AudioServer.Foundations.Paging AudioServer.Foundations.Pools AudioServer.Foundations.Runs
open AudioServer.Api.Schemas AudioServer.Db.Models AudioServer.Services.Recordings
open AudioServer.Services.Daily AudioServer.Web.RecordingsPage
open AudioServer.Web.DetailPage (Caught)

def nextToReview (filter : ListFilter) (w : World) : List ListedRecording :=
  (following Precedes w.page.pageItems (matchingRecordings filter w.rows)).take pageSize

section Listing

variable {filter : ListFilter} {rows : List ListedRecording} {row a b : ListedRecording}
variable {id : RecordingId} {checked : Bool}

@[simp] lemma mark_id (row : ListedRecording) : (mark id checked row).id = row.id := by
  rw [mark]
  split <;> rfl

@[simp] lemma mark_toRecording (row : ListedRecording) :
    (mark id checked row).toRecording = row.toRecording := by
  rw [mark]
  split <;> rfl

lemma mark_same (h : row.id = id) : (mark id checked row).checked = checked := by
  rw [mark, if_pos h]

lemma mark_other (h : row.id ≠ id) : mark id checked row = row := if_neg h

lemma mark_covered {filter : ListFilter} (h : filter.Covers row) :
    filter.Covers (mark id checked row) := by
  rw [mark]
  split
  · exact h
  · exact h

lemma mark_precedes (h : Precedes a b) : Precedes (mark id checked a) (mark id checked b) := by
  rw [Precedes, mark_toRecording, mark_toRecording]
  exact h

lemma setChecked_ok {rows' : List ListedRecording} (h : setChecked id checked rows = .ok (row, rows')) :
    row.checked = checked ∧ rows' = rows.map (mark id checked) := by
  obtain ⟨_, _, h⟩ := Foundations.Outcomes.bind_ok h
  cases h
  exact ⟨rfl, rfl⟩

end Listing

structure Stands (w : World) (item row : ListedRecording) : Prop where
  stored : row ∈ w.rows
  same : item.toRecording = row.toRecording
  settled : item.checked = row.checked ∨
    ∃ t ∈ w.page.flight, t.recordingId = row.id ∧ t.saved = some row.checked

structure OnDisplay (filter : ListFilter) (w : World) (items before live after : List ListedRecording) :
    Prop where
  windowed : Windowed Precedes filter.Admits (matchingRecordings filter w.rows) before live after
  covered : ∀ row ∈ live, filter.Covers row
  stands : List.Forall₂ (Stands w) items live
  toggles : ∀ t ∈ w.page.flight, ∃ row ∈ live, row.id = t.recordingId ∧ ∀ checked ∈ t.saved, row.checked = checked
  size : items.length ≤ pageSize
  offset : items = [] ∨ ∃ excess, w.page.offset = before.length + excess ∧
    (excess = 0 ↔ w.page.error = none ∧ w.page.loading = false)

structure Kept (filter : ListFilter) (w : World) : Prop where
  ids : (w.rows.map (·.id)).Nodup
  pending : w.page.checkPending.Nodup
  quiet : w.page.loading → w.page.flight = [] ∧ w.page.error = none
  empty : w.page.data = none → w.page.flight = []
  display : ∀ items ∈ w.page.data, ∃ before live after, OnDisplay filter w items before live after

section Steps

variable {filter : ListFilter} {w w' : World}

lemma kept_mount {rows : List ListedRecording} (hids : (rows.map (·.id)).Nodup) (offset : ℕ) :
    Kept filter ⟨rows, .mount offset⟩ := by
  refine ⟨hids, List.nodup_nil, fun _ => ⟨rfl, rfl⟩, fun _ => rfl, ?_⟩
  intro items h
  cases h

lemma listed_kept (h : Kept filter w) (hloading : w.page.loading) :
    Kept filter (w.answer filter .listed) := by
  obtain ⟨hflight, herror⟩ := h.quiet hloading
  have hordered : (matchingRecordings filter w.rows).Pairwise Precedes :=
    matchingRecordings_ordered h.ids
  have hmatch : ∀ row ∈ matchingRecordings filter w.rows, row ∈ w.rows ∧ filter.Admits row :=
    fun row hrow => mem_matchingRecordings.mp hrow
  refine ⟨h.ids, h.pending, nofun, nofun, ?_⟩
  rintro items ⟨⟩
  have hlisted : ∀ row ∈ listRecordings pageSize w.page.offset filter w.rows,
      row ∈ matchingRecordings filter w.rows :=
    fun row hrow => List.mem_of_mem_drop (List.mem_of_mem_take hrow)
  refine ⟨_, _, _, windowed_page hordered (fun row hrow => (hmatch row hrow).2) w.page.offset pageSize,
    fun row hrow => (hmatch row (hlisted row hrow)).2.1, ?_, ?_, List.length_take_le _ _, ?_⟩
  · exact List.forall₂_same.mpr (fun row hrow =>
      ⟨(hmatch row (hlisted row hrow)).1, rfl, .inl rfl⟩)
  · intro t ht
    have hnone : t ∈ w.page.flight := ht
    rw [hflight] at hnone
    cases hnone
  · by_cases hle : (matchingRecordings filter w.rows).length ≤ w.page.offset
    · left
      rw [listRecordings, page, List.drop_eq_nil_of_le hle, List.take_nil]
    · right
      refine ⟨0, ?_, fun _ => ⟨herror, rfl⟩, fun _ => rfl⟩
      have hlt : w.page.offset ≤ (matchingRecordings filter w.rows).length := by omega
      rw [List.length_take, min_eq_left hlt]
      rfl

lemma left_kept (h : Kept filter w) : Kept filter { w with page := { w.page with left := true } } := by
  refine ⟨h.ids, h.pending, h.quiet, h.empty, ?_⟩
  intro items hitems
  obtain ⟨before, live, after, d⟩ := h.display items hitems
  exact ⟨before, live, after, d.windowed, d.covered, d.stands.imp (fun _ _ s => ⟨s.1, s.2, s.3⟩),
    d.toggles, d.size, d.offset⟩

lemma loadFailed_kept (h : Kept filter w) (hloading : w.page.loading) (caught : Caught) :
    Kept filter (w.answer filter (.failed caught)) := by
  simp only [World.answer, Page.loadFailed]
  split
  · exact left_kept h
  · refine ⟨h.ids, h.pending, nofun, h.empty, ?_⟩
    intro items hitems
    obtain ⟨before, live, after, d⟩ := h.display items hitems
    refine ⟨before, live, after, d.windowed, d.covered, d.stands.imp (fun _ _ s => ⟨s.1, s.2, s.3⟩),
      d.toggles, d.size, d.offset.imp_right ?_⟩
    rintro ⟨excess, hoffset, hexcess⟩
    refine ⟨excess, hoffset, ?_, nofun⟩
    intro hzero
    have hdone := (hexcess.mp hzero).2
    rw [hloading] at hdone
    cases hdone

lemma displayed_some {p : Page} {items : List ListedRecording} (h : items ∈ p.displayed) :
    p.left = false ∧ p.loading = false ∧ items = p.pageItems := by
  simp only [Page.displayed] at h
  split at h
  · cases h
  · rename_i hopen
    cases h
    simpa using hopen

lemma data_of_mem {p : Page} {item : ListedRecording} (h : item ∈ p.pageItems) :
    p.data = some p.pageItems := by
  cases hdata : p.data with
  | none =>
    rw [Page.pageItems, hdata] at h
    cases h
  | some items => rw [Page.pageItems, hdata, Option.getD_some]

lemma toggleChecked_kept (h : Kept filter w) {recordingId : RecordingId} (next csrfToken : Bool)
    (hopen : (ListAct.toggle recordingId csrfToken).Allowed filter w) :
    Kept filter { w with page := w.page.toggleChecked recordingId next csrfToken } := by
  obtain ⟨⟨shown, hshown, item, hitem, hid⟩, hfree⟩ := hopen
  obtain ⟨_, hidle, rfl⟩ := displayed_some hshown
  have hdata := data_of_mem hitem
  simp only [Page.toggleChecked]
  split
  · refine ⟨h.ids, ?_, ?_, ?_, ?_⟩
    · apply nodup_map_snoc h.pending
      intro t ht he
      exact hfree (List.mem_map.mpr ⟨t, ht, he⟩)
    · intro hloading
      exact absurd hloading (by simp [hidle])
    · intro hnone
      exact absurd hnone (by simp [hdata])
    · intro items hitems
      obtain ⟨before, live, after, d⟩ := h.display items hitems
      have hshown : w.page.pageItems = items := Option.some.inj (hdata.symm.trans hitems)
      refine ⟨before, live, after, d.windowed, d.covered, d.stands.imp ?_, ?_, d.size, d.offset⟩
      · rintro item row ⟨hstored, hsame, hsettled⟩
        refine ⟨hstored, hsame, hsettled.imp_right ?_⟩
        rintro ⟨t, ht, htoggle⟩
        exact ⟨t, List.mem_append_left _ ht, htoggle⟩
      · intro t ht
        rcases List.mem_append.mp ht with ht | ht
        · exact d.toggles t ht
        · rw [List.mem_singleton.mp ht]
          obtain ⟨row, hrow, hstands⟩ := paired_mem d.stands (hshown ▸ hitem)
          have hrowId : row.id = recordingId := by rw [← hid, hstands.same]
          exact ⟨row, hrow, hrowId, nofun⟩
  · exact left_kept h

lemma save_cases (k : ℕ) (t : Toggle) :
    w.save k t = w ∨ w.save k t = ⟨w.rows.map (mark t.recordingId t.next),
      { w.page with flight := w.page.flight.set k { t with saved := some t.next } }⟩ := by
  cases hset : setChecked t.recordingId t.next w.rows with
  | error e =>
    left
    rw [World.save, hset]
  | ok saved =>
    obtain ⟨recording, rows⟩ := saved
    obtain ⟨hchecked, rfl⟩ := setChecked_ok hset
    right
    rw [World.save, hset, ← hchecked]

section Marked

variable {items before live after : List ListedRecording}

lemma OnDisplay.live_eq (d : OnDisplay filter w items before live after) (h : Kept filter w)
    {row x : ListedRecording} (hrow : row ∈ live) (hx : x ∈ w.rows) (hid : x.id = row.id) :
    x = row := by
  obtain ⟨_, _, hstands⟩ := paired_mem d.stands.flip hrow
  exact List.inj_on_of_nodup_map h.ids hx hstands.stored hid

lemma OnDisplay.stored (d : OnDisplay filter w items before live after) {row : ListedRecording}
    (hrow : row ∈ live) : row ∈ w.rows := by
  obtain ⟨_, _, hstands⟩ := paired_mem d.stands.flip hrow
  exact hstands.stored

lemma OnDisplay.outside (d : OnDisplay filter w items before live after) (h : Kept filter w)
    {row x : ListedRecording} (hrow : row ∈ live) (hx : x ∈ before ++ after) : x.id ≠ row.id := by
  intro hid
  have hlisted : x ∈ matchingRecordings filter w.rows := by
    rw [d.windowed.listed]
    rcases List.mem_append.mp hx with hx | hx
    · exact List.mem_append_left _ (List.mem_append_left _ hx)
    · exact List.mem_append_right _ hx
  have hsame := d.live_eq h hrow (mem_matchingRecordings.mp hlisted).1 hid
  subst hsame
  have hordered := List.pairwise_append.mp d.windowed.ordered
  have hself : Precedes x x := by
    rcases List.mem_append.mp hx with hx | hx
    · exact (List.pairwise_append.mp hordered.1).2.2 x hx x hrow
    · exact hordered.2.2 x (List.mem_append_right _ hrow) x hx
  exact Std.Asymm.asymm x x hself hself

lemma mark_ids (id : RecordingId) (checked : Bool) (rows : List ListedRecording) :
    (rows.map (mark id checked)).map (·.id) = rows.map (·.id) := by
  simp

lemma OnDisplay.marked (d : OnDisplay filter w items before live after) (h : Kept filter w)
    {row : ListedRecording} (hrow : row ∈ live) (checked : Bool) :
    Windowed Precedes filter.Admits (matchingRecordings filter (w.rows.map (mark row.id checked)))
      before (live.map (mark row.id checked)) after := by
  apply d.windowed.edited
  · intro a b hab
    exact mark_precedes hab
  · intro x hx
    exact mark_other (d.outside h hrow hx)
  · exact matchingRecordings_ordered ((mark_ids row.id checked w.rows).symm ▸ h.ids)
  · intro y
    rw [mem_matchingRecordings]
    constructor
    · rintro ⟨hy, hadmits⟩
      obtain ⟨x, hx, rfl⟩ := List.mem_map.mp hy
      refine ⟨hadmits, x, ?_, rfl⟩
      by_cases hid : x.id = row.id
      · exact .inr (d.live_eq h hrow hx hid ▸ hrow)
      · rw [mark_other hid] at hadmits
        exact .inl (mem_matchingRecordings.mpr ⟨hx, hadmits⟩)
    · rintro ⟨hadmits, x, hx, rfl⟩
      have hstored : x ∈ w.rows := by
        rcases hx with hx | hx
        · exact (mem_matchingRecordings.mp hx).1
        · exact d.stored hx
      exact ⟨List.mem_map_of_mem hstored, hadmits⟩

end Marked

lemma save_kept (h : Kept filter w) {k : ℕ} {t : Toggle} (ht : w.page.flight[k]? = some t) :
    Kept filter (w.save k t) := by
  have hmem := List.mem_of_getElem? ht
  rcases save_cases k t with hsame | hsaved
  · rw [hsame]
    exact h
  rw [hsaved]
  refine ⟨(mark_ids t.recordingId t.next w.rows).symm ▸ h.ids, ?_, ?_, ?_, ?_⟩
  · have hpending : (w.page.flight.set k { t with saved := some t.next }).map (·.recordingId) =
        w.page.checkPending := map_set_same ht rfl
    rw [Page.checkPending, hpending]
    exact h.pending
  · intro hloading
    rw [(h.quiet hloading).1] at hmem
    cases hmem
  · intro hnone
    rw [h.empty hnone] at hmem
    cases hmem
  · intro items hitems
    obtain ⟨before, live, after, d⟩ := h.display items hitems
    obtain ⟨row, hrow, hid, _⟩ := d.toggles t hmem
    refine ⟨before, live.map (mark t.recordingId t.next), after, ?_, ?_, ?_, ?_, d.size, d.offset⟩
    · exact hid ▸ d.marked h hrow t.next
    · intro y hy
      obtain ⟨x, hx, rfl⟩ := List.mem_map.mp hy
      exact mark_covered (d.covered x hx)
    · apply List.forall₂_map_right_iff.mpr
      apply d.stands.imp
      rintro item x ⟨hstored, hsame, hsettled⟩
      refine ⟨List.mem_map_of_mem hstored, hsame.trans (mark_toRecording x).symm, ?_⟩
      by_cases hx : x.id = t.recordingId
      · right
        refine ⟨{ t with saved := some t.next }, List.mem_of_getElem? (set_self ht), ?_, ?_⟩
        · rw [mark_id, hx]
        · rw [mark_same hx]
      · rw [mark_other hx]
        refine hsettled.imp_right ?_
        rintro ⟨u, hu, huid, hchecked⟩
        refine ⟨u, mem_set_ne ht hu ?_, huid, hchecked⟩
        rintro rfl
        exact hx huid.symm
    · intro u hu
      obtain ⟨i, hi⟩ := List.mem_iff_getElem?.mp hu
      rcases set_some hi with ⟨rfl, rfl⟩ | ⟨hne, hold⟩
      · refine ⟨mark t.recordingId t.next row, List.mem_map_of_mem hrow, by rw [mark_id, hid], ?_⟩
        rintro _ ⟨⟩
        exact mark_same hid
      · obtain ⟨x, hx, hxid, hchecked⟩ := d.toggles u (List.mem_of_getElem? hold)
        have hother : x.id ≠ t.recordingId := by
          intro he
          exact hne (nodup_map_index h.pending hold ht (hxid.symm.trans he))
        exact ⟨x, List.mem_map.mpr ⟨x, hx, mark_other hother⟩, hxid, hchecked⟩

lemma saved_kept (h : Kept filter w) {k : ℕ} {t : Toggle} (ht : w.page.flight[k]? = some t) :
    Kept filter (w.saved k t) := by
  cases hsaved : t.saved with
  | none =>
    rw [World.saved, hsaved]
    exact h
  | some checked =>
    rw [World.saved, hsaved]
    have hmem := List.mem_of_getElem? ht
    refine ⟨h.ids, h.pending.sublist ((List.eraseIdx_sublist _ _).map _), ?_, ?_, ?_⟩
    · intro hloading
      rw [(h.quiet hloading).1] at hmem
      cases hmem
    · intro hnone
      rw [h.empty (Option.map_eq_none_iff.mp hnone)] at hmem
      cases hmem
    · intro items hitems
      obtain ⟨old, hold, rfl⟩ := Option.map_eq_some_iff.mp hitems
      obtain ⟨before, live, after, d⟩ := h.display old hold
      obtain ⟨row, hrow, hid, hchecked⟩ := d.toggles t hmem
      refine ⟨before, live, after, d.windowed, d.covered, ?_, ?_, ?_, ?_⟩
      · apply List.forall₂_map_left_iff.mpr
        apply d.stands.imp
        rintro item x ⟨hstored, hsame, hsettled⟩
        refine ⟨hstored, (mark_toRecording item).trans hsame, ?_⟩
        have hitem : item.id = x.id := by rw [hsame]
        by_cases hx : x.id = t.recordingId
        · left
          rw [mark_same (hitem.trans hx), d.live_eq h hrow hstored (hx.trans hid.symm)]
          exact (hchecked checked hsaved).symm
        · rw [mark_other (fun he => hx (hitem.symm.trans he))]
          refine hsettled.imp_right ?_
          rintro ⟨u, hu, huid, hstands⟩
          refine ⟨u, mem_eraseIdx_ne ht hu ?_, huid, hstands⟩
          rintro rfl
          exact hx huid.symm
      · intro u hu
        exact d.toggles u (List.mem_of_mem_eraseIdx hu)
      · rw [List.length_map]
        exact d.size
      · exact d.offset.imp_left (fun hnil => by rw [hnil]; rfl)

lemma erased_kept (h : Kept filter w) {k : ℕ} {t : Toggle} (ht : w.page.flight[k]? = some t)
    (hsaved : t.saved = none) (checkedError : Option String) :
    Kept filter { w with
      page := { w.page with checkedError := checkedError, flight := w.page.flight.eraseIdx k } } := by
  have hmem := List.mem_of_getElem? ht
  refine ⟨h.ids, h.pending.sublist ((List.eraseIdx_sublist _ _).map _), ?_, ?_, ?_⟩
  · intro hloading
    rw [(h.quiet hloading).1] at hmem
    cases hmem
  · intro hnone
    rw [h.empty hnone] at hmem
    cases hmem
  · intro items hitems
    obtain ⟨before, live, after, d⟩ := h.display items hitems
    refine ⟨before, live, after, d.windowed, d.covered, d.stands.imp ?_, ?_, d.size, d.offset⟩
    · rintro item x ⟨hstored, hsame, hsettled⟩
      refine ⟨hstored, hsame, hsettled.imp_right ?_⟩
      rintro ⟨u, hu, huid, hstands⟩
      refine ⟨u, mem_eraseIdx_ne ht hu ?_, huid, hstands⟩
      rintro rfl
      rw [hsaved] at hstands
      cases hstands
    · intro u hu
      exact d.toggles u (List.mem_of_mem_eraseIdx hu)

lemma toggleFailed_kept (h : Kept filter w) {k : ℕ} {t : Toggle} (ht : w.page.flight[k]? = some t)
    (hsaved : t.saved = none) (caught : Caught) :
    Kept filter { w with page := w.page.toggleFailed k caught } := by
  simp only [Page.toggleFailed]
  split
  · exact left_kept (erased_kept h ht hsaved w.page.checkedError)
  · exact erased_kept h ht hsaved (some "recordings.checkedError")

lemma admits_iff {checked : Bool} {row : ListedRecording} (hfilter : filter.checked = some checked)
    (hcovered : filter.Covers row) : filter.Admits row ↔ row.checked = checked := by
  rw [ListFilter.Admits, hfilter]
  simp [hcovered]

lemma driftedOut_eq {checked : Bool} (hfilter : filter.checked = some checked)
    (hcovered : ∀ row ∈ w.page.pageItems, filter.Covers row) :
    w.page.driftedOut filter = drifted filter.Admits w.page.pageItems := by
  simp only [Page.driftedOut, hfilter, drifted]
  apply congrArg List.length
  apply List.filter_congr
  intro row hrow
  exact decide_eq_decide.mpr (not_congr (admits_iff hfilter (hcovered row hrow)).symm)

lemma driftedOut_le (filter : ListFilter) (p : Page) : p.driftedOut filter ≤ p.pageItems.length := by
  rw [Page.driftedOut]
  split
  · exact Nat.zero_le _
  · exact List.length_filter_le _ _

lemma next_cases (filter : ListFilter) (p : Page) (hsize : p.pageItems.length ≤ pageSize) :
    (p.offset + pageSize - p.driftedOut filter = p.offset ∧ p.next filter = p) ∨
    (p.offset < p.offset + pageSize - p.driftedOut filter ∧
      p.next filter = { p with
        offset := p.offset + pageSize - p.driftedOut filter, loading := true, error := none }) := by
  have hle := driftedOut_le filter p
  by_cases heq : p.offset + pageSize - p.driftedOut filter = p.offset
  · left
    exact ⟨heq, by rw [Page.next, Page.goToOffset, if_pos heq]⟩
  · right
    exact ⟨by omega, by rw [Page.next, Page.goToOffset, if_neg heq]⟩

lemma pressNext_kept (h : Kept filter w) (hopen : w.page.NextEnabled) :
    Kept filter { w with page := w.page.next filter } := by
  obtain ⟨_, _, ⟨items, hdata, _, hfull⟩, hpending⟩ := hopen
  have hflight : w.page.flight = [] := List.map_eq_nil_iff.mp hpending
  have hitems : w.page.pageItems = items := by rw [Page.pageItems, hdata, Option.getD_some]
  obtain ⟨before, live, after, d⟩ := h.display items hdata
  rcases next_cases filter w.page (hitems ▸ d.size) with ⟨_, hsame⟩ | ⟨hlt, hnext⟩
  · rw [hsame]
    exact h
  · rw [hnext]
    refine ⟨h.ids, h.pending, fun _ => ⟨hflight, rfl⟩, h.empty, ?_⟩
    rintro shown hshown
    have hsame : items = shown := Option.some.inj (hdata.symm.trans hshown)
    subst hsame
    refine ⟨before, live, after, d.windowed, d.covered, d.stands.imp (fun _ _ s => ⟨s.1, s.2, s.3⟩),
      d.toggles, d.size, d.offset.imp_right ?_⟩
    rintro ⟨excess, hoffset, _⟩
    refine ⟨w.page.offset + pageSize - w.page.driftedOut filter - before.length, ?_, ?_, nofun⟩
    · show w.page.offset + pageSize - w.page.driftedOut filter = _
      omega
    · intro hzero
      omega

lemma step_kept {act : ListAct} (h : Kept filter w) (hstep : ListStep filter w act w') :
    Kept filter w' := by
  obtain ⟨hallowed, rfl⟩ := hstep
  cases act with
  | answered answer =>
    cases answer with
    | listed => exact listed_kept h hallowed.2.1
    | failed caught => exact loadFailed_kept h hallowed.2 caught
  | toggle recordingId csrfToken => exact toggleChecked_kept h _ csrfToken hallowed
  | save k =>
    obtain ⟨t, ht, _⟩ := hallowed
    rw [World.perform, ht]
    exact save_kept h ht
  | saved k =>
    obtain ⟨_, t, ht, _⟩ := hallowed
    rw [World.perform, ht]
    exact saved_kept h ht
  | refused k caught =>
    obtain ⟨_, t, ht, hsaved⟩ := hallowed
    exact toggleFailed_kept h ht hsaved caught
  | pressNext => exact pressNext_kept h hallowed

lemma run_kept {rows : List ListedRecording} {offset : ℕ} {trail : List (Event World ListAct)}
    (hids : (rows.map (·.id)).Nodup) (hrun : ListRun filter ⟨rows, .mount offset⟩ trail w) :
    Kept filter w :=
  hrun.keeps (Kept filter) (fun _ _ _ => step_kept) (kept_mount hids offset)

end Steps

section Press

variable {filter : ListFilter} {w : World} {items before live after : List ListedRecording}

lemma OnDisplay.live_shown (d : OnDisplay filter w items before live after)
    (hflight : w.page.flight = []) : items = live := by
  have heq : List.Forall₂ (· = ·) items live := by
    apply d.stands.imp
    rintro item row ⟨_, hsame, hsettled⟩
    rcases hsettled with hchecked | ⟨t, ht, _⟩
    · cases item
      cases row
      simp_all
    · rw [hflight] at ht
      cases ht
  rwa [List.forall₂_eq_eq_eq] at heq

structure Ready (filter : ListFilter) (checked : Bool) (w : World) (before after : List ListedRecording) :
    Prop where
  windowed : Windowed Precedes filter.Admits (matchingRecordings filter w.rows) before
    w.page.pageItems after
  full : w.page.pageItems.length = pageSize
  drift : w.page.driftedOut filter = drifted filter.Admits w.page.pageItems
  stayed : drifted filter.Admits w.page.pageItems < pageSize ↔
    ∃ item ∈ w.page.pageItems, item.checked = checked
  offset : ∃ excess, w.page.offset = before.length + excess ∧ (excess = 0 ↔ w.page.error = none)

lemma Kept.ready {checked : Bool} (h : Kept filter w) (hfilter : filter.checked = some checked)
    (hopen : w.page.NextEnabled) : ∃ before after, Ready filter checked w before after := by
  obtain ⟨_, hidle, ⟨items, hdata, _, hfull⟩, hpending⟩ := hopen
  have hitems : w.page.pageItems = items := by rw [Page.pageItems, hdata, Option.getD_some]
  obtain ⟨before, live, after, d⟩ := h.display items hdata
  have hlive := d.live_shown (List.map_eq_nil_iff.mp hpending)
  subst hlive
  subst hitems
  have hlength : w.page.pageItems.length = pageSize := by
    have hsize := d.size
    omega
  refine ⟨before, after, d.windowed, hlength, driftedOut_eq hfilter d.covered, ?_, ?_⟩
  · rw [← hlength, drifted_lt_iff]
    constructor
    · rintro ⟨item, hitem, hadmits⟩
      exact ⟨item, hitem, (admits_iff hfilter (d.covered item hitem)).mp hadmits⟩
    · rintro ⟨item, hitem, hchecked⟩
      exact ⟨item, hitem, (admits_iff hfilter (d.covered item hitem)).mpr hchecked⟩
  · rcases d.offset with hnil | ⟨excess, hoffset, hexcess⟩
    · rw [hnil] at hlength
      cases hlength
    · exact ⟨excess, hoffset, by rw [hexcess]; simp [hidle]⟩

lemma shown_ne (hne : w.page.pageItems ≠ []) : w.page.pageItems ≠ nextToReview filter w := by
  intro heq
  obtain ⟨x, hx⟩ := List.exists_mem_of_ne_nil _ hne
  have hnext : x ∈ nextToReview filter w := heq ▸ hx
  have hfollows := (List.mem_filter.mp (List.mem_of_mem_take hnext)).2
  have hself := of_decide_eq_true hfollows x hx
  exact Std.Asymm.asymm x x hself hself

lemma nextToReview_nil : nextToReview filter w = [] ↔
    following Precedes w.page.pageItems (matchingRecordings filter w.rows) = [] := by
  rw [nextToReview, List.take_eq_nil_iff]
  simp [pageSize]

namespace Ready

variable {checked : Bool} (h : Ready filter checked w before after)

include h

lemma shown : w.page.pageItems ≠ [] := by
  intro hnil
  have hlength := h.full
  rw [hnil] at hlength
  cases hlength

lemma afterNext_stalled (hidle : w.page.loading = false)
    (hdrift : ¬ drifted filter.Admits w.page.pageItems < pageSize) (answer : ListAnswer) :
    w.afterNext filter answer = w := by
  have hle := driftedOut_le filter w.page
  have hfull := h.full
  have hcount := h.drift
  have hnext : w.page.next filter = w.page := by
    rcases next_cases filter w.page (by omega) with ⟨_, hsame⟩ | ⟨hlt, _⟩
    · exact hsame
    · omega
  have hsame : w.perform filter .pressNext = w := by
    rw [World.perform, hnext]
  simp [World.afterNext, hsame, hidle]

lemma afterNext_loads (hdrift : drifted filter.Admits w.page.pageItems < pageSize)
    (answer : ListAnswer) :
    w.afterNext filter answer = ({ w with page := { w.page with
      offset := w.page.offset + (w.page.pageItems.length - drifted filter.Admits w.page.pageItems)
      loading := true
      error := none } } : World).answer filter answer := by
  have hfull := h.full
  have hcount := h.drift
  have hoffset : w.page.offset + pageSize - w.page.driftedOut filter =
      w.page.offset + (w.page.pageItems.length - drifted filter.Admits w.page.pageItems) := by
    omega
  rcases next_cases filter w.page (by omega) with ⟨heq, _⟩ | ⟨_, hnext⟩
  · omega
  · rw [hoffset] at hnext
    rw [World.afterNext, World.perform, hnext]
    rfl

lemma listed_displayed (hleft : w.page.left = false)
    (hdrift : drifted filter.Admits w.page.pageItems < pageSize) :
    (w.afterNext filter .listed).page.displayed = some (nextToReview filter w) ↔
      w.page.error = none ∨ nextToReview filter w = [] := by
  obtain ⟨excess, hoffset, hexcess⟩ := h.offset
  have hpage : page (before.length + excess +
      (w.page.pageItems.length - drifted filter.Admits w.page.pageItems)) pageSize
        (matchingRecordings filter w.rows) = nextToReview filter w ↔ _ :=
    h.windowed.page_eq_following_iff h.shown (by decide) excess
  rw [h.afterNext_loads hdrift, nextToReview_nil, ← hexcess, ← hpage]
  simp [World.answer, Page.displayed, Page.loaded, hleft, Page.pageItems, listRecordings, hoffset,
    nextToReview]

lemma failed_displayed (hleft : w.page.left = false)
    (hdrift : drifted filter.Admits w.page.pageItems < pageSize) (caught : Caught) :
    (w.afterNext filter (.failed caught)).page.displayed ≠ some (nextToReview filter w) := by
  rw [h.afterNext_loads hdrift]
  simp only [World.answer, Page.loadFailed]
  split
  · simp [Page.displayed]
  · intro heq
    rw [Page.displayed, if_neg (by simp [hleft])] at heq
    exact shown_ne h.shown (Option.some.inj heq)

end Ready

/-- In any run, a press of the button to the next page brings up the first rows still to review,
exactly when its list request gets through, a row on display still matches the filter, and no list
request has failed since the rows were loaded, unless there is nothing left to review. -/
theorem next_shows_following {checked : Bool} (hfilter : filter.checked = some checked)
    {rows : List ListedRecording} (hids : (rows.map (·.id)).Nodup) {offset : ℕ}
    {trail : List (Event World ListAct)} (hrun : ListRun filter ⟨rows, .mount offset⟩ trail w)
    (hopen : w.page.NextEnabled) (answer : ListAnswer) :
    (w.afterNext filter answer).page.displayed = some (nextToReview filter w) ↔
      answer = .listed ∧ (∃ item ∈ w.page.pageItems, item.checked = checked) ∧
        (w.page.error = none ∨ nextToReview filter w = []) := by
  obtain ⟨before, after, h⟩ := (run_kept hids hrun).ready hfilter hopen
  obtain ⟨hleft, hidle, _⟩ := hopen
  rw [← h.stayed]
  by_cases hdrift : drifted filter.Admits w.page.pageItems < pageSize
  · cases answer with
    | listed =>
      rw [h.listed_displayed hleft hdrift]
      simp [hdrift]
    | failed caught => simp [h.failed_displayed hleft hdrift caught]
  · rw [h.afterNext_stalled hidle hdrift answer]
    have hstill : w.page.displayed = some w.page.pageItems := by
      simp [Page.displayed, hleft, hidle]
    have hne : w.page.displayed ≠ some (nextToReview filter w) := by
      rw [hstill]
      intro heq
      exact shown_ne h.shown (Option.some.inj heq)
    simp [hne, hdrift]

end Press

section Samples

def sampleRow (n : ℕ) : ListedRecording where
  id := n
  deviceId := []
  sha256 := []
  fileSize := 0
  storageKey := ⟨0, n, []⟩
  startedAt := n
  durationSeconds := 0
  processingStatus := .completed
  checked := false

def unreviewed : ListFilter := ⟨none, none, some false, none⟩

def sampleList : World := ⟨(List.range (pageSize + 1)).map sampleRow, .mount 0⟩

def review (id : RecordingId) : List ListAct := [.toggle id true, .save 0, .saved 0]

def reviewed (ids : List RecordingId) : List ListAct := .answered .listed :: ids.flatMap review

lemma review_run (ids : List RecordingId)
    (h : AllAllowed (fun w act => act.Allowed unreviewed w) (World.perform unreviewed) sampleList
      (reviewed ids)) :
    ListRun unreviewed sampleList (trail (World.perform unreviewed) sampleList (reviewed ids))
      ((reviewed ids).foldl (World.perform unreviewed) sampleList) :=
  run_trail _ _ h

theorem next_after_one_review :
    ∃ events w, ListRun unreviewed sampleList events w ∧
      (nextToReview unreviewed w).map (·.id) = [0] ∧
      (w.afterNext unreviewed .listed).page.displayed = some (nextToReview unreviewed w) := by
  have hrun := review_run [20] (by decide +kernel)
  refine ⟨_, _, hrun, by decide +kernel, ?_⟩
  apply (next_shows_following rfl (by decide +kernel) hrun (by decide +kernel) .listed).mpr
  exact ⟨rfl, by decide +kernel, .inl (by decide +kernel)⟩

theorem next_after_full_review :
    ∃ events w, ListRun unreviewed sampleList events w ∧ w.page.NextEnabled ∧
      w.afterNext unreviewed .listed = w ∧ (nextToReview unreviewed w).map (·.id) = [0] ∧
      (w.afterNext unreviewed .listed).page.displayed ≠ some (nextToReview unreviewed w) := by
  have hrun := review_run ((List.range pageSize).map (pageSize - ·)) (by decide +kernel)
  exact ⟨_, _, hrun, by decide +kernel, by decide +kernel, by decide +kernel, by decide +kernel⟩

end Samples

end AudioServer.Web.ReviewPaging
