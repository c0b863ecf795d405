import AudioServer.Foundations.Stepping
import AudioServer.Web.RecordingsPage

/-! The recordings on either side of one, against the order of the list. -/

namespace AudioServer.Web.Neighbours

open AudioServer.Foundations.Dicts AudioServer.Foundations.Outcomes AudioServer.Foundations.Paging
open AudioServer.Foundations.Stepping
open AudioServer.Db.Models AudioServer.Services.Recordings AudioServer.Services.Daily
open AudioServer.Web.RecordingsPage

def OldestFirst (a b : ListedRecording) : Prop := ListOrder a.toRecording b.toRecording

instance : DecidableRel OldestFirst := fun a b =>
  inferInstanceAs (Decidable (ListOrder a.toRecording b.toRecording))

def Earlier (recording row : ListedRecording) : Prop :=
  row.startedAt < recording.startedAt ∨
    (row.startedAt = recording.startedAt ∧ row.id < recording.id)

def Later (recording row : ListedRecording) : Prop :=
  row.startedAt > recording.startedAt ∨
    (row.startedAt = recording.startedAt ∧ row.id > recording.id)

instance (recording row : ListedRecording) : Decidable (Earlier recording row) :=
  inferInstanceAs (Decidable (_ ∨ _))

instance (recording row : ListedRecording) : Decidable (Later recording row) :=
  inferInstanceAs (Decidable (_ ∨ _))

def getNeighbours (id : RecordingId) (rows : List ListedRecording) :
    Except Exn (Option RecordingId × Option RecordingId) := do
  let recording ← found (rows.find? (fun r => r.id = id)) recordingNotFound
  let earlier := ((rows.filter (Earlier recording ·)).insertionSort NewestFirst).head?.map (·.id)
  let later := ((rows.filter (Later recording ·)).insertionSort OldestFirst).head?.map (·.id)
  .ok (earlier, later)

def listing (rows : List ListedRecording) : List ListedRecording :=
  listRecordings rows.length 0 ⟨none, none, none, none⟩ rows

def earlierOf (rows : List ListedRecording) (id : RecordingId) : Option RecordingId :=
  (getNeighbours id rows).toOption.bind (·.1)

def laterOf (rows : List ListedRecording) (id : RecordingId) : Option RecordingId :=
  (getNeighbours id rows).toOption.bind (·.2)

section Order

variable {rows before after : List ListedRecording} {r a b : ListedRecording}

instance : Std.Total OldestFirst where
  total a b := Std.Total.total (r := ListOrder) a.toRecording b.toRecording

instance : IsTrans ListedRecording OldestFirst where
  trans _ _ _ hab hbc := IsTrans.trans (r := ListOrder) _ _ _ hab hbc

lemma later_iff : Later a b ↔ Precedes b a := or_congr Iff.rfl (and_congr_left' eq_comm)

lemma listing_sorted (rows : List ListedRecording) : listing rows = rows.insertionSort NewestFirst := by
  have hall : rows.filter (fun row =>
      decide ((⟨none, none, none, none⟩ : ListFilter).Admits row)) = rows :=
    List.filter_eq_self.mpr (fun row _ => by simp [ListFilter.Admits, ListFilter.Covers])
  rw [listing, listRecordings, page, matchingRecordings, hall, List.drop_zero]
  exact List.take_of_length_le (List.length_insertionSort NewestFirst rows).le

lemma listing_perm (rows : List ListedRecording) : (listing rows).Perm rows := by
  rw [listing_sorted]
  exact List.perm_insertionSort NewestFirst rows

lemma listing_ordered (hids : (rows.map (·.id)).Nodup) : (listing rows).Pairwise Precedes := by
  rw [listing_sorted]
  exact newest_ordered hids

lemma oldest_ordered (hids : (rows.map (·.id)).Nodup) :
    (rows.insertionSort OldestFirst).Pairwise (fun a b => Precedes b a) := by
  have hsorted := List.pairwise_insertionSort OldestFirst rows
  have hdistinct : (rows.insertionSort OldestFirst).Pairwise (fun a b => a.id ≠ b.id) :=
    (List.pairwise_map.mp hids).perm (List.perm_insertionSort OldestFirst _).symm Ne.symm
  exact hsorted.imp₂ (fun _ _ h hid => precedes_of_newest h hid.symm) hdistinct

lemma getNeighbours_around (hids : (rows.map (·.id)).Nodup) (h : listing rows = before ++ r :: after) :
    getNeighbours r.id rows = .ok (after.head?.map (·.id), before.getLast?.map (·.id)) := by
  have hordered := listing_ordered hids
  have hperm := listing_perm rows
  have hr : r ∈ rows := hperm.mem_iff.mp (h ▸ List.mem_append_right _ List.mem_cons_self)
  rw [h] at hordered hperm
  have hbelow : (rows.filter (Earlier r ·)).insertionSort NewestFirst = after := by
    have hselected := (hperm.symm.filter (fun row => decide (Precedes r row)))
    rw [filter_after hordered] at hselected
    refine perm_ordered_eq ((List.perm_insertionSort NewestFirst _).trans hselected)
      (newest_ordered (hids.sublist ((List.filter_sublist).map _))) ?_
    exact (List.pairwise_cons.mp (List.pairwise_append.mp hordered).2.1).2
  have habove : (rows.filter (Later r ·)).insertionSort OldestFirst = before.reverse := by
    have hselected := (hperm.symm.filter (fun row => decide (Precedes row r)))
    rw [filter_before hordered] at hselected
    have hlater : rows.filter (fun row => decide (Later r row)) =
        rows.filter (fun row => decide (Precedes row r)) :=
      List.filter_congr (fun row _ => decide_eq_decide.mpr later_iff)
    have hasymm : Std.Asymm (fun a b => Precedes b a) := ⟨fun a b => Std.Asymm.asymm b a⟩
    rw [hlater]
    refine perm_ordered_eq (r := fun a b => Precedes b a)
      (((List.perm_insertionSort OldestFirst _).trans hselected).trans (List.reverse_perm before).symm)
      (oldest_ordered (hids.sublist ((List.filter_sublist).map _))) ?_
    exact List.pairwise_reverse.mpr (List.pairwise_append.mp hordered).1
  rw [getNeighbours, find_key hids hr, found_some, ok_bind, hbelow, habove, List.head?_reverse]

lemma laterOf_around (hids : (rows.map (·.id)).Nodup) (h : listing rows = before ++ r :: after) :
    laterOf rows r.id = before.getLast?.map (·.id) := by
  rw [laterOf, getNeighbours_around hids h]
  rfl

lemma earlierOf_around (hids : (rows.map (·.id)).Nodup) (h : listing rows = before ++ r :: after) :
    earlierOf rows r.id = after.head?.map (·.id) := by
  rw [earlierOf, getNeighbours_around hids h]
  rfl

lemma listing_around (hr : r ∈ rows) : ∃ before after, listing rows = before ++ r :: after :=
  List.append_of_mem ((listing_perm rows).mem_iff.mpr hr)

lemma adjacent_iff (hids : (rows.map (·.id)).Nodup) (ha : a ∈ rows) (hb : b ∈ rows) :
    (earlierOf rows a.id = some b.id ↔ ∃ before after, listing rows = before ++ a :: b :: after) ∧
      (laterOf rows b.id = some a.id ↔ ∃ before after, listing rows = before ++ a :: b :: after) := by
  have hmem : ∀ r, r ∈ listing rows → r ∈ rows := fun r => (listing_perm rows).mem_iff.mp
  constructor
  · constructor
    · intro h
      obtain ⟨before, after, hsplit⟩ := listing_around ha
      rw [earlierOf_around hids hsplit] at h
      obtain ⟨c, hc, hid⟩ := Option.map_eq_some_iff.mp h
      obtain ⟨rest, rfl⟩ := List.head?_eq_some_iff.mp hc
      have hcb : c = b := List.inj_on_of_nodup_map hids (hmem c (by simp [hsplit])) hb hid
      exact ⟨before, rest, hcb ▸ hsplit⟩
    · rintro ⟨before, after, hsplit⟩
      rw [earlierOf_around hids hsplit]
      rfl
  · constructor
    · intro h
      obtain ⟨before, after, hsplit⟩ := listing_around hb
      rw [laterOf_around hids hsplit] at h
      obtain ⟨c, hc, hid⟩ := Option.map_eq_some_iff.mp h
      obtain ⟨front, rfl⟩ := List.getLast?_eq_some_iff.mp hc
      have hca : c = a := List.inj_on_of_nodup_map hids (hmem c (by simp [hsplit])) ha hid
      refine ⟨front, after, ?_⟩
      rw [hsplit, hca, List.append_assoc]
      rfl
    · rintro ⟨before, after, hsplit⟩
      rw [List.append_cons] at hsplit
      rw [laterOf_around hids hsplit, List.getLast?_concat]
      rfl

lemma climb (hids : (rows.map (·.id)).Nodup) {last : ListedRecording}
    (hlast : (listing rows).getLast? = some last) {steps : ℕ} (hsteps : rows.length ≤ steps) :
    follow (laterOf rows) steps last.id = ((listing rows).map (·.id)).reverse := by
  obtain ⟨front, hfront⟩ := List.getLast?_eq_some_iff.mp hlast
  have hclimb : ((listing rows).map (·.id)).reverse = last.id :: (front.map (·.id)).reverse := by
    rw [hfront, List.map_append, List.reverse_append]
    rfl
  rw [hclimb]
  apply follow_chain
  · rw [← hclimb, List.isChain_reverse, List.isChain_map]
    apply List.isChain_iff_forall_rel_of_append_cons_cons.mpr
    intro a b before after hsplit
    have ha : a ∈ rows := (listing_perm rows).mem_iff.mp (by simp [hsplit])
    have hb : b ∈ rows := (listing_perm rows).mem_iff.mp (by simp [hsplit])
    exact (adjacent_iff hids ha hb).2.mpr ⟨before, after, hsplit⟩
  · intro id hid
    rw [← hclimb, List.getLast?_reverse, List.head?_map] at hid
    obtain ⟨top, htop, rfl⟩ := Option.map_eq_some_iff.mp hid
    obtain ⟨rest, hrest⟩ := List.head?_eq_some_iff.mp htop
    have hsplit : listing rows = [] ++ top :: rest := hrest
    rw [laterOf_around hids hsplit]
    rfl
  · have hlength := (listing_perm rows).length_eq
    rw [hfront, List.length_append] at hlength
    simp only [List.length_reverse, List.length_map]
    omega

end Order

theorem stepping_follows_list {rows : List ListedRecording} (hids : (rows.map (·.id)).Nodup) :
    (∀ (i : ℕ) (r : ListedRecording), (listing rows)[i]? = some r →
      getNeighbours r.id rows = .ok ((listing rows)[i + 1]?.map (·.id),
        if i = 0 then none else (listing rows)[i - 1]?.map (·.id))) ∧
    (∀ r ∈ rows, ∃ i : ℕ, (listing rows)[i]? = some r) ∧
    (∀ last, (listing rows).getLast? = some last → ∀ steps, rows.length ≤ steps →
      (follow (laterOf rows) steps last.id).Nodup ∧
      (follow (laterOf rows) steps last.id).Perm (rows.map (·.id))) ∧
    ∀ a ∈ rows, ∀ b ∈ rows, earlierOf rows a.id = some b.id ↔ laterOf rows b.id = some a.id := by
  refine ⟨?_, ?_, ?_, ?_⟩
  · intro i r hr
    obtain ⟨hi, hri⟩ := List.getElem?_eq_some_iff.mp hr
    have hsplit : listing rows = (listing rows).take i ++ r :: (listing rows).drop (i + 1) := by
      rw [← hri, List.cons_getElem_drop_succ, List.take_append_drop]
    have habove : ((listing rows).take i).getLast?.map (·.id) =
        if i = 0 then none else (listing rows)[i - 1]?.map (·.id) := by
      rw [List.getLast?_take, apply_ite (Option.map _), Option.map_none]
      have hlast : (listing rows)[i - 1]? = some (listing rows)[i - 1] :=
        List.getElem?_eq_getElem (by omega)
      rw [hlast, Option.some_or]
    rw [getNeighbours_around hids hsplit, List.head?_drop, habove]
  · intro r hr
    exact List.mem_iff_getElem?.mp ((listing_perm rows).mem_iff.mpr hr)
  · intro last hlast steps hsteps
    rw [climb hids hlast hsteps]
    have hperm := (List.reverse_perm ((listing rows).map (·.id))).trans ((listing_perm rows).map _)
    exact ⟨hperm.nodup_iff.mpr hids, hperm⟩
  · intro a ha b hb
    obtain ⟨hearlier, hlater⟩ := adjacent_iff hids ha hb
    rw [hearlier, hlater]

def tiedRow (id : RecordingId) (startedAt : ℕ) : ListedRecording where
  id := id
  deviceId := []
  sha256 := []
  fileSize := 0
  storageKey := ⟨0, id, []⟩
  startedAt := startedAt
  durationSeconds := 0
  processingStatus := .completed
  checked := false

def tiedRows : List ListedRecording := [tiedRow 2 5, tiedRow 4 5, tiedRow 3 1, tiedRow 1 5]

theorem stepping_follows_list_tied :
    getNeighbours 2 tiedRows = .ok (some 1, some 4) ∧
      (follow (laterOf tiedRows) 4 3).Perm [2, 4, 3, 1] ∧
      (earlierOf tiedRows 2 = some 1 ↔ laterOf tiedRows 1 = some 2) := by
  obtain ⟨hneighbours, _, hvisits, hinverse⟩ :=
    stepping_follows_list (show (tiedRows.map (·.id)).Nodup by decide)
  exact ⟨hneighbours 1 (tiedRow 2 5) rfl, (hvisits (tiedRow 3 1) rfl 4 le_rfl).2,
    hinverse (tiedRow 2 5) (by simp [tiedRows]) (tiedRow 1 5) (by simp [tiedRows])⟩

end AudioServer.Web.Neighbours
