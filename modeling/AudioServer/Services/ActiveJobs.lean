import AudioServer.Foundations.Grouping
import AudioServer.Foundations.Priorities
import AudioServer.Services.Consistency

/-! The queue view: the unfinished jobs in the order a worker would claim them. -/

namespace AudioServer.Services.ActiveJobs

open AudioServer.Foundations.Outcomes AudioServer.Foundations.Sorting
open AudioServer.Foundations.Grouping AudioServer.Foundations.Priorities
open AudioServer.Db.Models AudioServer.Jobs.Queue AudioServer.Jobs.Effects
open AudioServer.Services.Consistency

/-- `ORDER BY status != 'processing', available_at, created_at, id`. -/
def ViewOrder (a b : ProcessingJob) : Prop :=
  (a.status = .processing ∧ b.status ≠ .processing) ∨
    ((a.status = .processing ↔ b.status = .processing) ∧ ClaimOrder a b)

instance : DecidableRel ViewOrder := fun _ _ => inferInstanceAs (Decidable (_ ∨ _))

def activeRows (db : Database) (kind : Option JobKind) : List (Recording × ProcessingJob) :=
  db.recordings.flatMap fun recording =>
    (db.jobs.filter (fun j => j.recordingId = some recording.id ∧ j.active ∧
      ∀ k ∈ kind, j.kind = k)).map (recording, ·)

def listActiveJobs (limit : ℕ) (kind : Option JobKind) (db : Database) :
    List (Recording × ProcessingJob) :=
  ((activeRows db kind).insertionSort (fun a b => ViewOrder a.2 b.2)).take limit

def countActiveJobs (db : Database) : ℕ × ℕ :=
  (db.jobs.countP (·.status = .processing), db.jobs.countP (·.status = .queued))

def claimKey (job : ProcessingJob) : ℤ ×ₗ ℤ ×ₗ ℕ :=
  toLex (job.availableAt, toLex (job.createdAt, job.id))

def viewKey (job : ProcessingJob) : Bool ×ₗ ℤ ×ₗ ℤ ×ₗ ℕ :=
  toLex (decide (job.status ≠ .processing), claimKey job)

lemma claimOrder_iff (a b : ProcessingJob) : ClaimOrder a b ↔ claimKey a ≤ claimKey b := by
  simp only [claimKey, Prod.Lex.toLex_le_toLex, ClaimOrder]

lemma viewOrder_iff (a b : ProcessingJob) : ViewOrder a b ↔ viewKey a ≤ viewKey b := by
  simp only [viewKey, Prod.Lex.toLex_le_toLex, ViewOrder, claimOrder_iff]
  by_cases ha : a.status = .processing <;> by_cases hb : b.status = .processing <;> simp [ha, hb]

lemma claimKey_distinct {jobs : List ProcessingJob} (hids : (jobs.map (·.id)).Nodup) :
    Distinct claimKey jobs := by
  intro a ha b hb h
  have hid : a.id = b.id := congrArg (fun k => (ofLex (ofLex k).2).2) h
  exact List.inj_on_of_nodup_map hids ha hb hid

lemma viewKey_distinct {jobs : List ProcessingJob} (hids : (jobs.map (·.id)).Nodup) :
    Distinct viewKey jobs := by
  intro a ha b hb h
  exact claimKey_distinct hids a ha b hb (congrArg (fun k => (ofLex k).2) h)

section Listing

variable {db : Database} {kind : JobKind}

def unfinished (db : Database) (kind : JobKind) : List ProcessingJob :=
  db.jobs.filter (fun j => j.active ∧ j.kind = kind)

lemma unfinished_ids (hok : StatusInvariant db) (kind : JobKind) :
    ((unfinished db kind).map (·.id)).Nodup := hok.jobIds.sublist (List.filter_sublist.map _)

lemma activeRows_perm (hok : StatusInvariant db) (hkind : kind ≠ .dailySummary) :
    ((activeRows db (some kind)).map Prod.snd).Perm (unfinished db kind) := by
  have hgathered : (activeRows db (some kind)).map Prod.snd =
      (db.recordings.map (fun r => some r.id)).flatMap fun scope =>
        (unfinished db kind).filter (fun j => j.recordingId = scope) := by
    rw [activeRows, List.map_flatMap, List.flatMap_map]
    apply List.flatMap_congr
    intro recording _
    rw [List.map_map, unfinished, List.filter_filter]
    refine (List.map_id _).trans (List.filter_congr ?_)
    intro j _
    simp
  have hids : (db.recordings.map (fun r => some r.id)).Nodup := by
    have hsome := hok.recordingIds.map (Option.some_injective _)
    rwa [List.map_map] at hsome
  rw [hgathered]
  apply flatMap_filter_self hids
  intro j hj
  obtain ⟨hj, hactive⟩ := List.mem_filter.mp hj
  cases hid : j.recordingId with
  | none => exact absurd ((hok.rows j hj).kindScope hid) ((of_decide_eq_true hactive).2 ▸ hkind)
  | some id =>
    obtain ⟨r, hr, hr'⟩ := List.mem_map.mp (hok.references j hj id hid)
    exact List.mem_map.mpr ⟨r, hr, congrArg some hr'⟩

lemma listed_jobs (hok : StatusInvariant db) (hkind : kind ≠ .dailySummary) (limit : ℕ) :
    (listActiveJobs limit (some kind) db).map Prod.snd =
      ((unfinished db kind).insertionSort ViewOrder).take limit := by
  have hmap := List.map_insertionSort (r := fun a b : Recording × ProcessingJob => ViewOrder a.2 b.2)
    (s := ViewOrder) Prod.snd (activeRows db (some kind)) (fun _ _ _ _ => Iff.rfl)
  have hsort := sort_unique viewOrder_iff (viewKey_distinct (unfinished_ids hok kind))
    ((List.perm_insertionSort ViewOrder _).trans (activeRows_perm hok hkind))
    (sort_ordered viewOrder_iff _)
  rw [listActiveJobs, List.map_take, hmap, hsort]

end Listing

end AudioServer.Services.ActiveJobs
