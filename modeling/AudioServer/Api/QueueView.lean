import AudioServer.Foundations.Grouping
import AudioServer.Services.ActiveJobs
import AudioServer.Worker.Invariant
import Mathlib.Data.List.Perm.Basic

/-! The queue route: the listed jobs of each kind beside the totals of all. -/

namespace AudioServer.Api.QueueView

open AudioServer.Foundations.Runs AudioServer.Foundations.Grouping
open AudioServer.Db.Models AudioServer.Jobs.Queue AudioServer.Services.Consistency
open AudioServer.Services.Transactions AudioServer.Services.ActiveJobs
open AudioServer.Worker.System AudioServer.Worker.Invariant

structure QueueEntryResponse where
  recordingId : RecordingId
  job : ProcessingJob
deriving DecidableEq

structure QueueResponse where
  items : List QueueEntryResponse
  processing : ℕ
  queued : ℕ
deriving DecidableEq

def listedKinds : List JobKind := [.full, .analysis, .translation]

def readQueue (limit : ℕ) (db : Database) : QueueResponse :=
  let rows := listedKinds.flatMap (fun kind => listActiveJobs limit (some kind) db)
  let (processing, queued) := countActiveJobs db
  { items := rows.map (fun row => ⟨row.1.id, row.2⟩)
    processing := processing
    queued := queued }

structure Accounts (limit : ℕ) (db : Database) : Prop where
  listed : ∀ j ∈ db.jobs, j.active → (readQueue limit db).items.countP (fun i => i.job.id = j.id) = 1
  processing : (readQueue limit db).processing =
    (readQueue limit db).items.countP (fun i => i.job.status = .processing)
  queued : (readQueue limit db).queued =
    (readQueue limit db).items.countP (fun i => i.job.status = .queued)

section Items

variable {db : Database} {limit : ℕ}

def listable (db : Database) : List ProcessingJob :=
  db.jobs.filter (fun j => j.active ∧ j.kind ≠ .dailySummary)

lemma listable_kind (db : Database) {kind : JobKind} (hkind : kind ∈ listedKinds) :
    (listable db).filter (fun j => j.kind = kind) = unfinished db kind := by
  rw [listable, unfinished, List.filter_filter]
  apply List.filter_congr
  intro j _
  rw [Bool.eq_iff_iff]
  simp only [listedKinds, List.mem_cons, List.not_mem_nil, or_false] at hkind
  rcases hkind with rfl | rfl | rfl <;> simp only [decide_eq_true_eq, Bool.and_eq_true] <;> grind

lemma items_jobs (hok : StatusInvariant db) (hroom : ∀ kind, (unfinished db kind).length ≤ limit) :
    ((readQueue limit db).items.map (·.job)).Perm (listable db) := by
  have hrows : ∀ kind ∈ listedKinds, ((listActiveJobs limit (some kind) db).map Prod.snd).Perm
      ((listable db).filter (fun j => j.kind = kind)) := by
    intro kind hkind
    have hrecording : kind ≠ .dailySummary := by
      rintro rfl
      exact absurd hkind (by decide)
    rw [listable_kind db hkind, listed_jobs hok hrecording, List.take_of_length_le]
    · exact List.perm_insertionSort ViewOrder _
    · rw [List.length_insertionSort]
      exact hroom kind
  have hitems : (readQueue limit db).items.map (·.job) =
      listedKinds.flatMap (fun kind => (listActiveJobs limit (some kind) db).map Prod.snd) := by
    show ((listedKinds.flatMap _).map _).map _ = _
    rw [List.map_map, List.map_flatMap]
    rfl
  have hkinds : ∀ j ∈ listable db, j.kind ∈ listedKinds := by
    intro j hj
    have hrecording := (of_decide_eq_true (List.mem_filter.mp hj).2).2
    cases hk : j.kind with
    | dailySummary => exact absurd hk hrecording
    | _ => decide
  rw [hitems]
  exact (List.Perm.flatMap_left _ hrows).trans
    (flatMap_filter_self (show listedKinds.Nodup by decide) ProcessingJob.kind hkinds)

lemma items_countP (hok : StatusInvariant db) (hroom : ∀ kind, (unfinished db kind).length ≤ limit)
    (p : ProcessingJob → Bool) :
    (readQueue limit db).items.countP (fun i => p i.job) = (listable db).countP p := by
  rw [← (items_jobs hok hroom).countP_eq, List.countP_map]
  rfl

lemma countP_id {jobs : List ProcessingJob} (hids : (jobs.map (·.id)).Nodup) (j : ProcessingJob)
    (hj : j ∈ jobs) : jobs.countP (fun i => i.id = j.id) = 1 := by
  have hcount := List.count_eq_one_of_mem hids (List.mem_map.mpr ⟨j, hj, rfl⟩)
  rw [List.count_eq_countP, List.countP_map] at hcount
  exact hcount

end Items

theorem queue_accounts_iff {settings : Option ProcessingSettings} {w : World}
    {es : List (Event World Act)} (hrun : WorldRun (World.init settings) es w) {limit : ℕ}
    (hroom : ∀ kind, (unfinished w.db kind).length ≤ limit) :
    Accounts limit w.db ↔ ∀ j ∈ w.db.jobs, j.active → j.kind ≠ .dailySummary := by
  have hok := (run_invariant hrun).statuses
  constructor
  · intro h j hj hactive hday
    have hone := h.listed j hj hactive
    rw [items_countP hok hroom (fun i => i.id = j.id)] at hone
    obtain ⟨i, hi, hid⟩ := List.countP_pos_iff.mp (hone ▸ Nat.one_pos)
    obtain ⟨hi, hlisted⟩ := List.mem_filter.mp hi
    have hsame := List.inj_on_of_nodup_map hok.jobIds hi hj (of_decide_eq_true hid)
    exact (of_decide_eq_true hlisted).2 (hsame ▸ hday)
  · intro h
    have hall : listable w.db = w.db.jobs.filter (·.active) := by
      apply List.filter_congr
      intro j hj
      rw [Bool.eq_iff_iff, decide_eq_true_eq]
      exact ⟨fun hlisted => hlisted.1, fun hactive => ⟨hactive, h j hj hactive⟩⟩
    have htotal : ∀ status : JobStatus, status.active → (listable w.db).countP (·.status = status) =
        w.db.jobs.countP (·.status = status) := by
      intro status hactive
      rw [hall, List.countP_filter]
      apply List.countP_congr
      intro j _
      rw [Bool.and_eq_true, decide_eq_true_eq]
      exact ⟨fun hj => hj.1, fun hj => ⟨hj, by rw [ProcessingJob.active, hj, hactive]⟩⟩
    refine ⟨?_, ?_, ?_⟩
    · intro j hj hactive
      rw [items_countP hok hroom (fun i => i.id = j.id), hall]
      refine countP_id (hok.jobIds.sublist (List.filter_sublist.map _)) j ?_
      exact List.mem_filter.mpr ⟨hj, hactive⟩
    · rw [items_countP hok hroom (·.status = .processing)]
      exact (htotal .processing rfl).symm
    · rw [items_countP hok hroom (·.status = .queued)]
      exact (htotal .queued rfl).symm

def uploadAt (id : RecordingId) (now : Instant) : Act :=
  .server (.create exampleService { exampleRecording with
    id := id
    sha256 := List.replicate id 'a'
    storageKey := ⟨0, id, "wav".toList⟩ } ⟨id, now⟩ now)

def busyActs : List Act :=
  [uploadAt 1 0, uploadAt 2 1, uploadAt 3 2, .server (.queue (.claimNext exampleWorker 5 7 none []))]

theorem upload_accounted :
    let w := busyActs.foldl perform (World.init none)
    Accounts 50 w.db ∧
      (readQueue 50 w.db).items.map (fun i => (i.job.id, i.job.status)) =
        [(1, .processing), (2, .queued), (3, .queued)] ∧
      (readQueue 50 w.db).processing = 1 ∧ (readQueue 50 w.db).queued = 2 := by
  intro w
  have hclaims : ∀ c ∈ ([uploadAt 1 0, uploadAt 2 1, uploadAt 3 2].foldl perform
      (World.init none)).claims, c.claimToken ≠ 7 := by decide +kernel
  have hrun : WorldRun (World.init none) (trail perform (World.init none) busyActs) w :=
    run_trail Act.Allowed perform ⟨trivial, trivial, trivial, hclaims, trivial⟩
  have hroom : ∀ kind, (unfinished w.db kind).length ≤ 50 := by
    intro kind
    exact (List.length_filter_le _ _).trans (by decide +kernel)
  exact ⟨(queue_accounts_iff hrun hroom).mpr (by decide +kernel), by decide +kernel,
    by decide +kernel, by decide +kernel⟩

theorem day_summary_not_listed :
    let summary := Act.server (.dailySummary 0 3 0 ⟨1, 0⟩)
    let w := perform (World.init none) summary
    WorldRun (World.init none) [⟨World.init none, summary, w⟩] w ∧
      (∀ kind, (unfinished w.db kind).length ≤ 50) ∧
      readQueue 50 w.db = ⟨[], 0, 1⟩ ∧ ¬ Accounts 50 w.db := by
  intro summary w
  have hread : readQueue 50 w.db = ⟨[], 0, 1⟩ := by decide
  refine ⟨.single ⟨trivial, rfl⟩, ?_, hread, ?_⟩
  · intro kind
    exact (List.length_filter_le _ _).trans (by decide)
  · intro h
    have htotal := h.queued
    rw [hread] at htotal
    cases htotal

end AudioServer.Api.QueueView
