import AudioServer.Foundations.Budgets
import AudioServer.Services.Consistency

/-! Batches of lease recovery: how many expired leases a batch takes, which ones, and how many
batches a backlog needs. -/

namespace AudioServer.Services.LeaseRecovery

open AudioServer.Foundations.Outcomes AudioServer.Foundations.Runs AudioServer.Foundations.Budgets
open AudioServer.Db.Models AudioServer.Jobs.Queue AudioServer.Jobs.Effects AudioServer.Jobs.Calls
open AudioServer.Services.Recordings AudioServer.Services.Transactions
open AudioServer.Services.Consistency

def Lapsed (now : Instant) (locked : List JobId) (job : ProcessingJob) : Prop :=
  Expired now job ∧ job.id ∉ locked

instance (now : Instant) (locked : List JobId) (job : ProcessingJob) :
    Decidable (Lapsed now locked job) := inferInstanceAs (Decidable (_ ∧ _))

def lapsed (now : Instant) (locked : List JobId) (db : Database) : List ProcessingJob :=
  db.jobs.filter (Lapsed now locked ·)

def share (now : Instant) (locked : List JobId) (job : ProcessingJob) : ℕ :=
  if Lapsed now locked job then 1 else 0

variable {now : Instant} {locked : List JobId} {rows : JobId → RowDefaults} {db db' : Database}

lemma lapsed_length (now : Instant) (locked : List JobId) (db : Database) :
    (lapsed now locked db).length = (db.jobs.map (share now locked)).sum := by
  rw [lapsed]
  induction db.jobs with
  | nil => rfl
  | cons j js ih =>
    rw [List.map_cons, List.sum_cons, ← ih, share, List.filter_cons]
    by_cases h : Lapsed now locked j
    · simp [h, Nat.add_comm]
    · simp [h]

lemma share_other {job : ProcessingJob} (h : job.status ≠ .processing) : share now locked job = 0 :=
  if_neg (fun hlapsed => h hlapsed.1.1)

lemma handedOn_share {job job' : ProcessingJob} {row : RowDefaults} :
    ((handedOn db.settings job job' row now).map (share now locked)).sum = 0 := by
  rcases handedOn_cases db.settings job job' row now with hnone | ⟨kind, _, _, hone⟩
  · rw [hnone]
    rfl
  · rw [hone, List.map_singleton, List.sum_singleton]
    exact share_other nofun

lemma moves_lapsed {job job' : ProcessingJob} {row : RowDefaults} (hids : UniqueJobIds db)
    (h : Moves db job job' row now db') (hlapsed : Lapsed now locked job)
    (hstatus : job'.status ≠ .processing) :
    (lapsed now locked db').length + 1 = (lapsed now locked db).length := by
  have hsum : (((db.putJob job').jobs).map (share now locked)).sum + share now locked job =
      (db.jobs.map (share now locked)).sum + share now locked job' :=
    sum_replace (share now locked) hids h.stored h.step.same.1
  rw [share_other hstatus, share, if_pos hlapsed] at hsum
  rw [lapsed_length, lapsed_length, h.jobs, List.map_append, List.sum_append, handedOn_share]
  omega

lemma recovers_lapsed {jobs : List ProcessingJob} (hids : UniqueJobIds db)
    (hjobs : ∀ j ∈ jobs, j.id ∉ locked) (h : Recovers rows now db jobs db') :
    (lapsed now locked db').length + jobs.length = (lapsed now locked db).length := by
  induction h with
  | nil => rfl
  | @cons db job job' jobs db₁ db₂ hexp htoken hstatus hmoves _ _ ih =>
    obtain ⟨hfree, hjobs⟩ := List.forall_mem_cons.mp hjobs
    have hmoved : Moved none db db₁ := moves_moved hmoves hexp.1
    have hrest := ih (hmoved.uniqueJobIds hids) hjobs
    have hfirst := moves_lapsed hids hmoves ⟨hexp, hfree⟩ hstatus
    rw [List.length_cons]
    omega

lemma recoverJob_counts {queue : JobQueue} {acc acc' : RecoverySummary × Database}
    {job : ProcessingJob} (h : recoverJob queue now rows acc job = .ok acc') :
    acc'.1.requeued + acc'.1.failed = acc.1.requeued + acc.1.failed + 1 := by
  obtain ⟨again, _, h⟩ := bind_ok h
  cases again with
  | true =>
    obtain ⟨_, _, h⟩ := bind_ok h
    obtain ⟨_, _, h⟩ := bind_ok h
    obtain ⟨_, _, h⟩ := bind_ok h
    cases h
    simp only
    omega
  | false =>
    obtain ⟨_, _, h⟩ := bind_ok h
    obtain ⟨_, _, h⟩ := bind_ok h
    cases h
    simp only
    omega

lemma foldlM_counts {queue : JobQueue} {jobs : List ProcessingJob}
    {acc acc' : RecoverySummary × Database} (h : jobs.foldlM (recoverJob queue now rows) acc = .ok acc') :
    acc'.1.requeued + acc'.1.failed = acc.1.requeued + acc.1.failed + jobs.length := by
  induction jobs generalizing acc with
  | nil =>
    cases h
    rfl
  | cons job jobs ih =>
    rw [List.foldlM_cons] at h
    obtain ⟨acc₁, h₁, h₂⟩ := bind_ok h
    rw [ih h₂, recoverJob_counts h₁, List.length_cons]
    omega

lemma expiredJobs_length (db : Database) (now : Instant) (limit : ℕ) (locked : List JobId) :
    (expiredJobs db now limit locked).length = min limit (lapsed now locked db).length := by
  rw [expiredJobs, List.length_take, List.length_insertionSort]
  rfl

lemma expiryOrder_total (a b : ProcessingJob) : ExpiryOrder a b ∨ ExpiryOrder b a := by
  unfold ExpiryOrder
  cases a.leaseExpiresAt <;> cases b.leaseExpiresAt <;> simp only [or_true, true_or]
  · exact le_total _ _
  · rename_i x y
    rcases lt_trichotomy x y with h | h | h
    · exact .inl (.inl h)
    · rcases le_total a.createdAt b.createdAt with hc | hc
      · exact .inl (.inr ⟨h, hc⟩)
      · exact .inr (.inr ⟨h.symm, hc⟩)
    · exact .inr (.inl h)

lemma expiryOrder_trans {a b c : ProcessingJob} (h : ExpiryOrder a b) (k : ExpiryOrder b c) :
    ExpiryOrder a c := by
  unfold ExpiryOrder at h k ⊢
  cases ha : a.leaseExpiresAt <;> cases hb : b.leaseExpiresAt <;> cases hc : c.leaseExpiresAt <;>
    simp only [ha, hb, hc] at h k ⊢
  · exact h.trans k
  · rcases h with h | ⟨rfl, h⟩ <;> rcases k with k | ⟨rfl, k⟩
    · exact .inl (h.trans k)
    · exact .inl h
    · exact .inl k
    · exact .inr ⟨rfl, h.trans k⟩

instance : Std.Total ExpiryOrder := ⟨expiryOrder_total⟩

instance : IsTrans ProcessingJob ExpiryOrder := ⟨fun _ _ _ => expiryOrder_trans⟩

lemma taken_first {limit : ℕ} {a b : ProcessingJob} (ha : a ∈ expiredJobs db now limit locked)
    (hb : b ∈ lapsed now locked db) (hleft : b ∉ expiredJobs db now limit locked) :
    ExpiryOrder a b := by
  let sorted := (lapsed now locked db).insertionSort ExpiryOrder
  have hsorted : sorted.Pairwise ExpiryOrder := List.pairwise_insertionSort _ _
  rw [← List.take_append_drop limit sorted] at hsorted
  have hmem : b ∈ sorted := (List.mem_insertionSort ExpiryOrder).mpr hb
  rw [← List.take_append_drop limit sorted] at hmem
  exact (List.pairwise_append.mp hsorted).2.2 a ha b ((List.mem_append.mp hmem).resolve_left hleft)

lemma recovers_left {jobs : List ProcessingJob} (h : Recovers rows now db jobs db')
    {b : ProcessingJob} (hb : b ∈ db'.jobs) (hs : b.status = .processing) :
    b ∈ db.jobs ∧ ∀ j ∈ jobs, j.id ≠ b.id := by
  induction h with
  | nil => exact ⟨hb, fun _ hj => absurd hj List.not_mem_nil⟩
  | cons hexp htoken hstatus hmoves _ _ ih =>
    obtain ⟨hmid, hrest⟩ := ih hb
    rcases hmoves.origin hmid with ⟨hold, hne⟩ | rfl | hnew
    · exact ⟨hold, List.forall_mem_cons.mpr ⟨Ne.symm hne, hrest⟩⟩
    · exact absurd hs hstatus
    · obtain ⟨_, _, _, _, rfl⟩ := handedOn_mem hnew
      cases hs

lemma recovers_spares {jobs : List ProcessingJob} (h : Recovers rows now db jobs db')
    {a : ProcessingJob} (ha : a ∈ db.jobs) (hnot : ∀ j ∈ jobs, j.id ≠ a.id) : a ∈ db'.jobs := by
  induction h with
  | nil => exact ha
  | cons hexp htoken hstatus hmoves _ _ ih =>
    obtain ⟨hne, hrest⟩ := List.forall_mem_cons.mp hnot
    exact ih (hmoves.keeps_other ha hne.symm) hrest

structure TakesOldest (now : Instant) (limit : ℕ) (locked : List JobId) (db : Database)
    (summary : RecoverySummary) (db' : Database) : Prop where
  counted : summary.requeued + summary.failed = min limit (lapsed now locked db).length
  left : (lapsed now locked db').length = (lapsed now locked db).length - limit
  oldest : ∀ a ∈ lapsed now locked db, a ∉ db'.jobs → ∀ b ∈ lapsed now locked db', ExpiryOrder a b

lemma recoverExpired_oldest {queue : JobQueue} {limit : ℕ} {summary : RecoverySummary}
    (hids : UniqueJobIds db)
    (h : queue.recoverExpired now limit locked rows db = .ok (summary, db')) :
    TakesOldest now limit locked db summary db' := by
  have hrecovers := recoverExpired_ok hids h
  have hfree : ∀ j ∈ expiredJobs db now limit locked, j ∈ lapsed now locked db := by
    intro j hj
    exact (List.mem_insertionSort ExpiryOrder).mp (List.mem_of_mem_take hj)
  have hlocked : ∀ j ∈ expiredJobs db now limit locked, j.id ∉ locked := by
    intro j hj
    exact (of_decide_eq_true (List.mem_filter.mp (hfree j hj)).2).2
  have hcount := recovers_lapsed hids hlocked hrecovers
  rw [expiredJobs_length] at hcount
  refine ⟨?_, by omega, ?_⟩
  · obtain ⟨_, _, h⟩ := bind_ok h
    have hsum := foldlM_counts h
    rw [expiredJobs_length] at hsum
    simpa using hsum
  · intro a ha hgone b hb
    obtain ⟨hb, hlapsed⟩ := List.mem_filter.mp hb
    have hlapsed := of_decide_eq_true hlapsed
    obtain ⟨hstored, hnot⟩ := recovers_left hrecovers hb hlapsed.1.1
    have htaken : a ∈ expiredJobs db now limit locked := by
      by_contra hspared
      apply hgone
      apply recovers_spares hrecovers (List.mem_of_mem_filter ha)
      intro j hj he
      have hjob := (List.mem_filter.mp (hfree j hj)).1
      exact hspared (List.inj_on_of_nodup_map hids hjob (List.mem_of_mem_filter ha) he ▸ hj)
    exact taken_first htaken (List.mem_filter.mpr ⟨hstored, decide_eq_true hlapsed⟩)
      (fun hmem => hnot b hmem rfl)

/-- One accepted recovery after another, at one time and with no row locked by anyone else. -/
def recoverRounds (now : Instant) (limit : ℕ) :
    List (JobQueue × (JobId → RowDefaults)) → Database → Except Exn Database
  | [], db => .ok db
  | (queue, rows) :: rounds, db => do
    let (_, db) ← queue.recoverExpired now limit [] rows db
    recoverRounds now limit rounds db

lemma recoverRounds_left {limit : ℕ} {rounds : List (JobQueue × (JobId → RowDefaults))}
    (hok : StatusInvariant db) (h : recoverRounds now limit rounds db = .ok db') :
    (lapsed now [] db').length = (lapsed now [] db).length - rounds.length * limit := by
  induction rounds generalizing db with
  | nil =>
    cases h
    simp
  | cons round rounds ih =>
    obtain ⟨⟨summary, db₁⟩, hfirst, h⟩ := bind_ok h
    have hstep : QueueStep db (.recoverExpired round.1 now limit [] round.2) db₁ := by
      rw [QueueStep, QueueCall.exec, hfirst]
      rfl
    have hone := (recoverExpired_oldest hok.jobIds hfirst).left
    rw [ih (queueStep_consistent hstep hok) h, hone, List.length_cons, Nat.succ_mul]
    omega

structure Recovery (db : Database) : Prop where
  batch : ∀ (queue : JobQueue) now limit locked rows summary db',
    queue.recoverExpired now limit locked rows db = .ok (summary, db') →
    TakesOldest now limit locked db summary db'
  backlog : ∀ now limit rounds db', recoverRounds now limit rounds db = .ok db' →
    (lapsed now [] db).length ≤ rounds.length * limit → ∀ j ∈ db'.jobs, ¬ Expired now j

theorem recovery_clears_backlog {settings : Option ProcessingSettings}
    {es : List (Event Database ServerCall)} (hrun : ServerRun (Database.empty settings) es db) :
    Recovery db := by
  have hok := serverRun_consistent hrun (empty_consistent settings)
  refine ⟨?_, ?_⟩
  · intro queue now limit locked rows summary db' h
    exact recoverExpired_oldest hok.jobIds h
  · intro now limit rounds db' h hle j hj hexpired
    have hleft := recoverRounds_left hok h
    rw [Nat.sub_eq_zero_of_le hle, List.length_eq_zero_iff, lapsed, List.filter_eq_nil_iff] at hleft
    exact hleft j hj (decide_eq_true ⟨hexpired, List.not_mem_nil⟩)

def uploadAt (id : RecordingId) (now : Instant) : ServerCall :=
  .create exampleService { exampleRecording with
    id := id
    sha256 := List.replicate id 'a'
    storageKey := ⟨0, id, "wav".toList⟩ } ⟨id, now⟩ now

def claimAt (token : ClaimToken) (now : Instant) : ServerCall :=
  .queue (.claimNext exampleWorker now token none [])

def claimedCalls : List ServerCall :=
  [uploadAt 1 0, uploadAt 2 1, uploadAt 3 2, claimAt 7 3, claimAt 8 4, claimAt 9 5]

def execute (db : Database) (call : ServerCall) : Database := settled db (call.exec db)

lemma executed_run (calls : List ServerCall) (db : Database) :
    ServerRun db (trail execute db calls) (calls.foldl execute db) := by
  induction calls generalizing db with
  | nil => exact .nil db
  | cons call calls ih => exact .cons rfl (ih _)

theorem recovery_clears_backlog_claimed :
    let db := claimedCalls.foldl execute (Database.empty none)
    (lapsed 90 [] db).map (·.id) = [1, 2, 3] ∧ Recovery db ∧
      (settled db (exampleWorker.recoverExpired 90 1 [] (fun _ => ⟨4, 90⟩) db)).jobs.countP
        (Expired 90 ·) = 2 ∧
      ((recoverRounds 90 1 (List.replicate 3 (exampleWorker, fun _ => ⟨4, 90⟩)) db).map
        (fun db => db.jobs.countP (Expired 90 ·))).toOption = some 0 := by
  intro db
  exact ⟨by decide +kernel, recovery_clears_backlog (executed_run claimedCalls _), by decide +kernel,
    by decide +kernel⟩

end AudioServer.Services.LeaseRecovery
