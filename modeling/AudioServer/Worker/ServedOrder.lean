import AudioServer.Services.ActiveJobs
import AudioServer.Worker.Invariant

/-! The listed jobs of one kind against the order in which workers claim them. -/

namespace AudioServer.Worker.ServedOrder

open AudioServer.Foundations.Outcomes AudioServer.Foundations.Sorting AudioServer.Foundations.Runs
open AudioServer.Foundations.Priorities
open AudioServer.Db.Models AudioServer.Activity.Repository AudioServer.Jobs.Queue
open AudioServer.Jobs.Effects AudioServer.Jobs.Calls AudioServer.Services.Consistency
open AudioServer.Services.Recordings AudioServer.Services.Transactions
open AudioServer.Services.ActiveJobs AudioServer.Worker.System AudioServer.Worker.Invariant

def waiting (db : Database) (kind : JobKind) : List ProcessingJob :=
  (db.jobs.filter (fun j => j.status = .queued ∧ j.kind = kind)).insertionSort ClaimOrder

def listedQueued (limit : ℕ) (kind : JobKind) (db : Database) : List ProcessingJob :=
  ((listActiveJobs limit (some kind) db).map Prod.snd).filter (·.status = .queued)

structure ClaimCall where
  queue : JobQueue
  now : Instant
  token : ClaimToken

def claimEach (kind : JobKind) : List ClaimCall → Database →
    Except Exn (List (Option ClaimedJob) × Database)
  | [], db => .ok ([], db)
  | call :: calls, db => do
    let (claim, db) ← call.queue.claimNext call.now call.token (some [kind]) [] db
    let (claims, db) ← claimEach kind calls db
    .ok (claim :: claims, db)

/-- The queued jobs of the view are claimed in listed order, by calls that each come when the job
whose turn it is has become available. -/
def TakesInOrder (limit : ℕ) (kind : JobKind) (db : Database) : Prop :=
  ∀ calls, List.Forall₂ (fun (job : ProcessingJob) (call : ClaimCall) => job.availableAt ≤ call.now)
      ((listedQueued limit kind db).take calls.length) calls →
    ∃ claims db', claimEach kind calls db = .ok (claims, db') ∧
      claims.map (Option.map (·.id)) =
        ((listedQueued limit kind db).take calls.length).map (fun job => some job.id)

/-- The next claim takes the first queued job of the view if it is available, and none otherwise. -/
def TakesFirst (limit : ℕ) (kind : JobKind) (db : Database) : Prop :=
  ∀ (queue : JobQueue) (now : Instant) (token : ClaimToken), ∃ claim db',
    queue.claimNext now token (some [kind]) [] db = .ok (claim, db') ∧
      claim.map (·.id) =
        ((listedQueued limit kind db).head?.filter (fun j => j.availableAt ≤ now)).map (·.id)

section View

variable {db : Database} {kind : JobKind}

lemma waiting_distinct (hok : StatusInvariant db) (p : ProcessingJob → Bool) :
    Distinct claimKey (db.jobs.filter p) := (claimKey_distinct hok.jobIds).filter p

lemma queued_of_unfinished (db : Database) (kind : JobKind) :
    (unfinished db kind).filter (·.status = .queued) =
      db.jobs.filter (fun j => j.status = .queued ∧ j.kind = kind) := by
  rw [unfinished, List.filter_filter]
  apply List.filter_congr
  intro j _
  cases hs : j.status <;> simp [ProcessingJob.active, JobStatus.active, hs]

lemma view_waiting (hok : StatusInvariant db) (kind : JobKind) :
    ((unfinished db kind).insertionSort ViewOrder).filter (·.status = .queued) = waiting db kind := by
  refine (sort_unique claimOrder_iff (waiting_distinct hok _) ?_ ?_).symm
  · rw [← queued_of_unfinished]
    exact (List.perm_insertionSort ViewOrder _).filter _
  · refine List.Pairwise.imp_of_mem ?_ ((sort_ordered viewOrder_iff _).sublist List.filter_sublist)
    intro a b ha hb hab
    have hqa := of_decide_eq_true (List.mem_filter.mp ha).2
    have hqb := of_decide_eq_true (List.mem_filter.mp hb).2
    rw [← viewOrder_iff, ViewOrder, hqa, hqb] at hab
    simpa [claimOrder_iff] using hab

lemma listed_leads (hok : StatusInvariant db) (hkind : kind ≠ .dailySummary) (limit : ℕ) :
    listedQueued limit kind db <+: waiting db kind := by
  rw [listedQueued, listed_jobs hok hkind, ← view_waiting hok]
  exact (List.take_prefix limit _).filter _

lemma listed_all (hok : StatusInvariant db) (hkind : kind ≠ .dailySummary) {limit : ℕ}
    (hroom : (listActiveJobs limit (some kind) db).length < limit) :
    listedQueued limit kind db = waiting db kind := by
  rw [← List.length_map Prod.snd, listed_jobs hok hkind, List.length_take] at hroom
  rw [listedQueued, listed_jobs hok hkind, List.take_of_length_le (by omega), view_waiting hok]

end View

section Claims

variable {db : Database} {kind : JobKind} {now : Instant}

lemma nextClaimable_waiting (hok : StatusInvariant db) (kind : JobKind) (now : Instant) :
    nextClaimable db now (some [kind]) [] =
      (waiting db kind).head?.filter (fun j => j.availableAt ≤ now) := by
  have hclaimable : db.jobs.filter (fun j => Claimable now (some [kind]) j ∧ j.id ∉ ([] : List JobId)) =
      (db.jobs.filter (fun j => j.status = .queued ∧ j.kind = kind)).filter
        (fun j => j.availableAt ≤ now) := by
    rw [List.filter_filter]
    apply List.filter_congr
    intro j _
    rw [Bool.eq_iff_iff]
    simp only [Claimable, Option.mem_def, Option.some.injEq, forall_eq', List.mem_singleton,
      List.not_mem_nil, not_false_iff, and_true, decide_eq_true_eq, Bool.and_eq_true]
    tauto
  rw [nextClaimable, hclaimable, sort_filter claimOrder_iff (waiting_distinct hok _)]
  refine head_filter ((sort_ordered claimOrder_iff _).imp ?_) now
  intro a b hab
  rw [claimKey, claimKey, Prod.Lex.toLex_le_toLex] at hab
  exact hab.elim le_of_lt (fun h => h.1.le)

lemma putJob_filter {p : ProcessingJob → Bool} {job' : ProcessingJob} (hp : p job' = false)
    (db : Database) : (db.putJob job').jobs.filter p = (db.jobs.filter p).filter (·.id ≠ job'.id) := by
  simp only [Database.putJob]
  induction db.jobs with
  | nil => rfl
  | cons j jobs ih =>
    rw [List.map_cons]
    by_cases hid : j.id = job'.id <;> by_cases hj : p j <;> simp [hid, hj, hp, ih]

lemma start_recorded (db : Database) {job : ProcessingJob} (hmax : 1 ≤ job.maxAttempts)
    (now : Instant) : ∃ db', appendJobActivity db job.recordingId
      (jobEvent job.id job.kind job.attemptCount job.maxAttempts .processingStarted .processing
        job.stage now) = .ok db' := by
  cases job.recordingId with
  | none => exact ⟨db, rfl⟩
  | some id => exact appendActivity_total hmax rfl

lemma claimNext_none (queue : JobQueue) (token : ClaimToken)
    (hn : nextClaimable db now (some [kind]) [] = none) :
    queue.claimNext now token (some [kind]) [] db = .ok (none, db) := by
  rw [JobQueue.claimNext, hn]

lemma claimNext_head (queue : JobQueue) (token : ClaimToken) (hok : StatusInvariant db)
    {job : ProcessingJob} {rest : List ProcessingJob} (hwaiting : waiting db kind = job :: rest)
    (havailable : job.availableAt ≤ now) :
    ∃ db', queue.claimNext now token (some [kind]) [] db =
        .ok (some (claimOf queue token (claimRow queue token now job)), db') ∧
      StatusInvariant db' ∧ waiting db' kind = rest ∧
      db'.jobs = (db.putJob (claimRow queue token now job)).jobs ∧
      (transition db (claimRow queue token now job) .processing).recordings = db'.recordings := by
  have hn : nextClaimable db now (some [kind]) [] = some job := by
    rw [nextClaimable_waiting hok, hwaiting, List.head?_cons, Option.filter_some, if_pos]
    exact decide_eq_true havailable
  have hjob := (nextClaimable_some hn).1
  have hmax : 1 ≤ (claimRow queue token now job).maxAttempts := (hok.rows job hjob).positive
  obtain ⟨db', hactivity⟩ :=
    start_recorded (transition db (claimRow queue token now job) .processing) hmax now
  have hclaim : queue.claimNext now token (some [kind]) [] db =
      .ok (some (claimOf queue token (claimRow queue token now job)), db') := by
    simp only [JobQueue.claimNext, hn]
    rw [hactivity]
    rfl
  obtain ⟨hrecordings, hjobs, _⟩ := appendJobActivity_frame hactivity
  rw [transition_jobs] at hjobs
  have hstep : QueueStep db (.claimNext queue now token (some [kind]) []) db' := by
    rw [QueueStep, QueueCall.exec, hclaim]
    rfl
  refine ⟨db', hclaim, queueStep_consistent hstep hok, ?_, hjobs, hrecordings.symm⟩
  rw [waiting, hjobs, putJob_filter (by simp [claimRow]),
    sort_filter claimOrder_iff (waiting_distinct hok _)]
  have hids : ((waiting db kind).map (·.id)).Nodup :=
    ((List.perm_insertionSort ClaimOrder _).map _).nodup_iff.mpr
      (hok.jobIds.sublist (List.filter_sublist.map _))
  show (waiting db kind).filter (fun j => j.id ≠ job.id) = rest
  rw [hwaiting] at hids ⊢
  rw [List.filter_cons_of_neg (by simp)]
  apply List.filter_eq_self.mpr
  intro j hj
  have hne : j.id ≠ job.id := fun he => (List.nodup_cons.mp hids).1 (List.mem_map.mpr ⟨j, hj, he⟩)
  simpa using hne

lemma claimEach_order (hok : StatusInvariant db) {calls : List ClaimCall} {jobs : List ProcessingJob}
    (hjobs : jobs <+: waiting db kind)
    (htimes : List.Forall₂ (fun job call => job.availableAt ≤ call.now) jobs calls) :
    ∃ claims db', claimEach kind calls db = .ok (claims, db') ∧
      claims.map (Option.map (·.id)) = jobs.map (fun job => some job.id) := by
  induction htimes generalizing db with
  | nil => exact ⟨[], db, rfl, rfl⟩
  | @cons job call jobs calls hnow _ ih =>
    obtain ⟨rest, hrest⟩ := hjobs
    obtain ⟨db₁, hclaim, hok₁, hwaiting, _⟩ :=
      claimNext_head call.queue call.token hok hrest.symm hnow
    obtain ⟨claims, db₂, hclaims, hids⟩ := ih hok₁ ⟨rest, hwaiting.symm⟩
    refine ⟨some (claimOf call.queue call.token (claimRow call.queue call.token call.now job)) ::
      claims, db₂, ?_, ?_⟩
    · rw [claimEach, hclaim, ok_bind]
      dsimp only
      rw [hclaims]
      rfl
    · rw [List.map_cons, List.map_cons, hids]
      rfl

end Claims

lemma listed_head {db : Database} {kind : JobKind} (hok : StatusInvariant db)
    (hkind : kind ≠ .dailySummary) {limit : ℕ}
    (h : listedQueued limit kind db ≠ [] ∨ (listActiveJobs limit (some kind) db).length < limit) :
    (listedQueued limit kind db).head? = (waiting db kind).head? := by
  rcases h with hsome | hroom
  · obtain ⟨rest, hrest⟩ := listed_leads hok hkind limit
    rw [← hrest, List.head?_append_of_ne_nil _ hsome]
  · rw [listed_all hok hkind hroom]

structure Busy (n : ℕ) (w : World) : Prop where
  reached : ∃ es, WorldRun (World.init none) es w
  length : w.db.jobs.length = n
  jobs : ∀ j ∈ w.db.jobs, j.status = .processing ∧ j.kind = .full ∧ j.id < n
  recordings : ∀ r ∈ w.db.recordings, r.id < n ∧ r.sha256.length < n ∧ r.storageKey.recordingId < n
  claims : ∀ c ∈ w.claims, c.claimToken < n

def nthRecording (n : ℕ) : Recording :=
  ⟨n, "device".toList, List.replicate n 'a', 10, ⟨0, n, "wav".toList⟩, 0, 5, .uploaded⟩

def nthJob (n : ℕ) : ProcessingJob := initialJob exampleService (nthRecording n) ⟨n, 0⟩ 0

def nthUpload (n : ℕ) : Act := .server (.create exampleService (nthRecording n) ⟨n, 0⟩ 0)

lemma insertRecording_total {db : Database} {recording : Recording}
    (hid : ∀ r ∈ db.recordings, r.id ≠ recording.id)
    (hcontent : ∀ r ∈ db.recordings, r.sha256 ≠ recording.sha256)
    (hkey : ∀ r ∈ db.recordings, r.storageKey ≠ recording.storageKey) :
    ∃ db', insertRecording db recording = .ok db' := by
  rw [insertRecording, if_neg, if_neg, if_neg]
  · exact ⟨_, rfl⟩
  all_goals
    simp only [List.any_eq_true, decide_eq_true_eq, not_exists, not_and]
  · exact hkey
  · exact fun r hr _ => hcontent r hr
  · exact hid

lemma insertJob_total {db : Database} {job : ProcessingJob} (hid : ∀ j ∈ db.jobs, j.id ≠ job.id)
    (hscope : job.recordingId.isSome) (hday : job.summaryDate = none)
    (hfree : ∀ j ∈ db.jobs, j.recordingId ≠ job.recordingId) : ∃ db', db.insertJob job = .ok db' := by
  rw [Database.insertJob, if_neg, if_neg (by simp [hscope, hday]), if_neg, if_neg (by simp [hday])]
  · exact ⟨_, rfl⟩
  all_goals
    simp only [List.any_eq_true, decide_eq_true_eq, not_and, not_exists]
  · exact fun _ _ j hj _ => hfree j hj
  · exact hid

lemma busy_upload {n : ℕ} {w : World} (h : Busy n w) :
    (∃ es, WorldRun (World.init none) es (perform w (nthUpload n))) ∧
      (perform w (nthUpload n)).db.jobs = w.db.jobs ++ [nthJob n] ∧
      (perform w (nthUpload n)).db.recordings =
        w.db.recordings ++ [{ nthRecording n with processingStatus := .queued }] ∧
      (perform w (nthUpload n)).claims = w.claims := by
  obtain ⟨es, hrun⟩ := h.reached
  have hok := (run_invariant hrun).statuses
  obtain ⟨db₁, hinsert⟩ : ∃ db₁, insertRecording w.db
      { nthRecording n with processingStatus := .queued } = .ok db₁ := by
    refine insertRecording_total (fun r hr => (h.recordings r hr).1.ne) ?_ ?_
    · intro r hr he
      have hlength := (h.recordings r hr).2.1
      rw [he] at hlength
      simp [nthRecording] at hlength
    · exact fun r hr he => absurd (congrArg StorageKey.recordingId he) (h.recordings r hr).2.2.ne
  have hjobs₁ : db₁.jobs = w.db.jobs := by rw [(insertRecording_ok hinsert).1]
  obtain ⟨db₂, hjob⟩ : ∃ db₂, db₁.insertJob (nthJob n) = .ok db₂ := by
    refine insertJob_total (fun j hj => (h.jobs j (hjobs₁ ▸ hj)).2.2.ne) rfl rfl ?_
    intro j hj he
    obtain ⟨r, hr, hid⟩ := List.mem_map.mp (hok.references j (hjobs₁ ▸ hj) n he)
    exact (h.recordings r hr).1.ne hid
  obtain ⟨db₃, hactivity⟩ : ∃ db₃, appendActivity db₂
      (jobEvent n .full 0 2 .jobQueued .queued .queued 0 n) = .ok db₃ :=
    appendActivity_total (Nat.succ_pos 1) rfl
  have hcreate : createRecordingAndJob exampleService (nthRecording n) ⟨n, 0⟩ 0 w.db =
      .ok ({ nthRecording n with processingStatus := .queued }, db₃) := by
    rw [createRecordingAndJob]
    dsimp only
    rw [hinsert, ok_bind]
    show (db₁.insertJob (nthJob n) >>= _) = _
    rw [hjob, ok_bind]
    exact congrArg (· >>= _) hactivity
  have hdb : (perform w (nthUpload n)).db = db₃ := by
    show settled w.db (forget (createRecordingAndJob _ _ _ _ w.db)) = db₃
    rw [hcreate]
    rfl
  obtain ⟨_, _, hrecordings, hjobs, _⟩ := createRecordingAndJob_ok hcreate
  have hstep : WorldStep w (nthUpload n) (perform w (nthUpload n)) := ⟨trivial, rfl⟩
  refine ⟨⟨_, hrun.append (.single hstep)⟩, ?_⟩
  rw [hdb]
  exact ⟨hjobs, hrecordings, rfl⟩

lemma busy_waiting {n : ℕ} {w : World} (h : Busy n w) {db : Database}
    (hjobs : db.jobs = w.db.jobs ++ [nthJob n]) : waiting db .full = [nthJob n] := by
  have hnone : w.db.jobs.filter (fun j => j.status = .queued ∧ j.kind = .full) = [] := by
    apply List.filter_eq_nil_iff.mpr
    intro j hj
    simp [(h.jobs j hj).1]
  rw [waiting, hjobs, List.filter_append, hnone]
  rfl

def nthClaim (n : ℕ) : Act := .server (.queue (.claimNext exampleWorker 0 n (some [.full]) []))

lemma busy_claim {n : ℕ} {w : World} (h : Busy n w) :
    let w₁ := perform w (nthUpload n)
    let w₂ := perform w₁ (nthClaim n)
    (∃ es, WorldRun (World.init none) es w₂) ∧
      w₂.db.jobs = (w₁.db.putJob (claimRow exampleWorker n 0 (nthJob n))).jobs ∧
      (transition w₁.db (claimRow exampleWorker n 0 (nthJob n)) .processing).recordings =
        w₂.db.recordings ∧
      w₂.claims = claimOf exampleWorker n (claimRow exampleWorker n 0 (nthJob n)) :: w.claims := by
  intro w₁ w₂
  obtain ⟨⟨es, hrun⟩, hjobs, _, hclaims⟩ := busy_upload h
  obtain ⟨db₂, hclaim, _, _, hjobs₂, hrecordings₂⟩ :=
    claimNext_head exampleWorker n (run_invariant hrun).statuses (busy_waiting h hjobs)
      (show (nthJob n).availableAt ≤ 0 from le_rfl)
  have hdb : w₂.db = db₂ := by
    show settled w₁.db (forget ((exampleWorker.claimNext 0 n (some [.full]) [] w₁.db).map _)) = db₂
    rw [hclaim]
    rfl
  have hgiven : (nthClaim n).handedOut w₁.db =
      [claimOf exampleWorker n (claimRow exampleWorker n 0 (nthJob n))] := by
    have hexec : (QueueCall.claimNext exampleWorker 0 n (some [.full]) []).exec w₁.db =
        .ok (.claimed (some (claimOf exampleWorker n (claimRow exampleWorker n 0 (nthJob n)))), db₂) := by
      show (exampleWorker.claimNext 0 n (some [.full]) [] w₁.db).map _ = _
      rw [hclaim]
      rfl
    simp only [nthClaim, Act.handedOut, hexec]
  have hstep : WorldStep w₁ (nthClaim n) w₂ := by
    refine ⟨?_, rfl⟩
    intro c hc
    exact (h.claims c (hclaims ▸ hc)).ne
  refine ⟨⟨_, hrun.append (.single hstep)⟩, hdb ▸ hjobs₂, hdb ▸ hrecordings₂, ?_⟩
  show (nthClaim n).handedOut w₁.db ++ w₁.claims = _
  rw [hgiven, hclaims]
  rfl

lemma busy_succ {n : ℕ} {w : World} (h : Busy n w) : ∃ w', Busy (n + 1) w' := by
  obtain ⟨_, hjobs, hrecordings, _⟩ := busy_upload h
  obtain ⟨hrun, hjobs₂, hrecordings₂, hclaims₂⟩ := busy_claim h
  refine ⟨_, hrun, ?_, ?_, ?_, ?_⟩
  · rw [hjobs₂, Database.putJob, List.length_map, hjobs, List.length_append, h.length]
    rfl
  · rw [hjobs₂]
    intro j hj
    rcases mem_putJob_cases hj with rfl | ⟨hold, hne⟩
    · exact ⟨rfl, rfl, Nat.lt_succ_self n⟩
    · rw [hjobs] at hold
      rcases List.mem_append.mp hold with hold | hnew
      · obtain ⟨hs, hk, hid⟩ := h.jobs j hold
        exact ⟨hs, hk, hid.trans (Nat.lt_succ_self n)⟩
      · rw [List.mem_singleton.mp hnew] at hne
        exact absurd rfl hne
  · have hkept : ∀ r ∈ (perform w (nthUpload n)).db.recordings, r.id < n + 1 ∧
        r.sha256.length < n + 1 ∧ r.storageKey.recordingId < n + 1 := by
      rw [hrecordings]
      intro r hr
      rcases List.mem_append.mp hr with hold | hnew
      · obtain ⟨hid, hlength, hkey⟩ := h.recordings r hold
        exact ⟨hid.trans (Nat.lt_succ_self n), hlength.trans (Nat.lt_succ_self n),
          hkey.trans (Nat.lt_succ_self n)⟩
      · rw [List.mem_singleton.mp hnew]
        simp [nthRecording]
    rw [← hrecordings₂]
    intro r hr
    obtain ⟨old, hold, rfl⟩ := List.mem_map.mp hr
    split
    · exact hkept old hold
    · exact hkept old hold
  · rw [hclaims₂]
    intro c hc
    rcases List.mem_cons.mp hc with rfl | hold
    · exact Nat.lt_succ_self n
    · exact (h.claims c hold).trans (Nat.lt_succ_self n)

lemma busy (n : ℕ) : ∃ w, Busy n w := by
  induction n with
  | zero =>
    exact ⟨World.init none, ⟨[], .nil _⟩, rfl, fun _ h => absurd h List.not_mem_nil,
      fun _ h => absurd h List.not_mem_nil, fun _ h => absurd h List.not_mem_nil⟩
  | succ n ih =>
    obtain ⟨w, h⟩ := ih
    exact busy_succ h

lemma running_fill_view (limit : ℕ) : ∃ es w, WorldRun (World.init none) es w ∧
    listedQueued limit .full w.db = [] ∧ ¬ TakesFirst limit .full w.db := by
  obtain ⟨w, h⟩ := busy limit
  obtain ⟨⟨es, hrun⟩, hjobs, _⟩ := busy_upload h
  have hok := (run_invariant hrun).statuses
  have hrunning : unfinished (perform w (nthUpload limit)).db .full = w.db.jobs ++ [nthJob limit] := by
    rw [unfinished, hjobs]
    apply List.filter_eq_self.mpr
    intro j hj
    rcases List.mem_append.mp hj with hold | hnew
    · obtain ⟨hs, hk, _⟩ := h.jobs j hold
      simp [ProcessingJob.active, JobStatus.active, hs, hk]
    · rw [List.mem_singleton.mp hnew]
      rfl
  -- The upload comes last, so the view ends before it.
  have hsorted : (unfinished (perform w (nthUpload limit)).db .full).insertionSort ViewOrder =
      w.db.jobs.insertionSort ViewOrder ++ [nthJob limit] := by
    refine sort_unique viewOrder_iff (viewKey_distinct (unfinished_ids hok _)) ?_ ?_
    · rw [hrunning]
      exact (List.perm_insertionSort ViewOrder _).append_right _
    · refine List.pairwise_append.mpr ⟨sort_ordered viewOrder_iff _, List.pairwise_singleton _ _, ?_⟩
      intro a ha b hb
      rw [List.mem_singleton.mp hb, ← viewOrder_iff]
      have hqueued : (nthJob limit).status ≠ .processing := fun h => by cases h
      exact .inl ⟨(h.jobs a ((List.mem_insertionSort ViewOrder).mp ha)).1, hqueued⟩
  have hlength : (w.db.jobs.insertionSort ViewOrder).length = limit := by
    rw [List.length_insertionSort, h.length]
  have hkind : JobKind.full ≠ .dailySummary := fun h => by cases h
  have hhidden : listedQueued limit .full (perform w (nthUpload limit)).db = [] := by
    rw [listedQueued, listed_jobs hok hkind, hsorted, List.take_left' hlength]
    apply List.filter_eq_nil_iff.mpr
    intro j hj
    simp [(h.jobs j ((List.mem_insertionSort ViewOrder).mp hj)).1]
  refine ⟨_, _, hrun, hhidden, ?_⟩
  intro htakes
  obtain ⟨claim, db, hclaim, hnone⟩ := htakes exampleWorker 0 limit
  obtain ⟨_, hhead, _⟩ := claimNext_head exampleWorker limit hok (busy_waiting h hjobs)
    (show (nthJob limit).availableAt ≤ 0 from le_rfl)
  rw [hhead] at hclaim
  cases hclaim
  rw [hhidden] at hnone
  cases hnone

end AudioServer.Worker.ServedOrder
