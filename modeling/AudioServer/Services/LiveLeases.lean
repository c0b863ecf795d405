import AudioServer.Services.Consistency
import AudioServer.Services.LeaseOrder
import Mathlib.Tactic.Linarith

/-! A worker that renews in time keeps its job: no recovery by another clock takes it away. -/

namespace AudioServer.Services.LiveLeases

open AudioServer.Foundations.Outcomes AudioServer.Foundations.Runs AudioServer.Db.Models
open AudioServer.Jobs.Queue AudioServer.Jobs.Effects AudioServer.Jobs.Calls AudioServer.Jobs.Fence
open AudioServer.Services.Recordings AudioServer.Services.Transactions
open AudioServer.Services.Consistency AudioServer.Services.LeaseOrder

/-- What the fence of the queue compares: two claims that agree here are one claim to it. -/
def SameClaim (a b : ClaimedJob) : Prop :=
  a.id = b.id ∧ a.claimToken = b.claimToken ∧ a.workerId = b.workerId

instance (a b : ClaimedJob) : Decidable (SameClaim a b) := inferInstanceAs (Decidable (_ ∧ _))

def renewingQueue (claim : ClaimedJob) : QueueCall → Option JobQueue
  | .heartbeat queue c _ => if SameClaim c claim then some queue else none
  | .advanceStage queue c _ _ => if SameClaim c claim then some queue else none
  | _ => none

def renews (claim : ClaimedJob) (db : Database) : ServerCall → Bool
  | .queue call => (renewingQueue claim call).isSome && (call.exec db).isOk
  | _ => false

def clockOf : ServerCall → Option Instant
  | .queue call => some (reading call).2
  | _ => none

def StillHeld (claim : ClaimedJob) (lease : Duration) : ServerCall → Prop
  | .queue (.complete _ c _ _ _) => ¬ SameClaim c claim
  | .queue (.fail _ c _ _ _) => ¬ SameClaim c claim
  | .queue call => ∀ queue ∈ renewingQueue claim call, queue.leaseDuration = lease
  | _ => True

def Live (claim : ClaimedJob) (expires : Instant) (db : Database) : Prop :=
  ∃ job ∈ db.jobs, Owns claim job ∧ ∃ lease, job.leaseExpiresAt = some lease ∧ expires ≤ lease

variable {claim : ClaimedJob} {db db' : Database} {expires : Instant} {lease : Duration}

lemma owns_same {c : ClaimedJob} {job : ProcessingJob} (h : Owns c job) (k : Owns claim job) :
    SameClaim c claim :=
  ⟨h.1.symm.trans k.1, Option.some.inj (h.2.2.1.symm.trans k.2.2.1),
    Option.some.inj (h.2.2.2.symm.trans k.2.2.2)⟩

lemma Live.kept (h : Live claim expires db)
    (hkept : ∀ j ∈ db.jobs, Owns claim j → (∀ at_, j.leaseExpiresAt = some at_ → expires ≤ at_) →
      j ∈ db'.jobs) : Live claim expires db' := by
  obtain ⟨job, hjob, howns, at_, hat, hle⟩ := h
  refine ⟨job, hkept job hjob howns ?_, howns, at_, hat, hle⟩
  intro other hother
  rw [hat] at hother
  exact Option.some.inj hother ▸ hle

lemma Live.other (h : Live claim expires db) (hok : StatusInvariant db) {job job' : ProcessingJob}
    {row : RowDefaults} {now : Instant} (hmoves : Moves db job job' row now db')
    (hnot : ¬ Owns claim job) : Live claim expires db' := by
  apply h.kept
  intro j hj howns _
  apply hmoves.keeps_other hj
  intro he
  exact hnot (hok.unique hj hmoves.stored he ▸ howns)

lemma renewed_live {c : ClaimedJob} {job : ProcessingJob} {row : RowDefaults} {stage : JobStage}
    {now expiry : Instant} (h : Live claim expires db) (hok : StatusInvariant db)
    (howned : ownedJob db c = some job)
    (hmoves : Moves db job (renewRow stage now expiry job) row now db') :
    Live claim (if SameClaim c claim then expiry else expires) db' := by
  obtain ⟨hmem, hc⟩ := ownedJob_some howned
  by_cases hsame : SameClaim c claim
  · rw [if_pos hsame]
    have howns : Owns claim job :=
      ⟨hc.1.trans hsame.1, hc.2.1, hsame.2.1 ▸ hc.2.2.1, hsame.2.2 ▸ hc.2.2.2⟩
    exact ⟨_, hmoves.mem_moved, howns, expiry, rfl, le_rfl⟩
  · rw [if_neg hsame]
    exact h.other hok hmoves (fun howns => hsame (owns_same hc howns))

lemma renews_accepted {call : QueueCall} {answer : Answer} (h : call.exec db = .ok (answer, db')) :
    renews claim db (.queue call) = (renewingQueue claim call).isSome := by
  simp [renews, h, Except.isOk, Except.toBool]

lemma renewed_expiry {queue : JobQueue} {c : ClaimedJob} {now : Instant}
    (hlease : ∀ q ∈ (if SameClaim c claim then some queue else none), q.leaseDuration = lease) :
    (if SameClaim c claim then now + queue.leaseDuration else expires) =
      if (if SameClaim c claim then some queue else none : Option JobQueue).isSome then now + lease
      else expires := by
  by_cases hsame : SameClaim c claim
  · simp only [hsame, if_true] at hlease ⊢
    rw [hlease queue rfl]
    rfl
  · simp [hsame]

lemma queueCall_live {call : QueueCall} {answer : Answer} (hok : StatusInvariant db)
    (h : Live claim expires db) (hheld : StillHeld claim lease (.queue call))
    (hearly : ∀ queue now limit locked rows, call = .recoverExpired queue now limit locked rows →
      now < expires) (hexec : call.exec db = .ok (answer, db')) :
    Live claim (if renews claim db (.queue call) then (reading call).2 + lease else expires) db' := by
  rw [renews_accepted hexec]
  let row : RowDefaults := ⟨0, 0⟩
  cases call with
  | claimNext queue now token kinds locked =>
    obtain ⟨_, hc, _⟩ := map_ok hexec
    rcases claimNext_ok hc row with ⟨_, rfl⟩ | ⟨job, hnext, _, hmoves, _⟩
    · exact h
    · refine h.other hok hmoves ?_
      intro howns
      have hqueued := (nextClaimable_some hnext).2.1
      rw [howns.2.1] at hqueued
      cases hqueued
  | heartbeat queue c now =>
    obtain ⟨_, hc, _⟩ := map_ok hexec
    obtain ⟨job, hj, hc⟩ := bind_ok hc
    rw [found_ok] at hj
    cases hc
    obtain ⟨hmoves, _⟩ := renewed_moves hj job.stage now (now + queue.leaseDuration) row
      ⟨rfl, rfl, rfl, rfl⟩
    have hlive := renewed_live h hok hj hmoves
    rwa [renewed_expiry hheld] at hlive
  | advanceStage queue c stage now =>
    obtain ⟨_, hc, _⟩ := map_ok hexec
    obtain ⟨_, _, hc⟩ := bind_ok hc
    obtain ⟨job, hj, hc⟩ := bind_ok hc
    rw [found_ok] at hj
    obtain ⟨db₁, ha, hc⟩ := bind_ok hc
    cases hc
    obtain ⟨hmoves, _⟩ := renewed_moves hj stage now (now + queue.leaseDuration) row
      (appendJobActivity_frame ha)
    have hlive := renewed_live h hok hj hmoves
    rwa [renewed_expiry hheld] at hlive
  | complete queue c persister now row =>
    obtain ⟨_, hc, _⟩ := map_ok hexec
    obtain ⟨job, hj, hmoves, _⟩ := complete_ok hc
    exact h.other hok hmoves (fun howns => hheld (owns_same (ownedJob_some hj).2 howns))
  | fail queue c failure now row =>
    obtain ⟨_, hc, _⟩ := map_ok hexec
    obtain ⟨job, _, hj, _, _, hmoves, _⟩ := fail_ok hc
    exact h.other hok hmoves (fun howns => hheld (owns_same (ownedJob_some hj).2 howns))
  | recoverExpired queue now limit locked rows =>
    obtain ⟨_, hc, _⟩ := map_ok hexec
    have honly := recovers_onlyExpired (recoverExpired_ok hok.jobIds hc) hok.jobIds
    apply h.kept
    intro j hj _ hleft
    apply honly.others j hj
    intro hexpired
    obtain ⟨at_, hat⟩ := Option.isSome_iff_exists.mp
      ((hok.rows j hj).claimed.mp hexpired.1).2
    have hnow := hearly _ _ _ _ _ rfl
    have hpast := hexpired.2 at_ hat
    have hfuture := hleft at_ hat
    exact absurd (hnow.trans_le (hfuture.trans hpast)) (lt_irrefl _)

lemma added_live {job : ProcessingJob} (h : Live claim expires db) (hjobs : db'.jobs = db.jobs ++ [job]) :
    Live claim expires db' := by
  apply h.kept
  intro j hj _ _
  rw [hjobs]
  exact List.mem_append_left _ hj

lemma serverStep_live {call : ServerCall} (hok : StatusInvariant db) (h : Live claim expires db)
    (hheld : StillHeld claim lease call)
    (hearly : ∀ now ∈ clockOf call, now < expires) (hstep : ServerStep db call db') :
    Live claim (if renews claim db call then (clockOf call).getD expires + lease else expires) db' := by
  rcases settled_cases db (call.exec db) with ⟨_, t, hexec, hs⟩ | ⟨e, he, hs⟩
  · have hdb : db' = t := hstep.trans hs
    rw [hdb]
    cases call with
    | queue call =>
      obtain ⟨answer, hc⟩ := forget_ok hexec
      apply queueCall_live hok h hheld ?_ hc
      rintro queue now limit locked rows rfl
      exact hearly now rfl
    | create service recording row now =>
      obtain ⟨_, hc⟩ := forget_ok hexec
      obtain ⟨_, _, _, hjobs, _⟩ := createRecordingAndJob_ok hc
      exact added_live h hjobs
    | retry service id row now =>
      obtain ⟨_, hc⟩ := forget_ok hexec
      obtain ⟨_, _, _, hjobs, _⟩ := enqueueProcessing_ok hc
      exact added_live h hjobs
    | reprocess service id row now =>
      obtain ⟨_, hc⟩ := forget_ok hexec
      obtain ⟨_, _, _, hjobs, _⟩ := enqueueProcessing_ok hc
      exact added_live h hjobs
    | reprocessAnalysis service id row now =>
      obtain ⟨_, hc⟩ := forget_ok hexec
      obtain ⟨_, _, _, hjobs, _⟩ := enqueueProcessing_ok hc
      exact added_live h hjobs
    | reprocessTranslation service id row now =>
      obtain ⟨_, hc⟩ := forget_ok hexec
      obtain ⟨_, _, _, hjobs, _⟩ := enqueueProcessing_ok hc
      exact added_live h hjobs
    | deleteRecording id =>
      obtain ⟨hidle, _, hjobs, _⟩ := deleteRecording_ok hexec
      apply h.kept
      intro j hj howns _
      rw [hjobs]
      refine List.mem_filter.mpr ⟨hj, ?_⟩
      simpa using activeJob_none.mp hidle j hj (owns_active howns)
    | dailySummary day maxAttempts availableAt row =>
      obtain ⟨rfl, _⟩ := createDailySummaryJob_ok (dailySummary_exec hexec)
      exact added_live h rfl
    | switches settings =>
      cases hexec
      exact h
  · have hdb : db' = db := hstep.trans hs
    have hnone : renews claim db call = false := by
      cases call with
      | queue call =>
        cases hc : call.exec db with
        | ok result =>
          rw [ServerCall.exec, hc] at he
          cases he
        | error e' => simp [renews, hc, Except.isOk, Except.toBool]
      | _ => rfl
    rw [hdb, hnone]
    exact h

structure Watched where
  db : Database
  now : Instant
  renewed : Instant

structure TimedCall where
  now : Instant
  call : ServerCall

/-- Every clock is off by at most `skew`, and the holder's last renewal is never older than `gap`. -/
structure TimedStep (claim : ClaimedJob) (skew gap : Duration) (s : Watched) (a : TimedCall)
    (t : Watched) : Prop where
  forward : s.now ≤ a.now
  punctual : a.now ≤ s.renewed + gap
  clocks : ∀ r ∈ clockOf a.call, r ≤ a.now + skew ∧ a.now ≤ r + skew
  step : ServerStep s.db a.call t.db
  now : t.now = a.now
  renewed : t.renewed = if renews claim s.db a.call then a.now else s.renewed

lemma timedStep_live {skew gap : Duration} {s t : Watched} {a : TimedCall}
    (hok : StatusInvariant s.db) (h : Live claim (s.renewed + lease - skew) s.db)
    (hheld : StillHeld claim lease a.call) (hmargin : gap + 2 * skew < lease)
    (hstep : TimedStep claim skew gap s a t) : Live claim (t.renewed + lease - skew) t.db := by
  obtain ⟨_, hpunctual, hclocks, hserver, _, hrenewed⟩ := hstep
  have hearly : ∀ now ∈ clockOf a.call, now < s.renewed + lease - skew := by
    intro now hnow
    have hclock := (hclocks now hnow).1
    linarith
  have hlive := serverStep_live hok h hheld hearly hserver
  rw [hrenewed]
  by_cases hr : renews claim s.db a.call
  · rw [if_pos hr] at hlive ⊢
    obtain ⟨at_, hat⟩ : ∃ at_, clockOf a.call = some at_ := by
      cases hcall : a.call with
      | queue call => exact ⟨_, rfl⟩
      | _ =>
        rw [hcall] at hr
        cases hr
    have hclock := (hclocks at_ hat).2
    rw [hat, Option.getD_some] at hlive
    obtain ⟨job, hjob, howns, expiry, hexpiry, hle⟩ := hlive
    exact ⟨job, hjob, howns, expiry, hexpiry, by linarith⟩
  · rw [if_neg hr] at hlive ⊢
    exact hlive

lemma claimed_live {queue : JobQueue} {now : Instant} {token : ClaimToken}
    {kinds : Option (List JobKind)} {locked : List JobId}
    (h : queue.claimNext now token kinds locked db = .ok (some claim, db')) :
    Live claim (now + queue.leaseDuration) db' := by
  rcases claimNext_ok h ⟨0, 0⟩ with ⟨hnone, _⟩ | ⟨job, _, hclaim, hmoves, _⟩
  · cases hnone
  · cases hclaim
    exact ⟨_, hmoves.mem_moved, ⟨rfl, rfl, rfl, rfl⟩, _, rfl, le_rfl⟩

theorem live_worker_keeps_claim {settings : Option ProcessingSettings} {db₀ db₁ : Database}
    {past : List (Event Database ServerCall)} {queue : JobQueue} {now start : Instant}
    {token : ClaimToken} {kinds : Option (List JobKind)} {locked : List JobId} {claim : ClaimedJob}
    {skew gap : Duration} {es : List (Event Watched TimedCall)} {t : Watched}
    (hpast : ServerRun (Database.empty settings) past db₀)
    (hclaim : queue.claimNext now token kinds locked db₀ = .ok (some claim, db₁))
    (hclock : start ≤ now + skew) (hrun : Run (TimedStep claim skew gap) ⟨db₁, start, start⟩ es t)
    (hheld : ∀ e ∈ es, StillHeld claim queue.leaseDuration e.label.call)
    (hmargin : gap + 2 * skew < queue.leaseDuration) : ∃ job ∈ t.db.jobs, Owns claim job := by
  have hok₀ := serverRun_consistent hpast (empty_consistent settings)
  have hstep : ServerStep db₀ (.queue (.claimNext queue now token kinds locked)) db₁ := by
    rw [ServerStep, ServerCall.exec, QueueCall.exec, hclaim]
    rfl
  have hlive : Live claim (start + queue.leaseDuration - skew) db₁ := by
    obtain ⟨job, hjob, howns, expiry, hexpiry, hle⟩ := claimed_live hclaim
    exact ⟨job, hjob, howns, expiry, hexpiry, by linarith⟩
  have hend : StatusInvariant t.db ∧ Live claim (t.renewed + queue.leaseDuration - skew) t.db := by
    apply hrun.keeps_if
      (fun s => StatusInvariant s.db ∧ Live claim (s.renewed + queue.leaseDuration - skew) s.db)
      (fun _ a => StillHeld claim queue.leaseDuration a.call) ?_
      ⟨serverStep_consistent hok₀ hstep, hlive⟩ hheld
    rintro s a t ⟨hok, hlive⟩ hheld hstep
    exact ⟨serverStep_consistent hok hstep.step, timedStep_live hok hlive hheld hmargin hstep⟩
  obtain ⟨job, hjob, howns, _⟩ := hend.2
  exact ⟨job, hjob, howns⟩

theorem live_worker_keeps_claim_renewed :
    let db₀ := settled (Database.empty none)
      ((ServerCall.create exampleService exampleRecording ⟨1, 0⟩ 0).exec (Database.empty none))
    let db₁ := settled db₀
      ((ServerCall.queue (.claimNext exampleWorker 0 7 none [])).exec db₀)
    let claim : ClaimedJob := ⟨1, some 1, .full, 7, "worker".toList, 1, 2, .preprocessing, none⟩
    let renew := ServerCall.queue (.heartbeat exampleWorker claim 40)
    let recover := ServerCall.queue (.recoverExpired exampleWorker 90 10 [] (fun _ => ⟨2, 0⟩))
    let db₂ := settled db₁ (renew.exec db₁)
    let db₃ := settled db₂ (recover.exec db₂)
    ∃ job ∈ db₃.jobs, Owns claim job := by
  intro db₀ db₁ claim renew recover db₂ db₃
  have hpast : ServerRun (Database.empty none)
      [⟨Database.empty none, .create exampleService exampleRecording ⟨1, 0⟩ 0, db₀⟩] db₀ := .single rfl
  have hrenew : TimedStep claim 5 49 ⟨db₁, 0, 0⟩ ⟨40, renew⟩ ⟨db₂, 40, 40⟩ := by
    refine ⟨by decide, by decide, ?_, rfl, rfl, by decide⟩
    rintro r ⟨⟩
    decide
  have hrecover : TimedStep claim 5 49 ⟨db₂, 40, 40⟩ ⟨85, recover⟩ ⟨db₃, 85, 40⟩ := by
    refine ⟨by decide, by decide, ?_, rfl, rfl, by decide⟩
    rintro r ⟨⟩
    decide
  have hrun := Run.cons hrenew (Run.single hrecover)
  refine live_worker_keeps_claim hpast (rfl : exampleWorker.claimNext 0 7 none [] db₀ = _)
    (by decide) hrun ?_ (by decide)
  refine List.forall_mem_cons.mpr ⟨?_, List.forall_mem_singleton.mpr ?_⟩
  · rintro q ⟨⟩
    rfl
  · rintro q ⟨⟩

end AudioServer.Services.LiveLeases
