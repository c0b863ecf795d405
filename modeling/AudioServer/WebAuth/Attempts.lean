import AudioServer.Foundations.Histories
import AudioServer.WebAuth.Sessions

/-! How many verifications of passwords can fail within the window of the limiter. -/

namespace AudioServer.WebAuth.Attempts

open AudioServer.Foundations.Outcomes AudioServer.Foundations.Pools AudioServer.Foundations.Runs
open AudioServer.Foundations.Strings AudioServer.Foundations.Histories AudioServer.Db.Models
open AudioServer.WebAuth.Limiter AudioServer.WebAuth.Service AudioServer.WebAuth.Logins
open AudioServer.WebAuth.Sessions (sampleDigest sampleLimiter sampleService)

def letThrough (key : Text) (call : LoginCall) : Bool :=
  call.rateLimitKey = key && match call.phase with
    | .allowed | .locked .. | .rejected | .recording _ => true
    | _ => false

def owes (key : Text) (since : ℚ) (call : LoginCall) : Bool :=
  call.rateLimitKey = key && match call.phase with
    | .rejected => true
    | .recording reading => since ≤ reading
    | _ => false

def inFlight (w : Web) (key : Text) : ℕ := w.logins.countP (letThrough key)

def owed (w : Web) (key : Text) (since : ℚ) : ℕ := w.logins.countP (owes key since)

def recorded (w : Web) (key : Text) (since : ℚ) : ℕ :=
  (failuresOf w.failures key).countP (since ≤ ·)

def movedLogin (e : Event Web WebAct) : Option LoginCall :=
  match e.label with
  | .stepLogin i _ => e.before.logins[i]?
  | _ => none

variable (service : WebAuthService) (key : Text)

def verificationFails (e : Event Web WebAct) : Bool :=
  (movedLogin e).any (fun call => match call.phase with
    | .locked _ user => call.rateLimitKey = key &&
      !service.passwords.verify (user.elim service.dummyPasswordHash (·.passwordHash)) call.password
    | _ => false)

def succeeds (e : Event Web WebAct) : Bool :=
  (movedLogin e).any (fun call => match call.phase with
    | .committed .. => call.rateLimitKey = key
    | _ => false)

def evicts (e : Event Web WebAct) : Bool :=
  (movedLogin e).any (fun call => match call.phase with
    | .recording reading =>
      let failures := service.limiter.failureRecorded call.rateLimitKey reading e.before.failures
      failuresOf (service.limiter.evict failures) key ≠ failuresOf failures key
    | _ => false)

def crowds (e : Event Web WebAct) : Bool :=
  (movedLogin e).any (fun call => match call.phase with
    | .checking reading =>
      let active := (service.limiter.activeFailures key reading e.before.failures).1.length
      call.rateLimitKey = key && active < service.limiter.maxAttempts &&
        service.limiter.maxAttempts ≤ active + inFlight e.before key
    | _ => false)

def within (since : ℚ) (e : Event Web WebAct) : Bool :=
  since ≤ e.before.clock && e.before.clock < since + service.limiter.window

def failedWithin (since : ℚ) (es : List (Event Web WebAct)) : ℕ :=
  es.countP (fun e => verificationFails service key e && within service since e)

/-- Until the window closes, a failure within it is recorded or still owed, and there is room for
every login that was let through. -/
structure Limited (since : ℚ) (es : List (Event Web WebAct)) (w : Web) : Prop where
  readings : ∀ call ∈ w.logins, ∀ reading,
    call.phase = .checking reading ∨ call.phase = .recording reading → reading ≤ w.clock
  bounded : failedWithin service key since es ≤ service.limiter.maxAttempts
  early : w.clock < since → failedWithin service key since es = 0
  room : w.clock < since + service.limiter.window →
    recorded w key since + inFlight w key ≤ service.limiter.maxAttempts
  accounted : w.clock < since + service.limiter.window →
    failedWithin service key since es ≤ recorded w key since + owed w key since

section Steps

variable {service key} {since : ℚ} {es : List (Event Web WebAct)} {w w' : Web}

@[simp] lemma recorded_at (i : ℕ) (call : LoginCall) (phase : LoginPhase) :
    recorded (w.at i call phase) key since = recorded w key since := rfl

@[simp] lemma recorded_released (holder : Holder) :
    recorded (w.released holder) key since = recorded w key since := rfl

@[simp] lemma recorded_withFailures (failures : Failures ℚ) :
    recorded (w.withFailures failures) key since =
      (failuresOf failures key).countP (since ≤ ·) := rfl

lemma Limited.opened (clock : ℚ) : Limited service key since [] (.opened clock) := by
  refine ⟨?_, Nat.zero_le _, fun _ => rfl, fun _ => Nat.zero_le _, fun _ => Nat.zero_le _⟩
  intro call hcall
  cases hcall

lemma owes_letThrough {call : LoginCall} (h : owes key since call) : letThrough key call := by
  rw [owes, Bool.and_eq_true] at h
  obtain ⟨hkey, hphase⟩ := h
  rw [letThrough, Bool.and_eq_true]
  refine ⟨hkey, ?_⟩
  cases hcall : call.phase <;> simp [hcall] at hphase ⊢

lemma owed_le_inFlight (w : Web) : owed w key since ≤ inFlight w key :=
  List.countP_mono_left (fun _ _ h => owes_letThrough h)

lemma failedWithin_snoc (service : WebAuthService) (key : Text) (since : ℚ)
    (es : List (Event Web WebAct)) (e : Event Web WebAct) :
    failedWithin service key since (es ++ [e]) = failedWithin service key since es +
      if since ≤ e.before.clock ∧ e.before.clock < since + service.limiter.window then
        (verificationFails service key e).toNat
      else 0 := by
  rw [failedWithin, List.countP_append, List.countP_singleton, failedWithin]
  by_cases hin : since ≤ e.before.clock ∧ e.before.clock < since + service.limiter.window
  · rw [if_pos hin]
    cases verificationFails service key e <;> simp [within, hin]
  · rw [if_neg hin]
    simp only [within, Bool.and_eq_true, decide_eq_true_eq, hin, and_false, if_false]

lemma Limited.quiet (h : Limited service key since es w) {act : WebAct}
    (hfails : verificationFails service key ⟨w, act, w'⟩ = false) (hclock : w.clock ≤ w'.clock)
    (hreadings : ∀ call ∈ w'.logins, call ∈ w.logins ∨ call.phase = .arrived)
    (hflight : inFlight w' key = inFlight w key) (howed : owed w' key since = owed w key since)
    (hfailures : w'.failures = w.failures) : Limited service key since (es ++ [⟨w, act, w'⟩]) w' := by
  have hsame : failedWithin service key since (es ++ [⟨w, act, w'⟩]) =
      failedWithin service key since es := by
    rw [failedWithin_snoc, hfails, Bool.toNat_false, ite_self, Nat.add_zero]
  have hrecorded : recorded w' key since = recorded w key since := by
    rw [recorded, hfailures, recorded]
  refine ⟨?_, ?_, ?_, ?_, ?_⟩
  · intro call hcall reading hphase
    rcases hreadings call hcall with hold | harrived
    · exact (h.readings call hold reading hphase).trans hclock
    · simp [harrived] at hphase
  · rw [hsame]
    exact h.bounded
  · intro hearly
    rw [hsame]
    exact h.early (hclock.trans_lt hearly)
  · intro hopen
    rw [hrecorded, hflight]
    exact h.room (hclock.trans_lt hopen)
  · intro hopen
    rw [hsame, hrecorded, howed]
    exact h.accounted (hclock.trans_lt hopen)

lemma Limited.moved (h : Limited service key since es w) {i : ℕ} {call new : LoginCall}
    {act : WebAct} (hi : w.logins[i]? = some call) (hlogins : w'.logins = w.logins.set i new)
    (hclock : w'.clock = w.clock)
    (hreading : ∀ reading, new.phase = .checking reading ∨ new.phase = .recording reading →
      reading ≤ w.clock)
    (hroom : w.clock < since + service.limiter.window → recorded w' key since + inFlight w key +
      (letThrough key new).toNat ≤ service.limiter.maxAttempts + (letThrough key call).toNat)
    (hfails : since ≤ w.clock → w.clock < since + service.limiter.window →
      recorded w key since + (owes key since call).toNat +
        (verificationFails service key ⟨w, act, w'⟩).toNat ≤
      recorded w' key since + (owes key since new).toNat) :
    Limited service key since (es ++ [⟨w, act, w'⟩]) w' := by
  have hflight : inFlight w' key + (letThrough key call).toNat =
      inFlight w key + (letThrough key new).toNat := by
    rw [inFlight, hlogins, countP_set hi, inFlight]
  have howed : owed w' key since + (owes key since call).toNat =
      owed w key since + (owes key since new).toNat := by
    rw [owed, hlogins, countP_set hi, owed]
  have hle : owed w' key since ≤ inFlight w' key := owed_le_inFlight w'
  have hcount := failedWithin_snoc service key since es ⟨w, act, w'⟩
  dsimp only at hcount
  have hrooms : w.clock < since + service.limiter.window →
      recorded w' key since + inFlight w' key ≤ service.limiter.maxAttempts := by
    intro hopen
    have hmax := hroom hopen
    omega
  have haccounted : w.clock < since + service.limiter.window →
      failedWithin service key since (es ++ [⟨w, act, w'⟩]) ≤
        recorded w' key since + owed w' key since := by
    intro hopen
    by_cases hsince : since ≤ w.clock
    · have hold := h.accounted hopen
      have hnew := hfails hsince hopen
      rw [if_pos ⟨hsince, hopen⟩] at hcount
      omega
    · have hzero := h.early (not_le.mp hsince)
      rw [if_neg (fun hin => hsince hin.1)] at hcount
      omega
  refine ⟨?_, ?_, ?_, hclock ▸ hrooms, hclock ▸ haccounted⟩
  · intro other hother reading hphase
    rw [hlogins] at hother
    rw [hclock]
    rcases List.mem_or_eq_of_mem_set hother with hold | rfl
    · exact h.readings other hold reading hphase
    · exact hreading reading hphase
  · by_cases hin : since ≤ w.clock ∧ w.clock < since + service.limiter.window
    · have hroom' := hrooms hin.2
      have hfailed := haccounted hin.2
      omega
    · rw [hcount, if_neg hin]
      exact h.bounded
  · intro hearly
    rw [hclock] at hearly
    rw [hcount, if_neg (fun hin => absurd hin.1 (not_le.mpr hearly)), h.early hearly]

lemma fails_locked {i : ℕ} {call : LoginCall} {input : LoginInput} (hi : w.logins[i]? = some call)
    (h : verificationFails service key ⟨w, .stepLogin i input, w'⟩) :
    call.rateLimitKey = key ∧ ∃ loginAt user, call.phase = .locked loginAt user ∧
      service.passwords.verify (user.elim service.dummyPasswordHash (·.passwordHash))
        call.password = false := by
  simp only [verificationFails, movedLogin, hi, Option.any_some] at h
  split at h
  · rename_i loginAt user hphase
    simp only [Bool.and_eq_true, decide_eq_true_eq, Bool.not_eq_true'] at h
    exact ⟨h.1, loginAt, user, hphase, h.2⟩
  · cases h

lemma not_fails {i : ℕ} {call : LoginCall} {input : LoginInput} (hi : w.logins[i]? = some call)
    (h : ∀ loginAt user, call.phase = .locked loginAt user →
      service.passwords.verify (user.elim service.dummyPasswordHash (·.passwordHash)) call.password) :
    verificationFails service key ⟨w, .stepLogin i input, w'⟩ = false := by
  rw [Bool.eq_false_iff]
  intro hfails
  obtain ⟨_, loginAt, user, hphase, hverify⟩ := fails_locked hi hfails
  rw [h loginAt user hphase] at hverify
  cases hverify

lemma Limited.held (h : Limited service key since es w) {i : ℕ} {call new : LoginCall}
    {act : WebAct} (hi : w.logins[i]? = some call) (hlogins : w'.logins = w.logins.set i new)
    (hclock : w'.clock = w.clock)
    (hreading : ∀ reading, new.phase = .checking reading ∨ new.phase = .recording reading →
      reading ≤ w.clock)
    (hrecorded : w.clock < since + service.limiter.window →
      recorded w' key since = recorded w key since)
    (hthrough : (letThrough key new).toNat ≤ (letThrough key call).toNat)
    (hfails : since ≤ w.clock → (owes key since call).toNat +
      (verificationFails service key ⟨w, act, w'⟩).toNat ≤
        (owes key since new).toNat) :
    Limited service key since (es ++ [⟨w, act, w'⟩]) w' := by
  apply h.moved hi hlogins hclock hreading
  · intro hopen
    have hold := h.room hopen
    rw [hrecorded hopen]
    omega
  · intro hsince hopen
    have hnew := hfails hsince
    rw [hrecorded hopen]
    omega

lemma room_for_one {i : ℕ} {call : LoginCall} {input : LoginInput} {reading : ℚ}
    (hi : w.logins[i]? = some call) (hphase : call.phase = .checking reading)
    (hkey : call.rateLimitKey = key) (hcutoff : reading - service.limiter.window < since)
    (hcrowds : crowds service key ⟨w, .stepLogin i input, w'⟩ = false)
    (hnone : (service.limiter.ensureAllowed call.rateLimitKey reading w.failures).1 = none) :
    recorded w key since + inFlight w key < service.limiter.maxAttempts := by
  have hactive := ensureAllowed_none _ _ hnone
  rw [hkey] at hactive
  have hroom : (service.limiter.activeFailures key reading w.failures).1.length + inFlight w key <
      service.limiter.maxAttempts := by
    simp only [crowds, movedLogin, hi, Option.any_some, hphase, hkey, hactive, decide_true,
      Bool.true_and, decide_eq_false_iff_not, not_le] at hcrowds
    exact hcrowds
  have hrecorded : recorded w key since ≤
      (service.limiter.activeFailures key reading w.failures).1.length := by
    rw [recorded, ← activeFailures_recent service.limiter reading hcutoff]
    exact List.countP_le_length
  omega

lemma recorded_failure {i : ℕ} {call : LoginCall} {input : LoginInput} {reading : ℚ}
    (hi : w.logins[i]? = some call) (hphase : call.phase = .recording reading)
    (hcutoff : reading - service.limiter.window < since)
    (hevicts : evicts service key ⟨w, .stepLogin i input, w'⟩ = false) :
    (failuresOf (service.limiter.recordFailure call.rateLimitKey reading w.failures) key).countP
      (since ≤ ·) = recorded w key since + (owes key since call).toNat := by
  have hkept : failuresOf (service.limiter.recordFailure call.rateLimitKey reading w.failures) key =
      failuresOf (service.limiter.failureRecorded call.rateLimitKey reading w.failures) key := by
    simp only [evicts, movedLogin, hi, Option.any_some, hphase, ne_eq, decide_not,
      Bool.not_eq_false', decide_eq_true_eq] at hevicts
    exact hevicts
  rw [hkept, failureRecorded_recent service.limiter reading hcutoff, owes, hphase, recorded]

lemma verified_fails {i : ℕ} {call : LoginCall} {input : LoginInput} {loginAt : Instant} {user : User}
    (hi : w.logins[i]? = some call) (hphase : call.phase = .locked loginAt (some user))
    (haccepted : service.acceptedUser call.password (some user) = some user) :
    verificationFails service key ⟨w, .stepLogin i input, w'⟩ = false := by
  apply not_fails hi
  intro at' other hlocked
  rw [hphase] at hlocked
  cases hlocked
  exact (WebAuthService.acceptedUser_some haccepted).2.2

lemma stepLogin_limited (h : Limited service key since es w) {i : ℕ} {call : LoginCall}
    {input : LoginInput} (hi : w.logins[i]? = some call)
    (hadv : Advanced service w i call input w')
    (hcrowds : crowds service key ⟨w, .stepLogin i input, w'⟩ = false)
    (hevicts : evicts service key ⟨w, .stepLogin i input, w'⟩ = false)
    (hsucceeds : succeeds key ⟨w, .stepLogin i input, w'⟩ →
      ¬ (since ≤ w.clock ∧ w.clock < since + service.limiter.window)) :
    Limited service key since (es ++ [⟨w, .stepLogin i input, w'⟩]) w' := by
  have hcutoff {reading : ℚ} (hphase : call.phase = .checking reading ∨ call.phase = .recording reading)
      (hopen : w.clock < since + service.limiter.window) : reading - service.limiter.window < since := by
    have hreading := h.readings call (List.mem_of_getElem? hi) reading hphase
    linarith
  cases hadv with
  | waits hphase =>
    exact h.quiet (not_fails hi (fun at' user hlocked => absurd hlocked (hphase at' user))) le_rfl
      (fun call hcall => .inl hcall) rfl rfl rfl
  | timedCheck hphase =>
    refine h.held hi rfl rfl ?_ (fun _ => rfl) ?_ ?_
    · simp
    · simp [letThrough]
    · rw [not_fails hi (by simp [hphase])]
      simp [owes, hphase]
  | limited hphase =>
    refine h.held hi rfl rfl (by simp) ?_ ?_ ?_
    · exact fun hopen => ensureAllowed_recent _ _ (hcutoff (.inl hphase) hopen)
    · simp [letThrough]
    · rw [not_fails hi (by simp [hphase])]
      simp [owes, hphase]
  | @passed reading hphase hnone =>
    have hrecent (hopen : w.clock < since + service.limiter.window) :
        (failuresOf (service.limiter.ensureAllowed call.rateLimitKey reading w.failures).2 key).countP
          (since ≤ ·) = recorded w key since :=
      ensureAllowed_recent _ _ (hcutoff (.inl hphase) hopen)
    refine h.moved hi rfl rfl (by simp) ?_ ?_
    · intro hopen
      have hroom := h.room hopen
      rw [recorded_at, recorded_withFailures, hrecent hopen]
      by_cases hkey : call.rateLimitKey = key
      · have hone := room_for_one hi hphase hkey (hcutoff (.inl hphase) hopen) hcrowds hnone
        simp only [letThrough, hkey, hphase, decide_true, Bool.and_true, Bool.and_false,
          Bool.toNat_true, Bool.toNat_false]
        omega
      · simpa [letThrough, hkey] using hroom
    · intro _ hopen
      rw [recorded_at, recorded_withFailures, hrecent hopen, not_fails hi (by simp [hphase])]
      simp [owes, hphase]
  | nobody hphase =>
    refine h.held hi rfl rfl (by simp) (fun _ => rfl) ?_ ?_
    · simp [letThrough, hphase]
    · rw [not_fails hi (by simp [hphase])]
      simp [owes, hphase]
  | acquired hphase =>
    refine h.held hi rfl rfl (by simp) (fun _ => rfl) ?_ ?_
    · simp [letThrough, hphase]
    · rw [not_fails hi (by simp [hphase])]
      simp [owes, hphase]
  | rejected hphase =>
    refine h.held hi rfl rfl (by simp) (fun _ => rfl) ?_ ?_
    · simp [letThrough, hphase]
    · intro _
      cases hfails : verificationFails service key ⟨w, .stepLogin i input, w.at i call .rejected⟩ with
      | false => simp [owes, hphase]
      | true =>
        obtain ⟨hkey, _⟩ := fails_locked hi hfails
        simp [owes, hphase, hkey]
  | granted hphase haccepted =>
    refine h.held hi rfl rfl (by simp) (fun _ => rfl) ?_ ?_
    · simp [letThrough]
    · rw [verified_fails hi hphase haccepted]
      simp [owes, hphase]
  | collided hphase haccepted =>
    refine h.held hi rfl rfl (by simp) (fun _ => rfl) ?_ ?_
    · simp [letThrough]
    · rw [verified_fails hi hphase haccepted]
      simp [owes, hphase]
  | timedFailure hphase =>
    refine h.held hi rfl rfl (by simp) (fun _ => rfl) ?_ ?_
    · simp [letThrough, hphase]
    · intro hsince
      rw [not_fails hi (by simp [hphase])]
      simp [owes, hphase, hsince]
  | @recorded reading hphase =>
    have hcount (hopen : w.clock < since + service.limiter.window) :=
      recorded_failure hi hphase (hcutoff (.inr hphase) hopen) hevicts
    have howes : (owes key since call).toNat ≤ (letThrough key call).toNat :=
      Bool.toNat_le_toNat owes_letThrough
    refine h.moved hi rfl rfl (by simp) ?_ ?_
    · intro hopen
      have hroom := h.room hopen
      rw [recorded_at, recorded_released, recorded_withFailures, hcount hopen]
      simp only [letThrough, Bool.and_false, Bool.toNat_false] at howes ⊢
      omega
    · intro _ hopen
      rw [recorded_at, recorded_released, recorded_withFailures, hcount hopen,
        not_fails hi (by simp [hphase])]
      simp
  | succeeded hphase =>
    by_cases hkey : call.rateLimitKey = key
    · have hsuccess := hsucceeds (by simp [succeeds, movedLogin, hi, hphase, hkey])
      refine h.moved hi rfl rfl (by simp) ?_ (fun hsince hopen => absurd ⟨hsince, hopen⟩ hsuccess)
      intro hopen
      have hroom := h.room hopen
      rw [recorded_at, recorded_withFailures, recordSuccess, hkey, failuresOf_without_self]
      simp only [letThrough, hphase, Bool.and_false, Bool.toNat_false, List.countP_nil]
      omega
    · refine h.held hi rfl rfl (by simp) ?_ ?_ ?_
      · intro _
        rw [recorded_at, recorded_withFailures, recordSuccess,
          failuresOf_without_other (Ne.symm hkey), recorded]
      · simp [letThrough]
      · rw [not_fails hi (by simp [hphase])]
        simp [owes, hphase]

lemma abortLogin_limited (h : Limited service key since es w) {i : ℕ} {call : LoginCall}
    (hi : w.logins[i]? = some call) :
    Limited service key since (es ++ [⟨w, .abortLogin i, abortLogin w i call⟩])
      (abortLogin w i call) := by
  unfold abortLogin
  split
  · rename_i hphase
    refine h.held hi rfl rfl (by simp) (fun _ => rfl) ?_ ?_
    · simp [letThrough]
    · simp [owes, hphase, verificationFails, movedLogin]
  · rename_i hphase
    refine h.held hi rfl rfl (by simp) (fun _ => rfl) ?_ ?_
    · simp [letThrough]
    · simp [owes, hphase, verificationFails, movedLogin]
  · exact h.quiet rfl le_rfl (fun call hcall => .inl hcall) rfl rfl rfl

lemma Limited.frame (h : Limited service key since es w) {act : WebAct}
    (hact : ∀ i input, act ≠ .stepLogin i input) (hlogins : w'.logins = w.logins)
    (hfailures : w'.failures = w.failures) (hclock : w.clock ≤ w'.clock) :
    Limited service key since (es ++ [⟨w, act, w'⟩]) w' := by
  refine h.quiet ?_ hclock ?_ ?_ ?_ hfailures
  · cases act with
    | stepLogin i input => exact absurd rfl (hact i input)
    | _ => rfl
  · intro call hcall
    exact .inl (hlogins ▸ hcall)
  · rw [inFlight, hlogins, inFlight]
  · rw [owed, hlogins, owed]

lemma advanceReset_frame (j : ℕ) (call : ResetCall) :
    (advanceReset w j call).logins = w.logins ∧ (advanceReset w j call).failures = w.failures ∧
      (advanceReset w j call).clock = w.clock := by
  have hstep : Resetting w j call (advanceReset w j call) := resetting w j call
  generalize advanceReset w j call = w' at hstep
  cases hstep <;> exact ⟨rfl, rfl, rfl⟩

lemma abortReset_frame (j : ℕ) (call : ResetCall) :
    (abortReset w j call).logins = w.logins ∧ (abortReset w j call).failures = w.failures ∧
      (abortReset w j call).clock = w.clock := by
  rw [abortReset]
  split <;> exact ⟨rfl, rfl, rfl⟩

lemma step_limited (h : Limited service key since es w) {act : WebAct} (hstep : WebStep service w act w')
    (hcrowds : crowds service key ⟨w, act, w'⟩ = false)
    (hevicts : evicts service key ⟨w, act, w'⟩ = false)
    (hsucceeds : succeeds key ⟨w, act, w'⟩ → within service since ⟨w, act, w'⟩ = false) :
    Limited service key since (es ++ [⟨w, act, w'⟩]) w' := by
  obtain ⟨hallowed, rfl⟩ := hstep
  cases act with
  | tick clock => exact h.frame (by simp) rfl rfl hallowed
  | beginLogin username password rateLimitKey =>
    refine h.quiet rfl le_rfl ?_ ?_ ?_ rfl
    · intro call hcall
      rcases List.mem_append.mp hcall with hold | hnew
      · exact .inl hold
      · exact .inr (by rw [List.mem_singleton.mp hnew])
    · simp [inFlight, perform, letThrough]
    · simp [owed, perform, owes]
  | stepLogin i input =>
    cases hi : w.logins[i]? with
    | none =>
      simp only [perform, hi, Option.elim_none]
      refine h.quiet ?_ le_rfl (fun call hcall => .inl hcall) rfl rfl rfl
      simp [verificationFails, movedLogin, hi]
    | some call =>
      simp only [perform, hi, Option.elim_some] at hcrowds hevicts hsucceeds ⊢
      refine stepLogin_limited h hi (advanced w i call input) hcrowds hevicts ?_
      intro hsuccess hin
      simpa [within, hin] using hsucceeds hsuccess
  | abortLogin i =>
    cases hi : w.logins[i]? with
    | none =>
      simp only [perform, hi, Option.elim_none]
      exact h.frame (by simp) rfl rfl le_rfl
    | some call =>
      simp only [perform, hi, Option.elim_some]
      exact abortLogin_limited h hi
  | stepReset j =>
    cases hj : w.resets[j]? with
    | none =>
      simp only [perform, hj, Option.elim_none]
      exact h.frame (by simp) rfl rfl le_rfl
    | some call =>
      obtain ⟨hlogins, hfailures, hclock⟩ := advanceReset_frame (w := w) j call
      simp only [perform, hj, Option.elim_some]
      exact h.frame (by simp) hlogins hfailures hclock.ge
  | abortReset j =>
    cases hj : w.resets[j]? with
    | none =>
      simp only [perform, hj, Option.elim_none]
      exact h.frame (by simp) rfl rfl le_rfl
    | some call =>
      obtain ⟨hlogins, hfailures, hclock⟩ := abortReset_frame (w := w) j call
      simp only [perform, hj, Option.elim_some]
      exact h.frame (by simp) hlogins hfailures hclock.ge
  | _ => exact h.frame (by simp) rfl rfl le_rfl

end Steps

theorem attempts_limited {service : WebAuthService} {key : Text} {clock : ℚ}
    {es : List (Event Web WebAct)} {w : Web} (hrun : WebRun service (.opened clock) es w)
    (hcrowds : ∀ e ∈ es, crowds service key e = false)
    (hevicts : ∀ e ∈ es, evicts service key e = false) (since : ℚ)
    (hsucceeds : ∀ e ∈ es, succeeds key e → within service since e = false) :
    failedWithin service key since es ≤ service.limiter.maxAttempts := by
  let P (past : List (Event Web WebAct)) (w : Web) : Prop :=
    (∀ e ∈ past, crowds service key e = false ∧ evicts service key e = false ∧
      (succeeds key e → within service since e = false)) → Limited service key since past w
  have hlimited : P es w := by
    apply run_history P ?_ hrun (fun _ => .opened clock)
    intro past w act w' hpast hstep hall
    obtain ⟨hold, hlast⟩ := List.forall_mem_append.mp hall
    obtain ⟨hc, he, hs⟩ := hlast _ (List.mem_singleton_self _)
    exact step_limited (hpast hold) hstep hc he hs
  exact (hlimited (fun e he => ⟨hcrowds e he, hevicts e he, hsucceeds e he⟩)).bounded

def strictService : WebAuthService :=
  sampleService (sampleLimiter 1 (by decide))

def administratorSetUp : WebAct :=
  let password := "correct horse battery staple".toList
  .setup strictService.setupToken "admin".toList password
    ("$test-hash$".toList ++ sampleDigest password) 1 0

def wrongLogin : WebAct := .beginLogin "admin".toList "wrong-password".toList "client".toList

def steps (i n : ℕ) : List WebAct :=
  List.replicate n (.stepLogin i ⟨1000, "session-token".toList, "csrf-token".toList, 7, []⟩)

def inTurn : List WebAct :=
  [administratorSetUp, wrongLogin, wrongLogin] ++ steps 0 6 ++ steps 1 6

theorem attempts_limited_in_turn :
    failedWithin strictService "client".toList 0
      (trail (perform strictService) (.opened 0) inTurn) ≤ strictService.limiter.maxAttempts := by
  have hrun : WebRun strictService (.opened 0) (trail (perform strictService) (.opened 0) inTurn) _ :=
    run_trail Allowed _ (by decide +kernel)
  exact attempts_limited hrun (by decide +kernel) (by decide +kernel) 0 (by decide +kernel)

def overlapping : List WebAct :=
  [administratorSetUp, wrongLogin, wrongLogin] ++ steps 0 2 ++ steps 1 2 ++ steps 0 4 ++ steps 1 4

theorem overlapping_logins_exceed_limit :
    let es := trail (perform strictService) (.opened 0) overlapping
    WebRun strictService (.opened 0) es (overlapping.foldl (perform strictService) (.opened 0)) ∧
      (∀ e ∈ es, evicts strictService "client".toList e = false) ∧
      (∀ e ∈ es, succeeds "client".toList e = false) ∧
      strictService.limiter.maxAttempts < failedWithin strictService "client".toList 0 es :=
  ⟨run_trail Allowed _ (by decide +kernel), by decide +kernel, by decide +kernel, by decide +kernel⟩

end AudioServer.WebAuth.Attempts
