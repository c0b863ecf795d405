import AudioServer.Foundations.Dicts
import AudioServer.Foundations.Trimming
import AudioServer.WebAuth.Readings

/-! Whether a login that waits as long as its refusal told it is let through. -/

namespace AudioServer.WebAuth.RetryAfter

open AudioServer.Foundations.Dicts AudioServer.Foundations.Doubles AudioServer.Foundations.Strings
open AudioServer.Foundations.Trimming AudioServer.WebAuth.Limiter AudioServer.WebAuth.Readings

def FailsFor (key : Text) : LimiterCall Double → Prop
  | .recordFailure other _ => other = key
  | _ => False

def leaving (limiter : LoginRateLimiter Double) (key : Text) (now : Double)
    (failures : Failures Double) : List Double :=
  let active := (limiter.activeFailures key now failures).1
  active.take (active.length + 1 - limiter.maxAttempts)

def LeavesWithin (limiter : LoginRateLimiter Double) (now failedAt : Double) (seconds : ℤ) : Prop :=
  failedAt ≤ now.after seconds - limiter.window

def remaining (limiter : LoginRateLimiter Double) (now oldest : Double) : ℚ :=
  (limiter.window - (now - oldest)).val

/-- Within one second, or within the whole seconds that the oldest has left and one more if its
fraction is rounded up. -/
def Covered (limiter : LoginRateLimiter Double) (now oldest failedAt : Double) : Prop :=
  LeavesWithin limiter now failedAt 1 ∨
    LeavesWithin limiter now failedAt ⌊remaining limiter now oldest⌋ ∨
    (RoundsUp (remaining limiter now oldest) ∧
      LeavesWithin limiter now failedAt (⌊remaining limiter now oldest⌋ + 1))

def AllCovered (limiter : LoginRateLimiter Double) (key : Text) (now : Double)
    (failures : Failures Double) : Prop :=
  ∀ oldest ∈ (leaving limiter key now failures).head?,
    ∀ failedAt ∈ leaving limiter key now failures, Covered limiter now oldest failedAt

instance (limiter : LoginRateLimiter Double) (now failedAt : Double) (seconds : ℤ) :
    Decidable (LeavesWithin limiter now failedAt seconds) := inferInstanceAs (Decidable (_ ≤ _))

instance (limiter : LoginRateLimiter Double) (now oldest failedAt : Double) :
    Decidable (Covered limiter now oldest failedAt) := inferInstanceAs (Decidable (_ ∨ _))

section Rounding

variable {limiter : LoginRateLimiter Double} {now oldest failedAt : Double}

lemma LeavesWithin.mono {m n : ℤ} (h : LeavesWithin limiter now failedAt m) (hmn : m ≤ n) :
    LeavesWithin limiter now failedAt n :=
  le_trans h (Double.sub_le_sub_right (now.after_mono hmn) limiter.window)

lemma leavesWithin_max {m n : ℤ} : LeavesWithin limiter now failedAt (max m n) ↔
    LeavesWithin limiter now failedAt m ∨ LeavesWithin limiter now failedAt n := by
  constructor
  · intro h
    rcases max_choice m n with hm | hn
    · exact .inl (hm ▸ h)
    · exact .inr (hn ▸ h)
  · rintro (h | h)
    · exact h.mono (le_max_left m n)
    · exact h.mono (le_max_right m n)

lemma leavesWithin_retryAfter :
    LeavesWithin limiter now failedAt (max 1 (roundHalfEven (remaining limiter now oldest))) ↔
      Covered limiter now oldest failedAt := by
  rw [leavesWithin_max, Covered]
  by_cases hup : RoundsUp (remaining limiter now oldest)
  · rw [roundHalfEven_up hup]
    have hmore := fun h : LeavesWithin limiter now failedAt ⌊remaining limiter now oldest⌋ =>
      h.mono (by omega : ⌊remaining limiter now oldest⌋ ≤ ⌊remaining limiter now oldest⌋ + 1)
    tauto
  · rw [roundHalfEven_down hup]
    tauto

end Rounding

section Limiter

variable {limiter : LoginRateLimiter Double} {key : Text} {now : Double} {failures : Failures Double}

lemma ensureAllowed_none_iff : (limiter.ensureAllowed key now failures).1 = none ↔
    (limiter.activeFailures key now failures).1.length < limiter.maxAttempts := by
  refine ⟨ensureAllowed_none limiter now, fun hless => ?_⟩
  simp only [LoginRateLimiter.ensureAllowed]
  split
  · rfl
  · rename_i hactive
    rw [if_neg]
    rw [← hactive]
    exact Nat.not_le.mpr hless

lemma ensureAllowed_refused {r : ℤ}
    (h : (limiter.ensureAllowed key now failures).1 = some (loginRateLimited r)) :
    ∃ oldest later, (limiter.activeFailures key now failures).1 = oldest :: later ∧
      limiter.maxAttempts ≤ (oldest :: later).length ∧
      r = max 1 (roundHalfEven (remaining limiter now oldest)) := by
  simp only [LoginRateLimiter.ensureAllowed] at h
  split at h
  · cases h
  · rename_i oldest later hactive
    split at h
    · rename_i hmany
      cases h
      exact ⟨oldest, later, hactive, hmany, rfl⟩
    · cases h

def OneEntry (failures : Failures Double) : Prop := (failures.map (·.1)).Nodup

lemma OneEntry.without (h : OneEntry failures) (key : Text) : OneEntry (without key failures) :=
  h.sublist (List.filter_sublist.map _)

lemma OneEntry.moved (h : OneEntry failures) (key : Text) (times : List Double) :
    OneEntry (moved key times failures) := by
  rw [OneEntry, Limiter.moved, List.map_append, List.map_singleton, List.nodup_append]
  refine ⟨h.without key, List.nodup_singleton _, ?_⟩
  rintro _ hin _ hkey rfl
  obtain ⟨entry, hentry, rfl⟩ := List.mem_map.mp hin
  exact absurd (List.mem_singleton.mp hkey) (by simpa using (List.mem_filter.mp hentry).2)

lemma OneEntry.activeFailures (h : OneEntry failures) (limiter : LoginRateLimiter Double) (key : Text)
    (now : Double) : OneEntry (limiter.activeFailures key now failures).2 := by
  simp only [LoginRateLimiter.activeFailures]
  split
  · exact h.without key
  · exact h.moved key _

lemma OneEntry.perform (h : OneEntry failures) (limiter : LoginRateLimiter Double)
    (call : LimiterCall Double) :
    OneEntry (perform limiter failures call) := by
  cases call with
  | ensureAllowed key now =>
    rw [Readings.perform, ensureAllowed_failures]
    exact h.activeFailures limiter key now
  | recordFailure key now =>
    have hrecorded := (h.activeFailures limiter key now).moved key
      ((limiter.activeFailures key now failures).1 ++ [now])
    exact hrecorded.sublist ((List.drop_sublist _ _).map _)
  | recordSuccess key => exact h.without key

lemma failuresOf_drop (h : OneEntry failures) (n : ℕ) (key : Text) :
    failuresOf (failures.drop n) key <:+ failuresOf failures key := by
  cases hfound : (failures.drop n).find? (·.1 = key) with
  | none =>
    rw [failuresOf, hfound]
    exact List.nil_suffix
  | some entry =>
    have hmem := List.mem_of_mem_drop (List.mem_of_find?_eq_some hfound)
    have hkey : entry.1 = key := by simpa using List.find?_some hfound
    have hsame : failures.find? (·.1 = key) = some entry := by
      subst hkey
      exact find_key h hmem
    rw [failuresOf, failuresOf, hfound, hsame]

lemma perform_suffix (hone : OneEntry failures) {call : LimiterCall Double}
    (hcall : ¬ FailsFor key call) :
    failuresOf (perform limiter failures call) key <:+ failuresOf failures key := by
  cases call with
  | ensureAllowed other now =>
    rw [perform, ensureAllowed_failures]
    by_cases hkey : key = other
    · subst hkey
      rw [activeFailures_self]
      exact List.dropWhile_suffix _
    · rw [activeFailures_other limiter now hkey]
  | recordFailure other now =>
    have hother : key ≠ other := fun h => hcall h.symm
    have hrecorded : OneEntry (limiter.failureRecorded other now failures) :=
      (hone.activeFailures limiter other now).moved other _
    have hevicted := failuresOf_drop hrecorded
      ((limiter.failureRecorded other now failures).length - limiter.maxEntries) key
    rwa [failureRecorded_other limiter now hother] at hevicted
  | recordSuccess other =>
    by_cases hkey : key = other
    · subst hkey
      rw [perform, recordSuccess, failuresOf_without_self]
      exact List.nil_suffix
    · rw [perform, recordSuccess, failuresOf_without_other hkey]

lemma runCalls_oneEntry (limiter : LoginRateLimiter Double) (calls : List (LimiterCall Double))
    (hone : OneEntry failures) : OneEntry (runCalls limiter calls failures) := by
  induction calls generalizing failures with
  | nil => exact hone
  | cons call calls ih => exact ih (hone.perform limiter call)

lemma runCalls_suffix {calls : List (LimiterCall Double)} (hone : OneEntry failures)
    (hcalls : ∀ call ∈ calls, ¬ FailsFor key call) :
    failuresOf (runCalls limiter calls failures) key <:+ failuresOf failures key := by
  induction calls generalizing failures with
  | nil => exact List.suffix_rfl
  | cons call calls ih =>
    obtain ⟨hcall, hrest⟩ := List.forall_mem_cons.mp hcalls
    exact (ih (hone.perform limiter call) hrest).trans (perform_suffix hone hcall)

lemma ensureAllowed_suffix {active : List Double} (hsuffix : failuresOf failures key <:+ active)
    (hless : (active.dropWhile (· ≤ now - limiter.window)).length < limiter.maxAttempts) :
    (limiter.ensureAllowed key now failures).1 = none :=
  ensureAllowed_none_iff.mpr (Nat.lt_of_le_of_lt (length_dropWhile_suffix hsuffix) hless)

lemma allCovered_iff {oldest : Double} {later : List Double}
    (hactive : (limiter.activeFailures key now failures).1 = oldest :: later)
    (hmany : limiter.maxAttempts ≤ (oldest :: later).length) :
    AllCovered limiter key now failures ↔
      ∀ t ∈ (oldest :: later).take ((oldest :: later).length + 1 - limiter.maxAttempts),
        Covered limiter now oldest t := by
  obtain ⟨n, hn⟩ : ∃ n, (oldest :: later).length + 1 - limiter.maxAttempts = n + 1 :=
    ⟨(oldest :: later).length - limiter.maxAttempts, by omega⟩
  simp only [AllCovered, leaving, hactive, hn, List.take_succ_cons, List.head?_cons,
    Option.mem_some_iff, forall_eq']

end Limiter

/-- The clock that reads `t` reads `t.after r` when the wait is over. -/
theorem retry_after_honest_iff (limiter : LoginRateLimiter Double)
    (history : List (LimiterCall Double)) (key : Text) (t : Double) (r : ℤ)
    (hrefused : (limiter.ensureAllowed key t (runCalls limiter history [])).1 =
      some (loginRateLimited r)) :
    (∀ later, (∀ call ∈ later, ¬ FailsFor key call) →
      (limiter.ensureAllowed key (t.after r) (runCalls limiter later
        (limiter.ensureAllowed key t (runCalls limiter history [])).2)).1 = none) ↔
    AllCovered limiter key t (runCalls limiter history []) := by
  obtain ⟨oldest, rest, hactive, hmany, hr⟩ := ensureAllowed_refused hrefused
  generalize hstart : runCalls limiter history [] = failures at *
  have hone : OneEntry failures := hstart ▸ runCalls_oneEntry limiter history List.nodup_nil
  have hleft : OneEntry (limiter.ensureAllowed key t failures).2 :=
    hone.perform limiter (.ensureAllowed key t)
  have hkept : failuresOf (limiter.ensureAllowed key t failures).2 key = oldest :: rest := by
    rw [ensureAllowed_failures, activeFailures_self, hactive]
  have hall : AllCovered limiter key t failures ↔
      ((oldest :: rest).dropWhile (· ≤ t.after r - limiter.window)).length < limiter.maxAttempts := by
    rw [allCovered_iff hactive hmany, length_dropWhile_lt limiter.maxAttempts_pos]
    simp only [← leavesWithin_retryAfter, ← hr, LeavesWithin, decide_eq_true_eq]
  rw [hall]
  constructor
  · intro hhonest
    have hless := ensureAllowed_none_iff.mp (hhonest [] (fun _ h => absurd h List.not_mem_nil))
    rwa [LoginRateLimiter.activeFailures, runCalls, List.foldl_nil, hkept] at hless
  · intro hless later hlater
    exact ensureAllowed_suffix (hkept ▸ runCalls_suffix hleft hlater) hless

section Samples

def defaultLimiter : LoginRateLimiter Double :=
  ⟨5, .of 300, 2048, Nat.succ_pos 4, by decide +kernel, Nat.succ_pos 2047⟩

def clientKey : Text := "203.0.113.7".toList

def fiveFailures : List (LimiterCall Double) := List.replicate 5 (.recordFailure clientKey 0)

def spent : Failures Double := runCalls defaultLimiter fiveFailures []

theorem rounded_wait_is_refused_again :
    (defaultLimiter.ensureAllowed clientKey (.of (1488 / 5)) spent).1 = some (loginRateLimited 2) ∧
      (defaultLimiter.ensureAllowed clientKey ((Double.of (1488 / 5)).after 2)
        (defaultLimiter.ensureAllowed clientKey (.of (1488 / 5)) spent).2).1 ≠ none := by
  constructor <;> decide +kernel

-- The readings' difference is rounded to 297.5, so the wait that is left to exactly 2.5.
example : ¬ Covered defaultLimiter (.of (1491 / 5)) (.of (7 / 10)) (.of (7 / 10)) := by
  decide +kernel

theorem rounded_up_wait_is_honest :
    (defaultLimiter.ensureAllowed clientKey (.of (201 / 2)) spent).1 = some (loginRateLimited 200) ∧
      (defaultLimiter.ensureAllowed clientKey ((Double.of (201 / 2)).after 200)
        (defaultLimiter.ensureAllowed clientKey (.of (201 / 2)) spent).2).1 = none := by
  have hrefused : (defaultLimiter.ensureAllowed clientKey (.of (201 / 2)) spent).1 =
      some (loginRateLimited 200) := by decide +kernel
  have hleaving : leaving defaultLimiter clientKey (.of (201 / 2)) spent = [0] := by decide +kernel
  have hcovered : AllCovered defaultLimiter clientKey (.of (201 / 2)) spent := by
    rw [AllCovered, hleaving]
    rintro oldest ⟨⟩ failedAt hfailed
    rw [List.mem_singleton.mp hfailed]
    decide +kernel
  rw [spent] at hrefused hcovered ⊢
  have hhonest := (retry_after_honest_iff defaultLimiter fiveFailures clientKey (.of (201 / 2)) 200
    hrefused).mpr hcovered [] (fun _ h => absurd h List.not_mem_nil)
  exact ⟨hrefused, hhonest⟩

end Samples

end AudioServer.WebAuth.RetryAfter
