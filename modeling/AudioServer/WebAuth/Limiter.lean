import AudioServer.Foundations.Doubles
import AudioServer.Foundations.Strings

/-! The process-local limiter of failed logins. Its clock counts seconds: in floats, or exactly, where
no rounding is to blur what the limiter counts. -/

namespace AudioServer.WebAuth.Limiter

open AudioServer.Foundations.Doubles AudioServer.Foundations.Strings

structure WebAuthError where
  statusCode : ℕ
  code : String
  safeMessage : String
  retryAfter : Option ℤ
deriving DecidableEq

class RoundsToSeconds (N : Type) where
  round : N → ℤ

instance : RoundsToSeconds ℚ := ⟨roundHalfEven⟩

instance : RoundsToSeconds Double := ⟨fun x => roundHalfEven x.val⟩

structure LoginRateLimiter (N : Type) [LinearOrder N] [Zero N] where
  maxAttempts : ℕ
  window : N
  maxEntries : ℕ
  maxAttempts_pos : 1 ≤ maxAttempts
  window_pos : 0 < window
  maxEntries_pos : 1 ≤ maxEntries

/-- The failures of each key; the key that was used last stands at the end. -/
abbrev Failures (N : Type) := List (Text × List N)

def loginRateLimited (retryAfter : ℤ) : WebAuthError where
  statusCode := 429
  code := "login_rate_limited"
  safeMessage := "Too many login attempts. Try again later."
  retryAfter := some retryAfter

section Steps

variable {N : Type}

def failuresOf (failures : Failures N) (key : Text) : List N :=
  ((failures.find? (·.1 = key)).map (·.2)).getD []

def without (key : Text) (failures : Failures N) : Failures N := failures.filter (·.1 ≠ key)

def moved (key : Text) (times : List N) (failures : Failures N) : Failures N :=
  without key failures ++ [(key, times)]

variable [LinearOrder N] [Zero N] [Sub N]

def LoginRateLimiter.activeFailures (limiter : LoginRateLimiter N) (key : Text) (now : N)
    (failures : Failures N) : List N × Failures N :=
  let active := (failuresOf failures key).dropWhile (· ≤ now - limiter.window)
  (active, if active = [] then without key failures else moved key active failures)

def LoginRateLimiter.ensureAllowed [RoundsToSeconds N] (limiter : LoginRateLimiter N) (key : Text)
    (now : N) (failures : Failures N) : Option WebAuthError × Failures N :=
  let (active, failures) := limiter.activeFailures key now failures
  match active with
  | [] => (none, failures)
  | oldest :: later =>
    if limiter.maxAttempts ≤ (oldest :: later).length then
      (some (loginRateLimited
        (max 1 (RoundsToSeconds.round (limiter.window - (now - oldest))))), failures)
    else (none, failures)

def LoginRateLimiter.evict (limiter : LoginRateLimiter N) (failures : Failures N) : Failures N :=
  failures.drop (failures.length - limiter.maxEntries)

def LoginRateLimiter.failureRecorded (limiter : LoginRateLimiter N) (key : Text) (now : N)
    (failures : Failures N) : Failures N :=
  let (active, failures) := limiter.activeFailures key now failures
  moved key (active ++ [now]) failures

def LoginRateLimiter.recordFailure (limiter : LoginRateLimiter N) (key : Text) (now : N)
    (failures : Failures N) : Failures N :=
  limiter.evict (limiter.failureRecorded key now failures)

def recordSuccess (key : Text) (failures : Failures N) : Failures N := without key failures

end Steps

section Entries

variable {N : Type} {key other : Text} {failures : Failures N} {times : List N}

@[simp] lemma failuresOf_without_self : failuresOf (without key failures) key = [] := by
  have hnone : (without key failures).find? (·.1 = key) = none := by
    rw [List.find?_eq_none]
    intro entry hentry
    simpa using (List.mem_filter.mp hentry).2
  rw [failuresOf, hnone]
  rfl

lemma failuresOf_without_other (h : other ≠ key) :
    failuresOf (without key failures) other = failuresOf failures other := by
  rw [failuresOf, failuresOf, without, List.find?_filter]
  congr 3
  funext entry
  by_cases he : entry.1 = other
  · simp [he, h]
  · simp [he]

@[simp] lemma failuresOf_moved_self : failuresOf (moved key times failures) key = times := by
  have hnone : (without key failures).find? (·.1 = key) = none := by
    rw [List.find?_eq_none]
    intro entry hentry
    simpa using (List.mem_filter.mp hentry).2
  rw [failuresOf, moved, List.find?_append, hnone]
  simp

lemma failuresOf_moved_other (h : other ≠ key) :
    failuresOf (moved key times failures) other = failuresOf failures other := by
  have hnone : [(key, times)].find? (·.1 = other) = none := by
    simp [Ne.symm h]
  rw [failuresOf, moved, List.find?_append, hnone, Option.or_none]
  exact failuresOf_without_other h

variable [LinearOrder N] [Zero N] [Sub N] (limiter : LoginRateLimiter N) (now : N)

@[simp] lemma activeFailures_self :
    failuresOf (limiter.activeFailures key now failures).2 key =
      (limiter.activeFailures key now failures).1 := by
  simp only [LoginRateLimiter.activeFailures]
  split
  · rename_i hnone
    rw [failuresOf_without_self, hnone]
  · rw [failuresOf_moved_self]

lemma activeFailures_other (h : other ≠ key) :
    failuresOf (limiter.activeFailures key now failures).2 other = failuresOf failures other := by
  simp only [LoginRateLimiter.activeFailures]
  split
  · exact failuresOf_without_other h
  · exact failuresOf_moved_other h

lemma ensureAllowed_failures [RoundsToSeconds N] :
    (limiter.ensureAllowed key now failures).2 = (limiter.activeFailures key now failures).2 := by
  simp only [LoginRateLimiter.ensureAllowed]
  split
  · rfl
  · split
    · rfl
    · rfl

lemma ensureAllowed_none [RoundsToSeconds N] (h : (limiter.ensureAllowed key now failures).1 = none) :
    (limiter.activeFailures key now failures).1.length < limiter.maxAttempts := by
  simp only [LoginRateLimiter.ensureAllowed] at h
  split at h
  · rename_i hnone
    rw [hnone]
    exact limiter.maxAttempts_pos
  · rename_i hsome
    rw [hsome]
    split at h
    · cases h
    · rename_i hless
      exact Nat.lt_of_not_le hless

@[simp] lemma failureRecorded_self :
    failuresOf (limiter.failureRecorded key now failures) key =
      (limiter.activeFailures key now failures).1 ++ [now] :=
  failuresOf_moved_self

lemma failureRecorded_other (h : other ≠ key) :
    failuresOf (limiter.failureRecorded key now failures) other = failuresOf failures other := by
  rw [LoginRateLimiter.failureRecorded]
  exact (failuresOf_moved_other h).trans (activeFailures_other limiter now h)

lemma activeFailures_recent {since : N} (h : now - limiter.window < since) :
    (limiter.activeFailures key now failures).1.countP (since ≤ ·) =
      (failuresOf failures key).countP (since ≤ ·) := by
  show ((failuresOf failures key).dropWhile (· ≤ now - limiter.window)).countP _ = _
  induction failuresOf failures key with
  | nil => rfl
  | cons t rest ih =>
    rw [List.dropWhile_cons]
    split
    · rename_i hold
      have hbefore : ¬ since ≤ t := not_le.mpr (lt_of_le_of_lt (of_decide_eq_true hold) h)
      rw [ih, List.countP_cons_of_neg (by simpa using hbefore)]
    · rfl

lemma ensureAllowed_recent [RoundsToSeconds N] {since : N} (h : now - limiter.window < since) :
    (failuresOf (limiter.ensureAllowed key now failures).2 other).countP (since ≤ ·) =
      (failuresOf failures other).countP (since ≤ ·) := by
  rw [ensureAllowed_failures]
  by_cases hkey : other = key
  · rw [hkey, activeFailures_self, activeFailures_recent limiter now h]
  · rw [activeFailures_other limiter now hkey]

lemma failureRecorded_recent {since : N} (h : now - limiter.window < since) :
    (failuresOf (limiter.failureRecorded key now failures) other).countP (since ≤ ·) =
      (failuresOf failures other).countP (since ≤ ·) + (key = other && since ≤ now : Bool).toNat := by
  by_cases hkey : other = key
  · rw [hkey, failureRecorded_self, List.countP_append, activeFailures_recent limiter now h]
    by_cases hsince : since ≤ now <;> simp [hsince]
  · rw [failureRecorded_other limiter now hkey]
    simp [Ne.symm hkey]

end Entries

end AudioServer.WebAuth.Limiter
