import AudioServer.WebAuth.Limiter

/-! The limiter on the floats of `time.monotonic()`. With a window of whole seconds it counts the
failures that it would count if nothing were rounded. -/

namespace AudioServer.WebAuth.Readings

open AudioServer.Foundations.Doubles AudioServer.Foundations.Strings AudioServer.WebAuth.Limiter

inductive LimiterCall (N : Type)
  | ensureAllowed (key : Text) (now : N)
  | recordFailure (key : Text) (now : N)
  | recordSuccess (key : Text)

section Calls

variable {N : Type} [LinearOrder N] [Zero N] [Sub N] [RoundsToSeconds N]

def perform (limiter : LoginRateLimiter N) (failures : Failures N) : LimiterCall N → Failures N
  | .ensureAllowed key now => (limiter.ensureAllowed key now failures).2
  | .recordFailure key now => limiter.recordFailure key now failures
  | .recordSuccess key => recordSuccess key failures

def runCalls (limiter : LoginRateLimiter N) (calls : List (LimiterCall N)) (failures : Failures N) :
    Failures N :=
  calls.foldl (perform limiter) failures

end Calls

def LimiterCall.exact : LimiterCall Double → LimiterCall ℚ
  | .ensureAllowed key now => .ensureAllowed key now.val
  | .recordFailure key now => .recordFailure key now.val
  | .recordSuccess key => .recordSuccess key

/-- What a monotonic clock reads: from 0 on, and no number above the 53 bits of a float. -/
def Reads (now : Double) : Prop := 0 ≤ now.val ∧ now.val ≤ 2 ^ 53

def LimiterCall.Reads : LimiterCall Double → Prop
  | .ensureAllowed _ now => Readings.Reads now
  | .recordFailure _ now => Readings.Reads now
  | .recordSuccess _ => True

def exactTimes (times : List Double) : List ℚ := times.map Double.val

def exactFailures (failures : Failures Double) : Failures ℚ :=
  failures.map (fun entry => (entry.1, exactTimes entry.2))

def exactLimiter (limiter : LoginRateLimiter Double) : LoginRateLimiter ℚ where
  maxAttempts := limiter.maxAttempts
  window := limiter.window.val
  maxEntries := limiter.maxEntries
  maxAttempts_pos := limiter.maxAttempts_pos
  window_pos := by
    have hpos : ¬ limiter.window.val ≤ (0 : Double).val := not_le.mpr limiter.window_pos
    rwa [Double.val_zero, not_le] at hpos
  maxEntries_pos := limiter.maxEntries_pos

@[simp] lemma exactLimiter_window (limiter : LoginRateLimiter Double) :
    (exactLimiter limiter).window = limiter.window.val := rfl

def WholeSeconds (limiter : LoginRateLimiter Double) : Prop :=
  ∃ n : ℕ, n ≤ 2 ^ 53 ∧ limiter.window.val = n

def FromZero (failures : Failures Double) : Prop := ∀ entry ∈ failures, ∀ t ∈ entry.2, 0 ≤ t.val

section Exact

variable {limiter : LoginRateLimiter Double} {key : Text} {now : Double} {failures : Failures Double}

lemma failuresOf_exact (failures : Failures Double) (key : Text) :
    failuresOf (exactFailures failures) key = exactTimes (failuresOf failures key) := by
  induction failures with
  | nil => rfl
  | cons entry rest ih =>
    by_cases hkey : entry.1 = key
    · simp [failuresOf, exactFailures, hkey]
    · simpa [failuresOf, exactFailures, List.find?_cons, hkey] using ih

lemma without_exact (key : Text) (failures : Failures Double) :
    without key (exactFailures failures) = exactFailures (without key failures) := by
  rw [without, exactFailures, List.filter_map]
  rfl

lemma moved_exact (key : Text) (times : List Double) (failures : Failures Double) :
    moved key (exactTimes times) (exactFailures failures) = exactFailures (moved key times failures) := by
  rw [moved, without_exact, moved]
  simp only [exactFailures, List.map_append, List.map_singleton]

lemma FromZero.failuresOf (h : FromZero failures) (key : Text) :
    ∀ t ∈ failuresOf failures key, 0 ≤ t.val := by
  intro t ht
  rw [Limiter.failuresOf] at ht
  cases hfound : failures.find? (·.1 = key) with
  | none =>
    rw [hfound] at ht
    exact absurd ht List.not_mem_nil
  | some entry =>
    rw [hfound] at ht
    exact h entry (List.mem_of_find?_eq_some hfound) t ht

lemma FromZero.without (h : FromZero failures) (key : Text) : FromZero (without key failures) :=
  fun entry hentry => h entry (List.mem_of_mem_filter hentry)

lemma FromZero.moved (h : FromZero failures) {times : List Double} (htimes : ∀ t ∈ times, 0 ≤ t.val)
    (key : Text) : FromZero (moved key times failures) := by
  intro entry hentry
  rcases List.mem_append.mp hentry with hold | hnew
  · exact h.without key entry hold
  · rw [List.mem_singleton.mp hnew]
    exact htimes

lemma dropWhile_exact (hwhole : WholeSeconds limiter) (hnow : Reads now) {times : List Double}
    (htimes : ∀ t ∈ times, 0 ≤ t.val) :
    (exactTimes times).dropWhile (· ≤ now.val - (exactLimiter limiter).window) =
      exactTimes (times.dropWhile (· ≤ now - limiter.window)) := by
  obtain ⟨n, hn, hwindow⟩ := hwhole
  induction times with
  | nil => rfl
  | cons t rest ih =>
    obtain ⟨ht, hrest⟩ := List.forall_mem_cons.mp htimes
    have hsame : t.val ≤ now.val - (exactLimiter limiter).window ↔ t ≤ now - limiter.window := by
      rw [Double.le_iff, Double.val_sub, exactLimiter_window, hwindow]
      exact (le_double_sub_natCast now.isDouble ht hnow.2 hn).symm
    simp only [exactTimes, List.map_cons, List.dropWhile_cons, decide_eq_true_eq, hsame]
    split
    · exact ih hrest
    · rfl

lemma activeFailures_exact (hwhole : WholeSeconds limiter) (hnow : Reads now)
    (hzero : FromZero failures) (key : Text) :
    (exactLimiter limiter).activeFailures key now.val (exactFailures failures) =
      (exactTimes (limiter.activeFailures key now failures).1,
        exactFailures (limiter.activeFailures key now failures).2) := by
  have hactive := dropWhile_exact hwhole hnow (hzero.failuresOf key)
  simp only [LoginRateLimiter.activeFailures, failuresOf_exact, hactive, Prod.mk.injEq, true_and]
  by_cases hnil : (failuresOf failures key).dropWhile (· ≤ now - limiter.window) = []
  · rw [hnil, if_pos rfl, exactTimes, List.map_nil, if_pos rfl, without_exact]
  · rw [if_neg hnil, if_neg (by simpa [exactTimes] using hnil), moved_exact]

lemma FromZero.active (h : FromZero failures) (limiter : LoginRateLimiter Double) (key : Text)
    (now : Double) : (∀ t ∈ (limiter.activeFailures key now failures).1, 0 ≤ t.val) ∧
      FromZero (limiter.activeFailures key now failures).2 := by
  have hactive : ∀ t ∈ (limiter.activeFailures key now failures).1, 0 ≤ t.val :=
    fun t ht => h.failuresOf key t (List.dropWhile_sublist _ |>.subset ht)
  refine ⟨hactive, ?_⟩
  simp only [LoginRateLimiter.activeFailures]
  split
  · exact h.without key
  · exact h.moved hactive key

lemma ensureAllowed_exact (hwhole : WholeSeconds limiter) (hnow : Reads now)
    (hzero : FromZero failures) (key : Text) :
    ((exactLimiter limiter).ensureAllowed key now.val (exactFailures failures)).1.isSome =
        (limiter.ensureAllowed key now failures).1.isSome ∧
      ((exactLimiter limiter).ensureAllowed key now.val (exactFailures failures)).2 =
        exactFailures (limiter.ensureAllowed key now failures).2 := by
  constructor
  · simp only [LoginRateLimiter.ensureAllowed, activeFailures_exact hwhole hnow hzero key]
    cases (limiter.activeFailures key now failures).1 with
    | nil => rfl
    | cons oldest later =>
      simp only [exactTimes, List.map_cons, List.length_cons, List.length_map, exactLimiter]
      split <;> rfl
  · rw [ensureAllowed_failures, ensureAllowed_failures, activeFailures_exact hwhole hnow hzero key]

lemma recordFailure_exact (hwhole : WholeSeconds limiter) (hnow : Reads now)
    (hzero : FromZero failures) (key : Text) :
    (exactLimiter limiter).recordFailure key now.val (exactFailures failures) =
      exactFailures (limiter.recordFailure key now failures) := by
  have hnew : exactTimes (limiter.activeFailures key now failures).1 ++ [now.val] =
      exactTimes ((limiter.activeFailures key now failures).1 ++ [now]) := by
    rw [exactTimes, exactTimes, List.map_append, List.map_singleton]
  simp only [LoginRateLimiter.recordFailure, LoginRateLimiter.evict, LoginRateLimiter.failureRecorded,
    activeFailures_exact hwhole hnow hzero key, hnew, moved_exact]
  rw [exactFailures, List.length_map, exactFailures, List.map_drop]
  rfl

lemma FromZero.perform (h : FromZero failures) (limiter : LoginRateLimiter Double)
    {call : LimiterCall Double} (hcall : call.Reads) : FromZero (perform limiter failures call) := by
  cases call with
  | ensureAllowed key now =>
    rw [Readings.perform, ensureAllowed_failures]
    exact (h.active limiter key now).2
  | recordFailure key now =>
    obtain ⟨hactive, hkept⟩ := h.active limiter key now
    have hnew : ∀ t ∈ (limiter.activeFailures key now failures).1 ++ [now], 0 ≤ t.val := by
      intro t ht
      rcases List.mem_append.mp ht with hold | hlast
      · exact hactive t hold
      · rw [List.mem_singleton.mp hlast]
        exact hcall.1
    exact fun entry hentry => hkept.moved hnew key entry (List.mem_of_mem_drop hentry)
  | recordSuccess key => exact h.without key

lemma perform_exact (hwhole : WholeSeconds limiter) (hzero : FromZero failures)
    {call : LimiterCall Double} (hcall : call.Reads) :
    perform (exactLimiter limiter) (exactFailures failures) call.exact =
      exactFailures (perform limiter failures call) := by
  cases call with
  | ensureAllowed key now => exact (ensureAllowed_exact hwhole hcall hzero key).2
  | recordFailure key now => exact recordFailure_exact hwhole hcall hzero key
  | recordSuccess key => exact without_exact key failures

lemma runCalls_exact (hwhole : WholeSeconds limiter) {calls : List (LimiterCall Double)}
    (hcalls : ∀ call ∈ calls, call.Reads) (hzero : FromZero failures) :
    runCalls (exactLimiter limiter) (calls.map .exact) (exactFailures failures) =
        exactFailures (runCalls limiter calls failures) ∧
      FromZero (runCalls limiter calls failures) := by
  induction calls generalizing failures with
  | nil => exact ⟨rfl, hzero⟩
  | cons call rest ih =>
    obtain ⟨hcall, hrest⟩ := List.forall_mem_cons.mp hcalls
    have hnext := ih hrest (hzero.perform limiter hcall)
    rw [← perform_exact hwhole hzero hcall] at hnext
    exact hnext

/-- A limiter whose clock reads doubles refuses exactly what it refuses without rounding. -/
theorem refusals_exact (hwhole : WholeSeconds limiter) {calls : List (LimiterCall Double)}
    (hcalls : ∀ call ∈ calls, call.Reads) (hnow : Reads now) (key : Text) :
    ((exactLimiter limiter).ensureAllowed key now.val
        (runCalls (exactLimiter limiter) (calls.map .exact) [])).1.isSome =
      (limiter.ensureAllowed key now (runCalls limiter calls [])).1.isSome := by
  have hnone : FromZero [] := fun _ h => absurd h List.not_mem_nil
  obtain ⟨hsame, hzero⟩ := runCalls_exact hwhole hcalls hnone
  rw [← (ensureAllowed_exact hwhole hnow hzero key).1, ← hsame]
  rfl

end Exact

end AudioServer.WebAuth.Readings
