import Mathlib.Data.List.Basic
import Mathlib.Tactic.Lemma

/-! The ends two lists share, and what is left of each between them. -/

namespace AudioServer.Foundations.Trimming

universe u

variable {α : Type u} {xs ys : List α}

lemma drop_of_reverse {front back : ℕ} (h : front + back ≤ xs.length) :
    xs.drop (xs.length - back) = ((xs.drop front).reverse.take back).reverse := by
  rw [List.take_reverse, List.reverse_reverse, List.drop_drop, List.length_drop]
  congr 1
  omega

lemma between_ends {front back : ℕ} (h : front + back ≤ xs.length) :
    xs.take front ++ xs.extract front (xs.length - back) ++ xs.drop (xs.length - back) = xs := by
  have hdrop : xs.drop (xs.length - back) = (xs.drop front).drop (xs.length - back - front) := by
    rw [List.drop_drop]
    congr 1
    omega
  rw [List.append_assoc, hdrop, List.extract_eq_take_drop, List.take_append_drop, List.take_append_drop]

section Dropping

variable {p : α → Bool}

lemma length_dropWhile_suffix (h : xs <:+ ys) : (xs.dropWhile p).length ≤ (ys.dropWhile p).length := by
  obtain ⟨front, rfl⟩ := h
  rw [List.dropWhile_append]
  split
  · exact Nat.le_refl _
  · rw [List.length_append]
    exact Nat.le_trans (List.dropWhile_suffix p).length_le (Nat.le_add_left _ _)

lemma length_dropWhile_lt {n : ℕ} (hn : 0 < n) :
    (xs.dropWhile p).length < n ↔ ∀ x ∈ xs.take (xs.length + 1 - n), p x := by
  induction xs with
  | nil => simp [hn]
  | cons x xs ih =>
    rcases Nat.lt_or_ge (x :: xs).length n with hshort | hlong
    · have htake : (x :: xs).length + 1 - n = 0 := by omega
      rw [htake]
      simpa using Nat.lt_of_le_of_lt (List.dropWhile_suffix p).length_le hshort
    · have htake : (x :: xs).length + 1 - n = (xs.length + 1 - n) + 1 := by
        rw [List.length_cons] at hlong ⊢
        omega
      rw [htake, List.take_succ_cons, List.forall_mem_cons, ← ih, List.dropWhile_cons]
      by_cases hx : p x
      · simp [hx]
      · simp [hx] at hlong ⊢
        omega

end Dropping

variable [DecidableEq α]

def matched (keep : α → Bool) : List α → List α → ℕ
  | x :: xs, y :: ys => if x = y ∧ keep x then matched keep xs ys + 1 else 0
  | _, _ => 0

def rmatched (keep : α → Bool) (xs ys : List α) : ℕ :=
  matched keep (xs.drop (matched keep xs ys)).reverse (ys.drop (matched keep xs ys)).reverse

variable {keep : α → Bool}

lemma matched_le_left : matched keep xs ys ≤ xs.length := by
  fun_induction matched keep xs ys with
  | case1 x xs y ys h ih => exact Nat.succ_le_succ ih
  | case2 => exact Nat.zero_le _
  | case3 => exact Nat.zero_le _

lemma matched_le_right : matched keep xs ys ≤ ys.length := by
  fun_induction matched keep xs ys with
  | case1 x xs y ys h ih => exact Nat.succ_le_succ ih
  | case2 => exact Nat.zero_le _
  | case3 => exact Nat.zero_le _

lemma take_matched : xs.take (matched keep xs ys) = ys.take (matched keep xs ys) := by
  fun_induction matched keep xs ys with
  | case1 x xs y ys h ih => rw [List.take_succ_cons, List.take_succ_cons, ih, h.1]
  | case2 => rfl
  | case3 => rfl

lemma matched_kept : ∀ x ∈ xs.take (matched keep xs ys), keep x := by
  fun_induction matched keep xs ys with
  | case1 x xs y ys h ih => exact List.forall_mem_cons.mpr ⟨h.2, ih⟩
  | case2 => exact fun _ hx => absurd hx List.not_mem_nil
  | case3 => exact fun _ hx => absurd hx List.not_mem_nil

lemma rmatched_le_left : matched keep xs ys + rmatched keep xs ys ≤ xs.length := by
  have hback : rmatched keep xs ys ≤ _ := matched_le_left
  have hfront : matched keep xs ys ≤ xs.length := matched_le_left
  rw [List.length_reverse, List.length_drop] at hback
  omega

lemma rmatched_le_right : matched keep xs ys + rmatched keep xs ys ≤ ys.length := by
  have hback : rmatched keep xs ys ≤ _ := matched_le_right
  have hfront : matched keep xs ys ≤ ys.length := matched_le_right
  rw [List.length_reverse, List.length_drop] at hback
  omega

lemma drop_rmatched :
    xs.drop (xs.length - rmatched keep xs ys) = ys.drop (ys.length - rmatched keep xs ys) := by
  rw [drop_of_reverse rmatched_le_left, drop_of_reverse rmatched_le_right]
  exact congrArg List.reverse take_matched

lemma rmatched_kept : ∀ x ∈ xs.drop (xs.length - rmatched keep xs ys), keep x := by
  rw [drop_of_reverse rmatched_le_left]
  exact fun x hx => matched_kept x (List.mem_reverse.mp hx)

end AudioServer.Foundations.Trimming
