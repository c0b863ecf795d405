import Mathlib.Data.Nat.Digits.Defs
import Mathlib.Tactic.Lemma

/-! The decimal numerals of Python's integers, and the zeros a format puts in front of them. -/

namespace AudioServer.Foundations.Numerals

def numeral (n : ℕ) : List Char := n.repr.toList

/-- `%0*d`. -/
def padded (width n : ℕ) : List Char := (numeral n).leftpad width '0'

lemma numeral_digits (n : ℕ) : numeral n = Nat.toDigits 10 n := by
  rw [numeral, Nat.toList_repr]

lemma padded_value (width n : ℕ) : Nat.ofDigitChars 10 (padded width n) 0 = n := by
  rw [padded, List.leftpad, Nat.ofDigitChars_append, Nat.ofDigitChars_replicate_zero, Nat.mul_zero,
    numeral_digits]
  exact Nat.ofDigitChars_ten_toDigits

lemma padded_injective (width : ℕ) : Function.Injective (padded width) := by
  intro m n h
  rw [← padded_value width m, h, padded_value]

lemma padded_digit {width n : ℕ} {c : Char} (h : c ∈ padded width n) : c.isDigit := by
  rcases List.mem_append.mp h with hzero | hdigit
  · rw [List.eq_of_mem_replicate hzero]
    rfl
  · rw [numeral_digits] at hdigit
    exact Nat.isDigit_of_mem_toDigits (by decide) (by decide) hdigit

lemma padded_ne_nil (width n : ℕ) : padded width n ≠ [] := by
  intro h
  have hnumeral := (List.append_eq_nil_iff.mp h).2
  rw [numeral_digits] at hnumeral
  exact Nat.toDigits_ne_nil hnumeral

end AudioServer.Foundations.Numerals
