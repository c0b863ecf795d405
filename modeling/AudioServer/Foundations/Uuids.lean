import Mathlib.Algebra.GroupWithZero.Nat
import AudioServer.Foundations.Strings

/-! UUIDs and the 8-4-4-4-12 form `str` gives them. -/

namespace AudioServer.Foundations.Uuids

open AudioServer.Foundations.Strings

structure Uuid where
  int : ℕ
  lt : int < 16 ^ 32
deriving DecidableEq

/-- `"%0*x" % (digits, n)` of a number with at most that many digits. -/
def hex : ℕ → ℕ → Text
  | 0, _ => []
  | digits + 1, n => hex digits (n / 16) ++ [Nat.digitChar (n % 16)]

/-- `str(uuid)`: the hyphens stand in front of the digits 8, 12, 16 and 20. -/
def Uuid.text (id : Uuid) : Text :=
  hex 8 (id.int / 16 ^ 24) ++ '-' :: hex 4 (id.int / 16 ^ 20) ++ '-' :: hex 4 (id.int / 16 ^ 16) ++
    '-' :: hex 4 (id.int / 16 ^ 12) ++ '-' :: hex 12 id.int

lemma length_hex (digits n : ℕ) : (hex digits n).length = digits := by
  induction digits generalizing n with
  | zero => rfl
  | succ digits ih => rw [hex, List.length_append, ih, List.length_singleton]

lemma digitChar_inj {a b : ℕ} (ha : a < 16) (hb : b < 16) (h : Nat.digitChar a = Nat.digitChar b) :
    a = b := by
  have hall : ∀ a < 16, ∀ b < 16, Nat.digitChar a = Nat.digitChar b → a = b := by decide
  exact hall a ha b hb h

lemma hex_inj {digits m n : ℕ} (h : hex digits m = hex digits n) :
    m % 16 ^ digits = n % 16 ^ digits := by
  induction digits generalizing m n with
  | zero => rw [Nat.pow_zero, Nat.mod_one, Nat.mod_one]
  | succ digits ih =>
    have hlen : (hex digits (m / 16)).length = (hex digits (n / 16)).length := by
      rw [length_hex, length_hex]
    obtain ⟨hhigh, hlow⟩ := List.append_inj h hlen
    have hhigh := ih hhigh
    have hlow := digitChar_inj (Nat.mod_lt _ (by decide)) (Nat.mod_lt _ (by decide))
      (List.singleton_inj.mp hlow)
    rw [Nat.pow_succ', Nat.mod_mul, Nat.mod_mul, hhigh, hlow]

lemma hex_graphic (digits n : ℕ) : ∀ c ∈ hex digits n, c ∈ "0123456789abcdef".toList := by
  induction digits generalizing n with
  | zero => exact fun c hc => absurd hc List.not_mem_nil
  | succ digits ih =>
    intro c hc
    rcases List.mem_append.mp hc with hc | hc
    · exact ih (n / 16) c hc
    · have hall : ∀ d < 16, Nat.digitChar d ∈ "0123456789abcdef".toList := by decide
      rw [List.mem_singleton.mp hc]
      exact hall (n % 16) (Nat.mod_lt _ (by decide))

lemma append_delimiter_inj {α : Type} {d : α} {a b s t : List α} (ha : d ∉ a) (hb : d ∉ b)
    (h : a ++ d :: s = b ++ d :: t) : a = b ∧ s = t := by
  induction a generalizing b with
  | nil =>
    cases b with
    | nil => exact ⟨rfl, (List.cons.inj h).2⟩
    | cons x b => exact absurd (List.mem_cons.mpr (.inl (List.cons.inj h).1)) hb
  | cons x a ih =>
    cases b with
    | nil => exact absurd (List.mem_cons.mpr (.inl (List.cons.inj h).1.symm)) ha
    | cons y b =>
      obtain ⟨rfl, hrest⟩ := List.cons.inj h
      obtain ⟨rfl, rfl⟩ := ih (fun hm => ha (List.mem_cons_of_mem _ hm))
        (fun hm => hb (List.mem_cons_of_mem _ hm)) hrest
      exact ⟨rfl, rfl⟩

lemma text_inj {a b : Uuid} (h : a.text = b.text) : a = b := by
  have hcut : ∀ {k m n : ℕ} {s t : Text}, hex k m ++ s = hex k n ++ t →
      m % 16 ^ k = n % 16 ^ k ∧ s = t := by
    intro k m n s t he
    obtain ⟨hdigits, hrest⟩ := List.append_inj he (by rw [length_hex, length_hex])
    exact ⟨hex_inj hdigits, hrest⟩
  simp only [Uuid.text, List.append_assoc, List.cons_append] at h
  obtain ⟨h₁, h⟩ := hcut h
  obtain ⟨h₂, h⟩ := hcut (List.cons.inj h).2
  obtain ⟨h₃, h⟩ := hcut (List.cons.inj h).2
  obtain ⟨h₄, h⟩ := hcut (List.cons.inj h).2
  have h₅ := hex_inj (List.cons.inj h).2
  rcases a with ⟨m, hm⟩
  rcases b with ⟨n, hn⟩
  simp only [Uuid.mk.injEq] at h₁ h₂ h₃ h₄ h₅ ⊢
  omega

lemma text_ne_nil (id : Uuid) : id.text ≠ [] := by
  intro h
  have hlen := congrArg List.length h
  simp [Uuid.text] at hlen

lemma bar_not_in_text (id : Uuid) : '|' ∉ id.text := by
  have hbar : ∀ digits n, '|' ∉ hex digits n := by
    intro digits n hmem
    exact absurd (hex_graphic digits n '|' hmem) (by decide)
  simp [Uuid.text, hbar]

end AudioServer.Foundations.Uuids
