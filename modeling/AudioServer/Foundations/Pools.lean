import Mathlib.Algebra.GroupWithZero.Nat
import Mathlib.Data.List.Nodup
import Mathlib.Tactic.Lemma

/-! Calls in progress side by side, each at its place in a list: a step replaces
one of them, a new call joins at the end. -/

namespace AudioServer.Foundations.Pools

variable {α : Type} {R : α → α → Prop} {l : List α} {a b : α} {i k : ℕ}

lemma set_some (h : (l.set i a)[k]? = some b) : (k = i ∧ b = a) ∨ (k ≠ i ∧ l[k]? = some b) := by
  rw [List.getElem?_set] at h
  split at h
  · rename_i he
    split at h
    · cases h
      exact .inl ⟨he.symm, rfl⟩
    · cases h
  · rename_i hne
    exact .inr ⟨Ne.symm hne, h⟩

lemma set_self (h : l[i]? = some b) : (l.set i a)[i]? = some a := by
  have hlt := (List.getElem?_eq_some_iff.mp h).1
  simp [hlt]

lemma set_other (h : k ≠ i) : (l.set i a)[k]? = l[k]? := by
  simp [Ne.symm h]

lemma snoc_some (h : (l ++ [a])[k]? = some b) : l[k]? = some b ∨ (l.length = k ∧ b = a) := by
  rw [List.getElem?_append] at h
  split at h
  · exact .inl h
  · rename_i hge
    obtain ⟨hlt, he⟩ := List.getElem?_eq_some_iff.mp h
    simp only [List.length_singleton, List.getElem_singleton] at hlt he
    exact .inr ⟨by omega, he.symm⟩

lemma snoc_old (h : l[k]? = some b) : (l ++ [a])[k]? = some b := by
  have hlt := (List.getElem?_eq_some_iff.mp h).1
  rw [List.getElem?_append_left hlt, h]

lemma forall_set {P : α → Prop} (h : ∀ b ∈ l, P b) (ha : P a) : ∀ b ∈ l.set i a, P b := by
  intro b hb
  rcases List.mem_or_eq_of_mem_set hb with hold | rfl
  · exact h b hold
  · exact ha

lemma forall_snoc {P : α → Prop} (h : ∀ b ∈ l, P b) (ha : P a) : ∀ b ∈ l ++ [a], P b :=
  List.forall_mem_append.mpr ⟨h, List.forall_mem_singleton.mpr ha⟩

lemma map_set_same {β : Type} {f : α → β} (h : l[i]? = some b) (hf : f a = f b) :
    (l.set i a).map f = l.map f := by
  induction l generalizing i with
  | nil => rfl
  | cons c l ih =>
    cases i with
    | zero =>
      cases h
      rw [List.set_cons_zero, List.map_cons, List.map_cons, hf]
    | succ i => rw [List.set_cons_succ, List.map_cons, List.map_cons, ih h]

lemma mem_set_ne (h : l[i]? = some b) {c : α} (hc : c ∈ l) (hne : c ≠ b) : c ∈ l.set i a := by
  obtain ⟨k, hk⟩ := List.mem_iff_getElem?.mp hc
  have hki : k ≠ i := by
    rintro rfl
    exact hne (Option.some.inj (hk.symm.trans h))
  exact List.mem_of_getElem? ((set_other hki).trans hk)

lemma mem_eraseIdx_ne (h : l[i]? = some b) {c : α} (hc : c ∈ l) (hne : c ≠ b) : c ∈ l.eraseIdx i := by
  obtain ⟨k, hk⟩ := List.mem_iff_getElem?.mp hc
  refine List.mem_eraseIdx_iff_getElem?.mpr ⟨k, ?_, hk⟩
  rintro rfl
  exact hne (Option.some.inj (hk.symm.trans h))

lemma nodup_map_snoc {β : Type} {f : α → β} (h : (l.map f).Nodup) (ha : ∀ x ∈ l, f x ≠ f a) :
    ((l ++ [a]).map f).Nodup := by
  rw [List.map_append, List.map_singleton, List.nodup_append]
  refine ⟨h, List.nodup_singleton _, ?_⟩
  intro b hb c hc he
  obtain ⟨x, hx, rfl⟩ := List.mem_map.mp hb
  exact ha x hx (he.trans (List.mem_singleton.mp hc))

lemma nodup_map_index {β : Type} {f : α → β} (h : (l.map f).Nodup) (hi : l[i]? = some a)
    (hk : l[k]? = some b) (hf : f a = f b) : i = k := by
  have hlt : i < (l.map f).length := by
    rw [List.length_map]
    exact (List.getElem?_eq_some_iff.mp hi).1
  apply (List.getElem?_inj hlt h).mp
  rw [List.getElem?_map, List.getElem?_map, hi, hk, Option.map_some, Option.map_some, hf]

lemma filter_snoc_self {p : α → Prop} [DecidablePred p] (h : ∀ x ∈ l, ¬ p x) (ha : p a) :
    (l ++ [a]).filter (fun x => decide (p x)) = [a] := by
  have hnone : l.filter (fun x => decide (p x)) = [] := by
    rw [List.filter_eq_nil_iff]
    intro x hx hp
    exact h x hx (of_decide_eq_true hp)
  rw [List.filter_append, hnone, List.nil_append]
  simp [ha]

lemma filter_snoc_other {p : α → Prop} [DecidablePred p] (ha : ¬ p a) :
    (l ++ [a]).filter (fun x => decide (p x)) = l.filter (fun x => decide (p x)) := by
  simp [List.filter_append, ha]

lemma countP_set {p : α → Bool} (h : l[i]? = some b) :
    (l.set i a).countP p + (p b).toNat = l.countP p + (p a).toNat := by
  induction l generalizing i with
  | nil => cases h
  | cons c l ih =>
    cases i with
    | zero =>
      cases h
      rw [List.set_cons_zero, List.countP_cons, List.countP_cons]
      cases p a <;> cases p b <;> simp
    | succ i =>
      have hrest := ih h
      rw [List.set_cons_succ, List.countP_cons, List.countP_cons]
      omega

lemma countP_eraseIdx {p : α → Bool} (h : l[i]? = some b) :
    (l.eraseIdx i).countP p + (p b).toNat = l.countP p := by
  induction l generalizing i with
  | nil => cases h
  | cons c l ih =>
    cases i with
    | zero =>
      cases h
      rw [List.eraseIdx_cons_zero, List.countP_cons]
      cases p b <;> rfl
    | succ i =>
      have hrest := ih h
      rw [List.eraseIdx_cons_succ, List.countP_cons, List.countP_cons]
      omega

lemma sum_map_set {f : α → ℕ} (h : l[i]? = some b) :
    ((l.set i a).map f).sum + f b = (l.map f).sum + f a := by
  induction l generalizing i with
  | nil => cases h
  | cons c l ih =>
    cases i with
    | zero =>
      cases h
      rw [List.set_cons_zero, List.map_cons, List.map_cons, List.sum_cons, List.sum_cons]
      omega
    | succ i =>
      have hrest := ih h
      rw [List.set_cons_succ, List.map_cons, List.map_cons, List.sum_cons, List.sum_cons]
      omega

lemma sum_map_le {f : α → ℕ} {n : ℕ} (h : ∀ a ∈ l, f a ≤ n) : (l.map f).sum ≤ n * l.length := by
  induction l with
  | nil => exact Nat.zero_le _
  | cons a l ih =>
    obtain ⟨ha, hl⟩ := List.forall_mem_cons.mp h
    have hrest := ih hl
    rw [List.map_cons, List.sum_cons, List.length_cons, Nat.mul_succ]
    omega

lemma find_unique {p : α → Bool} (ha : a ∈ l) (hp : p a) (honly : ∀ b ∈ l, p b → b = a) :
    l.find? p = some a := by
  cases h : l.find? p with
  | none => exact absurd hp (List.find?_eq_none.mp h a ha)
  | some b => rw [honly b (List.mem_of_find?_eq_some h) (List.find?_some h)]

def Apart (R : α → α → Prop) (l : List α) : Prop :=
  ∀ (i k : ℕ) (a b : α), l[i]? = some a → l[k]? = some b → i ≠ k → R a b

lemma Apart.nil : Apart R [] := by
  intro i k a b ha
  cases ha

lemma Apart.set (h : Apart R l)
    (hi : ∀ k b, l[k]? = some b → k ≠ i → R a b ∧ R b a) : Apart R (l.set i a) := by
  intro j k x y hx hy hne
  rcases set_some hx with ⟨rfl, rfl⟩ | ⟨hj, hold⟩
  · rcases set_some hy with ⟨rfl, _⟩ | ⟨hk, hother⟩
    · exact absurd rfl hne
    · exact (hi k y hother hk).1
  · rcases set_some hy with ⟨rfl, rfl⟩ | ⟨_, hother⟩
    · exact (hi j x hold hj).2
    · exact h j k x y hold hother hne

lemma Apart.snoc (h : Apart R l) (ha : ∀ b ∈ l, R a b ∧ R b a) : Apart R (l ++ [a]) := by
  intro j k x y hx hy hne
  rcases snoc_some hx with hold | ⟨rfl, rfl⟩
  · rcases snoc_some hy with hother | ⟨_, rfl⟩
    · exact h j k x y hold hother hne
    · exact (ha x (List.mem_of_getElem? hold)).2
  · rcases snoc_some hy with hother | ⟨rfl, _⟩
    · exact (ha y (List.mem_of_getElem? hother)).1
    · exact absurd rfl hne

lemma Apart.step (h : Apart R l) (hi : l[i]? = some a)
    (hab : ∀ c, (R a c → R b c) ∧ (R c a → R c b)) : Apart R (l.set i b) := by
  apply h.set
  intro k c hk hne
  exact ⟨(hab c).1 (h i k a c hi hk (Ne.symm hne)), (hab c).2 (h k i c a hk hi hne)⟩

end AudioServer.Foundations.Pools
