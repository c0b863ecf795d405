import Mathlib.Data.List.Chain
import Mathlib.Data.List.Forall2
import Mathlib.Data.List.Nodup
import Mathlib.Tactic.Lemma

/-! Rows of one table paired with rows of the next, in order. -/

namespace AudioServer.Foundations.Correspondence

universe u v

variable {α : Type u} {β : Type v} {R S : α → β → Prop}

lemma filter_paired {p : α → Bool} {q : β → Bool} (hq : ∀ a b, S a b → p a → q b ∧ R a b)
    {xs : List α} {ys : List β} (h : List.Forall₂ S xs ys) :
    List.SublistForall₂ R (xs.filter p) (ys.filter q) := by
  induction h with
  | nil => exact .nil
  | @cons x y xs ys hxy _ ih =>
    by_cases hx : p x
    · obtain ⟨hy, hr⟩ := hq x y hxy hx
      rw [List.filter_cons_of_pos hx, List.filter_cons_of_pos hy]
      exact .cons hr ih
    · rw [List.filter_cons_of_neg hx]
      by_cases hy : q y
      · rw [List.filter_cons_of_pos hy]
        exact .cons_right ih
      · rwa [List.filter_cons_of_neg hy]

lemma paired_sublist {xs : List α} {ys : List β} (h : List.Forall₂ R xs ys) :
    List.SublistForall₂ R xs ys := by
  induction h with
  | nil => exact .nil
  | cons hr _ ih => exact .cons hr ih

lemma paired_mem {xs : List α} {ys : List β} (h : List.Forall₂ R xs ys) {a : α} (ha : a ∈ xs) :
    ∃ b ∈ ys, R a b := by
  induction h with
  | nil => cases ha
  | @cons x y xs ys hr _ ih =>
    rcases List.mem_cons.mp ha with rfl | ha
    · exact ⟨y, List.mem_cons_self, hr⟩
    · obtain ⟨b, hb, hab⟩ := ih ha
      exact ⟨b, List.mem_cons_of_mem _ hb, hab⟩

lemma paired_mem_right {xs : List α} {ys : List β} (h : List.Forall₂ R xs ys) {b : β} (hb : b ∈ ys) :
    ∃ a ∈ xs, R a b := by
  obtain ⟨a, ha, hr⟩ := paired_mem h.flip hb
  exact ⟨a, ha, hr⟩

lemma sublist_mem {xs : List α} {ys : List β} (h : List.SublistForall₂ R xs ys) {a : α}
    (ha : a ∈ xs) : ∃ b ∈ ys, R a b := by
  obtain ⟨kept, hpaired, hkept⟩ := List.sublistForall₂_iff.mp h
  obtain ⟨b, hb, hab⟩ := paired_mem hpaired ha
  exact ⟨b, hkept.subset hb, hab⟩

lemma paired_and {xs : List α} {ys : List β} (hr : List.Forall₂ R xs ys) (hs : List.Forall₂ S xs ys) :
    List.Forall₂ (fun a b => R a b ∧ S a b) xs ys := by
  induction hr with
  | nil => exact .nil
  | cons hr _ ih =>
    cases hs with
    | cons hs hrest => exact .cons ⟨hr, hs⟩ (ih hrest)

lemma paired_map {γ : Type*} {f : α → γ} {g : β → γ} (hfg : ∀ a b, R a b → f a = g b) {xs : List α}
    {ys : List β} (h : List.Forall₂ R xs ys) : xs.map f = ys.map g := by
  induction h with
  | nil => rfl
  | cons hr _ ih => rw [List.map_cons, List.map_cons, hfg _ _ hr, ih]

lemma paired_trans {γ : Type*} {Q : β → γ → Prop} {P : α → γ → Prop} {xs : List α} {ys : List β}
    {zs : List γ} (hr : List.Forall₂ R xs ys) (hq : List.Forall₂ Q ys zs)
    (hp : ∀ a b c, R a b → Q b c → P a c) : List.Forall₂ P xs zs := by
  induction hr generalizing zs with
  | nil =>
    cases hq
    exact .nil
  | cons hab _ ih =>
    cases hq with
    | cons hbc hrest => exact .cons (hp _ _ _ hab hbc) (ih hrest)

lemma paired_chain {C : α → α → Prop} {D : β → β → Prop} {xs : List α} {ys : List β}
    (h : List.Forall₂ R xs ys) (hcd : ∀ a b c d, R a c → R b d → C a b → D c d)
    (hxs : xs.IsChain C) : ys.IsChain D := by
  induction h with
  | nil => exact .nil
  | @cons a c xs ys hac hrest ih =>
    cases hrest with
    | nil => exact .singleton c
    | @cons b d xs ys hbd _ =>
      rw [List.isChain_cons_cons] at hxs ⊢
      exact ⟨hcd a b c d hac hbd hxs.1, ih hxs.2⟩

lemma countP_le_of_paired {p : α → Bool} {q : β → Bool} {xs : List α} {ys : List β}
    (h : List.SublistForall₂ R xs ys) (hq : ∀ a ∈ xs, ∀ b, R a b → p a → q b) :
    xs.countP p ≤ ys.countP q := by
  induction h with
  | nil => exact Nat.zero_le _
  | @cons x y xs ys hr _ ih =>
    have hrest := ih (fun a ha => hq a (List.mem_cons_of_mem _ ha))
    by_cases hx : p x
    · have hy := hq x List.mem_cons_self y hr hx
      rw [List.countP_cons_of_pos hx, List.countP_cons_of_pos hy]
      omega
    · rw [List.countP_cons_of_neg hx, List.countP_cons]
      omega
  | @cons_right y xs ys _ ih =>
    have hrest := ih hq
    rw [List.countP_cons]
    omega

lemma two_le_countP {p : α → Bool} {xs : List α} {i j : ℕ} (hij : i < j) (hj : j < xs.length)
    (hpi : p xs[i]) (hpj : p xs[j]) : 2 ≤ xs.countP p := by
  have hfirst : 0 < (xs.take j).countP p := by
    have hi : i < (xs.take j).length := by simp; omega
    rw [List.countP_pos_iff]
    exact ⟨(xs.take j)[i], List.getElem_mem hi, by rwa [List.getElem_take]⟩
  have hsecond : 0 < (xs.drop j).countP p := by
    rw [List.countP_pos_iff]
    exact ⟨xs[j], by rw [List.drop_eq_getElem_cons hj]; exact List.mem_cons_self, hpj⟩
  rw [← List.take_append_drop j xs, List.countP_append]
  omega

lemma countP_one_iff {p : α → Bool} {xs : List α} {i : ℕ} {a : α} (hi : xs[i]? = some a) (ha : p a) :
    xs.countP p = 1 ↔ ∀ (j : ℕ) (b : α), xs[j]? = some b → p b → j = i := by
  obtain ⟨hlt, rfl⟩ := List.getElem?_eq_some_iff.mp hi
  constructor
  · intro hone j b hj hb
    obtain ⟨hjlt, rfl⟩ := List.getElem?_eq_some_iff.mp hj
    by_contra hne
    have htwo : 2 ≤ xs.countP p := by
      rcases Nat.lt_or_gt_of_ne hne with hlower | hhigher
      · exact two_le_countP hlower hlt hb ha
      · exact two_le_countP hhigher hjlt ha hb
    omega
  · intro honly
    have hbefore : (xs.take i).countP p = 0 := by
      rw [List.countP_eq_zero]
      intro b hb hpb
      obtain ⟨j, hj, rfl⟩ := List.mem_iff_getElem.mp hb
      rw [List.length_take] at hj
      have := honly j _ (List.getElem?_eq_getElem (by omega)) (by rwa [List.getElem_take] at hpb)
      omega
    have hafter : (xs.drop (i + 1)).countP p = 0 := by
      rw [List.countP_eq_zero]
      intro b hb hpb
      obtain ⟨j, hj, rfl⟩ := List.mem_iff_getElem.mp hb
      rw [List.length_drop] at hj
      have := honly (i + 1 + j) _ (List.getElem?_eq_getElem (by omega))
        (by rwa [List.getElem_drop] at hpb)
      omega
    rw [← List.take_append_drop i xs, List.drop_eq_getElem_cons hlt, List.countP_append,
      List.countP_cons_of_pos ha, hbefore, hafter]

lemma filter_singleton_iff {p : α → Bool} {xs : List α} (hxs : xs.Nodup) {a : α} :
    xs.filter p = [a] ↔ a ∈ xs ∧ p a ∧ ∀ b ∈ xs, p b → b = a := by
  constructor
  · intro h
    have hmem : ∀ b, b ∈ xs.filter p ↔ b = a := fun b => by rw [h, List.mem_singleton]
    obtain ⟨ha, hpa⟩ := List.mem_filter.mp ((hmem a).mpr rfl)
    exact ⟨ha, hpa, fun b hb hpb => (hmem b).mp (List.mem_filter.mpr ⟨hb, hpb⟩)⟩
  · rintro ⟨ha, hpa, honly⟩
    apply List.perm_singleton.mp
    rw [List.perm_ext_iff_of_nodup (hxs.filter p) (List.nodup_singleton a)]
    intro b
    rw [List.mem_filter, List.mem_singleton]
    constructor
    · exact fun h => honly b h.1 h.2
    · rintro rfl
      exact ⟨ha, hpa⟩

lemma map_filterMap_sublist {γ : Type*} {f : α → Option β} {key : α → γ} {read : β → γ}
    (h : ∀ a b, f a = some b → read b = key a) (rows : List α) :
    ((rows.filterMap f).map read).Sublist (rows.map key) := by
  induction rows with
  | nil => exact .slnil
  | cons a rows ih =>
    cases ha : f a with
    | none =>
      rw [List.filterMap_cons_none ha]
      exact ih.cons (key a)
    | some b =>
      rw [List.filterMap_cons_some ha, List.map_cons, List.map_cons, h a b ha]
      exact ih.cons_cons (key a)

lemma eq_of_nodup_filterMap {f : α → Option β} {xs : List α} (h : (xs.filterMap f).Nodup) {a b : α}
    (ha : a ∈ xs) (hb : b ∈ xs) {c : β} (hac : f a = some c) (hbc : f b = some c) : a = b := by
  induction xs with
  | nil => cases ha
  | cons x xs ih =>
    have hapart : ∀ y ∈ xs, f x = some c → f y ≠ some c := by
      intro y hy hxc hyc
      rw [List.filterMap_cons_some hxc] at h
      exact (List.nodup_cons.mp h).1 (List.mem_filterMap.mpr ⟨y, hy, hyc⟩)
    rcases List.mem_cons.mp ha with rfl | hax <;> rcases List.mem_cons.mp hb with rfl | hbx
    · rfl
    · exact absurd hbc (hapart b hbx hac)
    · exact absurd hac (hapart a hax hbc)
    · exact ih (h.sublist ((List.sublist_cons_self x xs).filterMap f)) hax hbx

end AudioServer.Foundations.Correspondence
