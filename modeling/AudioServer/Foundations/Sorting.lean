import AudioServer.Foundations.Dicts
import Mathlib.Data.List.Forall2
import Mathlib.Data.List.Induction
import Mathlib.Data.List.Sort
import Mathlib.Data.Prod.Lex
import Mathlib.Order.Bounds.Basic
import Mathlib.Order.MinMax

/-! Sorting by a key, as `sorted(xs, key=...)` does, and the least and greatest
value of a key. -/

namespace AudioServer.Foundations.Sorting

open AudioServer.Foundations.Dicts

universe u v w

variable {α : Type u} {κ : Type v} [LinearOrder κ] {key : α → κ} {r : α → α → Prop} [DecidableRel r]

lemma sort_ordered (hr : ∀ a b, r a b ↔ key a ≤ key b) (xs : List α) :
    (xs.insertionSort r).Pairwise (fun a b => key a ≤ key b) := by
  have htotal : Std.Total r := ⟨fun a b => by rw [hr, hr]; exact le_total _ _⟩
  have htrans : IsTrans α r := ⟨fun a b c hab hbc => by rw [hr] at *; exact hab.trans hbc⟩
  exact (List.pairwise_insertionSort r xs).imp (fun h => (hr _ _).mp h)

lemma sort_head (hr : ∀ a b, r a b ↔ key a ≤ key b) {xs : List α} {a : α}
    (h : (xs.insertionSort r).head? = some a) : a ∈ xs ∧ ∀ b ∈ xs, key a ≤ key b := by
  have hordered := sort_ordered hr xs
  have hmem := fun b => List.mem_insertionSort r (l := xs) (x := b)
  cases hsorted : xs.insertionSort r with
  | nil => simp [hsorted] at h
  | cons c rest =>
    rw [hsorted] at h hordered hmem
    cases h
    refine ⟨(hmem a).mp List.mem_cons_self, ?_⟩
    intro b hb
    rcases List.mem_cons.mp ((hmem b).mpr hb) with rfl | hb
    · exact le_rfl
    · exact List.rel_of_pairwise_cons hordered hb

lemma sort_head_none {xs : List α} (h : (xs.insertionSort r).head? = none) : xs = [] := by
  have hlength := List.length_insertionSort r xs
  rw [List.head?_eq_none_iff.mp h] at hlength
  exact List.length_eq_zero_iff.mp hlength.symm

lemma sort_perm (hr : ∀ a b, r a b ↔ key a ≤ key b) (hkey : Function.Injective key)
    {xs ys : List α} (h : xs.Perm ys) : xs.insertionSort r = ys.insertionSort r := by
  have hperm := ((List.perm_insertionSort r xs).trans h).trans (List.perm_insertionSort r ys).symm
  refine hperm.eq_of_pairwise ?_ (sort_ordered hr xs) (sort_ordered hr ys)
  intro a b _ _ hab hba
  exact hkey (le_antisymm hab hba)

lemma dictGet_sort {β : Type w} [DecidableEq β] {f : α → β} (hr : ∀ a b, r a b ↔ key a ≤ key b)
    {xs : List α} (hkey : (xs.map key).Nodup) {k : β} {x : α} :
    dictGet f (xs.insertionSort r) k = some x ↔
      x ∈ xs ∧ f x = k ∧ ∀ y ∈ xs, f y = k → key y ≤ key x := by
  have hgreatest : ∀ z, dictGet f (xs.insertionSort r) k = some z →
      ∀ y ∈ xs, f y = k → key y ≤ key z := by
    intro z hz y hy hf
    obtain ⟨before, after, hsplit, hlast⟩ := dictGet_last hz
    have hordered := sort_ordered hr xs
    have hy : y ∈ xs.insertionSort r := (List.mem_insertionSort r).mpr hy
    rw [hsplit] at hordered hy
    rcases List.mem_append.mp hy with hy | hy
    · exact (List.pairwise_append.mp hordered).2.2 y hy z List.mem_cons_self
    · rcases List.mem_cons.mp hy with rfl | hy
      · exact le_rfl
      · exact absurd hf (hlast y hy)
  constructor
  · intro h
    obtain ⟨hx, hf⟩ := dictGet_some h
    exact ⟨(List.mem_insertionSort r).mp hx, hf, hgreatest x h⟩
  · rintro ⟨hx, hf, hmax⟩
    cases hd : dictGet f (xs.insertionSort r) k with
    | none => exact absurd hf (dictGet_none.mp hd x ((List.mem_insertionSort r).mpr hx))
    | some z =>
      obtain ⟨hz, hfz⟩ := dictGet_some hd
      have hz := (List.mem_insertionSort r).mp hz
      have hle := le_antisymm (hmax z hz hfz) (hgreatest z hd x hx hf)
      rw [List.inj_on_of_nodup_map hkey hz hx hle]

lemma ascending_eq_range {ns : List ℤ} (hlt : ns.Pairwise (· < ·))
    (hbound : ∀ n ∈ ns, 0 ≤ n ∧ n < ns.length) :
    ns = (List.range ns.length).map (fun n : ℕ => (n : ℤ)) := by
  have hsubset : ns ⊆ (List.range ns.length).map (fun n : ℕ => (n : ℤ)) := by
    intro n hn
    obtain ⟨hpos, hlow⟩ := hbound n hn
    exact List.mem_map.mpr ⟨n.toNat, List.mem_range.mpr (by omega), Int.toNat_of_nonneg hpos⟩
  have hperm := (List.subperm_of_subset hlt.nodup hsubset).perm_of_length_le (by simp)
  have hrange : ((List.range ns.length).map (fun n : ℕ => (n : ℤ))).Pairwise (· < ·) :=
    List.pairwise_map.mpr (List.pairwise_lt_range.imp Int.ofNat_lt.mpr)
  exact hperm.eq_of_pairwise (fun a b _ _ hab hba => absurd hab hba.asymm) hlt hrange

/-- `sorted(enumerate(xs), key=lambda item: (key(item[1]), item[0]))`, without the indices. -/
def sortedByIndex (key : α → κ) (xs : List α) : List α :=
  (xs.zipIdx.insertionSort
    (fun a b => toLex (key a.1, a.2) ≤ toLex (key b.1, b.2))).map Prod.fst

lemma insert_map {β : Type u} {s : β → β → Prop} [DecidableRel s] {f : β → α} {b : β} {bs : List β}
    (h : ∀ c ∈ bs, s b c ↔ r (f b) (f c)) :
    (bs.orderedInsert s b).map f = (bs.map f).orderedInsert r (f b) := by
  induction bs with
  | nil => rfl
  | cons c bs ih =>
    have hc := h c List.mem_cons_self
    have hrest := ih (fun d hd => h d (List.mem_cons_of_mem _ hd))
    by_cases hsc : s b c
    · rw [List.orderedInsert_cons_of_le _ _ hsc, List.map_cons, List.map_cons,
        List.orderedInsert_cons_of_le _ _ (hc.mp hsc)]
    · rw [List.orderedInsert_of_not_le _ _ hsc, List.map_cons, List.map_cons, hrest,
        List.orderedInsert_of_not_le _ _ (fun hrc => hsc (hc.mpr hrc))]

lemma sort_stable (hr : ∀ a b, r a b ↔ key a ≤ key b) (xs : List α) :
    sortedByIndex key xs = xs.insertionSort r := by
  suffices h : ∀ n, ((xs.zipIdx n).insertionSort
      (fun a b => toLex (key a.1, a.2) ≤ toLex (key b.1, b.2))).map Prod.fst = xs.insertionSort r from
    h 0
  induction xs with
  | nil => exact fun _ => rfl
  | cons x xs ih =>
    intro n
    rw [List.zipIdx_cons, List.insertionSort_cons, List.insertionSort_cons, ← ih (n + 1)]
    apply insert_map
    intro p hp
    -- The first element carries the lowest index, so its key alone decides where it goes.
    have hlow : n < p.2 := by
      have := List.mem_zipIdx ((List.mem_insertionSort _).mp hp)
      omega
    rw [hr, Prod.Lex.toLex_le_toLex]
    constructor
    · rintro (hlt | ⟨heq, _⟩)
      · exact hlt.le
      · exact heq.le
    · intro hle
      rcases hle.lt_or_eq with hlt | heq
      · exact .inl hlt
      · exact .inr ⟨heq, hlow.le⟩

lemma insert_paired {β : Type w} {R : α → β → Prop} {r : α → α → Prop} {s : β → β → Prop} [DecidableRel r] [DecidableRel s]
    (hrs : ∀ a b c d, R a c → R b d → (r a b ↔ s c d)) {x : α} {y : β} {xs : List α} {ys : List β}
    (hxy : R x y) (h : List.Forall₂ R xs ys) :
    List.Forall₂ R (xs.orderedInsert r x) (ys.orderedInsert s y) := by
  induction h with
  | nil => exact .cons hxy .nil
  | @cons a b xs ys hab hrest ih =>
    by_cases hr : r x a
    · rw [List.orderedInsert_cons_of_le _ _ hr,
        List.orderedInsert_cons_of_le _ _ ((hrs x a y b hxy hab).mp hr)]
      exact .cons hxy (.cons hab hrest)
    · rw [List.orderedInsert_of_not_le _ _ hr,
        List.orderedInsert_of_not_le _ _ (fun hs => hr ((hrs x a y b hxy hab).mpr hs))]
      exact .cons hab ih

lemma sort_paired {β : Type w} {R : α → β → Prop} {f : α → κ} {g : β → κ} (hfg : ∀ a b, R a b → f a = g b) {xs : List α}
    {ys : List β} (h : List.Forall₂ R xs ys) :
    List.Forall₂ R (sortedByIndex f xs) (sortedByIndex g ys) := by
  rw [sort_stable (r := fun a b => f a ≤ f b) (fun _ _ => Iff.rfl),
    sort_stable (r := fun a b => g a ≤ g b) (fun _ _ => Iff.rfl)]
  induction h with
  | nil => exact .nil
  | cons hr _ ih =>
    apply insert_paired _ hr ih
    intro a b c d hac hbd
    rw [hfg a c hac, hfg b d hbd]

lemma foldl_min_isLeast (key : α → κ) (x : α) (xs : List α) :
    IsLeast {t | ∃ y ∈ x :: xs, key y = t} (xs.foldl (fun t y => min t (key y)) (key x)) := by
  induction xs using List.reverseRecOn with
  | nil =>
    refine ⟨⟨x, List.mem_cons_self, rfl⟩, ?_⟩
    rintro _ ⟨y, hy, rfl⟩
    rw [List.mem_singleton.mp hy]
    exact le_rfl
  | append_singleton xs z ih =>
    obtain ⟨⟨y, hy, hattained⟩, hleast⟩ := ih
    rw [List.foldl_concat]
    refine ⟨?_, ?_⟩
    · rcases min_choice (xs.foldl (fun t y => min t (key y)) (key x)) (key z) with h | h
      · exact ⟨y, List.mem_append_left [z] hy, hattained.trans h.symm⟩
      · exact ⟨z, List.mem_append_right (x :: xs) List.mem_cons_self, h.symm⟩
    · rintro _ ⟨w, hw, rfl⟩
      rw [← List.cons_append] at hw
      rcases List.mem_append.mp hw with hw | hw
      · exact (min_le_left _ _).trans (hleast ⟨w, hw, rfl⟩)
      · rw [List.mem_singleton.mp hw]
        exact min_le_right _ _

lemma foldl_max_isGreatest (key : α → κ) (x : α) (xs : List α) :
    IsGreatest {t | ∃ y ∈ x :: xs, key y = t} (xs.foldl (fun t y => max t (key y)) (key x)) :=
  foldl_min_isLeast (fun y => OrderDual.toDual (key y)) x xs

end AudioServer.Foundations.Sorting
