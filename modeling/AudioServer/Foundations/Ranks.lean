import AudioServer.Foundations.Sorting
import Mathlib.Data.List.Dedup
import Mathlib.Order.Monotone.Defs

/-! The values of a list by their place in the order: a rank survives every renaming that keeps the
order. -/

namespace AudioServer.Foundations.Ranks

open AudioServer.Foundations.Sorting

variable {α β : Type} [LinearOrder α] [LinearOrder β] {xs ys : List α} {a b : α} {f : α → β}

/-- `sorted(set(xs))`. -/
def distinct (xs : List α) : List α := xs.dedup.insertionSort (· ≤ ·)

def rank (xs : List α) (a : α) : ℕ := (distinct xs).idxOf a

@[simp] lemma mem_distinct : a ∈ distinct xs ↔ a ∈ xs := by
  rw [distinct, List.mem_insertionSort, List.mem_dedup]

lemma distinct_nodup (xs : List α) : (distinct xs).Nodup :=
  (List.perm_insertionSort (· ≤ ·) xs.dedup).nodup_iff.mpr xs.nodup_dedup

lemma distinct_ordered (xs : List α) : (distinct xs).Pairwise (· ≤ ·) := by
  have hkey : ∀ a b : α, a ≤ b ↔ id a ≤ id b := fun _ _ => Iff.rfl
  exact sort_ordered hkey xs.dedup

lemma distinct_congr (h : ∀ a, a ∈ xs ↔ a ∈ ys) : distinct xs = distinct ys := by
  have hperm : (distinct xs).Perm (distinct ys) := by
    refine (List.perm_ext_iff_of_nodup (distinct_nodup xs) (distinct_nodup ys)).mpr ?_
    simpa using h
  exact hperm.eq_of_pairwise (fun a b _ _ => le_antisymm) (distinct_ordered xs) (distinct_ordered ys)

lemma rank_congr (h : ∀ a, a ∈ xs ↔ a ∈ ys) (a : α) : rank xs a = rank ys a := by
  rw [rank, rank, distinct_congr h]

lemma rank_lt (h : a ∈ xs) : rank xs a < (distinct xs).length :=
  List.idxOf_lt_length_of_mem (mem_distinct.mpr h)

lemma rank_inj (h : a ∈ xs) : rank xs a = rank xs b ↔ a = b :=
  List.idxOf_inj (mem_distinct.mpr h)

lemma distinct_map_nodup (hf : StrictMonoOn f {a | a ∈ xs}) : ((distinct xs).map f).Nodup := by
  refine List.Nodup.map_on ?_ (distinct_nodup xs)
  intro a ha b hb
  exact hf.injOn (mem_distinct.mp ha) (mem_distinct.mp hb)

lemma distinct_map (hf : StrictMonoOn f {a | a ∈ xs}) : distinct (xs.map f) = (distinct xs).map f := by
  have hperm : (distinct (xs.map f)).Perm ((distinct xs).map f) := by
    refine (List.perm_ext_iff_of_nodup (distinct_nodup _) (distinct_map_nodup hf)).mpr ?_
    simp
  refine hperm.eq_of_pairwise (fun a b _ _ => le_antisymm) (distinct_ordered _) ?_
  rw [List.pairwise_map]
  refine List.Pairwise.imp_of_mem ?_ (distinct_ordered xs)
  intro a b ha hb hab
  exact hf.monotoneOn (mem_distinct.mp ha) (mem_distinct.mp hb) hab

lemma rank_map (hf : StrictMonoOn f {b | b ∈ xs}) (h : a ∈ xs) :
    rank (xs.map f) (f a) = rank xs a := by
  have hlt := rank_lt h
  have hlt' : rank xs a < ((distinct xs).map f).length := by simpa using hlt
  have hget : ((distinct xs).map f)[rank xs a] = f a := by
    rw [List.getElem_map]
    exact congrArg f (List.getElem_idxOf hlt)
  rw [rank, distinct_map hf, ← hget]
  exact (distinct_map_nodup hf).idxOf_getElem _ _

end AudioServer.Foundations.Ranks
