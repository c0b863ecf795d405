import AudioServer.Foundations.Packing
import Mathlib.Algebra.BigOperators.Group.List.Basic
import Mathlib.Algebra.GroupWithZero.Nat

/-! How partial results are grouped for one request each, whatever they are partial results of. -/

namespace AudioServer.Processing.DraftGroups

open AudioServer.Foundations.Blocks AudioServer.Foundations.Packing

structure Grouping (α : Type) where
  groups : List (List α)
  current : List α
  currentSize : ℕ

variable {α : Type} (size : α → ℕ) (maxChars : ℕ) (full : ℕ → Bool)

def appendDraft (s : Grouping α) (draft : α) : Grouping α :=
  let current := s.current ++ [draft]
  if full current.length then ⟨s.groups ++ [current], [], 0⟩
  else ⟨s.groups, current, s.currentSize + size draft⟩

def addDraft (s : Grouping α) (draft : α) : Grouping α :=
  if s.current ≠ [] ∧ maxChars < s.currentSize + size draft then
    appendDraft size full ⟨s.groups ++ [s.current], [], 0⟩ draft
  else appendDraft size full s draft

def finish (s : Grouping α) : List (List α) :=
  if s.current ≠ [] then s.groups ++ [s.current] else s.groups

/-- `_group_drafts`: where no two drafts came together they are paired all the same. A group is
closed at once at a length that `full` names. -/
def groupBySize (drafts : List α) : List (List α) :=
  let groups := finish (drafts.foldl (addDraft size maxChars full) ⟨[], [], 0⟩)
  if groups.length = drafts.length ∧ ∀ g ∈ groups, g.length = 1 then slices 2 drafts else groups

def Joins (block : List α) (draft : α) : Prop :=
  (block.map size).sum + size draft ≤ maxChars ∧ ¬ full block.length

instance (block : List α) (draft : α) : Decidable (Joins size maxChars full block draft) :=
  inferInstanceAs (Decidable (_ ∧ _))

variable {size maxChars full}

lemma foldl_addDraft (drafts : List α) : ∀ groups,
    finish (drafts.foldl (addDraft size maxChars full) ⟨groups, [], 0⟩) =
      groups ++ cut (Joins size maxChars full) drafts ∧
    ∀ block, block ≠ [] → ¬ full block.length →
      finish (drafts.foldl (addDraft size maxChars full) ⟨groups, block, (block.map size).sum⟩) =
        groups ++ cutFrom (Joins size maxChars full) block drafts := by
  induction drafts with
  | nil =>
    intro groups
    refine ⟨(List.append_nil groups).symm, ?_⟩
    intro block hopen _
    exact if_pos hopen
  | cons draft drafts ih =>
    have happend : ∀ (groups : List (List α)) (block : List α),
        finish (drafts.foldl (addDraft size maxChars full)
          (appendDraft size full ⟨groups, block, (block.map size).sum⟩ draft)) =
          groups ++ cutFrom (Joins size maxChars full) (block ++ [draft]) drafts := by
      intro groups block
      rw [appendDraft]
      by_cases hfull : full (block ++ [draft]).length
      · rw [if_pos hfull, (ih _).1, cutFrom_closed (fun x hx => hx.2 hfull), List.append_assoc,
          List.singleton_append]
      · rw [if_neg hfull, ← (ih groups).2 _ (by simp) hfull, List.map_append, List.sum_append,
          List.map_singleton, List.sum_singleton]
    intro groups
    constructor
    · rw [List.foldl_cons, addDraft, if_neg (fun h => h.1 rfl)]
      exact happend groups []
    · intro block hopen hfull
      rw [List.foldl_cons, addDraft]
      by_cases hjoins : Joins size maxChars full block draft
      · rw [if_neg (fun h => absurd hjoins.1 (Nat.not_le.mpr h.2)), cutFrom_joined hjoins]
        exact happend groups block
      · have hexceeds : maxChars < (block.map size).sum + size draft := by
          by_contra hle
          exact hjoins ⟨Nat.not_lt.mp hle, hfull⟩
        rw [if_pos ⟨hopen, hexceeds⟩, cutFrom_parted hjoins, cut]
        exact (happend (groups ++ [block]) []).trans (List.append_assoc groups [block] _)

lemma groupBySize_cut (drafts : List α) :
    groupBySize size maxChars full drafts =
      if (cut (Joins size maxChars full) drafts).length = drafts.length ∧
          ∀ g ∈ cut (Joins size maxChars full) drafts, g.length = 1 then slices 2 drafts
      else cut (Joins size maxChars full) drafts := by
  have hcut : finish (drafts.foldl (addDraft size maxChars full) ⟨[], [], 0⟩) =
      [] ++ cut (Joins size maxChars full) drafts := (foldl_addDraft drafts []).1
  rw [groupBySize, hcut, List.nil_append]

lemma groupBySize_flatten (drafts : List α) :
    (groupBySize size maxChars full drafts).flatten = drafts := by
  rw [groupBySize_cut]
  split
  · exact slices_flatten Nat.two_pos drafts
  · exact cut_flatten drafts

lemma groupBySize_ne_nil {drafts g : List α} (h : g ∈ groupBySize size maxChars full drafts) :
    g ≠ [] := by
  rw [groupBySize_cut] at h
  split at h
  · exact (mem_slices Nat.two_pos h).1
  · exact (cut_grown h).ne_nil

lemma length_le_flatten {groups : List (List α)} (h : ∀ g ∈ groups, g ≠ []) :
    groups.length ≤ groups.flatten.length ∧
      (groups.length = groups.flatten.length → ∀ g ∈ groups, g.length = 1) := by
  induction groups with
  | nil => simp
  | cons g groups ih =>
    obtain ⟨hg, hrest⟩ := List.forall_mem_cons.mp h
    obtain ⟨hle, hone⟩ := ih hrest
    have hpos : 0 < g.length := List.length_pos_iff.mpr hg
    rw [List.flatten_cons, List.length_append, List.length_cons]
    refine ⟨by omega, ?_⟩
    intro heq
    exact List.forall_mem_cons.mpr ⟨by omega, hone (by omega)⟩

lemma groupBySize_lt {drafts : List α} (h : 2 ≤ drafts.length) :
    (groupBySize size maxChars full drafts).length < drafts.length := by
  rw [groupBySize_cut]
  split
  · rw [slices_length]
    omega
  · rename_i htogether
    have hlen := @length_le_flatten _ (cut (Joins size maxChars full) drafts)
      (fun g hg => (cut_grown hg).ne_nil)
    rw [cut_flatten] at hlen
    exact lt_of_le_of_ne hlen.1 (fun heq => htogether ⟨heq, hlen.2 heq⟩)

end AudioServer.Processing.DraftGroups
