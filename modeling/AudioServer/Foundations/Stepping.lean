import Mathlib.Data.List.Chain
import Mathlib.Data.List.Sort
import Mathlib.Tactic.Lemma

/-! A strictly ordered listing around one of its elements, and the walk that follows
the successor of each element. -/

namespace AudioServer.Foundations.Stepping

universe u

variable {α : Type u} {r : α → α → Prop} {before after xs ys : List α} {x : α}

lemma perm_ordered_eq [Std.Asymm r] (hperm : xs.Perm ys) (hxs : xs.Pairwise r) (hys : ys.Pairwise r) :
    xs = ys :=
  hperm.eq_of_pairwise (fun a b _ _ hab hba => absurd hba (Std.Asymm.asymm a b hab)) hxs hys

section Around

variable [DecidableRel r] [Std.Asymm r]

lemma filter_after (h : (before ++ x :: after).Pairwise r) :
    (before ++ x :: after).filter (fun y => r x y) = after := by
  obtain ⟨_, hrest, hacross⟩ := List.pairwise_append.mp h
  have hbefore : before.filter (fun y => decide (r x y)) = [] := by
    rw [List.filter_eq_nil_iff]
    intro y hy hxy
    exact Std.Asymm.asymm x y (of_decide_eq_true hxy) (hacross y hy x List.mem_cons_self)
  have hafter : after.filter (fun y => decide (r x y)) = after :=
    List.filter_eq_self.mpr (fun y hy => decide_eq_true (List.rel_of_pairwise_cons hrest hy))
  have hself : ¬ r x x := fun hxx => Std.Asymm.asymm x x hxx hxx
  rw [List.filter_append, hbefore, List.filter_cons_of_neg (by simpa using hself), hafter,
    List.nil_append]

lemma filter_before (h : (before ++ x :: after).Pairwise r) :
    (before ++ x :: after).filter (fun y => r y x) = before := by
  obtain ⟨_, hrest, hacross⟩ := List.pairwise_append.mp h
  have hafter : after.filter (fun y => decide (r y x)) = [] := by
    rw [List.filter_eq_nil_iff]
    intro y hy hyx
    exact Std.Asymm.asymm y x (of_decide_eq_true hyx) (List.rel_of_pairwise_cons hrest hy)
  have hbefore : before.filter (fun y => decide (r y x)) = before :=
    List.filter_eq_self.mpr (fun y hy => decide_eq_true (hacross y hy x List.mem_cons_self))
  have hself : ¬ r x x := fun hxx => Std.Asymm.asymm x x hxx hxx
  rw [List.filter_append, hbefore, List.filter_cons_of_neg (by simpa using hself), hafter,
    List.append_nil]

end Around

def follow (next : α → Option α) : ℕ → α → List α
  | 0, x => [x]
  | n + 1, x => x :: (next x).elim [] (follow next n)

lemma follow_chain {next : α → Option α} {n : ℕ}
    (hchain : (x :: xs).IsChain (fun a b => next a = some b))
    (hlast : ∀ a ∈ (x :: xs).getLast?, next a = none) (hn : xs.length ≤ n) :
    follow next n x = x :: xs := by
  induction xs generalizing x n with
  | nil =>
    cases n with
    | zero => rfl
    | succ n => rw [follow, hlast x rfl, Option.elim_none]
  | cons y xs ih =>
    obtain ⟨m, rfl⟩ := Nat.exists_eq_add_of_lt hn
    rw [List.isChain_cons_cons] at hchain
    rw [follow, hchain.1, Option.elim_some, ih hchain.2 (by simpa using hlast) (by omega)]

end AudioServer.Foundations.Stepping
