import Mathlib.Data.List.Induction
import Mathlib.Data.List.Nodup
import Mathlib.Order.Lattice
import Mathlib.Tactic.Lemma

/-! Rows gathered under their keys, one entry a key, and a stream of sorted rows
that stops before it would open one entry too many. -/

namespace AudioServer.Foundations.Grouping

universe u v w

lemma flatMap_filter_perm {α : Type u} {κ : Type v} [DecidableEq κ] {keys : List κ}
    (hkeys : keys.Nodup) (key : α → κ) (rows : List α) :
    (keys.flatMap fun k => rows.filter (fun a => key a = k)).Perm
      (rows.filter (fun a => key a ∈ keys)) := by
  induction keys with
  | nil => simp
  | cons k keys ih =>
    obtain ⟨hnew, hkeys⟩ := List.nodup_cons.mp hkeys
    rw [List.flatMap_cons]
    have hparts := List.filter_append_perm (fun a => decide (key a = k))
      (rows.filter (fun a => key a ∈ k :: keys))
    rw [List.filter_filter, List.filter_filter] at hparts
    refine ((ih hkeys).append_left _).trans (.trans (.of_eq ?_) hparts)
    congr 1
    · apply List.filter_congr
      intro a _
      by_cases ha : key a = k <;> simp [ha]
    · apply List.filter_congr
      intro a _
      by_cases ha : key a = k <;> simp [ha, hnew]

lemma flatMap_filter_self {α : Type u} {κ : Type v} [DecidableEq κ] {keys : List κ}
    (hkeys : keys.Nodup) (key : α → κ) {rows : List α} (hrows : ∀ a ∈ rows, key a ∈ keys) :
    (keys.flatMap fun k => rows.filter (fun a => key a = k)).Perm rows :=
  (flatMap_filter_perm hkeys key rows).trans
    (.of_eq (List.filter_eq_self.mpr (fun a ha => decide_eq_true (hrows a ha))))

/-- How the first row of a key opens an entry, and how a further row is added to it. -/
structure Tally (α : Type u) (ε : Type v) (κ : Type w) where
  key : α → κ
  entryKey : ε → κ
  first : α → ε
  more : α → ε → ε
  first_key : ∀ a, entryKey (first a) = key a
  more_key : ∀ a e, entryKey e = key a → entryKey (more a e) = key a

namespace Tally

variable {α : Type u} {ε : Type v} {κ : Type w} [DecidableEq κ] (T : Tally α ε κ)

def put (a : α) (entries : List ε) : List ε :=
  if entries.any (fun e => T.entryKey e = T.key a) then
    entries.map (fun e => if T.entryKey e = T.key a then T.more a e else e)
  else entries ++ [T.first a]

def group (rows : List α) (entries : List ε) : List ε :=
  rows.foldl (fun entries a => T.put a entries) entries

def stream (wanted : ℕ) : List α → List ε → List ε
  | [], entries => entries
  | a :: rest, entries =>
    if ¬ entries.any (fun e => T.entryKey e = T.key a) ∧ wanted ≤ entries.length then entries
    else stream wanted rest (T.put a entries)

variable {T} {a : α} {rows : List α} {entries : List ε} {e : ε}

lemma any_key : entries.any (fun e => T.entryKey e = T.key a) ↔ T.key a ∈ entries.map T.entryKey := by
  simp only [List.any_eq_true, decide_eq_true_eq, List.mem_map]

lemma put_seen (h : T.key a ∈ entries.map T.entryKey) : T.put a entries =
    entries.map (fun e => if T.entryKey e = T.key a then T.more a e else e) :=
  if_pos (any_key.mpr h)

lemma put_new (h : T.key a ∉ entries.map T.entryKey) : T.put a entries = entries ++ [T.first a] :=
  if_neg (fun hany => h (any_key.mp hany))

lemma put_keys : (T.put a entries).map T.entryKey =
    if T.key a ∈ entries.map T.entryKey then entries.map T.entryKey
    else entries.map T.entryKey ++ [T.key a] := by
  by_cases h : T.key a ∈ entries.map T.entryKey
  · rw [put_seen h, if_pos h, List.map_map]
    apply List.map_congr_left
    intro e _
    rw [Function.comp_apply]
    by_cases he : T.entryKey e = T.key a
    · rw [if_pos he, T.more_key a e he, he]
    · rw [if_neg he]
  · rw [put_new h, if_neg h, List.map_append, List.map_singleton, T.first_key]

lemma put_append {front : List ε} (h : T.key a ∉ front.map T.entryKey) :
    T.put a (front ++ entries) = front ++ T.put a entries := by
  by_cases hin : T.key a ∈ entries.map T.entryKey
  · rw [put_seen hin, put_seen (by simp [hin]), List.map_append]
    congr 1
    conv_rhs => rw [← List.map_id front]
    apply List.map_congr_left
    intro e he
    exact if_neg (fun hk : T.entryKey e = T.key a => h (hk ▸ List.mem_map_of_mem he))
  · rw [put_new hin, put_new (by simp only [List.map_append, List.mem_append]; tauto),
      List.append_assoc]

lemma group_append {front : List ε} (h : ∀ a ∈ rows, T.key a ∉ front.map T.entryKey) :
    T.group rows (front ++ entries) = front ++ T.group rows entries := by
  induction rows generalizing entries with
  | nil => rfl
  | cons a rest ih =>
    rw [group, List.foldl_cons, put_append (h a List.mem_cons_self)]
    exact ih (fun b hb => h b (List.mem_cons_of_mem _ hb))

lemma group_keys_mem {k : κ} : k ∈ (T.group rows entries).map T.entryKey ↔
    k ∈ entries.map T.entryKey ∨ ∃ a ∈ rows, T.key a = k := by
  induction rows generalizing entries with
  | nil => simp [group]
  | cons a rest ih =>
    rw [group, List.foldl_cons, ← group, ih, put_keys]
    by_cases h : T.key a ∈ entries.map T.entryKey
    · rw [if_pos h]
      constructor
      · rintro (hk | ⟨b, hb, hk⟩)
        · exact .inl hk
        · exact .inr ⟨b, List.mem_cons_of_mem _ hb, hk⟩
      · rintro (hk | ⟨b, hb, hk⟩)
        · exact .inl hk
        · rcases List.mem_cons.mp hb with rfl | hb
          · exact .inl (hk ▸ h)
          · exact .inr ⟨b, hb, hk⟩
    · rw [if_neg h, List.mem_append, List.mem_singleton]
      constructor
      · rintro ((hk | hk) | ⟨b, hb, hk⟩)
        · exact .inl hk
        · exact .inr ⟨a, List.mem_cons_self, hk.symm⟩
        · exact .inr ⟨b, List.mem_cons_of_mem _ hb, hk⟩
      · rintro (hk | ⟨b, hb, hk⟩)
        · exact .inl (.inl hk)
        · rcases List.mem_cons.mp hb with rfl | hb
          · exact .inl (.inr hk.symm)
          · exact .inr ⟨b, hb, hk⟩

def MadeOf (T : Tally α ε κ) (rows : List α) (e : ε) : Prop :=
  ∃ a rest, rows.filter (fun r => T.key r = T.entryKey e) = a :: rest ∧
    e = rest.foldl (fun e a => T.more a e) (T.first a)

lemma made_of_put (hmade : ∀ e ∈ entries, MadeOf T rows e)
    (hkeys : ∀ a ∈ rows, T.key a ∈ entries.map T.entryKey) :
    ∀ e ∈ T.put a entries, MadeOf T (rows ++ [a]) e := by
  have hother : ∀ e ∈ entries, T.entryKey e ≠ T.key a → MadeOf T (rows ++ [a]) e := by
    intro e he hne
    obtain ⟨b, rest, hrows, hfold⟩ := hmade e he
    exact ⟨b, rest, by rw [List.filter_append, hrows]; simp [Ne.symm hne], hfold⟩
  by_cases h : T.key a ∈ entries.map T.entryKey
  · rw [put_seen h]
    intro e he
    obtain ⟨e₀, he₀, rfl⟩ := List.mem_map.mp he
    by_cases hk : T.entryKey e₀ = T.key a
    · obtain ⟨b, rest, hrows, hfold⟩ := hmade e₀ he₀
      rw [if_pos hk]
      refine ⟨b, rest ++ [a], ?_, by rw [List.foldl_concat, ← hfold]⟩
      rw [T.more_key a e₀ hk, ← hk, List.filter_append, hrows]
      simp [hk]
    · rw [if_neg hk]
      exact hother e₀ he₀ hk
  · rw [put_new h]
    intro e he
    rcases List.mem_append.mp he with he | he
    · exact hother e he (fun hk => h (hk ▸ List.mem_map_of_mem he))
    · rw [List.mem_singleton.mp he]
      refine ⟨a, [], ?_, rfl⟩
      have hnone : rows.filter (fun r => T.key r = T.key a) = [] := by
        rw [List.filter_eq_nil_iff]
        intro r hr hk
        exact h (of_decide_eq_true hk ▸ hkeys r hr)
      rw [T.first_key, List.filter_append, hnone]
      simp

lemma group_made (rows : List α) : ∀ e ∈ T.group rows [], MadeOf T rows e := by
  induction rows using List.reverseRecOn with
  | nil => intro e he; cases he
  | append_singleton rows a ih =>
    rw [group, List.foldl_concat, ← group]
    exact made_of_put ih (fun b hb => group_keys_mem.mpr (.inr ⟨b, hb, rfl⟩))

variable [LinearOrder κ]

lemma group_descending (hsorted : rows.Pairwise (fun a b => T.key b ≤ T.key a)) :
    ((T.group rows []).map T.entryKey).Pairwise (fun k l => l < k) := by
  induction rows using List.reverseRecOn with
  | nil => exact .nil
  | append_singleton rows a ih =>
    obtain ⟨hrows, _, hlast⟩ := List.pairwise_append.mp hsorted
    rw [group, List.foldl_concat, ← group, put_keys]
    split
    · exact ih hrows
    · rename_i hnew
      refine List.pairwise_append.mpr ⟨ih hrows, List.pairwise_singleton _ _, ?_⟩
      intro k hk l hl
      rw [List.mem_singleton.mp hl]
      obtain ⟨b, hb, rfl⟩ := (group_keys_mem.mp hk).resolve_left (by simp)
      have hle := hlast b hb a (List.mem_singleton.mpr rfl)
      exact lt_of_le_of_ne hle (fun he => hnew (he ▸ hk))

lemma stream_take {wanted : ℕ} (hsorted : rows.Pairwise (fun a b => T.key b ≤ T.key a))
    (habove : ∀ k ∈ entries.map T.entryKey, ∀ a ∈ rows, T.key a ≤ k)
    (hlength : entries.length ≤ wanted) :
    T.stream wanted rows entries = (T.group rows entries).take wanted := by
  induction rows generalizing entries with
  | nil => exact (List.take_of_length_le hlength).symm
  | cons a rest ih =>
    obtain ⟨hhead, hrest⟩ := List.pairwise_cons.mp hsorted
    rw [stream]
    split
    · rename_i hstop
      have hnew : T.key a ∉ entries.map T.entryKey := fun h => hstop.1 (any_key.mpr h)
      -- A key not met yet is below every key met, and so are all the keys after it.
      have hfresh : ∀ b ∈ a :: rest, T.key b ∉ entries.map T.entryKey := by
        intro b hb hk
        have hle : T.key b ≤ T.key a := by
          rcases List.mem_cons.mp hb with rfl | hb
          · exact le_rfl
          · exact hhead b hb
        have hab := habove _ hk a List.mem_cons_self
        exact hnew (le_antisymm hab hle ▸ hk)
      have hgroup : T.group (a :: rest) (entries ++ []) = entries ++ T.group (a :: rest) [] :=
        group_append hfresh
      rw [List.append_nil] at hgroup
      rw [hgroup, List.take_append_of_le_length hstop.2, List.take_of_length_le hlength]
    · rename_i hgo
      rw [ih hrest]
      · rfl
      · intro k hk b hb
        rw [put_keys] at hk
        split at hk
        · exact habove k hk b (List.mem_cons_of_mem _ hb)
        · rcases List.mem_append.mp hk with hk | hk
          · exact habove k hk b (List.mem_cons_of_mem _ hb)
          · rw [List.mem_singleton.mp hk]
            exact hhead b hb
      · by_cases h : T.key a ∈ entries.map T.entryKey
        · rw [put_seen h, List.length_map]
          exact hlength
        · rw [put_new h, List.length_append]
          have hroom : ¬ wanted ≤ entries.length := fun hle => hgo ⟨fun hany => h (any_key.mp hany), hle⟩
          simp only [List.length_singleton]
          omega

end Tally

end AudioServer.Foundations.Grouping
