import AudioServer.Foundations.Dicts
import Mathlib.Data.List.Induction

/-! Items written into stored rows: each over the row under its key, or as a new row. -/

namespace AudioServer.Foundations.Upserts

open AudioServer.Foundations.Dicts

universe u v w x

structure Writer (α : Type u) (τ : Type v) (κ : Type w) (ι : Type x) where
  key : α → κ
  id : α → ι
  keyOf : τ → κ
  frozen : α → Bool
  new : τ → α
  update : τ → α → α
  update_id : ∀ t row, id (update t row) = id row

namespace Writer

variable {α : Type u} {τ : Type v} {κ : Type w} {ι : Type x} [DecidableEq κ]
variable (W : Writer α τ κ ι) (stored : List α)

def write [DecidableEq ι] (rows : List α) (t : τ) : List α :=
  match dictGet W.key stored (W.keyOf t) with
  | none => rows ++ [W.new t]
  | some row => if W.frozen row then rows else replaceRow W.id (W.update t row) rows

def rewritten (ts : List τ) (row : α) : α :=
  match ts.find? (fun t => W.keyOf t = W.key row) with
  | some t => if W.frozen row then row else W.update t row
  | none => row

def fresh (ts : List τ) : List τ :=
  ts.filter (fun t => (dictGet W.key stored (W.keyOf t)).isNone)

lemma fresh_concat_none {ts : List τ} {t : τ} (h : dictGet W.key stored (W.keyOf t) = none) :
    W.fresh stored (ts ++ [t]) = W.fresh stored ts ++ [t] := by
  simp [fresh, h]

lemma fresh_concat_some {ts : List τ} {t : τ} {row : α}
    (h : dictGet W.key stored (W.keyOf t) = some row) :
    W.fresh stored (ts ++ [t]) = W.fresh stored ts := by
  simp [fresh, h]

lemma rewritten_id (ts : List τ) (row : α) : W.id (W.rewritten ts row) = W.id row := by
  unfold rewritten
  split
  · split
    · rfl
    · exact W.update_id _ row
  · rfl

lemma rewritten_of_key {ts : List τ} {t : τ} {row : α} (ht : t ∈ ts) (hkey : W.keyOf t = W.key row)
    (honly : ∀ t' ∈ ts, W.keyOf t' = W.key row → t' = t) :
    W.rewritten ts row = if W.frozen row then row else W.update t row := by
  unfold rewritten
  cases hf : ts.find? (fun t => W.keyOf t = W.key row) with
  | none => exact absurd (decide_eq_true hkey) (List.find?_eq_none.mp hf t ht)
  | some t' =>
    have hk : W.keyOf t' = W.key row := by simpa using List.find?_some hf
    rw [honly t' (List.mem_of_find?_eq_some hf) hk]

lemma rewritten_of_no_key {ts : List τ} {row : α} (h : ∀ t ∈ ts, W.keyOf t ≠ W.key row) :
    W.rewritten ts row = row := by
  have hnone : ts.find? (fun t => W.keyOf t = W.key row) = none := by
    rw [List.find?_eq_none]
    intro t ht
    simpa using h t ht
  rw [rewritten, hnone]

lemma rewritten_frozen (ts : List τ) {row : α} (h : W.frozen row) : W.rewritten ts row = row := by
  unfold rewritten
  split
  · rw [if_pos h]
  · rfl

lemma rewritten_concat_of_ne {ts : List τ} {t : τ} {row : α}
    (h : W.keyOf t = W.key row → W.frozen row) :
    W.rewritten (ts ++ [t]) row = W.rewritten ts row := by
  unfold rewritten
  rw [List.find?_append]
  cases hf : ts.find? (fun t => W.keyOf t = W.key row) with
  | some t' => rfl
  | none =>
    by_cases hk : W.keyOf t = W.key row
    · simp [hk, h hk]
    · simp [hk]

lemma foldl_ids [DecidableEq ι] (ts : List τ) : (ts.foldl (W.write stored) stored).map W.id =
    stored.map W.id ++ ((W.fresh stored ts).map W.new).map W.id := by
  induction ts using List.reverseRecOn with
  | nil => simp [fresh]
  | append_singleton ts t ih =>
    rw [List.foldl_concat, write]
    cases hd : dictGet W.key stored (W.keyOf t) with
    | none => simp [ih, fresh_concat_none W stored hd]
    | some row =>
      by_cases hfrozen : W.frozen row
      · simp [ih, hfrozen, fresh_concat_some W stored hd]
      · simp [ih, hfrozen, fresh_concat_some W stored hd, replaceRow_keys]

lemma foldl_write [DecidableEq ι] {ts : List τ} (hids : (stored.map W.id).Nodup) (hts : (ts.map W.keyOf).Nodup)
    (hkeys : ∀ a ∈ stored, ∀ b ∈ stored, W.key a = W.key b → W.key a ∈ ts.map W.keyOf → a = b)
    (hnew : ∀ t ∈ W.fresh stored ts, W.id (W.new t) ∉ stored.map W.id) :
    ts.foldl (W.write stored) stored =
      stored.map (W.rewritten ts) ++ (W.fresh stored ts).map W.new := by
  induction ts using List.reverseRecOn with
  | nil =>
    have hsame : W.rewritten [] = fun row => row := rfl
    simp [fresh, hsame]
  | append_singleton ts t ih =>
    rw [List.map_append, List.nodup_append] at hts
    obtain ⟨hts, _, hlast⟩ := hts
    have hother : ∀ t' ∈ ts, W.keyOf t' ≠ W.keyOf t := by
      intro t' ht'
      exact hlast _ (List.mem_map_of_mem ht') _ (by simp)
    have ih := ih hts
      (fun a ha b hb hab hin => hkeys a ha b hb hab (by simp [List.mem_map.mp hin]))
    rw [List.foldl_concat, write]
    cases hd : dictGet W.key stored (W.keyOf t) with
    | none =>
      rw [fresh_concat_none W stored hd] at hnew ⊢
      have hrows : stored.map (W.rewritten (ts ++ [t])) = stored.map (W.rewritten ts) := by
        apply List.map_congr_left
        intro row hrow
        exact W.rewritten_concat_of_ne (fun hk => absurd hk.symm (dictGet_none.mp hd row hrow))
      rw [ih (fun t' ht' => hnew t' (List.mem_append_left _ ht')), hrows]
      simp
    | some row =>
      rw [fresh_concat_some W stored hd] at hnew ⊢
      obtain ⟨hrow, hkey⟩ := dictGet_some hd
      have honly : ∀ r ∈ stored, W.keyOf t = W.key r → r = row := by
        intro r hr hk
        exact hkeys r hr row hrow (hk.symm.trans hkey.symm) (by simp [hk])
      rw [ih hnew]
      by_cases hfrozen : W.frozen row
      · have hrows : stored.map (W.rewritten (ts ++ [t])) = stored.map (W.rewritten ts) := by
          apply List.map_congr_left
          intro r hr
          exact W.rewritten_concat_of_ne (fun hk => honly r hr hk ▸ hfrozen)
        simp [hfrozen, hrows]
      · have hadded : replaceRow W.id (W.update t row) ((W.fresh stored ts).map W.new) =
            (W.fresh stored ts).map W.new := by
          apply replaceRow_absent
          intro y hy hid
          obtain ⟨t', ht', rfl⟩ := List.mem_map.mp hy
          rw [W.update_id] at hid
          exact hnew t' ht' (hid ▸ List.mem_map_of_mem hrow)
        have hrows : replaceRow W.id (W.update t row) (stored.map (W.rewritten ts)) =
            stored.map (W.rewritten (ts ++ [t])) := by
          rw [replaceRow, List.map_map]
          apply List.map_congr_left
          intro r hr
          simp only [Function.comp_apply, rewritten_id, W.update_id]
          split
          · rename_i hid
            obtain rfl : r = row := List.inj_on_of_nodup_map hids hr hrow hid
            have hall : ∀ t' ∈ ts ++ [t], W.keyOf t' = W.key r → t' = t := by
              intro t' ht' hk
              rcases List.mem_append.mp ht' with ht' | ht'
              · exact absurd (hk.trans hkey) (hother t' ht')
              · exact List.mem_singleton.mp ht'
            rw [rewritten_of_key W (by simp) hkey.symm hall, if_neg hfrozen]
          · rename_i hid
            refine (W.rewritten_concat_of_ne ?_).symm
            intro hk
            exact absurd (congrArg W.id (honly r hr hk)) hid
        rw [← hrows]
        simp [hfrozen, replaceRow_append, hadded]

end Writer

end AudioServer.Foundations.Upserts
