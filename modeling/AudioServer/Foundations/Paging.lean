import Mathlib.Data.List.Sort
import Mathlib.Tactic.Lemma

/-! Reading an ordered list page by page while rows of the page on display leave it. -/

namespace AudioServer.Foundations.Paging

variable {α : Type} {r : α → α → Prop} {p : α → Prop} [DecidablePred p]
variable {listing before block after : List α}

def page (offset limit : ℕ) (l : List α) : List α := (l.drop offset).take limit

def following (r : α → α → Prop) [DecidableRel r] (block l : List α) : List α :=
  l.filter (fun x => ∀ b ∈ block, r b x)

structure Windowed (r : α → α → Prop) (p : α → Prop) [DecidablePred p]
    (listing before block after : List α) : Prop where
  listed : listing = before ++ block.filter (fun x => decide (p x)) ++ after
  ordered : (before ++ block ++ after).Pairwise r
  matching : ∀ x ∈ listing, p x

def drifted (p : α → Prop) [DecidablePred p] (block : List α) : ℕ :=
  (block.filter (fun x => decide (¬ p x))).length

lemma stayed_length (block : List α) :
    (block.filter (fun x => decide (p x))).length + drifted p block = block.length := by
  induction block with
  | nil => rfl
  | cons x block ih =>
    simp only [drifted] at ih ⊢
    by_cases hx : p x
    · simp only [hx, decide_true, decide_false, not_true_eq_false, Bool.false_eq_true,
        not_false_eq_true, List.filter_cons_of_pos, List.filter_cons_of_neg, List.length_cons]
      omega
    · simp only [hx, decide_true, decide_false, not_false_eq_true, Bool.false_eq_true,
        List.filter_cons_of_pos, List.filter_cons_of_neg, List.length_cons]
      omega

lemma drifted_lt_iff (block : List α) : drifted p block < block.length ↔ ∃ x ∈ block, p x := by
  have hlength := stayed_length (p := p) block
  constructor
  · intro hlt
    have hpos : 0 < (block.filter (fun x => decide (p x))).length := by omega
    obtain ⟨x, hx⟩ := List.exists_mem_of_length_pos hpos
    exact ⟨x, List.mem_of_mem_filter hx, by simpa using (List.mem_filter.mp hx).2⟩
  · rintro ⟨x, hx, hp⟩
    have hmem : x ∈ block.filter (fun x => decide (p x)) := List.mem_filter.mpr ⟨hx, by simpa using hp⟩
    have hpos := List.length_pos_of_mem hmem
    omega

lemma windowed_page (hordered : listing.Pairwise r) (hp : ∀ x ∈ listing, p x) (offset limit : ℕ) :
    Windowed r p listing (listing.take offset) (page offset limit listing)
      (listing.drop (offset + limit)) := by
  have hblock : (page offset limit listing).filter (fun x => decide (p x)) =
      page offset limit listing := by
    apply List.filter_eq_self.mpr
    intro x hx
    exact decide_eq_true (hp x (List.mem_of_mem_drop (List.mem_of_mem_take hx)))
  have hsplit : listing.take offset ++ page offset limit listing ++ listing.drop (offset + limit) =
      listing := by
    rw [page, List.append_assoc, ← List.drop_drop, List.take_append_drop, List.take_append_drop]
  refine ⟨?_, ?_, hp⟩
  · rw [hblock, hsplit]
  · rw [hsplit]
    exact hordered

namespace Windowed

variable (h : Windowed r p listing before block after)

include h

lemma drop_pulledBack (excess : ℕ) :
    listing.drop (before.length + excess + (block.length - drifted p block)) =
      after.drop excess := by
  have hlength := stayed_length (p := p) block
  have hkept : (before ++ block.filter (fun x => decide (p x))).length =
      before.length + (block.length - drifted p block) := by
    rw [List.length_append]
    omega
  have hoffset : before.length + excess + (block.length - drifted p block) =
      (before ++ block.filter (fun x => decide (p x))).length + excess := by
    omega
  rw [hoffset, h.listed, ← List.drop_drop, List.drop_left]

lemma following_eq [DecidableRel r] [Std.Asymm r] (hne : block ≠ []) :
    following r block listing = after := by
  have hordered := List.pairwise_append.mp h.ordered
  have hfront := List.pairwise_append.mp hordered.1
  have hbefore : before.filter (fun x => decide (∀ b ∈ block, r b x)) = [] := by
    obtain ⟨b, hb⟩ := List.exists_mem_of_ne_nil block hne
    apply List.filter_eq_nil_iff.mpr
    intro x hx hafter
    exact Std.Asymm.asymm x b (hfront.2.2 x hx b hb) (of_decide_eq_true hafter b hb)
  have hkept : (block.filter (fun x => decide (p x))).filter (fun x => decide (∀ b ∈ block, r b x)) =
      [] := by
    apply List.filter_eq_nil_iff.mpr
    intro x hx hafter
    have hself := of_decide_eq_true hafter x (List.mem_of_mem_filter hx)
    exact Std.Asymm.asymm x x hself hself
  have hrest : after.filter (fun x => decide (∀ b ∈ block, r b x)) = after := by
    apply List.filter_eq_self.mpr
    intro x hx
    apply decide_eq_true
    intro b hb
    exact hordered.2.2 b (List.mem_append_right _ hb) x hx
  rw [following, h.listed, List.filter_append, List.filter_append, hbefore, hkept, hrest]
  rfl

lemma page_eq_following_iff [DecidableRel r] [Std.Asymm r] (hne : block ≠ []) {limit : ℕ}
    (hlimit : 0 < limit) (excess : ℕ) :
    page (before.length + excess + (block.length - drifted p block)) limit listing =
        (following r block listing).take limit ↔
      excess = 0 ∨ following r block listing = [] := by
  rw [page, h.drop_pulledBack, h.following_eq hne]
  constructor
  · intro heq
    by_cases hexcess : excess = 0
    · exact .inl hexcess
    · right
      cases after with
      | nil => rfl
      | cons x after =>
        -- The first row left out would have to stand again further on.
        have hpos : excess = (excess - 1) + 1 := by omega
        have hlater : x ∈ ((x :: after).drop excess).take limit := by
          rw [heq]
          exact List.mem_take_iff_getElem.mpr ⟨0, by simpa using hlimit, rfl⟩
        have hagain := List.mem_of_mem_take hlater
        rw [hpos, List.drop_succ_cons] at hagain
        have htail := (List.pairwise_append.mp h.ordered).2.1
        have hself := (List.pairwise_cons.mp htail).1 x (List.mem_of_mem_drop hagain)
        exact absurd hself (Std.Asymm.asymm x x hself)
  · rintro (rfl | rfl)
    · rw [List.drop_zero]
    · rw [List.drop_nil]

lemma edited [Std.Asymm r] {listing' : List α} {f : α → α} (hf : ∀ a b, r a b → r (f a) (f b))
    (hfixed : ∀ x ∈ before ++ after, f x = x) (hordered : listing'.Pairwise r)
    (hmem : ∀ y, y ∈ listing' ↔ p y ∧ ∃ x, (x ∈ listing ∨ x ∈ block) ∧ f x = y) :
    Windowed r p listing' before (block.map f) after := by
  have hbefore : before.map f = before :=
    (List.map_congr_left (fun x hx => hfixed x (List.mem_append_left _ hx))).trans (List.map_id _)
  have hafter : after.map f = after :=
    (List.map_congr_left (fun x hx => hfixed x (List.mem_append_right _ hx))).trans (List.map_id _)
  have hplaces : (before ++ block.map f ++ after).Pairwise r := by
    have hmapped := h.ordered.map f hf
    rwa [List.map_append, List.map_append, hbefore, hafter] at hmapped
  have hkept : (before ++ (block.map f).filter (fun x => decide (p x)) ++ after).Pairwise r :=
    hplaces.sublist ((List.filter_sublist.append_left before).append_right after)
  refine ⟨hordered.eq_of_mem_iff hkept ?_, hplaces, fun y hy => ((hmem y).mp hy).1⟩
  intro y
  rw [hmem y]
  constructor
  · rintro ⟨hy, x, hx, rfl⟩
    by_cases hblock : x ∈ block
    · have hfx : f x ∈ (block.map f).filter (fun x => decide (p x)) :=
        List.mem_filter.mpr ⟨List.mem_map_of_mem hblock, decide_eq_true hy⟩
      exact List.mem_append_left _ (List.mem_append_right _ hfx)
    · have hlisted := hx.resolve_right hblock
      rw [h.listed, List.mem_append, List.mem_append] at hlisted
      rcases hlisted with (hx | hx) | hx
      · rw [hfixed x (List.mem_append_left _ hx)]
        exact List.mem_append_left _ (List.mem_append_left _ hx)
      · exact absurd (List.mem_of_mem_filter hx) hblock
      · rw [hfixed x (List.mem_append_right _ hx)]
        exact List.mem_append_right _ hx
  · intro hy
    rw [List.mem_append, List.mem_append] at hy
    rcases hy with (hy | hy) | hy
    · have hlisted : y ∈ listing := by
        rw [h.listed]
        exact List.mem_append_left _ (List.mem_append_left _ hy)
      exact ⟨h.matching y hlisted, y, .inl hlisted, hfixed y (List.mem_append_left _ hy)⟩
    · have hy' := List.mem_filter.mp hy
      obtain ⟨x, hx, rfl⟩ := List.mem_map.mp hy'.1
      exact ⟨of_decide_eq_true hy'.2, x, .inr hx, rfl⟩
    · have hlisted : y ∈ listing := by
        rw [h.listed]
        exact List.mem_append_right _ hy
      exact ⟨h.matching y hlisted, y, .inl hlisted, hfixed y (List.mem_append_right _ hy)⟩

end Windowed

end AudioServer.Foundations.Paging
