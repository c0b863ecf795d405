import Mathlib.Data.List.Forall2
import Mathlib.Tactic.Lemma

/-! Computations that either return a value or raise, and the transactions
built from them: a transaction that raises leaves its state as it was. -/

namespace AudioServer.Foundations.Outcomes

universe u v

variable {ε : Type v} {α β σ : Type u}

@[simp] lemma ok_bind (a : α) (f : α → Except ε β) : ((Except.ok a : Except ε α) >>= f) = f a := rfl

@[simp] lemma error_bind (e : ε) (f : α → Except ε β) :
    ((Except.error e : Except ε α) >>= f) = .error e := rfl

lemma bind_ok {x : Except ε α} {f : α → Except ε β} {b : β} (h : (x >>= f) = .ok b) :
    ∃ a, x = .ok a ∧ f a = .ok b := by
  cases x with
  | error e => cases h
  | ok a => exact ⟨a, rfl, h⟩

lemma bind_error {x : Except ε α} {f : α → Except ε β} {e : ε} (h : (x >>= f) = .error e) :
    x = .error e ∨ ∃ a, x = .ok a ∧ f a = .error e := by
  cases x with
  | error e' => cases h; exact .inl rfl
  | ok a => exact .inr ⟨a, rfl, h⟩

def valueOr (d : α) : Except ε α → α
  | .ok a => a
  | .error _ => d

lemma ok_valueOr {x : Except ε α} (d : α) (h : x.isOk) : x = .ok (valueOr d x) := by
  cases x with
  | ok a => rfl
  | error e => cases h

def require (p : Prop) [Decidable p] (e : ε) : Except ε Unit :=
  if p then .ok () else .error e

@[simp] lemma require_ok {p : Prop} [Decidable p] {e : ε} {u : Unit} :
    require p e = .ok u ↔ p := by
  by_cases hp : p <;> simp [require, hp]

@[simp] lemma require_of {p : Prop} [Decidable p] {e : ε} (hp : p) : require p e = .ok () :=
  if_pos hp

@[simp] lemma require_of_not {p : Prop} [Decidable p] {e : ε} (hp : ¬ p) : require p e = .error e :=
  if_neg hp

lemma require_error {p : Prop} [Decidable p] {e e' : ε} (h : require p e = .error e') :
    e' = e := by
  by_cases hp : p
  · rw [require_of hp] at h
    cases h
  · rw [require_of_not hp] at h
    cases h
    rfl

def found (x : Option α) (e : ε) : Except ε α :=
  x.elim (.error e) .ok

@[simp] lemma found_ok {x : Option α} {e : ε} {a : α} : found x e = .ok a ↔ x = some a := by
  cases x <;> simp [found]

@[simp] lemma found_some (a : α) (e : ε) : found (some a) e = .ok a := rfl

@[simp] lemma found_none (e : ε) : found (none : Option α) e = .error e := rfl

abbrev Transaction (σ ε α : Type) := σ → Except ε (α × σ)

def settled (s : σ) : Except ε (α × σ) → σ
  | .ok (_, t) => t
  | .error _ => s

@[simp] lemma settled_ok (s t : σ) (a : α) : settled s (.ok (a, t) : Except ε (α × σ)) = t := rfl

@[simp] lemma settled_error (s : σ) (e : ε) : settled s (.error e : Except ε (α × σ)) = s := rfl

lemma settled_cases (s : σ) (x : Except ε (α × σ)) :
    (∃ a t, x = .ok (a, t) ∧ settled s x = t) ∨ (∃ e, x = .error e ∧ settled s x = s) := by
  rcases x with e | ⟨a, t⟩
  · exact .inr ⟨e, rfl, rfl⟩
  · exact .inl ⟨a, t, rfl, rfl⟩

section Avoiding

variable {e e' : ε}

lemma require_avoids {p : Prop} [Decidable p] (hne : e' ≠ e) : require p e' ≠ .error e :=
  fun h => hne (require_error h).symm

lemma found_avoids {x : Option α} (hne : e' ≠ e) : found x e' ≠ .error e := by
  intro h
  cases x with
  | none =>
    cases h
    exact hne rfl
  | some a => cases h

lemma bind_avoids {x : Except ε α} {f : α → Except ε β} (hx : x ≠ .error e)
    (hf : ∀ a, x = .ok a → f a ≠ .error e) : (x >>= f) ≠ .error e := by
  intro h
  rcases bind_error h with h | ⟨a, ha, h⟩
  · exact hx h
  · exact hf a ha h

lemma foldlM_avoids {f : β → α → Except ε β} {xs : List α} (hf : ∀ b, ∀ a ∈ xs, f b a ≠ .error e)
    (b : β) : xs.foldlM f b ≠ .error e := by
  induction xs generalizing b with
  | nil => exact nofun
  | cons x xs ih =>
    rw [List.foldlM_cons]
    refine bind_avoids (hf b x List.mem_cons_self) ?_
    intro c _
    exact ih (fun b a ha => hf b a (List.mem_cons_of_mem _ ha)) c

end Avoiding

lemma foldlM_keeps {P : β → Prop} {f : β → α → Except ε β}
    {xs : List α} (hf : ∀ b c, ∀ a ∈ xs, P b → f b a = .ok c → P c) {b c : β}
    (hb : P b) (h : xs.foldlM f b = .ok c) : P c := by
  induction xs generalizing b with
  | nil => cases h; exact hb
  | cons x xs ih =>
    rw [List.foldlM_cons] at h
    obtain ⟨d, hd, ht⟩ := bind_ok h
    have hx := hf b d x List.mem_cons_self hb hd
    exact ih (fun b c a ha => hf b c a (List.mem_cons_of_mem _ ha)) hx ht

lemma foldlM_appends {P : α → List β → Prop} {f : List β → α → Except ε (List β)} {xs : List α}
    (hf : ∀ acc, ∀ x ∈ xs, ∃ part, f acc x = .ok (acc ++ part) ∧ P x part) (acc : List β) :
    ∃ parts, xs.foldlM f acc = .ok (acc ++ parts.flatten) ∧ List.Forall₂ P xs parts := by
  induction xs generalizing acc with
  | nil => exact ⟨[], by simp [pure, Except.pure], .nil⟩
  | cons x xs ih =>
    obtain ⟨part, hpart, hx⟩ := hf acc x List.mem_cons_self
    obtain ⟨parts, hparts, hrest⟩ :=
      ih (fun acc y hy => hf acc y (List.mem_cons_of_mem _ hy)) (acc ++ part)
    refine ⟨part :: parts, ?_, .cons hx hrest⟩
    rw [List.foldlM_cons, hpart, ok_bind, hparts, List.flatten_cons, List.append_assoc]

lemma mapM_error {f : α → Except ε β} {xs : List α} {e : ε} (h : xs.mapM f = .error e) :
    ∃ a, f a = .error e := by
  induction xs with
  | nil => cases h
  | cons x xs ih =>
    rw [List.mapM_cons] at h
    rcases bind_error h with h | ⟨_, _, h⟩
    · exact ⟨x, h⟩
    · rcases bind_error h with h | ⟨_, _, h⟩
      · exact ih h
      · cases h

lemma mapM_mem {f : α → Except ε β} {xs : List α} {ys : List β} (h : xs.mapM f = .ok ys) {y : β}
    (hy : y ∈ ys) : ∃ x ∈ xs, f x = .ok y := by
  induction xs generalizing ys with
  | nil =>
    cases h
    cases hy
  | cons x xs ih =>
    rw [List.mapM_cons] at h
    obtain ⟨z, hz, h⟩ := bind_ok h
    obtain ⟨zs, hzs, h⟩ := bind_ok h
    cases h
    rcases List.mem_cons.mp hy with rfl | hy
    · exact ⟨x, List.mem_cons_self, hz⟩
    · obtain ⟨w, hw, hfw⟩ := ih hzs hy
      exact ⟨w, List.mem_cons_of_mem _ hw, hfw⟩

lemma mapM_image {f : α → Except ε β} {xs : List α} {ys : List β} (h : xs.mapM f = .ok ys) {x : α}
    (hx : x ∈ xs) : ∃ y ∈ ys, f x = .ok y := by
  induction xs generalizing ys with
  | nil => cases hx
  | cons z xs ih =>
    rw [List.mapM_cons] at h
    obtain ⟨y, hy, h⟩ := bind_ok h
    obtain ⟨ys, hys, h⟩ := bind_ok h
    cases h
    rcases List.mem_cons.mp hx with rfl | hx
    · exact ⟨y, List.mem_cons_self, hy⟩
    · obtain ⟨w, hw, hfw⟩ := ih hys hx
      exact ⟨w, List.mem_cons_of_mem _ hw, hfw⟩

lemma mapM_paired {f : α → Except ε β} {xs : List α} {ys : List β} (h : xs.mapM f = .ok ys) :
    List.Forall₂ (fun x y => f x = .ok y) xs ys := by
  induction xs generalizing ys with
  | nil =>
    cases h
    exact .nil
  | cons x xs ih =>
    rw [List.mapM_cons] at h
    obtain ⟨z, hz, h⟩ := bind_ok h
    obtain ⟨zs, hzs, h⟩ := bind_ok h
    cases h
    exact .cons hz (ih hzs)

lemma mapM_succeeds {f : α → Except ε β} {xs : List α} (h : ∀ x ∈ xs, ∃ y, f x = .ok y) :
    ∃ ys, xs.mapM f = .ok ys := by
  induction xs with
  | nil => exact ⟨[], rfl⟩
  | cons x xs ih =>
    obtain ⟨y, hy⟩ := h x List.mem_cons_self
    obtain ⟨ys, hys⟩ := ih (fun x hx => h x (List.mem_cons_of_mem _ hx))
    exact ⟨y :: ys, by rw [List.mapM_cons, hy, ok_bind, hys]; rfl⟩

lemma mapM_values {f : α → Except ε β} {g : α → β} {xs : List α} (h : ∀ x ∈ xs, f x = .ok (g x)) :
    xs.mapM f = .ok (xs.map g) := by
  induction xs with
  | nil => rfl
  | cons x xs ih =>
    rw [List.mapM_cons, h x List.mem_cons_self, ok_bind,
      ih (fun y hy => h y (List.mem_cons_of_mem _ hy))]
    rfl

lemma mapM_same {f : α → Except ε α} {xs : List α} (h : ∀ x ∈ xs, f x = .ok x) :
    xs.mapM f = .ok xs := by
  rw [mapM_values h, List.map_id']

lemma mapM_map {γ : Type u} {f : α → Except ε β} {p : α → γ} {q : β → γ}
    (hf : ∀ a b, f a = .ok b → q b = p a) {xs : List α} {ys : List β} (h : xs.mapM f = .ok ys) :
    ys.map q = xs.map p := by
  induction xs generalizing ys with
  | nil =>
    cases h
    rfl
  | cons x xs ih =>
    rw [List.mapM_cons] at h
    obtain ⟨z, hz, h⟩ := bind_ok h
    obtain ⟨zs, hzs, h⟩ := bind_ok h
    cases h
    rw [List.map_cons, List.map_cons, hf x z hz, ih hzs]

lemma mapError_ok {ε' : Type v} {x : Except ε α} {f : ε → ε'} {a : α} :
    x.mapError f = .ok a ↔ x = .ok a := by
  cases x with
  | error e => exact ⟨nofun, nofun⟩
  | ok b =>
    constructor
    · rintro ⟨⟩
      rfl
    · rintro ⟨⟩
      rfl

lemma mapError_error {ε' : Type v} {x : Except ε α} {f : ε → ε'} {e' : ε'}
    (h : x.mapError f = .error e') : ∃ e, x = .error e ∧ f e = e' := by
  cases x with
  | error e =>
    cases h
    exact ⟨e, rfl, rfl⟩
  | ok a => cases h

end AudioServer.Foundations.Outcomes
