import Mathlib.Tactic.Lemma

/-! Programs whose effects on a state outlive the exceptions they raise, taken
apart at their binds and handlers. -/

namespace AudioServer.Foundations.Effects

variable {ε σ α β : Type} {s t : σ} {e : ε}

lemma bind_run_ok {x : EStateM ε σ α} (f : α → EStateM ε σ β) {a : α} (h : x s = .ok a t) :
    (x >>= f) s = f a t := by
  show EStateM.bind x f s = f a t
  rw [EStateM.bind, h]

lemma bind_run_error {x : EStateM ε σ α} (f : α → EStateM ε σ β) (h : x s = .error e t) :
    (x >>= f) s = .error e t := by
  show EStateM.bind x f s = .error e t
  rw [EStateM.bind, h]

lemma bind_ok {x : EStateM ε σ α} {f : α → EStateM ε σ β} {b : β} (h : (x >>= f) s = .ok b t) :
    ∃ a u, x s = .ok a u ∧ f a u = .ok b t := by
  cases hx : x s with
  | ok a u => exact ⟨a, u, rfl, (bind_run_ok f hx).symm.trans h⟩
  | error e' u =>
    rw [bind_run_error f hx] at h
    cases h

lemma bind_error {x : EStateM ε σ α} {f : α → EStateM ε σ β} (h : (x >>= f) s = .error e t) :
    x s = .error e t ∨ ∃ a u, x s = .ok a u ∧ f a u = .error e t := by
  cases hx : x s with
  | ok a u => exact .inr ⟨a, u, rfl, (bind_run_ok f hx).symm.trans h⟩
  | error e' u =>
    rw [bind_run_error f hx] at h
    cases h
    exact .inl rfl

lemma get_bind (f : σ → EStateM ε σ α) : (get >>= f) s = f s s := rfl

lemma modify_bind (g : σ → σ) (f : PUnit → EStateM ε σ α) : (modify g >>= f) s = f ⟨⟩ (g s) := rfl

lemma catch_run_ok {x : EStateM ε σ α} (handle : ε → EStateM ε σ α) {a : α} (h : x s = .ok a t) :
    tryCatch x handle s = .ok a t := by
  show EStateM.tryCatch x handle s = .ok a t
  delta EStateM.tryCatch
  rw [h]

lemma catch_run_error {x : EStateM ε σ α} (handle : ε → EStateM ε σ α) (h : x s = .error e t) :
    tryCatch x handle s = handle e t := by
  show EStateM.tryCatch x handle s = handle e t
  delta EStateM.tryCatch
  rw [h]
  rfl

lemma catch_error {x : EStateM ε σ α} {handle : ε → EStateM ε σ α}
    (h : tryCatch x handle s = .error e t) : ∃ e' u, x s = .error e' u ∧ handle e' u = .error e t := by
  cases hx : x s with
  | ok a u =>
    rw [catch_run_ok handle hx] at h
    cases h
  | error e' u => exact ⟨e', u, rfl, (catch_run_error handle hx).symm.trans h⟩

lemma catch_ok {x : EStateM ε σ α} {handle : ε → EStateM ε σ α} {a : α}
    (hraises : ∀ e u b v, handle e u ≠ .ok b v) (h : tryCatch x handle s = .ok a t) :
    x s = .ok a t := by
  cases hx : x s with
  | ok b u => exact (catch_run_ok handle hx).symm.trans h
  | error e' u =>
    rw [catch_run_error handle hx] at h
    exact absurd h (hraises e' u a t)

section Ends

variable {Q Q' : α → σ → Prop} {E E' : ε → σ → Prop}

/-- The program, run on a state, returns as `Q` says or raises as `E` says. -/
def Ends (x : EStateM ε σ α) (s : σ) (Q : α → σ → Prop) (E : ε → σ → Prop) : Prop :=
  match x s with
  | .ok a t => Q a t
  | .error e t => E e t

lemma Ends.error {x : EStateM ε σ α} (h : Ends x s Q E) (hx : x s = .error e t) : E e t := by
  rwa [Ends, hx] at h

lemma Ends.imp {x : EStateM ε σ α} (h : Ends x s Q E) (hQ : ∀ a t, Q a t → Q' a t)
    (hE : ∀ e t, E e t → E' e t) : Ends x s Q' E' := by
  unfold Ends at h ⊢
  cases hx : x s with
  | ok a t =>
    rw [hx] at h
    exact hQ a t h
  | error e t =>
    rw [hx] at h
    exact hE e t h

lemma Ends.congr {x y : EStateM ε σ α} (hxy : x s = y s) (h : Ends y s Q E) : Ends x s Q E := by
  rwa [Ends, hxy]

lemma Ends.raises {x : EStateM ε σ α} (h : Ends x s (fun _ _ => False) E) :
    ∃ e t, x s = .error e t ∧ E e t := by
  unfold Ends at h
  cases hx : x s with
  | ok a t =>
    rw [hx] at h
    exact h.elim
  | error e t =>
    rw [hx] at h
    exact ⟨e, t, rfl, h⟩

lemma ends_bind {Q : β → σ → Prop} {x : EStateM ε σ α} {f : α → EStateM ε σ β} :
    Ends (x >>= f) s Q E ↔ Ends x s (fun a t => Ends (f a) t Q E) E := by
  unfold Ends
  cases hx : x s with
  | ok a t => rw [bind_run_ok f hx]
  | error e t => rw [bind_run_error f hx]

lemma ends_get_bind {f : σ → EStateM ε σ α} : Ends (get >>= f) s Q E ↔ Ends (f s) s Q E := Iff.rfl

lemma ends_catch {x : EStateM ε σ α} {handle : ε → EStateM ε σ α} :
    Ends (tryCatch x handle) s Q E ↔ Ends x s Q (fun e t => Ends (handle e) t Q E) := by
  unfold Ends
  cases hx : x s with
  | ok a t => rw [catch_run_ok handle hx]
  | error e t => rw [catch_run_error handle hx]

def lift (x : Except ε α) : EStateM ε σ α :=
  match x with
  | .ok a => pure a
  | .error e => throw e

lemma lift_ok {x : Except ε α} {a : α} (h : (lift x : EStateM ε σ α) s = .ok a t) :
    t = s ∧ x = .ok a := by
  cases x with
  | ok _ => cases h; exact ⟨rfl, rfl⟩
  | error _ => cases h

lemma lift_error {x : Except ε α} (h : (lift x : EStateM ε σ α) s = .error e t) :
    t = s ∧ x = .error e := by
  cases x with
  | ok _ => cases h
  | error _ => cases h; exact ⟨rfl, rfl⟩

lemma ends_lift {x : Except ε α} : Ends (lift x : EStateM ε σ α) s Q E ↔
    (∀ a, x = .ok a → Q a s) ∧ ∀ e, x = .error e → E e s := by
  cases x with
  | ok a => exact ⟨fun h => ⟨fun _ ha => (by cases ha; exact h), fun _ he => (by cases he)⟩, fun h => h.1 a rfl⟩
  | error e => exact ⟨fun h => ⟨fun _ ha => (by cases ha), fun _ he => (by cases he; exact h)⟩, fun h => h.2 e rfl⟩

end Ends

section Transactions

/-- What becomes of a transaction whose body has run. A commit can land and raise all the same. -/
inductive Fate (ε : Type)
  | commits
  | aborts (e : ε)
  | raisesAfter (e : ε)

def endState : EStateM.Result ε σ α → σ
  | .ok _ t => t
  | .error _ t => t

def inTransaction (fate : Fate ε) (body : EStateM ε σ α) : EStateM ε σ α := fun s =>
  match body s with
  | .ok a t =>
    match fate with
    | .commits => .ok a t
    | .aborts e => .error e s
    | .raisesAfter e => .error e t
  | .error e _ => .error e s

lemma transaction_cases (fate : Fate ε) (body : EStateM ε σ α) (s : σ) :
    endState (inTransaction fate body s) = s ∨
      ∃ a, body s = .ok a (endState (inTransaction fate body s)) := by
  rw [inTransaction]
  cases body s with
  | ok a t =>
    cases fate with
    | commits => exact .inr ⟨a, rfl⟩
    | aborts e => exact .inl rfl
    | raisesAfter e => exact .inr ⟨a, rfl⟩
  | error e t => exact .inl rfl

end Transactions

end AudioServer.Foundations.Effects
