import Mathlib.Data.List.Basic
import Mathlib.Tactic.Lemma

/-! Programs that ask the outside for what they need, and all the ways their questions can be
answered. -/

namespace AudioServer.Foundations.Scripts

inductive Script {Q : Type} (A : Q → Type) (ε α : Type)
  | done (a : α)
  | fail (e : ε)
  | ask (question : Q) (next : Except ε (A question) → Script A ε α)

structure Exchange {Q : Type} (A : Q → Type) (ε : Type) where
  question : Q
  answer : Except ε (A question)

variable {Q : Type} {A : Q → Type} {ε α β : Type}

namespace Script

def call (question : Q) : Script A ε (A question) :=
  .ask question (fun answer => match answer with
    | .ok a => .done a
    | .error e => .fail e)

def bind : Script A ε α → (α → Script A ε β) → Script A ε β
  | .done a, f => f a
  | .fail e, _ => .fail e
  | .ask question next, f => .ask question (fun answer => (next answer).bind f)

def rescue : Script A ε α → (ε → Script A ε α) → Script A ε α
  | .done a, _ => .done a
  | .fail e, handle => handle e
  | .ask question next, handle => .ask question (fun answer => (next answer).rescue handle)

instance : Monad (Script A ε) where
  pure := done
  bind := bind

instance : MonadExceptOf ε (Script A ε) where
  throw := fail
  tryCatch := rescue

def ofExcept : Except ε α → Script A ε α
  | .ok a => .done a
  | .error e => .fail e

/-- `try` with `finally`. -/
def ensure (x : Script A ε α) (cleanup : Script A ε Unit) : Script A ε α :=
  (x.rescue (fun e => cleanup.bind (fun _ => .fail e))).bind (fun a => cleanup.bind (fun _ => .done a))

end Script

inductive Reaches : Script A ε α → List (Exchange A ε) → Script A ε α → Prop
  | start (p : Script A ε α) : Reaches p [] p
  | ask {question : Q} {next : Except ε (A question) → Script A ε α} {answer : Except ε (A question)}
      {t : List (Exchange A ε)} {p : Script A ε α} (h : Reaches (next answer) t p) :
      Reaches (.ask question next) (⟨question, answer⟩ :: t) p

section Reaching

variable {p p' : Script A ε α} {t t₁ t₂ : List (Exchange A ε)} {a : α} {e : ε}

@[simp] lemma pure_eq (a : α) : (pure a : Script A ε α) = .done a := rfl

@[simp] lemma bind_eq (x : Script A ε α) (f : α → Script A ε β) : x >>= f = x.bind f := rfl

lemma reaches_done (h : Reaches (.done a) t p) : t = [] ∧ p = .done a := by
  cases h
  exact ⟨rfl, rfl⟩

lemma reaches_fail (h : Reaches (.fail e) t p) : t = [] ∧ p = .fail e := by
  cases h
  exact ⟨rfl, rfl⟩

lemma Reaches.append {p'' : Script A ε α} (h : Reaches p t₁ p') (h' : Reaches p' t₂ p'') :
    Reaches p (t₁ ++ t₂) p'' := by
  induction h with
  | start _ => exact h'
  | ask _ ih => exact .ask (ih h')

lemma reaches_bind {x : Script A ε α} {f : α → Script A ε β} {t : List (Exchange A ε)}
    {p : Script A ε β} (h : Reaches (x.bind f) t p) :
    (∃ x', Reaches x t x' ∧ (∀ a, x' ≠ .done a) ∧ p = x'.bind f) ∨
      ∃ a t₁ t₂, t = t₁ ++ t₂ ∧ Reaches x t₁ (.done a) ∧ Reaches (f a) t₂ p := by
  induction x generalizing t with
  | done a => exact .inr ⟨a, [], t, rfl, .start _, h⟩
  | fail e =>
    obtain ⟨rfl, rfl⟩ := reaches_fail h
    exact .inl ⟨.fail e, .start _, nofun, rfl⟩
  | ask question next ih =>
    cases h with
    | start _ => exact .inl ⟨_, .start _, nofun, rfl⟩
    | ask h =>
      rcases ih _ h with ⟨x', hx, hrunning, rfl⟩ | ⟨a, t₁, t₂, rfl, hx, hf⟩
      · exact .inl ⟨x', .ask hx, hrunning, rfl⟩
      · exact .inr ⟨a, _, t₂, rfl, .ask hx, hf⟩

lemma reaches_rescue {x : Script A ε α} {handle : ε → Script A ε α} (h : Reaches (x.rescue handle) t p) :
    (∃ x', Reaches x t x' ∧ (∀ e, x' ≠ .fail e) ∧ p = x'.rescue handle) ∨
      ∃ e t₁ t₂, t = t₁ ++ t₂ ∧ Reaches x t₁ (.fail e) ∧ Reaches (handle e) t₂ p := by
  induction x generalizing t with
  | done a =>
    obtain ⟨rfl, rfl⟩ := reaches_done h
    exact .inl ⟨.done a, .start _, nofun, rfl⟩
  | fail e => exact .inr ⟨e, [], t, rfl, .start _, h⟩
  | ask question next ih =>
    cases h with
    | start _ => exact .inl ⟨_, .start _, nofun, rfl⟩
    | ask h =>
      rcases ih _ h with ⟨x', hx, hrunning, rfl⟩ | ⟨e, t₁, t₂, rfl, hx, hhandle⟩
      · exact .inl ⟨x', .ask hx, hrunning, rfl⟩
      · exact .inr ⟨e, _, t₂, rfl, .ask hx, hhandle⟩

lemma reaches_ask {question : Q} {f : A question → Script A ε β} {t : List (Exchange A ε)}
    {p : Script A ε β} (h : Reaches (Script.call question >>= f) t p) :
    (t = [] ∧ ∃ next, p = .ask question next) ∨
      (∃ e, t = [⟨question, .error e⟩] ∧ p = .fail e) ∨
        ∃ a t', t = ⟨question, .ok a⟩ :: t' ∧ Reaches (f a) t' p := by
  cases h with
  | start _ => exact .inl ⟨rfl, _, rfl⟩
  | @ask _ _ answer _ _ h =>
    cases answer with
    | error e =>
      obtain ⟨rfl, rfl⟩ := reaches_fail h
      exact .inr (.inl ⟨e, rfl, rfl⟩)
    | ok a => exact .inr (.inr ⟨a, _, rfl, h⟩)

lemma bind_assoc {γ : Type} (x : Script A ε α) (f : α → Script A ε β) (g : β → Script A ε γ) :
    (x.bind f).bind g = x.bind (fun a => (f a).bind g) := by
  induction x with
  | done a => rfl
  | fail e => rfl
  | ask question next ih =>
    rw [Script.bind, Script.bind, Script.bind]
    congr 1
    funext answer
    exact ih answer

lemma reaches_bind_last {x : Script A ε α} {f : α → Script A ε β} {t : List (Exchange A ε)}
    {p : Script A ε β} (hf : ∀ a t p, Reaches (f a) t p → t = [] ∧ p = f a)
    (h : Reaches (x.bind f) t p) : ∃ x', Reaches x t x' ∧ p = x'.bind f := by
  rcases reaches_bind h with ⟨x', hx, _, rfl⟩ | ⟨a, t₁, t₂, rfl, hx, hp⟩
  · exact ⟨x', hx, rfl⟩
  · obtain ⟨rfl, rfl⟩ := hf _ _ _ hp
    rw [List.append_nil]
    exact ⟨_, hx, rfl⟩

inductive Ensured (x : Script A ε α) (cleanup : Script A ε Unit) (t : List (Exchange A ε))
    (p : Script A ε α) : Prop
  | running (question : Q) (next : Except ε (A question) → Script A ε α)
      (hx : Reaches x t (.ask question next))
      (hp : ∃ next', p = .ask question next')
  | returned (a : α) (t₁ t₂ : List (Exchange A ε)) (c : Script A ε Unit) (ht : t = t₁ ++ t₂)
      (hx : Reaches x t₁ (.done a)) (hc : Reaches cleanup t₂ c) (hp : p = c.bind (fun _ => .done a))
  | failed (e : ε) (t₁ t₂ : List (Exchange A ε)) (c : Script A ε Unit) (ht : t = t₁ ++ t₂)
      (hx : Reaches x t₁ (.fail e)) (hc : Reaches cleanup t₂ c) (hp : p = c.bind (fun _ => .fail e))

lemma reaches_ensure {x : Script A ε α} {cleanup : Script A ε Unit}
    (h : Reaches (x.ensure cleanup) t p) : Ensured x cleanup t p := by
  rcases reaches_bind h with ⟨y, hy, hrunning, rfl⟩ | ⟨a, t₁, t₂, rfl, hy, hp⟩
  · rcases reaches_rescue hy with ⟨x', hx, hok, rfl⟩ | ⟨e, t₁, t₂, rfl, hx, hc⟩
    · cases x' with
      | done a => exact absurd rfl (hrunning a)
      | fail e => exact absurd rfl (hok e)
      | ask question next => exact .running question next hx ⟨_, rfl⟩
    · obtain ⟨c, hcleanup, rfl⟩ := reaches_bind_last (fun _ _ _ => reaches_fail) hc
      exact .failed e t₁ t₂ c rfl hx hcleanup (bind_assoc _ _ _)
  · obtain ⟨c, hc, rfl⟩ := reaches_bind_last (fun _ _ _ => reaches_done) hp
    rcases reaches_rescue hy with ⟨x', hx, hok, heq⟩ | ⟨e, t₁, t₃, rfl, _, hdone⟩
    · cases x' with
      | done b =>
        cases heq
        exact .returned a t₁ t₂ c rfl hx hc rfl
      | fail e => exact absurd rfl (hok e)
      | ask question next => cases heq
    · obtain ⟨c', _, heq⟩ := reaches_bind_last (fun _ _ _ => reaches_fail) hdone
      cases c' <;> cases heq

end Reaching

section Plans

variable {plan plan' : List Q} {t t₁ t₂ : List (Exchange A ε)} {a : α} {e : ε}

def Answered (x : Exchange A ε) : Prop := ∃ a, x.answer = .ok a

def Follows (plan : List Q) (t : List (Exchange A ε)) : Prop :=
  t.map (·.question) <+: plan ∧ ∀ x ∈ t.dropLast, Answered x

def Covers (plan : List Q) (t : List (Exchange A ε)) : Prop :=
  t.map (·.question) = plan ∧ ∀ x ∈ t, Answered x

structure Along (p : Script A ε α) (plan : List Q) (R : List (Exchange A ε) → α → Prop)
    (E : Exchange A ε → ε → Prop) : Prop where
  follows : ∀ t p', Reaches p t p' → Follows plan t
  done : ∀ t a, Reaches p t (.done a) → Covers plan t ∧ R t a
  fail : ∀ t e, Reaches p t (.fail e) → ∃ x, t.getLast? = some x ∧ E x e

lemma Follows.more (h : Follows plan t) : Follows (plan ++ plan') t :=
  ⟨h.1.trans (List.prefix_append _ _), h.2⟩

lemma follows_nil : Follows plan ([] : List (Exchange A ε)) := ⟨List.nil_prefix, nofun⟩

lemma follows_one {question : Q} (answer : Except ε (A question)) :
    Follows (question :: plan) [⟨question, answer⟩] := ⟨⟨plan, rfl⟩, nofun⟩

lemma Follows.cons {question : Q} (h : Follows plan t) (a : A question) :
    Follows (question :: plan) (⟨question, .ok a⟩ :: t) := by
  refine ⟨(List.prefix_cons_inj question).mpr h.1, ?_⟩
  cases t with
  | nil => nofun
  | cons x t =>
    rw [List.dropLast_cons_cons]
    intro y hy
    rcases List.mem_cons.mp hy with rfl | hy
    · exact ⟨a, rfl⟩
    · exact h.2 y hy

lemma Covers.follows (h : Covers plan t) : Follows plan t :=
  ⟨h.1 ▸ List.prefix_rfl, fun x hx => h.2 x (List.dropLast_subset t hx)⟩

lemma Covers.append (h₁ : Covers plan t₁) (h₂ : Covers plan' t₂) :
    Covers (plan ++ plan') (t₁ ++ t₂) := by
  refine ⟨by rw [List.map_append, h₁.1, h₂.1], ?_⟩
  intro x hx
  rcases List.mem_append.mp hx with hx | hx
  · exact h₁.2 x hx
  · exact h₂.2 x hx

lemma Covers.append_follows (h₁ : Covers plan t₁) (h₂ : Follows plan' t₂) :
    Follows (plan ++ plan') (t₁ ++ t₂) := by
  by_cases hnil : t₂ = []
  · rw [hnil, List.append_nil]
    exact h₁.follows.more
  · refine ⟨?_, ?_⟩
    · rw [List.map_append, h₁.1]
      exact (List.prefix_append_right_inj plan).mpr h₂.1
    · rw [List.dropLast_append_of_ne_nil hnil]
      intro x hx
      rcases List.mem_append.mp hx with hx | hx
      · exact h₁.2 x hx
      · exact h₂.2 x hx

variable {R : List (Exchange A ε) → α → Prop} {E : Exchange A ε → ε → Prop}

lemma along_done (h : R [] a) : Along (.done a) [] R E where
  follows t p' hp := by
    obtain ⟨rfl, _⟩ := reaches_done hp
    exact ⟨List.nil_prefix, nofun⟩
  done t b hp := by
    obtain ⟨rfl, hb⟩ := reaches_done hp
    cases hb
    exact ⟨⟨rfl, nofun⟩, h⟩
  fail t e hp := by cases hp

lemma along_call {question : Q} {R : List (Exchange A ε) → A question → Prop}
    (hok : ∀ a, R [⟨question, .ok a⟩] a) (herror : ∀ e, E ⟨question, .error e⟩ e) :
    Along (.call question) [question] R E where
  follows t p' hp := by
    cases hp with
    | start _ => exact ⟨List.nil_prefix, nofun⟩
    | @ask _ _ answer _ _ hp =>
      cases answer with
      | ok a =>
        obtain ⟨rfl, _⟩ := reaches_done hp
        exact ⟨List.prefix_rfl, nofun⟩
      | error e =>
        obtain ⟨rfl, _⟩ := reaches_fail hp
        exact ⟨List.prefix_rfl, nofun⟩
  done t b hp := by
    cases hp with
    | @ask _ _ answer _ _ hp =>
      cases answer with
      | ok a =>
        obtain ⟨rfl, hb⟩ := reaches_done hp
        cases hb
        refine ⟨⟨rfl, ?_⟩, hok b⟩
        intro x hx
        rw [List.mem_singleton.mp hx]
        exact ⟨b, rfl⟩
      | error e => cases hp
  fail t e hp := by
    cases hp with
    | @ask _ _ answer _ _ hp =>
      cases answer with
      | ok a => cases hp
      | error e' =>
        obtain ⟨rfl, he⟩ := reaches_fail hp
        cases he
        exact ⟨_, rfl, herror e⟩

lemma Along.bind {x : Script A ε α} {f : α → Script A ε β} {R' : List (Exchange A ε) → β → Prop}
    (hx : Along x plan R E)
    (hf : ∀ a t₁, Covers plan t₁ → R t₁ a → Along (f a) plan' (fun t₂ b => R' (t₁ ++ t₂) b) E) :
    Along (x >>= f) (plan ++ plan') R' E where
  follows t p' hp := by
    rcases reaches_bind hp with ⟨x', hx', _, rfl⟩ | ⟨a, t₁, t₂, rfl, ha, hp⟩
    · exact (hx.follows t x' hx').more
    · obtain ⟨hcovers, hr⟩ := hx.done t₁ a ha
      exact hcovers.append_follows ((hf a t₁ hcovers hr).follows t₂ p' hp)
  done t b hp := by
    rcases reaches_bind hp with ⟨x', hx', hrunning, heq⟩ | ⟨a, t₁, t₂, rfl, ha, hp⟩
    · cases x' with
      | done a => exact absurd rfl (hrunning a)
      | fail e => cases heq
      | ask question next => cases heq
    · obtain ⟨hcovers, hr⟩ := hx.done t₁ a ha
      obtain ⟨hcovers', hr'⟩ := (hf a t₁ hcovers hr).done t₂ b hp
      exact ⟨hcovers.append hcovers', hr'⟩
  fail t e hp := by
    rcases reaches_bind hp with ⟨x', hx', hrunning, heq⟩ | ⟨a, t₁, t₂, rfl, ha, hp⟩
    · cases x' with
      | done a => exact absurd rfl (hrunning a)
      | fail e' =>
        cases heq
        exact hx.fail t e hx'
      | ask question next => cases heq
    · obtain ⟨hcovers, hr⟩ := hx.done t₁ a ha
      obtain ⟨x, hlast, he⟩ := (hf a t₁ hcovers hr).fail t₂ e hp
      exact ⟨x, by rw [List.getLast?_append, hlast, Option.some_or], he⟩

lemma along_ask {question : Q} {f : A question → Script A ε β} {R : List (Exchange A ε) → β → Prop}
    (hf : ∀ a, Along (f a) plan (fun t b => R (⟨question, .ok a⟩ :: t) b) E)
    (herror : ∀ e, E ⟨question, .error e⟩ e) :
    Along (Script.call question >>= f) (question :: plan) R E := by
  have hcall : Along (Script.call question) [question] (fun t a => t = [⟨question, .ok a⟩]) E :=
    along_call (fun _ => rfl) herror
  apply hcall.bind
  rintro a t₁ _ rfl
  exact hf a

lemma Along.reraise {x : Script A ε α} {handle : ε → ε} {E' : Exchange A ε → ε → Prop}
    (hx : Along x plan R E') (hhandle : ∀ y e, y.question ∈ plan → E' y e → E y (handle e)) :
    Along (x.rescue (fun e => .fail (handle e))) plan R E where
  follows t p' hp := by
    rcases reaches_rescue hp with ⟨x', hx', _, rfl⟩ | ⟨e, t₁, t₂, rfl, he, hp⟩
    · exact hx.follows t x' hx'
    · obtain ⟨rfl, _⟩ := reaches_fail hp
      rw [List.append_nil]
      exact hx.follows t₁ _ he
  done t b hp := by
    rcases reaches_rescue hp with ⟨x', hx', hrunning, heq⟩ | ⟨e, t₁, t₂, rfl, _, hp⟩
    · cases x' with
      | done a =>
        cases heq
        exact hx.done t b hx'
      | fail e => exact absurd rfl (hrunning e)
      | ask question next => cases heq
    · cases hp
  fail t e hp := by
    rcases reaches_rescue hp with ⟨x', hx', hrunning, heq⟩ | ⟨e', t₁, t₂, rfl, he, hp⟩
    · cases x' with
      | done a => cases heq
      | fail e => exact absurd rfl (hrunning e)
      | ask question next => cases heq
    · obtain ⟨rfl, heq⟩ := reaches_fail hp
      cases heq
      obtain ⟨y, hlast, hy⟩ := hx.fail t₁ e' he
      rw [List.append_nil]
      refine ⟨y, hlast, hhandle y e' ?_ hy⟩
      have hmem : y.question ∈ t₁.map (·.question) :=
        List.mem_map_of_mem (List.mem_of_getLast? hlast)
      exact (hx.follows t₁ _ he).1.subset hmem

end Plans

end AudioServer.Foundations.Scripts
