import Mathlib.Data.List.DropRight
import Mathlib.Data.List.Infix

/-! Python strings as lists of code points: whitespace, stripping, splitting
and substring search. -/

namespace AudioServer.Foundations.Strings

abbrev Text := List Char

/-- `str.isspace` on one code point. -/
def isSpace (c : Char) : Bool :=
  let n := c.toNat
  (9 ≤ n && n ≤ 13) || (28 ≤ n && n ≤ 32) || n == 0x85 || n == 0xa0 || n == 0x1680 ||
    (0x2000 ≤ n && n ≤ 0x200a) || n == 0x2028 || n == 0x2029 || n == 0x202f || n == 0x205f ||
    n == 0x3000

def lstrip (s : Text) : Text := s.dropWhile isSpace

def rstrip (s : Text) : Text := s.rdropWhile isSpace

def strip (s : Text) : Text := rstrip (lstrip s)

abbrev Blank (s : Text) : Prop := strip s = []

def visible (s : Text) : Text := s.filter (fun c => !isSpace c)

@[simp] lemma visible_append (s t : Text) : visible (s ++ t) = visible s ++ visible t :=
  List.filter_append s t

lemma visible_lstrip (s : Text) : visible (lstrip s) = visible s := by
  induction s with
  | nil => rfl
  | cons c s ih =>
    by_cases h : isSpace c
    · rw [lstrip, List.dropWhile_cons_of_pos h, visible, visible, List.filter_cons_of_neg (by simp [h])]
      exact ih
    · rw [lstrip, List.dropWhile_cons_of_neg h]

lemma visible_rstrip (s : Text) : visible (rstrip s) = visible s := by
  have h := visible_lstrip s.reverse
  simp only [visible, lstrip, List.filter_reverse] at h
  rw [visible, rstrip, List.rdropWhile, List.filter_reverse, h, List.reverse_reverse, visible]

@[simp] lemma visible_strip (s : Text) : visible (strip s) = visible s := by
  rw [strip, visible_rstrip, visible_lstrip]

lemma blank_iff {s : Text} : Blank s ↔ visible s = [] := by
  constructor
  · intro h
    rw [← visible_strip, h]
    rfl
  · intro h
    have hall : ∀ c ∈ s, isSpace c = true := by
      intro c hc
      have := List.filter_eq_nil_iff.mp h c hc
      simpa using this
    rw [Blank, strip, lstrip, List.dropWhile_eq_nil_iff.mpr hall]
    rfl

lemma nonblank_ne_nil {s : Text} (h : ¬ Blank s) : s ≠ [] := by
  rintro rfl
  exact h rfl

lemma lstrip_prefix {s t : Text} (h : s <+: t) (ht : lstrip t = t) : lstrip s = s := by
  cases s with
  | nil => rfl
  | cons c s =>
    obtain ⟨rest, rfl⟩ := h
    rw [List.cons_append, lstrip, List.dropWhile_eq_self_iff] at ht
    exact List.dropWhile_cons_of_neg (ht (Nat.zero_lt_succ _))

lemma strip_strip (s : Text) : strip (strip s) = strip s := by
  have hleft : lstrip (rstrip (lstrip s)) = rstrip (lstrip s) :=
    lstrip_prefix (List.rdropWhile_prefix isSpace _) (List.dropWhile_idempotent isSpace s)
  rw [strip, strip, hleft]
  exact List.rdropWhile_idempotent isSpace _

lemma strip_eq_self {s : Text} (h : ∀ c ∈ s, ¬ isSpace c) : strip s = s := by
  have hleft : lstrip s = s :=
    List.dropWhile_eq_self_iff.mpr (fun hs => h _ (List.getElem_mem hs))
  rw [strip, hleft]
  exact List.rdropWhile_eq_self_iff.mpr (fun hs => h _ (List.getLast_mem hs))

lemma strip_length_le (s : Text) : (strip s).length ≤ s.length :=
  ((List.rdropWhile_prefix isSpace _).length_le).trans (List.dropWhile_sublist isSpace).length_le

/-- `str.split()`: the runs of characters between whitespace. -/
def words (s : Text) : List Text := (s.splitOnP isSpace).filter (· ≠ [])

lemma splitOn_intercalate_flatMap {α : Type*} [DecidableEq α] {sep : α} {pieces : List (List α)}
    (h : pieces ≠ []) :
    (List.intercalate [sep] pieces).splitOn sep = pieces.flatMap (·.splitOn sep) := by
  induction pieces with
  | nil => exact absurd rfl h
  | cons piece pieces ih =>
    cases pieces with
    | nil => simp
    | cons next pieces =>
      have hjoin : List.intercalate [sep] (piece :: next :: pieces) =
          piece ++ sep :: List.intercalate [sep] (next :: pieces) := by
        simp [List.intercalate]
      rw [hjoin, List.splitOn_append_cons_self, List.flatMap_cons, ih (List.cons_ne_nil _ _)]

/-- `needle in hay`. -/
abbrev Occurs (needle hay : Text) : Prop := needle <:+: hay

/-- `re.sub` of every maximal run of characters outside `keep` by one underscore. -/
def collapse (keep : Char → Bool) : Bool → Text → Text
  | _, [] => []
  | inRun, c :: cs =>
    if keep c then c :: collapse keep false cs
    else if inRun then collapse keep true cs
    else '_' :: collapse keep true cs

def isSafe (c : Char) : Bool :=
  ('a' ≤ c && c ≤ 'z') || ('A' ≤ c && c ≤ 'Z') || ('0' ≤ c && c ≤ '9') ||
    c == '_' || c == '.' || c == '-'

def boundedIdentifier (value fallback : Text) : Text :=
  let normalized := (collapse isSafe false (strip value)).take 128
  if normalized = [] then fallback else normalized

def boundedMessage (value : Text) : Text :=
  let normalized := (List.intercalate [' '] (words value)).take 1000
  if normalized = [] then "Processing failed.".toList else normalized

lemma isSafe_range {c : Char} (h : isSafe c) : 45 ≤ c.toNat ∧ c.toNat ≤ 122 := by
  simp only [isSafe, Bool.or_eq_true, Bool.and_eq_true, decide_eq_true_eq, beq_iff_eq] at h
  have hrange : ∀ {low high : Char}, low ≤ c ∧ c ≤ high → low.toNat ≤ c.toNat ∧ c.toNat ≤ high.toNat :=
    fun h => h
  rcases h with ((((h | h) | h) | rfl) | rfl) | rfl
  · have := hrange h
    exact ⟨le_trans (by decide) this.1, this.2⟩
  · have := hrange h
    exact ⟨le_trans (by decide) this.1, le_trans this.2 (by decide)⟩
  · have := hrange h
    exact ⟨le_trans (by decide) this.1, le_trans this.2 (by decide)⟩
  · decide
  · decide
  · decide

lemma isSafe_not_space {c : Char} (h : isSafe c) : ¬ isSpace c := by
  have hrange := isSafe_range h
  simp only [isSpace, Bool.or_eq_true, Bool.and_eq_true, decide_eq_true_eq, beq_iff_eq]
  omega

example : boundedIdentifier "host name-12".toList "worker".toList = "host_name-12".toList := by decide

end AudioServer.Foundations.Strings
