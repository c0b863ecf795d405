import Mathlib.Data.Int.Log
import Mathlib.Data.Rat.Floor
import Mathlib.Tactic.Linarith
import Mathlib.Tactic.LinearCombination
import Mathlib.Tactic.Ring

/-! Rounding to whole numbers and to binary64, a tie to the even side. The exponents of the doubles
are bounded below and not above. -/

namespace AudioServer.Foundations.Doubles

def roundHalfEven (x : ℚ) : ℤ :=
  if x - ⌊x⌋ < 1 / 2 then ⌊x⌋
  else if x - ⌊x⌋ > 1 / 2 then ⌊x⌋ + 1
  else if ⌊x⌋ % 2 = 0 then ⌊x⌋ else ⌊x⌋ + 1

def RoundsUp (x : ℚ) : Prop := 1 / 2 < x - ⌊x⌋ ∨ (x - ⌊x⌋ = 1 / 2 ∧ ⌊x⌋ % 2 = 1)

instance (x : ℚ) : Decidable (RoundsUp x) := inferInstanceAs (Decidable (_ ∨ _))

def exponent (x : ℚ) : ℤ := if x = 0 then -1074 else max (Int.log 2 |x| - 52) (-1074)

def spacing (x : ℚ) : ℚ := 2 ^ exponent x

def double (x : ℚ) : ℚ := roundHalfEven (x / spacing x) * spacing x

section Whole

variable {x y : ℚ}

lemma roundHalfEven_up (h : RoundsUp x) : roundHalfEven x = ⌊x⌋ + 1 := by
  rcases h with habove | ⟨hhalf, hodd⟩
  · rw [roundHalfEven, if_neg (not_lt.mpr habove.le), if_pos habove]
  · rw [roundHalfEven, if_neg (not_lt.mpr hhalf.ge), if_neg (not_lt.mpr hhalf.le),
      if_neg (by rw [hodd]; decide)]

lemma roundHalfEven_down (h : ¬ RoundsUp x) : roundHalfEven x = ⌊x⌋ := by
  rw [RoundsUp, not_or, not_lt, not_and] at h
  obtain ⟨hbelow, heven⟩ := h
  rcases lt_or_eq_of_le hbelow with hlow | hhalf
  · rw [roundHalfEven, if_pos hlow]
  · have hzero : ⌊x⌋ % 2 = 0 := (Int.emod_two_eq_zero_or_one _).resolve_right (heven hhalf)
    rw [roundHalfEven, if_neg (not_lt.mpr hhalf.ge), if_neg (not_lt.mpr hhalf.le), if_pos hzero]

lemma floor_le_roundHalfEven (x : ℚ) : ⌊x⌋ ≤ roundHalfEven x := by
  by_cases h : RoundsUp x
  · rw [roundHalfEven_up h]
    omega
  · rw [roundHalfEven_down h]

lemma roundHalfEven_le_floor (x : ℚ) : roundHalfEven x ≤ ⌊x⌋ + 1 := by
  by_cases h : RoundsUp x
  · rw [roundHalfEven_up h]
  · rw [roundHalfEven_down h]
    omega

@[simp] lemma roundHalfEven_intCast (n : ℤ) : roundHalfEven n = n := by
  rw [roundHalfEven, Int.floor_intCast, if_pos (by norm_num)]

lemma RoundsUp.mono (h : RoundsUp x) (hxy : x ≤ y) (hfloor : ⌊x⌋ = ⌊y⌋) : RoundsUp y := by
  rw [RoundsUp, ← hfloor]
  rcases h with habove | ⟨hhalf, hodd⟩
  · exact .inl (habove.trans_le (by linarith))
  · rcases eq_or_lt_of_le hxy with rfl | hlt
    · exact .inr ⟨hhalf, hodd⟩
    · exact .inl (by linarith)

lemma roundHalfEven_mono (h : x ≤ y) : roundHalfEven x ≤ roundHalfEven y := by
  rcases eq_or_lt_of_le (Int.floor_le_floor h) with hsame | hless
  · by_cases hup : RoundsUp x
    · rw [roundHalfEven_up hup, roundHalfEven_up (hup.mono h hsame), hsame]
    · rw [roundHalfEven_down hup, hsame]
      exact floor_le_roundHalfEven y
  · calc roundHalfEven x ≤ ⌊x⌋ + 1 := roundHalfEven_le_floor x
      _ ≤ ⌊y⌋ := hless
      _ ≤ roundHalfEven y := floor_le_roundHalfEven y

lemma roundHalfEven_neg (x : ℚ) : roundHalfEven (-x) = -roundHalfEven x := by
  rcases eq_or_ne (⌊x⌋ : ℚ) x with hwhole | hfraction
  · rw [← hwhole, ← Int.cast_neg, roundHalfEven_intCast, roundHalfEven_intCast]
  · have hlt : (⌊x⌋ : ℚ) < x := lt_of_le_of_ne (Int.floor_le x) hfraction
    have hneg : ⌊-x⌋ = -⌊x⌋ - 1 := by
      rw [Int.floor_eq_iff]
      push_cast
      constructor <;> linarith [Int.lt_floor_add_one x]
    have hrest : -x - (⌊-x⌋ : ℚ) = 1 - (x - ⌊x⌋) := by
      rw [hneg]
      push_cast
      ring
    have hup : RoundsUp (-x) ↔ ¬ RoundsUp x := by
      rw [RoundsUp, RoundsUp, hrest, hneg]
      constructor
      · rintro (habove | ⟨hhalf, hodd⟩) (habove' | ⟨hhalf', hodd'⟩)
        · linarith
        · linarith
        · linarith
        · omega
      · intro h
        rw [not_or, not_lt, not_and] at h
        rcases lt_or_eq_of_le h.1 with hlow | hhalf
        · exact .inl (by linarith)
        · exact .inr ⟨by linarith, by have := h.2 hhalf; omega⟩
    by_cases h : RoundsUp x
    · rw [roundHalfEven_up h, roundHalfEven_down (fun hn => hup.mp hn h), hneg]
      ring
    · rw [roundHalfEven_down h, roundHalfEven_up (hup.mpr h), hneg]
      ring

lemma roundHalfEven_le {n : ℤ} (h : x ≤ n) : roundHalfEven x ≤ n :=
  (roundHalfEven_mono h).trans (roundHalfEven_intCast n).le

lemma le_roundHalfEven {n : ℤ} (h : n ≤ x) : n ≤ roundHalfEven x :=
  (roundHalfEven_intCast n).ge.trans (roundHalfEven_mono h)

end Whole

section Binary64

variable {x y : ℚ}

lemma spacing_pos (x : ℚ) : 0 < spacing x := zpow_pos (by norm_num) _

lemma exponent_ge (x : ℚ) : -1074 ≤ exponent x := by
  rw [exponent]
  split <;> omega

lemma abs_lt_of_exponent (x : ℚ) : |x| < 2 ^ 53 * spacing x := by
  rcases eq_or_ne x 0 with rfl | hne
  · rw [abs_zero]
    exact mul_pos (by norm_num) (spacing_pos 0)
  have hlog : |x| < ((2 : ℕ) : ℚ) ^ (Int.log 2 |x| + 1) := Int.lt_zpow_succ_log_self (by norm_num) |x|
  calc |x| < (2 : ℚ) ^ (Int.log 2 |x| + 1) := hlog
    _ ≤ (2 : ℚ) ^ (53 + exponent x) := by
      apply zpow_le_zpow_right₀ (by norm_num)
      rw [exponent, if_neg hne]
      omega
    _ = 2 ^ 53 * spacing x := by
      rw [zpow_add₀ (by norm_num), spacing]
      norm_num

lemma le_abs_of_exponent (h : -1074 < exponent x) : 2 ^ 52 * spacing x ≤ |x| := by
  have hne : x ≠ 0 := by
    rintro rfl
    rw [exponent, if_pos rfl] at h
    exact absurd h (lt_irrefl _)
  have hlog : exponent x = Int.log 2 |x| - 52 := by
    rw [exponent, if_neg hne] at h ⊢
    omega
  calc 2 ^ 52 * spacing x = (2 : ℚ) ^ Int.log 2 |x| := by
        rw [spacing, hlog, ← zpow_natCast, ← zpow_add₀ (by norm_num)]
        congr 1
        norm_num
    _ ≤ |x| := Int.zpow_log_le_self (by norm_num) (abs_pos.mpr hne)

@[simp] lemma exponent_neg (x : ℚ) : exponent (-x) = exponent x := by
  simp only [exponent, abs_neg, neg_eq_zero]

@[simp] lemma spacing_neg (x : ℚ) : spacing (-x) = spacing x := by rw [spacing, exponent_neg, spacing]

@[simp] lemma double_neg (x : ℚ) : double (-x) = -double x := by
  rw [double, spacing_neg, neg_div, roundHalfEven_neg, Int.cast_neg, neg_mul, double]

def IsDouble (x : ℚ) : Prop := ∃ m e : ℤ, |m| ≤ 2 ^ 53 ∧ -1074 ≤ e ∧ x = m * 2 ^ e

lemma IsDouble.neg (h : IsDouble x) : IsDouble (-x) := by
  obtain ⟨m, e, hm, he, rfl⟩ := h
  exact ⟨-m, e, by rwa [abs_neg], he, by push_cast; ring⟩

lemma isDouble_intCast {n : ℤ} (h : |n| ≤ 2 ^ 53) : IsDouble n := ⟨n, 0, h, by norm_num, by simp⟩

lemma isDouble_double (x : ℚ) : IsDouble (double x) := by
  refine ⟨roundHalfEven (x / spacing x), exponent x, ?_, exponent_ge x, rfl⟩
  have hx : |x / spacing x| ≤ 2 ^ 53 := by
    rw [abs_div, abs_of_pos (spacing_pos x), div_le_iff₀ (spacing_pos x)]
    exact (abs_lt_of_exponent x).le
  rw [abs_le] at hx ⊢
  exact ⟨le_roundHalfEven (by push_cast; exact hx.1), roundHalfEven_le (by push_cast; exact hx.2)⟩

lemma grid_le_double {n : ℤ} (h : n * spacing x ≤ x) : n * spacing x ≤ double x := by
  rw [double, mul_le_mul_iff_left₀ (spacing_pos x), Int.cast_le]
  exact le_roundHalfEven ((le_div_iff₀ (spacing_pos x)).mpr h)

lemma IsDouble.le_double (hy : IsDouble y) (h : y ≤ x) : y ≤ double x := by
  obtain ⟨m, e, hm, he, rfl⟩ := hy
  rcases le_or_gt (exponent x) e with hcoarse | hfine
  · have hgrid : (m * 2 ^ e : ℚ) = (m * 2 ^ (e - exponent x).toNat : ℤ) * spacing x := by
      rw [spacing, Int.cast_mul, Int.cast_pow, mul_assoc, ← zpow_natCast, Int.cast_ofNat,
        ← zpow_add₀ (by norm_num)]
      congr 2
      omega
    rw [hgrid] at h ⊢
    exact grid_le_double h
  · have hnormal := le_abs_of_exponent (he.trans_lt hfine)
    have hsmall : |(m * 2 ^ e : ℚ)| ≤ 2 ^ 52 * spacing x := by
      rw [abs_mul, abs_of_pos (zpow_pos (by norm_num : (0 : ℚ) < 2) e)]
      calc (|(m : ℚ)| * 2 ^ e : ℚ) ≤ 2 ^ 53 * 2 ^ e :=
            mul_le_mul_of_nonneg_right (by exact_mod_cast hm) (zpow_pos (by norm_num) e).le
        _ = 2 ^ 52 * 2 ^ (e + 1) := by rw [zpow_add₀ (by norm_num)]; ring
        _ ≤ 2 ^ 52 * spacing x :=
            mul_le_mul_of_nonneg_left (zpow_le_zpow_right₀ (by norm_num) hfine) (by norm_num)
    rcases le_or_gt 0 x with hpos | hneg
    · rw [abs_of_nonneg hpos] at hnormal
      have hgrid := grid_le_double (x := x) (n := 2 ^ 52) (by push_cast; exact hnormal)
      push_cast at hgrid
      exact ((le_abs_self _).trans hsmall).trans hgrid
    · rw [abs_of_neg hneg] at hnormal
      have hleast := (neg_le_neg hsmall).trans (neg_abs_le _)
      have hgrid := grid_le_double (x := x) (n := -2 ^ 52) (by push_cast; linarith)
      push_cast at hgrid
      linarith

lemma IsDouble.double_le (hy : IsDouble y) (h : x ≤ y) : double x ≤ y := by
  have hneg := hy.neg.le_double (neg_le_neg h)
  rw [double_neg] at hneg
  exact neg_le_neg_iff.mp hneg

lemma IsDouble.double_eq (h : IsDouble x) : double x = x :=
  le_antisymm (h.double_le le_rfl) (h.le_double le_rfl)

lemma isDouble_iff : IsDouble x ↔ double x = x :=
  ⟨IsDouble.double_eq, fun h => h ▸ isDouble_double x⟩

@[simp] lemma double_double (x : ℚ) : double (double x) = double x := (isDouble_double x).double_eq

lemma isDouble_power {e : ℤ} (h : -1074 ≤ e) : IsDouble (2 ^ 52 * 2 ^ e) :=
  ⟨2 ^ 52, e, by norm_num, h, by push_cast; ring⟩

/-- Between numbers of different spacing lies a power of two, which both sides are rounded towards. -/
lemma exists_power (h : exponent x < exponent y) :
    ∃ z, IsDouble z ∧ |x| < z ∧ z ≤ |y| := by
  refine ⟨2 ^ 52 * spacing y, isDouble_power (exponent_ge y), ?_,
    le_abs_of_exponent ((exponent_ge x).trans_lt h)⟩
  calc |x| < 2 ^ 53 * 2 ^ exponent x := abs_lt_of_exponent x
    _ = 2 ^ 52 * 2 ^ (exponent x + 1) := by rw [zpow_add₀ (by norm_num)]; ring
    _ ≤ 2 ^ 52 * spacing y :=
        mul_le_mul_of_nonneg_left (zpow_le_zpow_right₀ (by norm_num) h) (by norm_num)

lemma double_le_of_exponent (h : x ≤ y) (hless : exponent x < exponent y) : double x ≤ double y := by
  obtain ⟨z, hz, hxz, hzy⟩ := exists_power hless
  rcases le_or_gt 0 y with hpos | hneg
  · rw [abs_of_nonneg hpos] at hzy
    exact (hz.double_le ((le_abs_self x).trans hxz.le)).trans (hz.le_double hzy)
  · have hfar : |y| ≤ |x| := by
      rw [abs_of_neg hneg, abs_of_neg (h.trans_lt hneg)]
      exact neg_le_neg h
    exact absurd (hxz.trans_le (hzy.trans hfar)) (lt_irrefl _)

lemma double_mono (h : x ≤ y) : double x ≤ double y := by
  rcases lt_trichotomy (exponent x) (exponent y) with hless | hsame | hmore
  · exact double_le_of_exponent h hless
  · have hspacing : spacing x = spacing y := by rw [spacing, hsame, spacing]
    rw [double, double, hspacing, mul_le_mul_iff_left₀ (spacing_pos y), Int.cast_le]
    exact roundHalfEven_mono (div_le_div_of_nonneg_right h (spacing_pos y).le)
  · have hneg := double_le_of_exponent (neg_le_neg h) (by rwa [exponent_neg, exponent_neg])
    rw [double_neg, double_neg] at hneg
    exact neg_le_neg_iff.mp hneg

lemma IsDouble.grid (h : IsDouble x) : ∃ k : ℤ, x = k * 2 ^ (-1074 : ℤ) := by
  obtain ⟨m, e, -, he, rfl⟩ := h
  refine ⟨m * 2 ^ (e + 1074).toNat, ?_⟩
  rw [Int.cast_mul, Int.cast_pow, Int.cast_ofNat, mul_assoc, ← zpow_natCast,
    ← zpow_add₀ (by norm_num)]
  congr 2
  omega

lemma double_sub_neg (hx : IsDouble x) (hy : IsDouble y) (h : x < y) : double (x - y) < 0 := by
  obtain ⟨k, rfl⟩ := hx.grid
  obtain ⟨l, rfl⟩ := hy.grid
  have hpos : (0 : ℚ) < 2 ^ (-1074 : ℤ) := zpow_pos (by norm_num) _
  have hkl : k + 1 ≤ l := Int.cast_lt.mp (lt_of_mul_lt_mul_right h hpos.le)
  have hcast : (k + 1 : ℚ) ≤ l := by exact_mod_cast hkl
  have hleast : IsDouble (-2 ^ (-1074 : ℤ)) := ⟨-1, -1074, by norm_num, le_rfl, by simp⟩
  have hbelow : (k * 2 ^ (-1074 : ℤ) - l * 2 ^ (-1074 : ℤ) : ℚ) ≤ -2 ^ (-1074 : ℤ) := by
    calc (k * 2 ^ (-1074 : ℤ) - l * 2 ^ (-1074 : ℤ) : ℚ) = (k - l) * 2 ^ (-1074 : ℤ) :=
          (sub_mul _ _ _).symm
      _ ≤ -1 * 2 ^ (-1074 : ℤ) := mul_le_mul_of_nonneg_right (by linarith) hpos.le
      _ = -2 ^ (-1074 : ℤ) := neg_one_mul _
  exact (hleast.double_le hbelow).trans_lt (neg_lt_zero.mpr hpos)

lemma IsDouble.sub_natCast {n : ℕ} (hx : IsDouble x) (hmax : x ≤ 2 ^ 53) (hn : n ≤ x) :
    IsDouble (x - n) := by
  obtain ⟨m, e, hm, he, rfl⟩ := hx
  have hpos : (0 : ℚ) < 2 ^ e := zpow_pos (by norm_num) e
  rcases le_or_gt e 0 with hfraction | hwhole
  · have hone : (2 : ℚ) ^ (-e).toNat * 2 ^ e = 1 := by
      rw [← zpow_natCast, ← zpow_add₀ (by norm_num), show ((-e).toNat : ℤ) + e = 0 by omega, zpow_zero]
    have hshift : (m * 2 ^ e - n : ℚ) = (m - n * 2 ^ (-e).toNat : ℤ) * 2 ^ e := by
      push_cast
      linear_combination (n : ℚ) * hone
    have hnonneg : 0 ≤ m - n * 2 ^ (-e).toNat := by
      have hprod : (0 : ℚ) ≤ (m - n * 2 ^ (-e).toNat : ℤ) * 2 ^ e := by linarith
      exact_mod_cast nonneg_of_mul_nonneg_left hprod hpos
    refine ⟨_, e, ?_, he, hshift⟩
    have hle : (0 : ℤ) ≤ n * 2 ^ (-e).toNat := by positivity
    rw [abs_of_nonneg hnonneg]
    exact (sub_le_self m hle).trans ((le_abs_self m).trans hm)
  · have hint : (m * 2 ^ e : ℚ) = (m * 2 ^ e.toNat : ℤ) := by
      rw [Int.cast_mul, Int.cast_pow, Int.cast_ofNat, ← zpow_natCast, Int.toNat_of_nonneg hwhole.le]
    rw [hint] at hmax hn ⊢
    rw [← Int.cast_natCast, ← Int.cast_sub]
    apply isDouble_intCast
    have hlow : (n : ℤ) ≤ m * 2 ^ e.toNat := by exact_mod_cast hn
    have hhigh : m * 2 ^ e.toNat ≤ 2 ^ 53 := by exact_mod_cast hmax
    rw [abs_of_nonneg (by omega)]
    omega

lemma le_double_sub_natCast {n : ℕ} (hy : IsDouble y) (hx0 : 0 ≤ x) (hymax : y ≤ 2 ^ 53)
    (hn : n ≤ 2 ^ 53) : x ≤ double (y - n) ↔ x ≤ y - n := by
  rcases le_or_gt (n : ℚ) y with hle | hlt
  · rw [(hy.sub_natCast hymax hle).double_eq]
  · have hnat : IsDouble (n : ℚ) := by
      rw [← Int.cast_natCast]
      exact isDouble_intCast (by rw [Nat.abs_cast]; exact_mod_cast hn)
    have hneg := double_sub_neg hy hnat hlt
    constructor
    · intro h
      linarith
    · intro h
      linarith

end Binary64

structure Double where
  val : ℚ
  rounded : double val = val
deriving DecidableEq

namespace Double

lemma val_injective : Function.Injective val := by
  rintro ⟨x, _⟩ ⟨y, _⟩ rfl
  rfl

lemma isDouble (x : Double) : IsDouble x.val := isDouble_iff.mpr x.rounded

def of (x : ℚ) : Double := ⟨double x, double_double x⟩

instance : LinearOrder Double := LinearOrder.lift' val val_injective

instance : Zero Double := ⟨of 0⟩

instance : Sub Double := ⟨fun x y => of (x.val - y.val)⟩

def after (x : Double) (n : ℤ) : Double := of (x.val + n)

variable {x y : Double}

lemma le_iff : x ≤ y ↔ x.val ≤ y.val := Iff.rfl

@[simp] lemma val_of (x : ℚ) : (of x).val = double x := rfl

@[simp] lemma val_zero : (0 : Double).val = 0 := (isDouble_intCast (n := 0) (by norm_num)).double_eq

lemma val_sub (x y : Double) : (x - y).val = double (x.val - y.val) := rfl

lemma sub_le_sub_right (h : x ≤ y) (z : Double) : x - z ≤ y - z :=
  double_mono (by have hval := le_iff.mp h; linarith)

lemma after_mono (x : Double) {m n : ℤ} (h : m ≤ n) : x.after m ≤ x.after n :=
  double_mono (by have hcast : (m : ℚ) ≤ n := Int.cast_le.mpr h; linarith)

end Double

end AudioServer.Foundations.Doubles
