import Mathlib.Algebra.Order.Floor.Ring
import Mathlib.Data.EReal.Operations
import Mathlib.Data.Int.Log
import Mathlib.Tactic.Linarith
import Mathlib.Tactic.NormNum

/-!
# Rounding to 53 binary digits

`rnd r` is the nearest number with 53 binary digits, or with fewer next to zero, and of two the even one; `overflow` sends what
is beyond the largest double to an infinity. Rounding is monotone, keeps the sign, fixes what has the digits, and errs by half
a unit in the last place at most (`abs_rnd_sub_le`).
-/

namespace Binary64

/-! ### To the nearest integer -/

/-- The nearest integer, and of two the even one. -/
noncomputable def roundEven (r : ℝ) : ℤ :=
  if Int.fract r < 1 / (2 : ℕ) ∨ Int.fract r = 1 / (2 : ℕ) ∧ Even ⌊r⌋ then ⌊r⌋ else ⌊r⌋ + 1

theorem roundEven_eq (r : ℝ) :
    roundEven r = if Int.fract r < 1 / 2 ∨ Int.fract r = 1 / 2 ∧ Even ⌊r⌋ then ⌊r⌋ else ⌊r⌋ + 1 := by
  rw [roundEven, Nat.cast_ofNat]

theorem roundEven_cases (r : ℝ) : roundEven r = ⌊r⌋ ∧ Int.fract r ≤ 1 / 2 ∨ roundEven r = ⌊r⌋ + 1 ∧ 1 / 2 ≤ Int.fract r := by
  rw [roundEven_eq]
  split
  case isTrue h => exact .inl ⟨rfl, h.elim le_of_lt fun h => h.1.le⟩
  case isFalse h => exact .inr ⟨rfl, not_lt.1 fun hlt => h (.inl hlt)⟩

theorem abs_roundEven_sub_le (r : ℝ) : |roundEven r - r| ≤ 1 / 2 := by
  have hr := Int.floor_add_fract r
  have h0 := Int.fract_nonneg r
  have h1 := Int.fract_lt_one r
  rw [abs_le]
  rcases roundEven_cases r with ⟨h, hf⟩ | ⟨h, hf⟩
  · rw [h]
    constructor <;> linarith
  · rw [h]
    push_cast
    constructor <;> linarith

@[simp] theorem roundEven_intCast (k : ℤ) : roundEven k = k := by
  rw [roundEven_eq, Int.fract_intCast, Int.floor_intCast, if_pos (.inl (by norm_num))]

theorem roundEven_mono {r r' : ℝ} (h : r ≤ r') : roundEven r ≤ roundEven r' := by
  rcases h.eq_or_lt with rfl | hlt
  · exact le_rfl
  have hr := abs_le.1 (abs_roundEven_sub_le r)
  have hr' := abs_le.1 (abs_roundEven_sub_le r')
  have hclose : (roundEven r : ℝ) < roundEven r' + 1 := by linarith
  exact Int.lt_add_one_iff.1 (by exact_mod_cast hclose)

theorem roundEven_neg (r : ℝ) : roundEven (-r) = -roundEven r := by
  by_cases h0 : Int.fract r = 0
  · obtain ⟨k, rfl⟩ : ∃ k : ℤ, (k : ℝ) = r := ⟨⌊r⌋, by rw [← Int.floor_add_fract r, h0]; simp⟩
    rw [← Int.cast_neg, roundEven_intCast, roundEven_intCast]
  · have hf : Int.fract (-r) = 1 - Int.fract r := Int.fract_neg h0
    have hfloor : ⌊-r⌋ = -⌊r⌋ - 1 := by
      have hr := Int.floor_add_fract r
      have hr' := Int.floor_add_fract (-r)
      have hcast : (⌊-r⌋ : ℝ) = ((-⌊r⌋ - 1 : ℤ) : ℝ) := by
        push_cast
        linarith
      exact_mod_cast hcast
    have heven : Even (-⌊r⌋ - 1) ↔ ¬ Even ⌊r⌋ := by
      rw [Int.even_sub_one, even_neg]
    rw [roundEven_eq, roundEven_eq, hf, hfloor]
    simp only [heven]
    rcases lt_trichotomy (Int.fract r) (1 / 2) with hlt | heq | hgt
    · rw [if_neg (by rintro (h | ⟨h, -⟩) <;> linarith), if_pos (.inl hlt)]
      ring
    · by_cases he : Even ⌊r⌋
      · rw [if_neg (by rintro (h | ⟨-, h⟩); exacts [by linarith, h he]), if_pos (.inr ⟨heq, he⟩)]
        ring
      · rw [if_pos (.inr ⟨by linarith, he⟩), if_neg (by rintro (h | ⟨-, h⟩); exacts [by linarith, he h])]
        ring
    · rw [if_pos (.inl (by linarith)), if_neg (by rintro (h | ⟨h, -⟩) <;> linarith)]
      ring

/-! ### To the nearest double -/

/-- The exponent of the last place of the doubles about `r`. -/
noncomputable def exponent (r : ℝ) : ℤ := if r = 0 then -1074 else max (Int.log 2 |r| - 52) (-1074)

/-- The nearest number with 53 binary digits, or with fewer next to zero; the exponents go up without an end. -/
noncomputable def rnd (r : ℝ) : ℝ := roundEven (r / (2 : ℕ) ^ exponent r) * (2 : ℕ) ^ exponent r

theorem rnd_eq (r : ℝ) : rnd r = roundEven (r / 2 ^ exponent r) * 2 ^ exponent r := by
  rw [rnd, Nat.cast_ofNat]

theorem two_zpow_pos (e : ℤ) : (0 : ℝ) < 2 ^ e := zpow_pos two_pos e

theorem exponent_neg (r : ℝ) : exponent (-r) = exponent r := by
  rw [exponent, exponent, abs_neg]
  simp only [neg_eq_zero]

theorem le_exponent (r : ℝ) : -1074 ≤ exponent r := by
  rw [exponent]
  split
  · exact le_rfl
  · exact le_max_right _ _

theorem abs_lt_exponent (r : ℝ) : |r| < 2 ^ (exponent r + 53) := by
  rcases eq_or_ne r 0 with rfl | hr
  · rw [abs_zero]
    exact two_zpow_pos _
  · rw [exponent, if_neg hr]
    have hlog := Int.lt_zpow_succ_log_self (b := 2) (by norm_num) |r|
    rw [Nat.cast_ofNat] at hlog
    exact hlog.trans_le (zpow_le_zpow_right₀ one_le_two (by omega))

/-- Above the smallest exponent the first place is taken. -/
theorem exponent_le_abs {r : ℝ} (h : exponent r ≠ -1074) : 2 ^ (exponent r + 52) ≤ |r| := by
  rcases eq_or_ne r 0 with rfl | hr
  · exact absurd (if_pos rfl) h
  · rw [exponent, if_neg hr] at h ⊢
    have hmax : max (Int.log 2 |r| - 52) (-1074) + 52 = Int.log 2 |r| := by omega
    rw [hmax]
    have hlog := Int.zpow_log_le_self (b := 2) (by norm_num) (abs_pos.2 hr)
    rwa [Nat.cast_ofNat] at hlog

theorem rnd_neg (r : ℝ) : rnd (-r) = -rnd r := by
  rw [rnd_eq, exponent_neg, neg_div, roundEven_neg, rnd_eq]
  push_cast
  ring

@[simp] theorem rnd_zero : rnd 0 = 0 := by
  have h := roundEven_intCast 0
  rw [Int.cast_zero] at h
  rw [rnd_eq, zero_div, h, Int.cast_zero, zero_mul]

theorem abs_rnd_sub_le_ulp (r : ℝ) : |rnd r - r| ≤ 2 ^ exponent r / 2 := by
  have hpos := two_zpow_pos (exponent r)
  have hr : rnd r - r = (roundEven (r / 2 ^ exponent r) - r / 2 ^ exponent r) * 2 ^ exponent r := by
    rw [rnd_eq, sub_mul, div_mul_cancel₀ _ hpos.ne']
  have hround := abs_roundEven_sub_le (r / 2 ^ exponent r)
  rw [hr, abs_mul, abs_of_pos hpos]
  linarith [mul_le_mul_of_nonneg_right hround hpos.le]

theorem rnd_of_exponent_le {r : ℝ} {k e : ℤ} (hr : r = k * 2 ^ e) (h : exponent r ≤ e) : rnd r = r := by
  have hpos := two_zpow_pos (exponent r)
  obtain ⟨n, hn⟩ := Int.eq_ofNat_of_zero_le (sub_nonneg.2 h)
  have hsplit : (2 : ℝ) ^ e = 2 ^ n * 2 ^ exponent r := by
    rw [← zpow_natCast, ← zpow_add₀ two_ne_zero, ← hn, sub_add_cancel]
  have hdiv : r / 2 ^ exponent r = ((k * 2 ^ n : ℤ) : ℝ) := by
    rw [div_eq_iff hpos.ne']
    push_cast
    rw [mul_assoc, ← hsplit, ← hr]
  rw [rnd_eq, hdiv, roundEven_intCast, ← hdiv, div_mul_cancel₀ _ hpos.ne']

theorem rnd_nonneg {r : ℝ} (h : 0 ≤ r) : 0 ≤ rnd r := by
  have hround := roundEven_mono (div_nonneg h (two_zpow_pos (exponent r)).le)
  have hzero := roundEven_intCast 0
  rw [Int.cast_zero] at hzero
  rw [hzero] at hround
  exact mul_nonneg (by exact_mod_cast hround) (two_zpow_pos _).le

theorem rnd_le_zpow (r : ℝ) : rnd r ≤ 2 ^ (exponent r + 53) := by
  have hpos := two_zpow_pos (exponent r)
  have hle : r / 2 ^ exponent r ≤ ((2 ^ 53 : ℤ) : ℝ) := by
    rw [div_le_iff₀ hpos]
    have h := (le_abs_self r).trans (abs_lt_exponent r).le
    rw [zpow_add₀ two_ne_zero, mul_comm] at h
    exact_mod_cast h
  have hround := roundEven_mono hle
  rw [roundEven_intCast] at hround
  have hcast : (roundEven (r / 2 ^ exponent r) : ℝ) ≤ 2 ^ (53 : ℤ) := by exact_mod_cast hround
  rw [rnd_eq, zpow_add₀ two_ne_zero, mul_comm]
  exact mul_le_mul_of_nonneg_left hcast hpos.le

theorem zpow_le_rnd {r : ℝ} (h0 : 0 ≤ r) (h : exponent r ≠ -1074) : 2 ^ (exponent r + 52) ≤ rnd r := by
  have hpos := two_zpow_pos (exponent r)
  have hle : ((2 ^ 52 : ℤ) : ℝ) ≤ r / 2 ^ exponent r := by
    rw [le_div_iff₀ hpos]
    have h := exponent_le_abs h
    rw [abs_of_nonneg h0, zpow_add₀ two_ne_zero, mul_comm] at h
    exact_mod_cast h
  have hround := roundEven_mono hle
  rw [roundEven_intCast] at hround
  have hcast : (2 : ℝ) ^ (52 : ℤ) ≤ roundEven (r / 2 ^ exponent r) := by exact_mod_cast hround
  rw [rnd_eq, zpow_add₀ two_ne_zero, mul_comm]
  exact mul_le_mul_of_nonneg_right hcast hpos.le

theorem exponent_mono {r r' : ℝ} (h0 : 0 ≤ r) (h : r ≤ r') : exponent r ≤ exponent r' := by
  by_contra hlt
  have hne : exponent r ≠ -1074 := fun heq => hlt (heq ▸ le_exponent r')
  have hlow := exponent_le_abs hne
  have hhigh := abs_lt_exponent r'
  rw [abs_of_nonneg h0] at hlow
  rw [abs_of_nonneg (h0.trans h)] at hhigh
  have hpow : (2 : ℝ) ^ (exponent r' + 53) ≤ 2 ^ (exponent r + 52) := zpow_le_zpow_right₀ one_le_two (by omega)
  linarith

theorem rnd_mono_of_nonneg {r r' : ℝ} (h0 : 0 ≤ r) (h : r ≤ r') : rnd r ≤ rnd r' := by
  rcases (exponent_mono h0 h).eq_or_lt with heq | hlt
  · have hpos := two_zpow_pos (exponent r)
    rw [rnd_eq, rnd_eq, ← heq]
    exact mul_le_mul_of_nonneg_right (by exact_mod_cast roundEven_mono (div_le_div_of_nonneg_right h hpos.le)) hpos.le
  · -- the two lie on different sides of a power of two
    have hne : exponent r' ≠ -1074 := (le_exponent r).trans_lt hlt |>.ne'
    have hpow : (2 : ℝ) ^ (exponent r + 53) ≤ 2 ^ (exponent r' + 52) := zpow_le_zpow_right₀ one_le_two (by omega)
    exact (rnd_le_zpow r).trans (hpow.trans (zpow_le_rnd (h0.trans h) hne))

theorem rnd_mono : Monotone rnd := by
  intro r r' h
  rcases le_total 0 r with h0 | h0
  · exact rnd_mono_of_nonneg h0 h
  · have hneg : rnd r = -rnd (-r) := by rw [rnd_neg, neg_neg]
    rcases le_total 0 r' with h0' | h0'
    · rw [hneg]
      linarith [rnd_nonneg (neg_nonneg.2 h0), rnd_nonneg h0']
    · have hmono := rnd_mono_of_nonneg (neg_nonneg.2 h0') (neg_le_neg h)
      rw [rnd_neg, rnd_neg] at hmono
      linarith

/-- Half a unit in the last place of a number about 1. -/
noncomputable def eps : ℝ := ((2 : ℕ) : ℝ)⁻¹ ^ 53

theorem eps_eq : eps = 2⁻¹ ^ 53 := by rw [eps, Nat.cast_ofNat]

/-- Half the smallest double. -/
noncomputable def tiny : ℝ := ((2 : ℕ) : ℝ)⁻¹ ^ 1075

theorem tiny_eq : tiny = 2⁻¹ ^ 1075 := by rw [tiny, Nat.cast_ofNat]

theorem eps_pos : 0 < eps := eps_eq ▸ pow_pos (by norm_num) _
theorem tiny_pos : 0 < tiny := tiny_eq ▸ pow_pos (by norm_num) _

theorem abs_rnd_sub_le (r : ℝ) : |rnd r - r| ≤ eps * |r| + tiny := by
  refine (abs_rnd_sub_le_ulp r).trans ?_
  by_cases h : exponent r = -1074
  · have hhalf : (2 : ℝ) ^ (-1074 : ℤ) / 2 = tiny := by
      rw [tiny_eq, pow_succ, inv_pow, zpow_neg, div_eq_mul_inv]
      rfl
    rw [h, hhalf]
    exact le_add_of_nonneg_left (mul_nonneg eps_pos.le (abs_nonneg r))
  · have hsplit : (2 : ℝ) ^ exponent r / 2 = eps * 2 ^ (exponent r + 52) := by
      rw [eps_eq, zpow_add₀ two_ne_zero, inv_pow, show (2 : ℝ) ^ (52 : ℤ) = 2 ^ 52 from rfl]
      ring
    rw [hsplit]
    exact (mul_le_mul_of_nonneg_left (exponent_le_abs h) eps_pos.le).trans (le_add_of_nonneg_right tiny_pos.le)

/-! ### Beyond the largest double -/

/-- The next number after the largest double, if the exponents went on. -/
noncomputable def huge : ℝ := (2 : ℕ) ^ (1024 : ℤ)

theorem huge_eq : huge = 2 ^ (1024 : ℤ) := by rw [huge, Nat.cast_ofNat]

theorem huge_pos : 0 < huge := huge_eq ▸ two_zpow_pos _

noncomputable def overflow (r : ℝ) : EReal := if huge ≤ r then ⊤ else if r ≤ -huge then ⊥ else r

theorem overflow_mono : Monotone overflow := by
  intro r r' h
  have hpos := huge_pos
  rw [overflow, overflow]
  split_ifs <;> first | exact le_rfl | exact le_top | exact bot_le | (exfalso; linarith) | exact_mod_cast h

theorem overflow_of_abs_lt {r : ℝ} (h : |r| < huge) : overflow r = r := by
  obtain ⟨hlo, hhi⟩ := abs_lt.1 h
  rw [overflow, if_neg hhi.not_ge, if_neg hlo.not_ge]

theorem overflow_zero : overflow 0 = 0 := overflow_of_abs_lt (by rw [abs_zero]; exact huge_pos)

theorem overflow_nonneg {r : ℝ} (h : 0 ≤ r) : 0 ≤ overflow (rnd r) := overflow_zero.symm.trans_le (overflow_mono (rnd_nonneg h))

theorem overflow_nonpos {r : ℝ} (h : r ≤ 0) : overflow (rnd r) ≤ 0 := by
  have hmono := overflow_mono (rnd_mono h)
  rwa [rnd_zero, overflow_zero] at hmono

theorem rnd_natCast {n : ℕ} (h : n < 2 ^ 53) : rnd n = n := by
  refine rnd_of_exponent_le (k := n) (e := 0) (by simp) ?_
  have hlt : (n : ℝ) < 2 ^ (53 : ℤ) := by exact_mod_cast h
  rcases Nat.eq_zero_or_pos n with rfl | hpos
  · rw [Nat.cast_zero, exponent, if_pos rfl]
    decide
  · have hpos' : (0 : ℝ) < n := Nat.cast_pos.2 hpos
    have hlog : Int.log 2 (n : ℝ) < 53 := by
      rw [← Int.lt_zpow_iff_log_lt (by norm_num) hpos', Nat.cast_ofNat]
      exact hlt
    rw [exponent, if_neg hpos'.ne', abs_of_pos hpos']
    omega

/-! ### Room -/

theorem eps_le : eps ≤ 2⁻¹ ^ 50 := by
  rw [eps_eq]
  exact pow_le_pow_of_le_one (by norm_num) (by norm_num) (by decide)

/-- What is lost next to zero is nothing beside numbers of any size. -/
theorem tiny_le : tiny ≤ eps * 2⁻¹ ^ 200 := by
  rw [tiny_eq, eps_eq, ← pow_add]
  exact pow_le_pow_of_le_one (by norm_num) (by norm_num) (by decide)

theorem abs_rnd_lt_huge {r : ℝ} (h : |r| ≤ 2 ^ 250) : |rnd r| < huge := by
  have herror := abs_rnd_sub_le r
  have htriangle := abs_sub_abs_le_abs_sub (rnd r) r
  have heps : eps * |r| ≤ 1 * 2 ^ 250 :=
    mul_le_mul (eps_le.trans (by norm_num)) h (abs_nonneg r) one_pos.le
  have htiny : tiny ≤ 1 := tiny_le.trans (by nlinarith [eps_le])
  have hroom : (2 : ℝ) ^ 252 < huge := by
    rw [huge_eq, ← zpow_natCast]
    exact zpow_lt_zpow_right₀ one_lt_two (by decide)
  have hsum : |rnd r| ≤ 2 ^ 250 + 2 ^ 250 + 1 := by linarith
  exact lt_of_le_of_lt (hsum.trans (by norm_num)) hroom

end Binary64
