import InfraVeritas.Lib.Rounding
import Mathlib

/-!
# The model of `Float`

`Float` computes with mantissas, exponents and shifts. Each operation on its data comes to the nearest double of what the
operation on the reals comes to (`Correct`): the bits behind the mantissa say where the rest lies (`Approximates`), shifting
keeps that, and enough of the mantissa is left in the end (`correct_roundWithAccuracy`). `compare` compares the numbers that
the data stand for.
-/

namespace Binary64
open Float.Model Float.Model.UnpackedFloat

/-! ### The shifts -/

/-- The two bits say where `x` lies between the mantissa and the next one. -/
def Describes : ExtendedMantissa → ℝ → Prop
  | ⟨m, false, false⟩, x => x = m
  | ⟨m, false, true⟩, x => (m : ℝ) < x ∧ x < m + 1 / (2 : ℕ)
  | ⟨m, true, false⟩, x => x = m + 1 / (2 : ℕ)
  | ⟨m, true, true⟩, x => (m : ℝ) + 1 / (2 : ℕ) < x ∧ x < m + 1

theorem Describes.bounds {em : ExtendedMantissa} {x : ℝ} (h : Describes em x) : (em.mantissa : ℝ) ≤ x ∧ x < em.mantissa + 1 := by
  obtain ⟨m, r, t⟩ := em
  cases r <;> cases t <;> simp only [Describes, Nat.cast_ofNat] at h <;> constructor <;> linarith

theorem Describes.floor {em : ExtendedMantissa} {x : ℝ} (h : Describes em x) : ⌊x⌋ = em.mantissa := by
  rw [Int.floor_eq_iff]
  exact_mod_cast h.bounds

theorem Describes.roundedMantissa {em : ExtendedMantissa} {x : ℝ} (h : Describes em x) :
    (em.roundedMantissa : ℤ) = roundEven x := by
  have hfloor := h.floor
  have hfract : Int.fract x = x - em.mantissa := by
    rw [Int.fract, hfloor, Int.cast_natCast]
  rw [roundEven_eq, hfract, hfloor]
  obtain ⟨m, r, t⟩ := em
  cases r <;> cases t <;> simp only [Describes, Nat.cast_ofNat] at h <;>
    simp only [ExtendedMantissa.roundedMantissa, ExtendedMantissa.accuracy, Accuracy.roundToNearestEven]
  case false.false => rw [if_pos (.inl (by rw [h]; norm_num))]
  case false.true => rw [if_pos (.inl (by linarith))]
  case true.true =>
    rw [if_neg (by rintro (h' | ⟨h', -⟩) <;> linarith)]
    push_cast
    rfl
  case true.false =>
    have hhalf : x - m = 1 / 2 := by linarith
    rcases Nat.mod_two_eq_zero_or_one m with hm | hm
    · rw [if_pos (.inr ⟨hhalf, by rwa [Int.even_coe_nat, Nat.even_iff]⟩), hm, Nat.add_zero]
    · rw [if_neg (by rintro (h' | ⟨-, h'⟩); exacts [by linarith, by rw [Int.even_coe_nat, Nat.even_iff] at h'; omega]), hm]
      push_cast
      rfl

theorem describes_shiftRightOne {em : ExtendedMantissa} {x : ℝ} (h : Describes em x) : Describes em.shiftRightOne (x / 2) := by
  obtain ⟨m, r, t⟩ := em
  have hm : (m : ℝ) = 2 * (m / 2 : ℕ) + (m % 2 : ℕ) := by exact_mod_cast (Nat.div_add_mod m 2).symm
  rcases Nat.mod_two_eq_zero_or_one m with h2 | h2 <;> rw [h2] at hm <;> push_cast at hm <;>
    cases r <;> cases t <;> simp only [Describes, Nat.cast_ofNat] at h <;>
    simp only [ExtendedMantissa.shiftRightOne, h2, bne_self_eq_false, Bool.or_self, Bool.or_true, Bool.or_false,
      show (1 != 0) = true from rfl, Describes, Nat.cast_ofNat] <;>
    first | constructor <;> linarith | linarith

theorem describes_shiftRight {em : ExtendedMantissa} {x : ℝ} (h : Describes em x) (n : ℕ) :
    Describes (em >>> n) (x / 2 ^ n) := by
  induction n with
  | zero => rwa [pow_zero, div_one]
  | succ n ih =>
    rw [pow_succ, ← div_div]
    exact describes_shiftRightOne ih

/-- An accuracy, with its mantissa, for the bits. -/
def Approximates (m : ℕ) (acc : Accuracy) (x : ℝ) : Prop := Describes (.ofMantissaAndAccuracy m acc) x

theorem Approximates.bounds {m : ℕ} {acc : Accuracy} {x : ℝ} (h : Approximates m acc x) : (m : ℝ) ≤ x ∧ x < m + 1 := by
  have hm : (ExtendedMantissa.ofMantissaAndAccuracy m acc).mantissa = m := by
    rcases acc with _ | (_ | _ | _) <;> rfl
  have hbounds := Describes.bounds h
  rwa [hm] at hbounds

/-- The mantissa `k`, which may have one digit too many. -/
def ofPlaces (s : Sign) (k : ℕ) (e : ℤ) : UnpackedFloat :=
  if h : k = 0 then .zero s
  else if k < 2 ^ 53 then .finite s k e (Nat.pos_of_ne_zero h)
  else .finite s (2 ^ 52) (e + 1) (by decide)

theorem target_eq (t : ℤ) : Format.binary64.targetExponent t = max (t - 53) (-1074) := by
  simp only [Format.targetExponent, Format.mantissaBits, Format.minExponent]
  omega

theorem targetExponent_eq (m : ℕ) (e : ℤ) :
    Format.binary64.targetExponent (totalExponent m e) = max (m.log2 + e - 52) (-1074) := by
  rw [target_eq, totalExponent]
  omega

theorem targetExponent_eq_exponent {m : ℕ} {e : ℤ} {x : ℝ} (hlo : (m : ℝ) ≤ x / 2 ^ e) (hhi : x / 2 ^ e < m + 1)
    (h0 : m = 0 → e ≤ -1022) : Format.binary64.targetExponent (totalExponent m e) = exponent x := by
  have hpos := two_zpow_pos e
  rw [le_div_iff₀ hpos] at hlo
  rw [div_lt_iff₀ hpos] at hhi
  have hx : 0 ≤ x := (mul_nonneg m.cast_nonneg hpos.le).trans hlo
  rw [targetExponent_eq, exponent, abs_of_nonneg hx]
  rcases Nat.eq_zero_or_pos m with rfl | hm
  · have he := h0 rfl
    rw [Nat.cast_zero, zero_add, one_mul] at hhi
    split
    case isTrue => simp only [Nat.log2_zero, Nat.cast_zero]; omega
    case isFalse hne =>
      have hlog := (Int.lt_zpow_iff_log_lt (b := 2) (by norm_num) (lt_of_le_of_ne hx (Ne.symm hne))).1
        (by rwa [Nat.cast_ofNat])
      simp only [Nat.log2_zero, Nat.cast_zero]
      omega
  · have hpow : (2 : ℝ) ^ (m.log2 : ℤ) ≤ m := by exact_mod_cast Nat.log2_self_le hm.ne'
    have hpow' : (m : ℝ) + 1 ≤ 2 ^ ((m.log2 : ℤ) + 1) := by exact_mod_cast Nat.lt_log2_self (n := m)
    have hxpos : 0 < x := (mul_pos (Nat.cast_pos.2 hm) hpos).trans_le hlo
    have hle : (m.log2 : ℤ) + e ≤ Int.log 2 x := by
      rw [← Int.zpow_le_iff_le_log (by norm_num) hxpos, Nat.cast_ofNat, zpow_add₀ two_ne_zero]
      exact (mul_le_mul_of_nonneg_right hpow hpos.le).trans hlo
    have hlt : Int.log 2 x < (m.log2 : ℤ) + 1 + e := by
      rw [← Int.lt_zpow_iff_log_lt (by norm_num) hxpos, Nat.cast_ofNat, zpow_add₀ two_ne_zero]
      exact hhi.trans_le (mul_le_mul_of_nonneg_right hpow' hpos.le)
    rw [if_neg hxpos.ne']
    omega

/-- The second shift takes the carry up. -/
theorem shiftToTargetExponent_places {k : ℕ} {e : ℤ} (hk : k ≤ 2 ^ 53) (he : -1074 ≤ e) :
    shiftToTargetExponent Format.binary64 k e .exact =
      if k < 2 ^ 53 then (⟨k, false, false⟩, e) else (⟨2 ^ 52, false, false⟩, e + 1) := by
  rw [shiftToTargetExponent, shiftToExponent, targetExponent_eq]
  split
  case isTrue hlt =>
    have hlog : k.log2 < 53 := by
      rcases Nat.eq_zero_or_pos k with rfl | hpos
      · decide
      · exact (Nat.log2_lt hpos.ne').2 hlt
    have hshift : (max ((k.log2 : ℤ) + e - 52) (-1074) - e).toNat = 0 := by omega
    rw [hshift, Nat.cast_zero, add_zero]
    rfl
  case isFalse hge =>
    obtain rfl : k = 2 ^ 53 := by omega
    have hshift : (max (((2 ^ 53 : ℕ).log2 : ℤ) + e - 52) (-1074) - e).toNat = 1 := by
      rw [Nat.log2_two_pow]
      omega
    rw [hshift]
    rfl

theorem roundEven_toNat {x : ℝ} (h : 0 ≤ x) : ((roundEven (x / 2 ^ exponent x)).toNat : ℤ) = roundEven (x / 2 ^ exponent x) := by
  have hround := roundEven_mono (div_nonneg h (two_zpow_pos (exponent x)).le)
  have hzero := roundEven_intCast 0
  rw [Int.cast_zero] at hzero
  exact Int.toNat_of_nonneg (hzero ▸ hround)

theorem roundEven_le_places (x : ℝ) : roundEven (x / 2 ^ exponent x) ≤ 2 ^ 53 := by
  have hpos := two_zpow_pos (exponent x)
  have h := rnd_le_zpow x
  rw [rnd_eq, zpow_add₀ two_ne_zero, mul_comm] at h
  exact_mod_cast le_of_mul_le_mul_left h hpos

/-- What is left of a mantissa of enough digits is the nearest number of places. -/
theorem roundWithAccuracy_eq (s : Sign) {m : ℕ} {e : ℤ} {acc : Accuracy} {x : ℝ} (hx : Approximates m acc (x / 2 ^ e))
    (he : e ≤ exponent x) (h0 : m = 0 → e ≤ -1022) :
    roundWithAccuracy Format.binary64 s m e acc = ofPlaces s (roundEven (x / 2 ^ exponent x)).toNat (exponent x) := by
  obtain ⟨hlo, hhi⟩ := hx.bounds
  have htarget := targetExponent_eq_exponent hlo hhi h0
  have hnonneg : 0 ≤ x := by
    have := m.cast_nonneg.trans hlo
    rwa [le_div_iff₀ (two_zpow_pos e), zero_mul] at this
  obtain ⟨n, hn⟩ := Int.eq_ofNat_of_zero_le (sub_nonneg.2 he)
  have hsplit : (2 : ℝ) ^ exponent x = 2 ^ e * 2 ^ n := by
    rw [← zpow_natCast, ← zpow_add₀ two_ne_zero, ← hn, add_sub_cancel]
  have hshift : shiftToTargetExponent Format.binary64 m e acc =
      (ExtendedMantissa.ofMantissaAndAccuracy m acc >>> n, exponent x) := by
    rw [shiftToTargetExponent, shiftToExponent, htarget, hn]
    simp only [Int.toNat_natCast, Prod.mk.injEq, true_and]
    omega
  have hdescribes : Describes (ExtendedMantissa.ofMantissaAndAccuracy m acc >>> n) (x / 2 ^ exponent x) := by
    rw [hsplit, ← div_div]
    exact describes_shiftRight hx n
  have hround : (ExtendedMantissa.ofMantissaAndAccuracy m acc >>> n).roundedMantissa =
      (roundEven (x / 2 ^ exponent x)).toNat := by
    rw [← hdescribes.roundedMantissa, Int.toNat_natCast]
  have hle : (roundEven (x / 2 ^ exponent x)).toNat ≤ 2 ^ 53 := by
    have := roundEven_le_places x
    omega
  rw [roundWithAccuracy, hshift]
  dsimp only
  rw [hround, shiftToTargetExponent_places hle (le_exponent x), ofPlaces]
  generalize (roundEven (x / 2 ^ exponent x)).toNat = k
  by_cases hlt : k < 2 ^ 53
  · simp only [if_pos hlt]
  · have hk : k ≠ 0 := fun h => hlt (h ▸ by decide)
    simp only [if_neg hlt, dif_neg hk]
    rfl

/-! ### The bits -/

theorem unpackSign_packComponents (s : Sign) (e : BitVec 11) (m : BitVec 52) :
    Sign.ofBitVec (unpackSign (packComponents Format.binary64 s e m)) = s := by
  have htop : (s.toBitVec ++ e ++ m).getLsbD 63 = s.toBitVec.getLsbD 0 := by
    rw [BitVec.getLsbD_append, BitVec.getLsbD_append]
    simp
  have hbit : unpackSign (packComponents Format.binary64 s e m) = s.toBitVec := by
    refine BitVec.eq_of_getLsbD_eq ?_
    intro i hi
    obtain rfl : i = 0 := by omega
    rw [← htop]
    simp only [unpackSign, packComponents, BitVec.getLsbD_cast, BitVec.getLsbD_extract]
    rfl
  rw [hbit]
  cases s <;> rfl

/-- The implicit bit in front of the others. -/
theorem toNat_implicit (m : BitVec 52) : (1#1 ++ m).toNat = 2 ^ 52 + m.toNat := by
  rw [BitVec.toNat_append, ← Nat.shiftLeft_add_eq_or_of_lt m.isLt]
  rfl

theorem unpack_packComponents (s : Sign) (e : BitVec 11) (m : BitVec 52) (hinf : e ≠ -1#11) :
    UnpackedFloat.unpack Format.binary64 (packComponents Format.binary64 s e m) =
      if e = 0#11 then
        if h : m = 0#52 then .zero s
        else .finite s m.toNat (-1074) (Nat.pos_of_ne_zero fun h0 => h (BitVec.eq_of_toNat_eq h0))
      else .finite s (2 ^ 52 + m.toNat) (e.toNat - 1075) (Nat.add_pos_left (by decide) _) := by
  simp only [UnpackedFloat.unpack, unpackMantissa_packComponents, unpackExponent_packComponents, unpackSign_packComponents,
    toNat_implicit, if_neg hinf]
  split
  case isTrue h0 =>
    rw [h0]
    rfl
  case isFalse => rfl

def Canonical : UnpackedFloat → Prop
  | .finite _ m e _ => m < 2 ^ 53 ∧ -1074 ≤ e ∧ (2 ^ 52 ≤ m ∨ e = -1074)
  | _ => True

/-- What is too large becomes infinite. -/
def clip : UnpackedFloat → UnpackedFloat
  | .finite s m e h => if e ≤ 971 then .finite s m e h else .infinity s
  | f => f

theorem ofNat_ne {w k : ℕ} {b : BitVec w} (hk : k < 2 ^ w) (h : k ≠ b.toNat) : BitVec.ofNat w k ≠ b := by
  intro heq
  have := congrArg BitVec.toNat heq
  rw [BitVec.toNat_ofNat, Nat.mod_eq_of_lt hk] at this
  exact h this

theorem unpack_pack {f : UnpackedFloat} (h : Canonical f) :
    UnpackedFloat.unpack Format.binary64 (UnpackedFloat.pack Format.binary64 f) = clip f := by
  cases f with
  | notANumber => rfl
  | infinity s => cases s <;> rfl
  | zero s => cases s <;> rfl
  | finite s m e hm =>
    obtain ⟨hlt, hlow, hplaces⟩ := h
    have hbias : (Format.binary64.exponentBias : ℤ) = 1023 := rfl
    have hbits : Format.binary64.mantissaBits = 53 := rfl
    rw [UnpackedFloat.pack, clip]
    simp only [hbias, hbits]
    split
    case isTrue hbig =>
      have he : ¬ e ≤ 971 := by omega
      rw [if_neg he]
      cases s <;> rfl
    case isFalse hsmall =>
      have he : e ≤ 971 := by omega
      rw [if_pos he]
      split
      case isTrue hnormal =>
        have hm52 : 2 ^ 52 ≤ m := by
          have := Nat.log2_self_le hm.ne'
          rwa [show m.log2 = 52 by omega] at this
        have hexp : (e + 1023 + ((52 : ℕ) : ℤ)).toNat < 2 ^ 11 := by omega
        have hmantissa : 2 ^ 52 + (BitVec.ofNat 52 m).toNat = m := by
          rw [BitVec.toNat_ofNat]
          omega
        have hexponent : ((BitVec.ofNat 11 (e + 1023 + ((52 : ℕ) : ℤ)).toNat).toNat : ℤ) - 1075 = e := by
          rw [BitVec.toNat_ofNat, Nat.mod_eq_of_lt hexp]
          omega
        rw [unpack_packComponents s _ _ (ofNat_ne hexp (by rw [show (-1#11).toNat = 2047 from rfl]; omega)),
          if_neg (ofNat_ne hexp (by rw [BitVec.toNat_zero]; omega))]
        simp only [hmantissa, hexponent]
      case isFalse hsub =>
        have hm52 : m < 2 ^ 52 := by
          by_contra hge
          exact hsub (congrArg Nat.succ ((Nat.log2_eq_iff hm.ne').2 ⟨not_lt.1 hge, hlt⟩))
        rw [unpack_packComponents s _ _ (by decide), if_pos rfl, dif_neg (ofNat_ne hm52 (by rw [BitVec.toNat_zero]; exact hm.ne'))]
        have hmantissa : (BitVec.ofNat 52 m).toNat = m := by rw [BitVec.toNat_ofNat, Nat.mod_eq_of_lt hm52]
        have he : -1074 = e := by omega
        simp only [hmantissa, he]

/-- What comes out of the bits is in range. -/
theorem canonical_unpack (b : BitVec 64) :
    Canonical (UnpackedFloat.unpack Format.binary64 b) ∧
      clip (UnpackedFloat.unpack Format.binary64 b) = UnpackedFloat.unpack Format.binary64 b := by
  have hm : (@unpackMantissa Format.binary64 b).toNat < 2 ^ 52 := BitVec.isLt _
  have he : (@unpackExponent Format.binary64 b).toNat < 2 ^ 11 := BitVec.isLt _
  have hzero : (((0#11 : BitVec 11).toNat : ℤ) - (1023 + ((52 : ℕ) : ℤ)) + 1) = -1074 := rfl
  have hbias : (Format.binary64.exponentBias : ℤ) = 1023 := rfl
  rw [UnpackedFloat.unpack]
  simp only [hbias, toNat_implicit]
  split
  case isTrue => split <;> exact ⟨trivial, rfl⟩
  case isFalse hinf =>
    split
    case isTrue h0 =>
      split
      · exact ⟨trivial, rfl⟩
      · simp only [h0, hzero]
        exact ⟨⟨by omega, le_rfl, .inr rfl⟩, by rw [clip, if_pos (by decide)]⟩
    case isFalse h0 =>
      have hne : (@unpackExponent Format.binary64 b).toNat ≠ 2047 := fun h => hinf (BitVec.eq_of_toNat_eq h)
      have hne0 : (@unpackExponent Format.binary64 b).toNat ≠ 0 := fun h => h0 (BitVec.eq_of_toNat_eq h)
      exact ⟨⟨by omega, by omega, .inl (by omega)⟩, by rw [clip, if_pos (by omega)]⟩

/-! ### The numbers they stand for -/

def IsReal : UnpackedFloat → Prop
  | .zero _ => True
  | .finite .. => True
  | _ => False

noncomputable def realOf : UnpackedFloat → ℝ
  | .finite s m e _ => s.apply m * (2 : ℕ) ^ e
  | _ => 0

/-- With the infinities; what is not a number stands for 0. -/
noncomputable def numberOf : UnpackedFloat → EReal
  | .infinity .positive => ⊤
  | .infinity .negative => ⊥
  | f => realOf f

theorem numberOf_of_isReal {f : UnpackedFloat} (h : IsReal f) : numberOf f = realOf f := by
  cases f with
  | zero s => rfl
  | finite s m e hm => rfl
  | infinity s => exact h.elim
  | notANumber => exact h.elim

def Sign.real : Sign → ℝ → ℝ
  | .negative, x => -x
  | .positive, x => x

theorem places_lt_huge {e : ℤ} {m : ℕ} (h : m < 2 ^ 53) (he : e ≤ 971) : (m : ℝ) * 2 ^ e < huge := by
  have hm : (m : ℝ) < 2 ^ (53 : ℤ) := by exact_mod_cast h
  calc (m : ℝ) * 2 ^ e < 2 ^ (53 : ℤ) * 2 ^ e := mul_lt_mul_of_pos_right hm (two_zpow_pos e)
    _ = 2 ^ (53 + e) := (zpow_add₀ two_ne_zero _ _).symm
    _ ≤ huge := zpow_le_zpow_right₀ one_le_two (by omega)

theorem huge_le_places {e : ℤ} {m : ℕ} (h : 2 ^ 52 ≤ m) (he : 972 ≤ e) : huge ≤ (m : ℝ) * 2 ^ e := by
  have hm : (2 : ℝ) ^ (52 : ℤ) ≤ m := by exact_mod_cast h
  calc huge ≤ 2 ^ (52 + e) := zpow_le_zpow_right₀ one_le_two (by omega)
    _ = 2 ^ (52 : ℤ) * 2 ^ e := zpow_add₀ two_ne_zero _ _
    _ ≤ m * 2 ^ e := mul_le_mul_of_nonneg_right hm (two_zpow_pos e).le

theorem realOf_finite (s : Sign) (m : ℕ) (e : ℤ) (h : 0 < m) : realOf (.finite s m e h) = Sign.real s (m * 2 ^ e) := by
  cases s
  · simp [realOf, Sign.apply, Sign.real]
  · simp [realOf, Sign.apply, Sign.real]

theorem numberOf_clip {f : UnpackedFloat} (h : Canonical f) (hf : IsReal f) : numberOf (clip f) = overflow (realOf f) := by
  cases f with
  | infinity s => exact hf.elim
  | notANumber => exact hf.elim
  | zero s =>
    have hsmall : |realOf (.zero s)| < huge := by
      rw [show realOf (.zero s) = 0 from rfl, abs_zero]
      exact huge_pos
    exact (overflow_of_abs_lt hsmall).symm
  | finite s m e hm =>
    obtain ⟨hlt, -, hplaces⟩ := h
    have hpos : 0 ≤ (m : ℝ) * 2 ^ e := mul_nonneg m.cast_nonneg (two_zpow_pos e).le
    rw [clip]
    split
    case isTrue he =>
      have hbound := places_lt_huge hlt he
      rw [overflow_of_abs_lt, numberOf_of_isReal hf]
      rw [realOf_finite]
      cases s <;> simpa [Sign.real, abs_of_nonneg hpos] using hbound
    case isFalse he =>
      have hbound : huge ≤ m * 2 ^ e := huge_le_places (by omega) (by omega)
      have hbig := huge_pos
      rw [realOf_finite, overflow]
      cases s with
      | positive => rw [Sign.real, if_pos hbound]; rfl
      | negative =>
        rw [Sign.real, if_neg (by linarith), if_pos (neg_le_neg hbound)]
        rfl


theorem isReal_ofPlaces (s : Sign) (k : ℕ) (e : ℤ) : IsReal (ofPlaces s k e) := by
  rw [ofPlaces]
  split
  · trivial
  · split <;> trivial

theorem canonical_ofPlaces (s : Sign) {k : ℕ} {e : ℤ} (he : -1074 ≤ e) (hk : 2 ^ 52 ≤ k ∨ e = -1074) :
    Canonical (ofPlaces s k e) := by
  rw [ofPlaces]
  split
  · trivial
  · split
    case isTrue hlt => exact ⟨hlt, he, hk⟩
    case isFalse => exact ⟨by decide, by omega, .inl le_rfl⟩

theorem realOf_ofPlaces (s : Sign) {k : ℕ} (e : ℤ) (hk : k ≤ 2 ^ 53) : realOf (ofPlaces s k e) = Sign.real s (k * 2 ^ e) := by
  rw [ofPlaces]
  split
  case isTrue h0 =>
    rw [h0]
    cases s <;> simp [realOf, Sign.real]
  case isFalse =>
    split
    case isTrue => rw [realOf_finite]
    case isFalse hge =>
      obtain rfl : k = 2 ^ 53 := by omega
      have hcarry : ((2 ^ 52 : ℕ) : ℝ) * 2 ^ (e + 1) = ((2 ^ 53 : ℕ) : ℝ) * 2 ^ e := by
        rw [zpow_add₀ two_ne_zero]
        push_cast
        ring
      rw [realOf_finite, hcarry]

theorem Sign.real_rnd (s : Sign) (x : ℝ) : Sign.real s (rnd x) = rnd (Sign.real s x) := by
  cases s
  · exact (rnd_neg x).symm
  · rfl

/-- The datum is the correctly rounded `r`. -/
structure Correct (f : UnpackedFloat) (r : ℝ) : Prop where
  numberOf_eq : numberOf (clip f) = overflow (rnd r)
  canonical : Canonical f
  isReal : IsReal f

/-- A mantissa with enough digits comes to the nearest double. -/
theorem correct_roundWithAccuracy (s : Sign) {m : ℕ} {e : ℤ} {acc : Accuracy} {x : ℝ}
    (hx : Approximates m acc (x / 2 ^ e)) (he : e ≤ exponent x) (h0 : m = 0 → e ≤ -1022) :
    Correct (roundWithAccuracy Format.binary64 s m e acc) (Sign.real s x) := by
  have hnonneg : 0 ≤ x := by
    have := m.cast_nonneg.trans hx.bounds.1
    rwa [le_div_iff₀ (two_zpow_pos e), zero_mul] at this
  have hk := roundEven_toNat hnonneg
  have hle := roundEven_le_places x
  have hplaces : 2 ^ 52 ≤ (roundEven (x / 2 ^ exponent x)).toNat ∨ exponent x = -1074 := by
    by_cases hlow : exponent x = -1074
    · exact .inr hlow
    · left
      have hround := zpow_le_rnd hnonneg hlow
      rw [rnd_eq, zpow_add₀ two_ne_zero, mul_comm] at hround
      have := le_of_mul_le_mul_right hround (two_zpow_pos _)
      have hcast : (2 : ℤ) ^ 52 ≤ roundEven (x / 2 ^ exponent x) := by exact_mod_cast this
      omega
  have hreal := isReal_ofPlaces s (roundEven (x / 2 ^ exponent x)).toNat (exponent x)
  have hcanonical := canonical_ofPlaces s (le_exponent x) hplaces
  rw [roundWithAccuracy_eq s hx he h0]
  refine ⟨?_, hcanonical, hreal⟩
  have hcast : ((roundEven (x / 2 ^ exponent x)).toNat : ℝ) = roundEven (x / 2 ^ exponent x) := by exact_mod_cast hk
  rw [numberOf_clip hcanonical hreal, realOf_ofPlaces s _ (by omega), hcast, ← Sign.real_rnd, rnd_eq]

/-! ### The operations on the data -/

theorem rnd_realOf {f : UnpackedFloat} (h : Canonical f) : rnd (realOf f) = realOf f := by
  cases f with
  | infinity s => exact rnd_zero
  | notANumber => exact rnd_zero
  | zero s => exact rnd_zero
  | finite s m e hm =>
    obtain ⟨hlt, hlow, -⟩ := h
    refine rnd_of_exponent_le (k := s.apply m) (e := e) rfl ?_
    have hdiv : (m : ℝ) = m * 2 ^ e / 2 ^ e := (mul_div_cancel_right₀ _ (two_zpow_pos e).ne').symm
    have hexponent : exponent (realOf (.finite s m e hm)) = exponent (m * 2 ^ e) := by
      rw [realOf_finite]
      cases s
      · exact exponent_neg _
      · rfl
    have hlog : m.log2 < 53 := (Nat.log2_lt hm.ne').2 hlt
    rw [hexponent, ← targetExponent_eq_exponent (m := m) (e := e) hdiv.le (by rw [← hdiv]; exact lt_add_one _) (by omega),
      targetExponent_eq]
    omega

theorem Correct.self {f : UnpackedFloat} (h : Canonical f) (hf : IsReal f) : Correct f (realOf f) :=
  ⟨by rw [rnd_realOf h, numberOf_clip h hf], h, hf⟩

theorem Correct.zero (s : Sign) : Correct (.zero s) 0 := Correct.self (f := .zero s) trivial trivial

theorem correct_round (s : Sign) {m : ℕ} (hm : 0 < m) (e : ℤ) : Correct (UnpackedFloat.round Format.binary64 s m e) (Sign.real s (m * 2 ^ e)) := by
  have hpos := two_zpow_pos e
  have hdiv : (m : ℝ) = m * 2 ^ e / 2 ^ e := (mul_div_cancel_right₀ _ hpos.ne').symm
  have htarget := targetExponent_eq_exponent (m := m) (e := e) hdiv.le (by rw [← hdiv]; exact lt_add_one _) (by omega)
  rw [UnpackedFloat.round, htarget, decreaseExponent]
  dsimp only
  generalize hn : (e - exponent (m * 2 ^ e)).toNat = n
  have hmn : 0 < m <<< n := by
    rw [Nat.shiftLeft_eq]
    positivity
  have hvalue : ((m <<< n : ℕ) : ℝ) = m * 2 ^ e / 2 ^ (e - n) := by
    rw [Nat.shiftLeft_eq, eq_div_iff (two_zpow_pos _).ne']
    push_cast
    rw [mul_assoc, ← zpow_natCast, ← zpow_add₀ two_ne_zero]
    congr 2
    omega
  exact correct_roundWithAccuracy s hvalue.symm (by omega) (by omega)

theorem correct_normalize (k : ℤ) (e : ℤ) (zs : Sign) : Correct (UnpackedFloat.normalize Format.binary64 k e zs) (k * 2 ^ e) := by
  rcases lt_trichotomy k 0 with hk | rfl | hk
  · have hround := correct_round .negative (m := (-k).toNat) (by omega) e
    have hcast : (((-k).toNat : ℕ) : ℝ) = -k := by exact_mod_cast Int.toNat_of_nonneg (by omega : 0 ≤ -k)
    rw [Sign.real, hcast, neg_mul, neg_neg] at hround
    rwa [UnpackedFloat.normalize, Int.compare_eq_lt.2 hk]
  · rw [Int.cast_zero, zero_mul]
    exact Correct.zero zs
  · have hround := correct_round .positive (m := k.toNat) (by omega) e
    have hcast : ((k.toNat : ℕ) : ℝ) = k := by exact_mod_cast Int.toNat_of_nonneg hk.le
    rw [Sign.real, hcast] at hround
    rwa [UnpackedFloat.normalize, Int.compare_eq_gt.2 hk]

theorem decreaseExponent_value (s : Sign) (m : ℕ) {e e' : ℤ} (h : e' ≤ e) :
    (s.apply (decreaseExponent m e e').1 : ℝ) * 2 ^ e' = s.apply m * 2 ^ e := by
  obtain ⟨n, hn⟩ := Int.eq_ofNat_of_zero_le (sub_nonneg.2 h)
  have hsplit : (2 : ℝ) ^ e = 2 ^ n * 2 ^ e' := by
    rw [← zpow_natCast, ← zpow_add₀ two_ne_zero, ← hn, sub_add_cancel]
  have hshift : (decreaseExponent m e e').1 = m * 2 ^ n := by
    rw [decreaseExponent, hn, Int.toNat_natCast, Nat.shiftLeft_eq]
  rw [hshift, hsplit]
  cases s <;> simp only [Sign.apply] <;> push_cast <;> ring

variable {f g : UnpackedFloat}

theorem correct_add (hf : Canonical f) (hf' : IsReal f) (hg : Canonical g) (hg' : IsReal g) :
    Correct (UnpackedFloat.add Format.binary64 f g) (realOf f + realOf g) := by
  cases f with
  | infinity s => exact hf'.elim
  | notANumber => exact hf'.elim
  | zero s =>
    rw [show realOf (.zero s) = 0 from rfl, zero_add]
    cases g with
    | infinity s' => exact hg'.elim
    | notANumber => exact hg'.elim
    | zero s' => cases s <;> cases s' <;> exact Correct.zero _
    | finite s' m' e' hm' => exact Correct.self hg hg'
  | finite s m e hm =>
    cases g with
    | infinity s' => exact hg'.elim
    | notANumber => exact hg'.elim
    | zero s' =>
      rw [show realOf (.zero s') = 0 from rfl, add_zero]
      exact Correct.self hf hf'
    | finite s' m' e' hm' =>
      have hsum := correct_normalize (s.apply (decreaseExponent m e (min e e')).1 +
        s'.apply (decreaseExponent m' e' (min e e')).1) (min e e') .positive
      rw [Int.cast_add, add_mul, decreaseExponent_value s m (min_le_left e e'), decreaseExponent_value s' m' (min_le_right e e')]
        at hsum
      exact hsum

theorem Sign.real_neg : ∀ (s : Sign) (x : ℝ), Sign.real (-s) x = -Sign.real s x
  | .negative, x => (neg_neg x).symm
  | .positive, _ => rfl

theorem Sign.real_mul : ∀ (s s' : Sign) (x y : ℝ), Sign.real (s * s') (x * y) = Sign.real s x * Sign.real s' y
  | .negative, .negative, x, y => (neg_mul_neg x y).symm
  | .negative, .positive, x, y => (neg_mul x y).symm
  | .positive, .negative, x, y => (mul_neg x y).symm
  | .positive, .positive, _, _ => rfl

theorem realOf_neg (f : UnpackedFloat) : realOf f.neg = -realOf f := by
  cases f with
  | infinity s => exact neg_zero.symm
  | notANumber => exact neg_zero.symm
  | zero s => exact neg_zero.symm
  | finite s m e hm =>
    rw [UnpackedFloat.neg, realOf_finite, realOf_finite]
    exact Sign.real_neg s _

theorem sub_eq_add_neg_of_isReal (hf : IsReal f) (hg : IsReal g) :
    UnpackedFloat.sub Format.binary64 f g = UnpackedFloat.add Format.binary64 f g.neg := by
  cases f with
  | infinity s => exact hf.elim
  | notANumber => exact hf.elim
  | zero s =>
    cases g with
    | infinity s' => exact hg.elim
    | notANumber => exact hg.elim
    | zero s' => rfl
    | finite s' m' e' hm' => rfl
  | finite s m e hm =>
    cases g with
    | infinity s' => exact hg.elim
    | notANumber => exact hg.elim
    | zero s' => rfl
    | finite s' m' e' hm' =>
      have hneg (k : ℤ) : (-s').apply k = -s'.apply k := by
        cases s'
        · exact (neg_neg k).symm
        · rfl
      simp only [UnpackedFloat.sub, UnpackedFloat.neg, UnpackedFloat.add, hneg, sub_eq_add_neg]

theorem correct_sub (hf : Canonical f) (hf' : IsReal f) (hg : Canonical g) (hg' : IsReal g) :
    Correct (UnpackedFloat.sub Format.binary64 f g) (realOf f - realOf g) := by
  have hneg : Canonical g.neg ∧ IsReal g.neg := by cases g <;> exact ⟨hg, hg'⟩
  rw [sub_eq_add_neg_of_isReal hf' hg', sub_eq_add_neg, ← realOf_neg]
  exact correct_add hf hf' hneg.1 hneg.2

/-- The exponent of the last place, from a bound below. -/
theorem le_exponent_of_zpow_le {x : ℝ} {t : ℤ} (h : 2 ^ t ≤ x) : t - 52 ≤ exponent x := by
  have hx : 0 < x := (two_zpow_pos t).trans_le h
  have hlog : t ≤ Int.log 2 x := by
    rw [← Int.zpow_le_iff_le_log (by norm_num) hx, Nat.cast_ofNat]
    exact h
  rw [exponent, if_neg hx.ne', abs_of_pos hx]
  omega

theorem correct_mul (hf : Canonical f) (hf' : IsReal f) (hg : Canonical g) (hg' : IsReal g) :
    Correct (UnpackedFloat.mul Format.binary64 f g) (realOf f * realOf g) := by
  cases f with
  | infinity s => exact hf'.elim
  | notANumber => exact hf'.elim
  | zero s =>
    rw [show realOf (.zero s) = 0 from rfl, zero_mul]
    cases g with
    | infinity s' => exact hg'.elim
    | notANumber => exact hg'.elim
    | zero s' => exact Correct.zero _
    | finite s' m' e' hm' => exact Correct.zero _
  | finite s m e hm =>
    cases g with
    | infinity s' => exact hg'.elim
    | notANumber => exact hg'.elim
    | zero s' =>
      rw [show realOf (.zero s') = 0 from rfl, mul_zero]
      exact Correct.zero _
    | finite s' m' e' hm' =>
      obtain ⟨hlt, hlow, hplaces⟩ := hf
      obtain ⟨hlt', hlow', hplaces'⟩ := hg
      have hpos := two_zpow_pos (e + e')
      have hvalue : (m : ℝ) * 2 ^ e * (m' * 2 ^ e') = (m * m' : ℕ) * 2 ^ (e + e') := by
        rw [zpow_add₀ two_ne_zero]
        push_cast
        ring
      have hexponent : e + e' ≤ exponent ((m * m' : ℕ) * 2 ^ (e + e')) := by
        by_cases hlarge : 2 ^ 52 ≤ m * m'
        · have hle : (2 : ℝ) ^ (52 + (e + e')) ≤ (m * m' : ℕ) * 2 ^ (e + e') := by
            rw [zpow_add₀ two_ne_zero]
            exact mul_le_mul_of_nonneg_right (by exact_mod_cast hlarge) hpos.le
          have := le_exponent_of_zpow_le hle
          omega
        · have hm1 : m ≤ m * m' := Nat.le_mul_of_pos_right m hm'
          have hm2 : m' ≤ m * m' := Nat.le_mul_of_pos_left m' hm
          have := le_exponent ((m * m' : ℕ) * 2 ^ (e + e'))
          omega
      rw [realOf_finite, realOf_finite, ← Sign.real_mul, hvalue]
      exact correct_roundWithAccuracy _ (mul_div_cancel_right₀ _ hpos.ne') hexponent fun h0 =>
        absurd h0 (Nat.mul_pos hm hm').ne'

theorem Sign.real_div : ∀ (s s' : Sign) (x y : ℝ), Sign.real (s / s') (x / y) = Sign.real s x / Sign.real s' y
  | .negative, .negative, x, y => (neg_div_neg_eq x y).symm
  | .negative, .positive, _, _ => (neg_div _ _).symm
  | .positive, .negative, x, _ => (div_neg x).symm
  | .positive, .positive, _, _ => rfl

theorem approximates_fraction (num : ℕ) {den : ℕ} (hden : 0 < den) :
    Approximates (num / den) (accuracyOfFraction (num % den) den) ((num : ℝ) / den) := by
  have hpos : (0 : ℝ) < den := Nat.cast_pos.2 hden
  have hsplit : (num : ℝ) / den = (num / den : ℕ) + (num % den : ℕ) / den := by
    rw [← sub_eq_iff_eq_add, ← sub_div, div_eq_iff hpos.ne', sub_eq_iff_eq_add]
    exact_mod_cast (Nat.div_add_mod' num den).symm
  have hlt : (num % den : ℕ) / (den : ℝ) < 1 := by
    rw [div_lt_one hpos]
    exact_mod_cast Nat.mod_lt num hden
  rw [hsplit, Approximates, accuracyOfFraction]
  by_cases h0 : num % den = 0
  · rw [if_pos h0, h0]
    simp [ExtendedMantissa.ofMantissaAndAccuracy, Describes]
  · have hpos' : (0 : ℝ) < (num % den : ℕ) / den := div_pos (Nat.cast_pos.2 (Nat.pos_of_ne_zero h0)) hpos
    rw [if_neg h0]
    rcases Nat.lt_trichotomy (2 * (num % den)) den with hc | hc | hc
    · have hhalf : (num % den : ℕ) / (den : ℝ) < 1 / 2 := by
        rw [div_lt_iff₀ hpos]
        have : (2 * (num % den : ℕ) : ℝ) < den := by exact_mod_cast hc
        linarith
      rw [Nat.compare_eq_lt.2 hc]
      exact ⟨by linarith, by linarith⟩
    · have hhalf : (num % den : ℕ) / (den : ℝ) = 1 / 2 := by
        rw [div_eq_iff hpos.ne']
        have : (2 * (num % den : ℕ) : ℝ) = den := by exact_mod_cast hc
        linarith
      rw [Nat.compare_eq_eq.2 hc]
      simp only [ExtendedMantissa.ofMantissaAndAccuracy, Describes, Nat.cast_ofNat]
      rw [hhalf]
    · have hhalf : 1 / 2 < (num % den : ℕ) / (den : ℝ) := by
        rw [lt_div_iff₀ hpos]
        have : (den : ℝ) < 2 * (num % den : ℕ) := by exact_mod_cast hc
        linarith
      rw [Nat.compare_eq_gt.2 hc]
      exact ⟨by linarith, by linarith⟩

/-- The value of `m * 2 ^ e` lies between two powers of two. -/
theorem zpow_totalExponent {m : ℕ} (hm : 0 < m) (e : ℤ) :
    (2 : ℝ) ^ (totalExponent m e - 1) ≤ m * 2 ^ e ∧ (m : ℝ) * 2 ^ e < 2 ^ totalExponent m e := by
  have hpos := two_zpow_pos e
  have hlo : (2 : ℝ) ^ (m.log2 : ℤ) ≤ m := by exact_mod_cast Nat.log2_self_le hm.ne'
  have hhi : (m : ℝ) < 2 ^ ((m.log2 : ℤ) + 1) := by exact_mod_cast Nat.lt_log2_self (n := m)
  rw [totalExponent, show (m.log2 : ℤ) + 1 + e - 1 = m.log2 + e by ring, zpow_add₀ two_ne_zero, zpow_add₀ two_ne_zero _ e]
  exact ⟨mul_le_mul_of_nonneg_right hlo hpos.le, mul_lt_mul_of_pos_right hhi hpos⟩

theorem correct_div (hf' : IsReal f) (hg' : IsReal g) (hne : realOf g ≠ 0) :
    Correct (UnpackedFloat.div Format.binary64 f g) (realOf f / realOf g) := by
  cases g with
  | infinity s => exact hg'.elim
  | notANumber => exact hg'.elim
  | zero s => exact absurd rfl hne
  | finite s' m' e' hm' =>
    cases f with
    | infinity s => exact hf'.elim
    | notANumber => exact hf'.elim
    | zero s =>
      rw [show realOf (.zero s) = 0 from rfl, zero_div]
      exact Correct.zero _
    | finite s m e hm =>
      obtain ⟨hlo, hhi⟩ := zpow_totalExponent hm e
      obtain ⟨hlo', hhi'⟩ := zpow_totalExponent hm' e'
      have hpos := two_zpow_pos e
      have hpos' : (0 : ℝ) < m' * 2 ^ e' := mul_pos (Nat.cast_pos.2 hm') (two_zpow_pos e')
      -- the quotient is above the power of two by whose exponent the target is chosen
      have hbelow : (2 : ℝ) ^ (totalExponent m e - 1 - totalExponent m' e') ≤ m * 2 ^ e / (m' * 2 ^ e') := by
        rw [le_div_iff₀ hpos', zpow_sub₀ two_ne_zero, div_mul_eq_mul_div, div_le_iff₀ (two_zpow_pos _)]
        exact mul_le_mul hlo hhi'.le hpos'.le (mul_nonneg m.cast_nonneg hpos.le)
      have hexponent := le_exponent_of_zpow_le hbelow
      have hleast := le_exponent ((m : ℝ) * 2 ^ e / (m' * 2 ^ e'))
      rw [realOf_finite, realOf_finite, ← Sign.real_div]
      rw [UnpackedFloat.div, divCore, target_eq]
      dsimp only
      generalize htarget : min (e - e') (max (totalExponent m e - totalExponent m' e' - 53) (-1074)) = target
      have hle : target ≤ e - e' := htarget ▸ min_le_left _ _
      obtain ⟨n, hn⟩ := Int.eq_ofNat_of_zero_le (sub_nonneg.2 hle)
      have hvalue : (m : ℝ) * 2 ^ e / (m' * 2 ^ e') / 2 ^ target = ((m <<< n : ℕ) : ℝ) / m' := by
        have hsplit : (2 : ℝ) ^ e = 2 ^ n * 2 ^ target * 2 ^ e' := by
          rw [← zpow_natCast, ← zpow_add₀ two_ne_zero, ← zpow_add₀ two_ne_zero]
          congr 1
          omega
        rw [Nat.shiftLeft_eq, hsplit]
        push_cast
        field_simp
      have happrox := approximates_fraction (m <<< n) hm'
      rw [← hvalue] at happrox
      rw [hn, Int.toNat_natCast]
      refine correct_roundWithAccuracy _ happrox (by omega) fun h0 => ?_
      -- a quotient without digits is less than a unit of the target
      by_contra hlarge
      have hsmall := happrox.bounds.2
      rw [h0, Nat.cast_zero, zero_add, div_lt_one (two_zpow_pos target)] at hsmall
      have hpow : (2 : ℝ) ^ target ≤ 2 ^ (totalExponent m e - 1 - totalExponent m' e') :=
        zpow_le_zpow_right₀ one_le_two (by omega)
      linarith

theorem approximates_sqrt (n : ℕ) :
    Approximates (Nat.sqrt n) (if n - Nat.sqrt n * Nat.sqrt n = 0 then .exact
      else .inexact (if n - Nat.sqrt n * Nat.sqrt n ≤ Nat.sqrt n then .lt else .gt)) (Real.sqrt n) := by
  have hle := Nat.sqrt_le n
  have hupper := Nat.lt_succ_sqrt n
  have hroot : (0 : ℝ) ≤ Nat.sqrt n := Nat.cast_nonneg _
  generalize hr : Nat.sqrt n = r at *
  by_cases h0 : n - r * r = 0
  · have heq : n = r * r := by omega
    rw [if_pos h0, heq]
    simp [Approximates, ExtendedMantissa.ofMantissaAndAccuracy, Describes]
  · have hpos : (r : ℝ) * r < n := by exact_mod_cast (by omega : r * r < n)
    rw [if_neg h0]
    by_cases hrem : n - r * r ≤ r
    · have hbound : (n : ℝ) ≤ r * r + r := by exact_mod_cast (by omega : n ≤ r * r + r)
      rw [if_pos hrem]
      exact ⟨Real.lt_sqrt_of_sq_lt (by rw [sq]; exact hpos), (Real.sqrt_lt' (by positivity)).2 (by nlinarith)⟩
    · have hbound : (r : ℝ) * r + r + 1 ≤ n := by exact_mod_cast (by omega : r * r + r + 1 ≤ n)
      have hcast : (n : ℝ) < (r + 1) * (r + 1) := by exact_mod_cast hupper
      rw [if_neg hrem]
      exact ⟨Real.lt_sqrt_of_sq_lt (by nlinarith), (Real.sqrt_lt' (by positivity)).2 (by rw [sq]; exact hcast)⟩

theorem correct_sqrt (hf' : IsReal f) (h0 : 0 ≤ realOf f) :
    Correct (UnpackedFloat.sqrt Format.binary64 f) (Real.sqrt (realOf f)) := by
  cases f with
  | infinity s => exact hf'.elim
  | notANumber => exact hf'.elim
  | zero s =>
    rw [show realOf (.zero s) = 0 from rfl, Real.sqrt_zero]
    exact Correct.zero _
  | finite s m e hm =>
    obtain ⟨hlo, hhi⟩ := zpow_totalExponent hm e
    have hpos : (0 : ℝ) < m * 2 ^ e := mul_pos (Nat.cast_pos.2 hm) (two_zpow_pos e)
    rw [realOf_finite] at h0 ⊢
    cases s with
    | negative => exact absurd h0 (not_le.2 (neg_neg_of_pos hpos))
    | positive =>
      have hbelow : (2 : ℝ) ^ ((totalExponent m e - 1) / 2) ≤ Real.sqrt (m * 2 ^ e) := by
        refine Real.le_sqrt_of_sq_le (le_trans ?_ hlo)
        rw [← zpow_natCast, ← zpow_mul]
        exact zpow_le_zpow_right₀ one_le_two (by omega)
      have hexponent := le_exponent_of_zpow_le hbelow
      have hleast := le_exponent (Real.sqrt (m * 2 ^ e))
      rw [Sign.real, UnpackedFloat.sqrt, sqrtCore, target_eq]
      dsimp only
      have hediv (k : ℤ) : k.ediv 2 = k / 2 := rfl
      rw [hediv, hediv]
      generalize htarget : min (e / 2) (max ((totalExponent m e + 1) / 2 - 53) (-1074)) = target
      have hle : 2 * target ≤ e := by omega
      obtain ⟨n, hn⟩ := Int.eq_ofNat_of_zero_le (sub_nonneg.2 hle)
      have hvalue : Real.sqrt (m * 2 ^ e) / 2 ^ target = Real.sqrt ((m <<< n : ℕ) : ℝ) := by
        have hsplit : (m : ℝ) * 2 ^ e = (m <<< n : ℕ) * (2 ^ target) ^ 2 := by
          rw [Nat.shiftLeft_eq, ← zpow_natCast, ← zpow_mul]
          push_cast
          rw [mul_assoc, ← zpow_natCast, ← zpow_add₀ two_ne_zero]
          congr 2
          omega
        rw [hsplit, Real.sqrt_mul (Nat.cast_nonneg _), Real.sqrt_sq (two_zpow_pos target).le,
          mul_div_cancel_right₀ _ (two_zpow_pos target).ne']
      have happrox := approximates_sqrt (m <<< n)
      rw [← hvalue] at happrox
      rw [hn, Int.toNat_natCast]
      refine correct_roundWithAccuracy .positive happrox (by omega) fun hzero => ?_
      have hshift : m <<< n ≠ 0 := by
        rw [Nat.shiftLeft_eq]
        positivity
      exact absurd (Nat.sqrt_eq_zero.1 hzero) hshift

theorem correct_ofNat (n : ℕ) : Correct (UnpackedFloat.ofNat Format.binary64 n) n := by
  have h := correct_normalize n 0 .positive
  rwa [zpow_zero, mul_one, Int.cast_natCast] at h

/-! ### The order -/

theorem compares_places {m m' : ℕ} {e e' : ℤ} (h : m < 2 ^ 53) (h' : m' < 2 ^ 53) (hlow : -1074 ≤ e) (hlow' : -1074 ≤ e')
    (hplaces : 2 ^ 52 ≤ m ∨ e = -1074) (hplaces' : 2 ^ 52 ≤ m' ∨ e' = -1074) :
    ((compare e e').then (compare m m')).Compares ((m : ℝ) * 2 ^ e) (m' * 2 ^ e') := by
  have hstep {m m' : ℕ} {e e' : ℤ} (h : m < 2 ^ 53) (h' : 2 ^ 52 ≤ m') (he : e < e') : (m : ℝ) * 2 ^ e < m' * 2 ^ e' := by
    have hm : (m : ℝ) < 2 ^ (53 : ℤ) := by exact_mod_cast h
    have hm' : (2 : ℝ) ^ (52 : ℤ) ≤ m' := by exact_mod_cast h'
    calc (m : ℝ) * 2 ^ e < 2 ^ (53 : ℤ) * 2 ^ e := mul_lt_mul_of_pos_right hm (two_zpow_pos e)
      _ = 2 ^ (53 + e) := (zpow_add₀ two_ne_zero _ _).symm
      _ ≤ 2 ^ (52 + e') := zpow_le_zpow_right₀ one_le_two (by omega)
      _ = 2 ^ (52 : ℤ) * 2 ^ e' := zpow_add₀ two_ne_zero _ _
      _ ≤ m' * 2 ^ e' := mul_le_mul_of_nonneg_right hm' (two_zpow_pos e').le
  rcases lt_trichotomy e e' with he | rfl | he
  · rw [Int.compare_eq_lt.2 he]
    exact hstep h (by omega) he
  · have hpos := two_zpow_pos e
    rw [Int.compare_eq_eq.2 rfl]
    rcases lt_trichotomy m m' with hm | rfl | hm
    · rw [Nat.compare_eq_lt.2 hm]
      exact mul_lt_mul_of_pos_right (Nat.cast_lt.2 hm) hpos
    · rw [Nat.compare_eq_eq.2 rfl]
      exact rfl
    · rw [Nat.compare_eq_gt.2 hm]
      exact mul_lt_mul_of_pos_right (Nat.cast_lt.2 hm) hpos
  · rw [Int.compare_eq_gt.2 he]
    exact hstep h' (by omega) he

theorem compares_coe {o : Ordering} {r r' : ℝ} : o.Compares (r : EReal) (r' : EReal) ↔ o.Compares r r' := by
  cases o <;> simp [Ordering.Compares]

theorem compares_neg {o : Ordering} {r r' : ℝ} (h : o.Compares r r') : o.Compares (-r') (-r) := by
  cases o with
  | lt => exact neg_lt_neg h
  | eq => exact congrArg Neg.neg (Eq.symm h)
  | gt => exact neg_lt_neg h

theorem places_pos {m : ℕ} (h : 0 < m) (e : ℤ) : (0 : ℝ) < m * 2 ^ e := mul_pos (Nat.cast_pos.2 h) (two_zpow_pos e)

/-- `compare` compares the numbers. -/
theorem compare_eq (hf : Canonical f) (hg : Canonical g) (hf' : f ≠ .notANumber) (hg' : g ≠ .notANumber) :
    ∃ o, f.compare g = some o ∧ o.Compares (numberOf f) (numberOf g) := by
  cases f with
  | notANumber => exact absurd rfl hf'
  | infinity s =>
    cases g with
    | notANumber => exact absurd rfl hg'
    | infinity s' =>
      cases s <;> cases s'
      exacts [⟨.eq, rfl, rfl⟩, ⟨.lt, rfl, bot_lt_top⟩, ⟨.gt, rfl, bot_lt_top⟩, ⟨.eq, rfl, rfl⟩]
    | zero s' =>
      cases s
      exacts [⟨.lt, rfl, EReal.bot_lt_coe _⟩, ⟨.gt, rfl, EReal.coe_lt_top _⟩]
    | finite s' m' e' hm' =>
      cases s
      exacts [⟨.lt, rfl, EReal.bot_lt_coe _⟩, ⟨.gt, rfl, EReal.coe_lt_top _⟩]
  | zero s =>
    cases g with
    | notANumber => exact absurd rfl hg'
    | infinity s' =>
      cases s'
      exacts [⟨.gt, rfl, EReal.bot_lt_coe _⟩, ⟨.lt, rfl, EReal.coe_lt_top _⟩]
    | zero s' => exact ⟨.eq, rfl, rfl⟩
    | finite s' m' e' hm' =>
      have hpos := places_pos hm' e'
      have hreal := realOf_finite s' m' e' hm'
      cases s'
      · exact ⟨.gt, rfl, EReal.coe_lt_coe (hreal.trans_lt (neg_neg_of_pos hpos))⟩
      · exact ⟨.lt, rfl, EReal.coe_lt_coe (hpos.trans_eq hreal.symm)⟩
  | finite s m e hm =>
    have hpos := places_pos hm e
    have hreal := realOf_finite s m e hm
    cases g with
    | notANumber => exact absurd rfl hg'
    | infinity s' =>
      cases s'
      exacts [⟨.gt, by cases s <;> rfl, EReal.bot_lt_coe _⟩, ⟨.lt, by cases s <;> rfl, EReal.coe_lt_top _⟩]
    | zero s' =>
      cases s
      · exact ⟨.lt, rfl, EReal.coe_lt_coe (hreal.trans_lt (neg_neg_of_pos hpos))⟩
      · exact ⟨.gt, rfl, EReal.coe_lt_coe (hpos.trans_eq hreal.symm)⟩
    | finite s' m' e' hm' =>
      obtain ⟨hlt, hlow, hplaces⟩ := hf
      obtain ⟨hlt', hlow', hplaces'⟩ := hg
      have hpos' := places_pos hm' e'
      have hreal' := realOf_finite s' m' e' hm'
      have hmagnitudes := compares_places hlt hlt' hlow hlow' hplaces hplaces'
      have hnumber (s : Sign) (m : ℕ) (e : ℤ) (hm : 0 < m) : numberOf (.finite s m e hm) = realOf (.finite s m e hm) := rfl
      simp only [hnumber, compares_coe]
      rw [hreal, hreal']
      cases s <;> cases s'
      · refine ⟨_, rfl, ?_⟩
        rw [Ordering.compares_swap]
        exact compares_neg hmagnitudes
      · exact ⟨.lt, rfl, (neg_neg_of_pos hpos).trans hpos'⟩
      · exact ⟨.gt, rfl, (neg_neg_of_pos hpos').trans hpos⟩
      · exact ⟨_, rfl, hmagnitudes⟩

end Binary64
