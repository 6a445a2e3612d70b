import InfraVeritas.Lib.Binary64

/-!
# Doubles

The operations of `Float` are those on the reals, rounded (`Rounds`), as long as the operands are finite. What is infinite or
not a number matters for quotients only: a quotient by a negative number stays below every positive one, and what a quotient
reaches, that of a greater number by the same divisor reaches too.
-/

namespace Binary64
open Float.Model Float.Model.UnpackedFloat

/-- A number, or an infinity. -/
noncomputable def toEReal (x : Float) : EReal := numberOf x.toModel.unpack

noncomputable def toReal (x : Float) : ℝ := realOf x.toModel.unpack

variable {x y : Float} {r r' : ℝ}

theorem isFinite_iff : x.isFinite = true ↔ IsReal x.toModel.unpack := by
  rw [Float.isFinite, Float.Model.isFinite]
  cases x.toModel.unpack <;> simp [UnpackedFloat.isFinite, IsReal]

theorem isNaN_iff : x.isNaN = false ↔ x.toModel.unpack ≠ .notANumber := by
  rw [Float.isNaN, Float.Model.isNaN]
  cases x.toModel.unpack <;> simp [UnpackedFloat.isNaN]

theorem toReal_of_unpack (s : Sign) (m : ℕ) (e : ℤ) (hm : 0 < m) (h : x.toModel.unpack = .finite s m e hm) :
    x.isFinite = true ∧ toReal x = Sign.real s (m * 2 ^ e) :=
  ⟨isFinite_iff.2 (by rw [h]; trivial), by rw [toReal, h, realOf_finite]⟩

theorem isNaN_of_isFinite (h : x.isFinite = true) : x.isNaN = false := by
  rw [isNaN_iff]
  rintro heq
  exact (heq ▸ isFinite_iff.1 h : IsReal .notANumber)

theorem toEReal_of_isFinite (h : x.isFinite = true) : toEReal x = toReal x := numberOf_of_isReal (isFinite_iff.1 h)

theorem canonical_toModel (x : Float) : Canonical x.toModel.unpack := (canonical_unpack _).1

theorem compare_toEReal (hx : x.isNaN = false) (hy : y.isNaN = false) :
    ∃ o, x.toModel.unpack.compare y.toModel.unpack = some o ∧ o.Compares (toEReal x) (toEReal y) :=
  compare_eq (canonical_toModel x) (canonical_toModel y) (isNaN_iff.1 hx) (isNaN_iff.1 hy)

theorem le_eq : x ≤ y ↔ x.toModel.unpack.le y.toModel.unpack = true := by
  change decide (x.toModel ≤ y.toModel) = true ↔ _
  rw [decide_eq_true_iff]
  exact Iff.rfl

theorem lt_eq : x < y ↔ x.toModel.unpack.lt y.toModel.unpack = true := by
  change decide (x.toModel < y.toModel) = true ↔ _
  rw [decide_eq_true_iff]
  exact Iff.rfl

theorem le_iff (hx : x.isNaN = false) (hy : y.isNaN = false) : x ≤ y ↔ toEReal x ≤ toEReal y := by
  obtain ⟨o, ho, hcompares⟩ := compare_toEReal hx hy
  rw [le_eq, UnpackedFloat.le, ho, ← hcompares.ne_gt]
  cases o <;> simp

theorem lt_iff (hx : x.isNaN = false) (hy : y.isNaN = false) : x < y ↔ toEReal x < toEReal y := by
  obtain ⟨o, ho, hcompares⟩ := compare_toEReal hx hy
  rw [lt_eq, UnpackedFloat.lt, ho, ← hcompares.eq_lt]
  cases o <;> simp

theorem beq_iff (hx : x.isNaN = false) (hy : y.isNaN = false) : (x == y) = true ↔ toEReal x = toEReal y := by
  obtain ⟨o, ho, hcompares⟩ := compare_toEReal hx hy
  change UnpackedFloat.beq _ _ = true ↔ _
  rw [UnpackedFloat.beq, ho, ← hcompares.eq_eq]
  cases o <;> simp

theorem le_iff_toReal (hx : x.isFinite = true) (hy : y.isFinite = true) : x ≤ y ↔ toReal x ≤ toReal y := by
  rw [le_iff (isNaN_of_isFinite hx) (isNaN_of_isFinite hy), toEReal_of_isFinite hx, toEReal_of_isFinite hy,
    EReal.coe_le_coe_iff]

theorem lt_iff_toReal (hx : x.isFinite = true) (hy : y.isFinite = true) : x < y ↔ toReal x < toReal y := by
  rw [lt_iff (isNaN_of_isFinite hx) (isNaN_of_isFinite hy), toEReal_of_isFinite hx, toEReal_of_isFinite hy,
    EReal.coe_lt_coe_iff]

theorem compare_notANumber (f : UnpackedFloat) : UnpackedFloat.compare .notANumber f = none ∧ f.compare .notANumber = none := by
  refine ⟨by cases f <;> rfl, ?_⟩
  cases f with
  | notANumber => rfl
  | infinity s => cases s <;> rfl
  | zero s => cases s <;> rfl
  | finite s m e hm => cases s <;> rfl

theorem isNaN_of_le (h : x ≤ y) : x.isNaN = false ∧ y.isNaN = false := by
  rw [le_eq, UnpackedFloat.le] at h
  rw [isNaN_iff, isNaN_iff]
  constructor <;> intro heq <;> rw [heq] at h
  · rw [(compare_notANumber _).1] at h
    cases h
  · rw [(compare_notANumber _).2] at h
    cases h

theorem isNaN_of_lt (h : x < y) : x.isNaN = false ∧ y.isNaN = false := by
  rw [lt_eq, UnpackedFloat.lt] at h
  rw [isNaN_iff, isNaN_iff]
  constructor <;> intro heq <;> rw [heq] at h
  · rw [(compare_notANumber _).1] at h
    cases h
  · rw [(compare_notANumber _).2] at h
    cases h

/-- `x` is the double nearest to `r`, or the infinity beyond. -/
structure Rounds (x : Float) (r : ℝ) : Prop where
  toEReal_eq : toEReal x = overflow (rnd r)
  isNaN : x.isNaN = false

theorem Correct.rounds {f : UnpackedFloat} (h : Correct f r) : Rounds (.ofModel (.pack f)) r := by
  have hunpack : (Float.ofModel (Float.Model.pack f)).toModel.unpack = clip f := unpack_pack h.canonical
  refine ⟨?_, ?_⟩
  · rw [toEReal, hunpack, h.numberOf_eq]
  · rw [isNaN_iff, hunpack]
    cases f with
    | infinity s => exact h.isReal.elim
    | notANumber => exact h.isReal.elim
    | zero s =>
      intro heq
      cases heq
    | finite s m e hm =>
      rw [clip]
      split <;> intro heq <;> cases heq

theorem add_rounds (hx : x.isFinite = true) (hy : y.isFinite = true) : Rounds (x + y) (toReal x + toReal y) :=
  (correct_add (canonical_toModel x) (isFinite_iff.1 hx) (canonical_toModel y) (isFinite_iff.1 hy)).rounds

theorem sub_rounds (hx : x.isFinite = true) (hy : y.isFinite = true) : Rounds (x - y) (toReal x - toReal y) :=
  (correct_sub (canonical_toModel x) (isFinite_iff.1 hx) (canonical_toModel y) (isFinite_iff.1 hy)).rounds

theorem mul_rounds (hx : x.isFinite = true) (hy : y.isFinite = true) : Rounds (x * y) (toReal x * toReal y) :=
  (correct_mul (canonical_toModel x) (isFinite_iff.1 hx) (canonical_toModel y) (isFinite_iff.1 hy)).rounds

theorem div_rounds (hx : x.isFinite = true) (hy : y.isFinite = true) (h0 : toReal y ≠ 0) :
    Rounds (x / y) (toReal x / toReal y) :=
  (correct_div (isFinite_iff.1 hx) (isFinite_iff.1 hy) h0).rounds

theorem sqrt_rounds (hx : x.isFinite = true) (h0 : 0 ≤ toReal x) : Rounds x.sqrt (Real.sqrt (toReal x)) :=
  (correct_sqrt (isFinite_iff.1 hx) h0).rounds

/-- Short of the largest double nothing overflows. -/
theorem Rounds.finite (h : Rounds x r) (hr : |rnd r| < huge) : x.isFinite = true ∧ toReal x = rnd r := by
  have heq := h.toEReal_eq
  have hnan := isNaN_iff.1 h.isNaN
  rw [overflow_of_abs_lt hr] at heq
  have hfinite : x.isFinite = true := by
    rw [isFinite_iff]
    rw [toEReal] at heq
    generalize x.toModel.unpack = f at heq hnan
    cases f with
    | notANumber => exact absurd rfl hnan
    | infinity s => cases s <;> simp [numberOf] at heq
    | zero s => trivial
    | finite s m e hm => trivial
  rw [toEReal_of_isFinite hfinite] at heq
  exact ⟨hfinite, EReal.coe_injective heq⟩

theorem rounds_mono (h : Rounds x r) (h' : Rounds y r') (hr : r ≤ r') : x ≤ y := by
  rw [le_iff h.isNaN h'.isNaN, h.toEReal_eq, h'.toEReal_eq]
  exact overflow_mono (rnd_mono hr)

/-- Every double is the one nearest to itself. -/
theorem rounds_toReal (h : x.isFinite = true) : Rounds x (toReal x) := by
  have hself := (Correct.self (canonical_toModel x) (isFinite_iff.1 h)).numberOf_eq
  rw [show clip x.toModel.unpack = x.toModel.unpack from (canonical_unpack _).2] at hself
  exact ⟨hself, isNaN_of_isFinite h⟩

theorem toReal_ofNat {n : ℕ} (h : n < 2 ^ 53) : (Float.ofNat n).isFinite = true ∧ toReal (Float.ofNat n) = n := by
  have hsmall : |rnd (n : ℝ)| < huge := by
    rw [rnd_natCast h, abs_of_nonneg n.cast_nonneg]
    have hplaces := places_lt_huge (e := 0) h (by decide)
    rwa [zpow_zero, mul_one] at hplaces
  have hword : Rounds n.toUInt64.toFloat n := by
    have hto : n.toUInt64.toNat = n := by
      rw [Nat.toUInt64, UInt64.toNat_ofNat', Nat.mod_eq_of_lt (by omega)]
    have hcorrect : Rounds n.toUInt64.toFloat (n.toUInt64.toNat : ℝ) := (correct_ofNat _).rounds
    rwa [hto] at hcorrect
  obtain ⟨hfinite, hreal⟩ := hword.finite hsmall
  have hunit : (Float.ofBits 0x3ff0000000000000).toModel.unpack = .finite .positive (2 ^ 52) (-52) (by decide) := rfl
  have hone : toReal (Float.ofBits 0x3ff0000000000000) = 1 := by
    rw [toReal, hunit, realOf]
    simp only [Sign.apply]
    norm_num
  have hproduct := mul_rounds hfinite (isFinite_iff.2 (by rw [hunit]; trivial))
  rw [hreal, hone, mul_one, rnd_natCast h] at hproduct
  have hof : Float.ofNat n = n.toUInt64.toFloat * Float.ofBits 0x3ff0000000000000 := by
    rw [Float.ofNat]
    change Float.ofScientific n false 0 = _
    rw [Float.ofScientific, dif_pos ⟨h, by decide⟩]
    rfl
  rw [hof]
  exact (hproduct.finite hsmall).imp_right (·.trans (rnd_natCast h))

/-! ### Signs -/

theorem toEReal_zero : toEReal 0 = 0 := by
  have hzero : (0 : Float).toModel.unpack = .zero .positive := rfl
  rw [toEReal, hzero]
  rfl

theorem toReal_zero : toReal 0 = 0 := rfl

theorem isNaN_zero : (0 : Float).isNaN = false := rfl

theorem toReal_nonneg (hx : x.isFinite = true) (h : 0 ≤ x) : 0 ≤ toReal x := by
  rwa [le_iff_toReal rfl hx, toReal_zero] at h

theorem toReal_pos (hx : x.isFinite = true) (h : 0 < x) : 0 < toReal x := by
  rwa [lt_iff_toReal rfl hx, toReal_zero] at h

theorem toReal_neg (hx : x.isFinite = true) (h : x < 0) : toReal x < 0 := by
  rwa [lt_iff_toReal hx rfl, toReal_zero] at h

theorem toEReal_of_unpack {f : UnpackedFloat} (h : x.toModel.unpack = f) : toEReal x = numberOf f := by
  rw [toEReal, h]

/-- A root is not negative. -/
theorem sqrt_nonneg (h : x.sqrt.isNaN = false) : 0 ≤ x.sqrt := by
  have hdatum : x.sqrt.toModel.unpack = UnpackedFloat.unpack Format.binary64
      (UnpackedFloat.pack Format.binary64 (UnpackedFloat.sqrt Format.binary64 x.toModel.unpack)) := rfl
  have hnan : x.sqrt.toModel.unpack ≠ .notANumber := isNaN_iff.1 h
  rw [le_iff isNaN_zero h, toEReal_zero]
  cases hx : x.toModel.unpack with
  | notANumber =>
    rw [hx] at hdatum
    exact absurd (hdatum.trans (unpack_pack (f := .notANumber) trivial)) hnan
  | infinity s =>
    rw [hx] at hdatum
    cases s with
    | negative => exact absurd (hdatum.trans (unpack_pack (f := .notANumber) trivial)) hnan
    | positive =>
      rw [toEReal_of_unpack (hdatum.trans (unpack_pack (f := .infinity .positive) trivial))]
      exact le_top
  | zero s =>
    have hreal : toReal x = 0 := by rw [toReal, hx]; rfl
    have hfinite : x.isFinite = true := isFinite_iff.2 (by rw [hx]; trivial)
    rw [(sqrt_rounds hfinite hreal.ge).toEReal_eq]
    exact overflow_nonneg (Real.sqrt_nonneg _)
  | finite s m e hm =>
    have hfinite : x.isFinite = true := isFinite_iff.2 (by rw [hx]; trivial)
    cases s with
    | negative =>
      rw [hx] at hdatum
      exact absurd (hdatum.trans (unpack_pack (f := .notANumber) trivial)) hnan
    | positive =>
      have hreal : 0 ≤ toReal x := by
        rw [toReal, hx, realOf_finite]
        exact (places_pos hm e).le
      rw [(sqrt_rounds hfinite hreal).toEReal_eq]
      exact overflow_nonneg (Real.sqrt_nonneg _)

/-! ### Quotients -/

theorem unpack_div (x m : Float) : (x / m).toModel.unpack = UnpackedFloat.unpack Format.binary64
    (UnpackedFloat.pack Format.binary64 (UnpackedFloat.div Format.binary64 x.toModel.unpack m.toModel.unpack)) := rfl

variable {t x x' m : Float}

/-- What is divided by no finite number leaves nothing. -/
theorem div_infinite (hm : m.isFinite = false) (h : (x / m).isNaN = false) : toEReal (x / m) = 0 := by
  have hdatum := unpack_div x m
  have hnan : (x / m).toModel.unpack ≠ .notANumber := isNaN_iff.1 h
  have hm' : ¬ IsReal m.toModel.unpack := fun hreal => by simp [isFinite_iff.2 hreal] at hm
  generalize m.toModel.unpack = g at hdatum hm'
  generalize x.toModel.unpack = f at hdatum
  have hnothing : UnpackedFloat.unpack Format.binary64 (UnpackedFloat.pack Format.binary64 .notANumber) = .notANumber :=
    unpack_pack (f := .notANumber) trivial
  cases g with
  | zero s' => exact absurd trivial hm'
  | finite s' m' e' h' => exact absurd trivial hm'
  | notANumber => cases f <;> exact absurd (hdatum.trans hnothing) hnan
  | infinity s' =>
    cases f with
    | notANumber => exact absurd (hdatum.trans hnothing) hnan
    | infinity s => exact absurd (hdatum.trans hnothing) hnan
    | zero s => exact toEReal_of_unpack (hdatum.trans (unpack_pack (f := .zero (s / s')) trivial))
    | finite s k e hk => exact toEReal_of_unpack (hdatum.trans (unpack_pack (f := .zero (s / s')) trivial))

/-- What is not finite and not negative is positive infinity. -/
theorem unpack_of_nonneg (hx : 0 ≤ x) (h : x.isFinite = false) : x.toModel.unpack = .infinity .positive := by
  have hnan := (isNaN_of_le hx).2
  rw [le_iff isNaN_zero hnan, toEReal_zero, toEReal] at hx
  rw [isNaN_iff] at hnan
  have hreal : ¬ IsReal x.toModel.unpack := fun hreal => by simp [isFinite_iff.2 hreal] at h
  generalize x.toModel.unpack = f at hx hnan hreal
  cases f with
  | notANumber => exact absurd rfl hnan
  | zero s => exact absurd trivial hreal
  | finite s m e hm => exact absurd trivial hreal
  | infinity s =>
    cases s with
    | negative => exact absurd hx (not_le.2 EReal.bot_lt_zero)
    | positive => rfl

theorem infinite_div (hx : x.toModel.unpack = .infinity .positive) (hm : m.isFinite = true) :
    (0 < toReal m → (x / m).toModel.unpack = .infinity .positive) ∧
      (toReal m < 0 → (x / m).toModel.unpack = .infinity .negative) := by
  have hdatum := unpack_div x m
  have hreal := isFinite_iff.1 hm
  rw [hx] at hdatum
  rw [toReal]
  generalize m.toModel.unpack = g at hdatum hreal
  cases g with
  | infinity s => exact hreal.elim
  | notANumber => exact hreal.elim
  | zero s => exact ⟨fun h => absurd h (lt_irrefl 0), fun h => absurd h (lt_irrefl 0)⟩
  | finite s k e hk =>
    have hpos := places_pos hk e
    have hsigned := realOf_finite s k e hk
    cases s with
    | negative =>
      refine ⟨fun h => ?_, fun _ => hdatum.trans (unpack_pack (f := .infinity .negative) trivial)⟩
      rw [hsigned] at h
      exact absurd h (not_lt.2 (neg_nonpos.2 hpos.le))
    | positive =>
      refine ⟨fun _ => hdatum.trans (unpack_pack (f := .infinity .positive) trivial), fun h => ?_⟩
      rw [hsigned] at h
      exact absurd h (not_lt.2 hpos.le)

theorem not_le_of_nonpos (ht : 0 < t) (h : toEReal x ≤ 0) : ¬ t ≤ x := by
  intro hle
  obtain ⟨htnan, hxnan⟩ := isNaN_of_le hle
  rw [le_iff htnan hxnan] at hle
  rw [lt_iff isNaN_zero htnan, toEReal_zero] at ht
  exact absurd (ht.trans_le (hle.trans h)) (lt_irrefl 0)

/-- A quotient by a negative number is below every positive one. -/
theorem not_le_div (ht : 0 < t) (hx : x.isNaN = false → 0 ≤ x) (hm : m < 0) : ¬ t ≤ x / m := by
  intro hle
  have hnan := (isNaN_of_le hle).2
  by_cases hmfin : m.isFinite = true
  case neg => exact not_le_of_nonpos ht (div_infinite (by simpa using hmfin) hnan).le hle
  case pos =>
    have hneg := toReal_neg hmfin hm
    by_cases hxnan : x.isNaN = false
    case neg =>
      have hx' : x.toModel.unpack = .notANumber := by
        by_contra h
        exact hxnan (isNaN_iff.2 h)
      have hdatum := unpack_div x m
      rw [hx'] at hdatum
      exact isNaN_iff.1 hnan (hdatum.trans (unpack_pack (f := .notANumber) trivial))
    case pos =>
      have h0 := hx hxnan
      by_cases hxfin : x.isFinite = true
      case pos =>
        refine not_le_of_nonpos ht ?_ hle
        rw [(div_rounds hxfin hmfin hneg.ne).toEReal_eq]
        exact overflow_nonpos (div_nonpos_of_nonneg_of_nonpos (toReal_nonneg hxfin h0) hneg.le)
      case neg =>
        refine not_le_of_nonpos ht ?_ hle
        rw [toEReal_of_unpack ((infinite_div (unpack_of_nonneg h0 (by simpa using hxfin)) hmfin).2 hneg)]
        exact bot_le

/-- What a quotient reaches, that of a greater number by the same divisor reaches too. -/
theorem le_div_mono (ht : 0 < t) (hx : 0 ≤ x) (hle : x ≤ x') (hm : (m == 0) = false) (h : t ≤ x / m) : t ≤ x' / m := by
  obtain ⟨htnan, hnan⟩ := isNaN_of_le h
  obtain ⟨hxnan, hx'nan⟩ := isNaN_of_le hle
  by_cases hmfin : m.isFinite = true
  case neg => exact absurd h (not_le_of_nonpos ht (div_infinite (by simpa using hmfin) hnan).le)
  case pos =>
    have hmnan := isNaN_of_isFinite hmfin
    have hne : toReal m ≠ 0 := by
      intro h0
      have heq := (beq_iff hmnan isNaN_zero).2 (by rw [toEReal_of_isFinite hmfin, h0, toEReal_zero]; rfl)
      rw [heq] at hm
      cases hm
    have hpos : 0 < toReal m := by
      refine lt_of_le_of_ne (not_lt.1 fun hneg => ?_) hne.symm
      have hlt : m < 0 := (lt_iff hmnan isNaN_zero).2 (by
        rw [toEReal_of_isFinite hmfin, toEReal_zero]
        exact_mod_cast hneg)
      exact not_le_div ht (fun _ => hx) hlt h
    have hx' : 0 ≤ x' := by
      rw [le_iff isNaN_zero hxnan] at hx
      rw [le_iff hxnan hx'nan] at hle
      exact (le_iff isNaN_zero hx'nan).2 (hx.trans hle)
    by_cases hx'fin : x'.isFinite = true
    case neg =>
      have hinf := (infinite_div (unpack_of_nonneg hx' (by simpa using hx'fin)) hmfin).1 hpos
      rw [le_iff htnan (isNaN_iff.2 (by rw [hinf]; exact nofun)), toEReal_of_unpack hinf]
      exact le_top
    case pos =>
      by_cases hxfin : x.isFinite = true
      case neg =>
        have hinf := unpack_of_nonneg hx (by simpa using hxfin)
        rw [le_iff hxnan hx'nan, toEReal_of_unpack hinf, toEReal_of_isFinite hx'fin] at hle
        exact absurd hle (not_le.2 (EReal.coe_lt_top _))
      case pos =>
        have hreal : toReal x ≤ toReal x' := by
          rw [le_iff hxnan hx'nan, toEReal_of_isFinite hxfin, toEReal_of_isFinite hx'fin] at hle
          exact_mod_cast hle
        have hquotients := rounds_mono (div_rounds hxfin hmfin hne) (div_rounds hx'fin hmfin hne)
          (div_le_div_of_nonneg_right hreal hpos.le)
        obtain ⟨-, hnan'⟩ := isNaN_of_le hquotients
        rw [le_iff htnan hnan] at h
        rw [le_iff hnan hnan'] at hquotients
        exact (le_iff htnan hnan').2 (h.trans hquotients)

/-! ### Errors -/

/-- `x` is finite, and off `r` by `δ` at most. -/
structure Near (x : Float) (r δ : ℝ) : Prop where
  isFinite : x.isFinite = true
  error : |toReal x - r| ≤ δ

theorem near_self (h : x.isFinite = true) : Near x (toReal x) 0 := ⟨h, by rw [sub_self, abs_zero]⟩

theorem Near.weaken {δ δ' : ℝ} (h : Near x r δ) (hδ : δ ≤ δ') : Near x r δ' := ⟨h.isFinite, h.error.trans hδ⟩

theorem Near.abs_le {δ B : ℝ} (h : Near x r δ) (hr : |r| ≤ B) : |toReal x| ≤ B + δ := by
  linarith [h.error, abs_sub_abs_le_abs_sub (toReal x) r]

theorem tiny_le_eps_mul {B : ℝ} (hB : 1 ≤ B) : tiny ≤ eps * B := by
  have hone : eps * 2⁻¹ ^ 200 ≤ eps * B := mul_le_mul_of_nonneg_left (le_trans (by norm_num) hB) eps_pos.le
  exact tiny_le.trans hone

theorem Rounds.finite_of_le (h : Rounds x r) (hr : |r| ≤ 2 ^ 250) : x.isFinite = true ∧ toReal x = rnd r :=
  h.finite (abs_rnd_lt_huge hr)

/-- What rounding adds to the error of an exact result of moderate size. -/
theorem Rounds.near {s α B : ℝ} (h : Rounds x r) (hs : |r - s| ≤ α) (hr : |r| ≤ B) (hB : 1 ≤ B) (hlarge : B ≤ 2 ^ 250) :
    Near x s (α + 2 * eps * B) := by
  obtain ⟨hfinite, hreal⟩ := h.finite_of_le (hr.trans hlarge)
  refine ⟨hfinite, ?_⟩
  have hround := abs_rnd_sub_le r
  have hscale := mul_le_mul_of_nonneg_left hr eps_pos.le
  have htriangle := abs_sub_le (toReal x) r s
  rw [← hreal] at hround
  linarith [tiny_le_eps_mul hB]

/-- One more term of a running sum that stays within `C`. -/
theorem near_add_term {acc : Float} {s t δ C : ℝ} {k : ℕ} (hC : 1 ≤ C) (hlarge : C ≤ 2 ^ 240)
    (hsmall : (k + 1) * (δ + 4 * eps * C) ≤ C) (hexact : |s + t| ≤ C) (hacc : Near acc s (k * (δ + 4 * eps * C)))
    (hx : Near x t δ) : Near (acc + x) (s + t) ((k + 1 : ℕ) * (δ + 4 * eps * C)) ∧
      (0 ≤ toReal acc → 0 ≤ toReal x → 0 ≤ toReal (acc + x)) := by
  have hE : 0 ≤ eps * C := mul_nonneg eps_pos.le (by linarith)
  -- the sum of what was rounded so far, and its distance from the exact one
  have hsum : |toReal acc + toReal x - (s + t)| ≤ k * (δ + 4 * eps * C) + δ := by
    have h := abs_add_le (toReal acc - s) (toReal x - t)
    rw [show toReal acc - s + (toReal x - t) = toReal acc + toReal x - (s + t) by ring] at h
    linarith [hacc.error, hx.error]
  have hbound : |toReal acc + toReal x| ≤ 2 * C := by
    linarith [abs_sub_abs_le_abs_sub (toReal acc + toReal x) (s + t)]
  have hrounds := add_rounds hacc.isFinite hx.isFinite
  refine ⟨(hrounds.near hsum hbound (by linarith) (by linarith)).weaken (le_of_eq ?_), fun hacc0 hx0 => ?_⟩
  · push_cast
    ring
  · rw [(hrounds.finite_of_le (hbound.trans (by linarith))).2]
    exact rnd_nonneg (add_nonneg hacc0 hx0)

/-- A running sum of up to `N` terms, each of them at most `B` and off by `δ`. -/
theorem foldl_add_near {ι : Type*} (f : ι → Float) (φ : ι → ℝ) (δ : ℝ) {B : ℝ} {N : ℕ} (hB : 1 ≤ B)
    (hsmall : δ + 4 * eps * (N * B) ≤ B) (hlarge : N * B ≤ 2 ^ 240) (xs : List ι) (hf : ∀ a ∈ xs, Near (f a) (φ a) δ)
    (hφ : ∀ a ∈ xs, |φ a| ≤ B) {acc : Float} {k : ℕ} (hk : k + xs.length ≤ N) {s : ℝ} (hs : |s| ≤ k * B)
    (hacc : Near acc s (k * (δ + 4 * eps * (N * B)))) :
    Near (xs.foldl (fun s a => s + f a) acc) (s + (xs.map φ).sum) ((k + xs.length : ℕ) * (δ + 4 * eps * (N * B))) ∧
      (0 ≤ toReal acc → (∀ a ∈ xs, 0 ≤ toReal (f a)) → 0 ≤ toReal (xs.foldl (fun s a => s + f a) acc)) := by
  induction xs generalizing acc k s with
  | nil => exact ⟨by simpa using hacc, fun h _ => h⟩
  | cons a xs ih =>
    rw [List.length_cons] at hk
    have hkN : (k : ℝ) + 1 ≤ N := by exact_mod_cast (by omega : k + 1 ≤ N)
    have hkB : (k + 1) * B ≤ N * B := mul_le_mul_of_nonneg_right hkN (one_pos.le.trans hB)
    have hk0 : 0 ≤ k * B := mul_nonneg k.cast_nonneg (one_pos.le.trans hB)
    have hkE : ((k : ℝ) + 1) * (δ + 4 * eps * (N * B)) ≤ (k + 1) * B :=
      mul_le_mul_of_nonneg_left hsmall k.cast_add_one_pos.le
    have hexact : |s + φ a| ≤ (k + 1) * B := (abs_add_le s (φ a)).trans (by linarith [hφ a List.mem_cons_self])
    obtain ⟨hnear, hstep⟩ :=
      near_add_term (by linarith) hlarge (hkE.trans hkB) (hexact.trans hkB) hacc (hf a List.mem_cons_self)
    obtain ⟨hrest, hnonneg⟩ := ih (fun b hb => hf b (List.mem_cons_of_mem a hb)) (fun b hb => hφ b (List.mem_cons_of_mem a hb))
      (by omega : k + 1 + xs.length ≤ N) (by push_cast; exact hexact) hnear
    refine ⟨?_, fun h0 hall => hnonneg (hstep h0 (hall a List.mem_cons_self)) fun b hb => hall b (List.mem_cons_of_mem a hb)⟩
    rw [List.map_cons, List.sum_cons, ← add_assoc, List.length_cons, show k + (xs.length + 1) = k + 1 + xs.length by omega]
    exact hrest

end Binary64
