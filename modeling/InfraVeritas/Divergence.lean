import InfraVeritas.Spread

/-!
# The status of the ensemble

The code compares the deviation, divided by the median, with a threshold, all of it in doubles. Meant is the deviation in
proportion to the size of the median, of the numbers as they are (`Agree`). The two part where the median is negative, and where
rounding carries the quotient across the threshold (`classify_status_iff`).
-/

namespace InfraVeritas
open Dispersion OrderStatistics Binary64 Validation

namespace Weather

/-- The irradiances as the numbers they are. -/
noncomputable def numbers {T : Type} (validPoints : List (IrradiancePoint T Float)) : List ℝ :=
  validPoints.map fun p => toReal p.ghi

namespace EnsembleProvider
variable {T : Type} {e : EnsembleProvider T Float} {validPoints : List (IrradiancePoint T Float)}
  {perProvider perProvider' : List (ProviderResult T Float)} {median stdDev stdDev' : Float}

/-- The deviation is below the threshold for the median, in proportion to its size or at night. -/
def Agree (e : EnsembleProvider T Float) (validPoints : List (IrradiancePoint T Float)) : Prop :=
  if OrderStatistics.median (numbers validPoints) = 0 then
    (populationStdDev (numbers validPoints) : EReal) < toEReal e.nightStdThreshold
  else (populationStdDev (numbers validPoints) : EReal) <
    toEReal e.divergenceThreshold * |OrderStatistics.median (numbers validPoints)|

/-- The median and the deviation in doubles. -/
def roundedMedian (validPoints : List (IrradiancePoint T Float)) : Float := computeMedian (sortAsc (validPoints.map (·.ghi)))

def roundedStdDev (validPoints : List (IrradiancePoint T Float)) : Float :=
  computeStdDev Float.sqrt (sortAsc (validPoints.map (·.ghi)))

/-- The threshold is reached in doubles. -/
def Reached (e : EnsembleProvider T Float) (median stdDev : Float) : Prop :=
  if median == 0 then e.nightStdThreshold ≤ stdDev else e.divergenceThreshold ≤ stdDev / median

theorem classify_status (h : 2 ≤ validPoints.length) : (e.classify Float.sqrt validPoints perProvider).status =
    e.spreadStatus (roundedMedian validPoints) (roundedStdDev validPoints) := by
  rw [classify_of_two_le h]
  rfl

theorem spreadStatus_iff (e : EnsembleProvider T Float) (median stdDev : Float) :
    (e.spreadStatus median stdDev = .divergent ↔ Reached e median stdDev) ∧
      (e.spreadStatus median stdDev = .ok ↔ ¬ Reached e median stdDev) := by
  rw [spreadStatus, Reached]
  split
  case isTrue hm => split <;> simp_all
  case isFalse hm => split <;> simp_all

theorem beq_zero_of_neg (h : median < 0) : (median == 0) = false := by
  by_contra heq
  rw [Bool.not_eq_false] at heq
  obtain ⟨hnan, -⟩ := isNaN_of_lt h
  rw [beq_iff hnan isNaN_zero] at heq
  rw [lt_iff hnan isNaN_zero, heq] at h
  exact lt_irrefl _ h

/-- The deviation is a root. -/
theorem computeStdDev_nonneg {values : List Float} (h : 2 ≤ values.length)
    (hnan : (computeStdDev Float.sqrt values).isNaN = false) : 0 ≤ computeStdDev Float.sqrt values := by
  rw [computeStdDev, if_neg (by omega)] at hnan ⊢
  exact sqrt_nonneg hnan

theorem roundedStdDev_nonneg (h : 2 ≤ validPoints.length) (hnan : (roundedStdDev validPoints).isNaN = false) :
    0 ≤ roundedStdDev validPoints :=
  computeStdDev_nonneg (by rwa [length_sortAsc, List.length_map]) hnan

/-- A negative median makes the quotient negative. -/
theorem not_reached_of_neg (hd : 0 < e.divergenceThreshold) (hm : median < 0) (hs : stdDev.isNaN = false → 0 ≤ stdDev) :
    ¬ Reached e median stdDev := by
  rw [Reached, beq_zero_of_neg hm, if_neg Bool.false_ne_true]
  exact not_le_div hd hs hm

/-- By the same median, what a deviation reaches a greater one reaches too. -/
theorem reached_mono (hd : 0 < e.divergenceThreshold) (hs : 0 ≤ stdDev) (hle : stdDev ≤ stdDev') (hm : (median == 0) = false)
    (h : Reached e median stdDev) : Reached e median stdDev' := by
  rw [Reached, hm, if_neg Bool.false_ne_true] at h ⊢
  exact le_div_mono hd hs hle hm h

/-! ### Beyond the reach of rounding -/

section Margin
variable {ν M T m m' S V : ℝ}

theorem two_eps_mul_sq_le (hν : 2 * eps ≤ ν) (hm : 0 < m) (hM : m ≤ M) : 2 * (eps * (T * m) ^ 2) ≤ ν * (T ^ 2 * M ^ 2) := by
  have hM2 : m ^ 2 ≤ M ^ 2 := pow_le_pow_left₀ hm.le hM 2
  have hν0 : 0 ≤ ν := (mul_pos two_pos eps_pos).le.trans hν
  rw [mul_pow, ← mul_assoc]
  exact mul_le_mul hν (mul_le_mul_of_nonneg_left hM2 (sq_nonneg T)) (by positivity) hν0

/-- A deviation well above the limit is not below the threshold, multiplied out, by the computed median either. -/
theorem le_of_above (hν : 2 * eps ≤ ν) (hm : 0 < m) (hM : m ≤ M) (hT : 0 ≤ T) (hm' : 0 ≤ m') (hmedian : |m' - m| ≤ 3 * (eps * m))
    (hS : 0 ≤ S) (herror : |S ^ 2 - V| ≤ 96 * (ν * M ^ 2)) (habove : (T * m) ^ 2 + 128 * (ν * ((1 + T ^ 2) * M ^ 2)) < V) :
    T * m' ≤ S := by
  have hε := eps_pos
  have hε' : 9 * eps ≤ 1 := by linarith [eps_le]
  have hmedian' : m' ≤ m * (1 + 3 * eps) := by linarith [(abs_le.1 hmedian).2]
  have hsquare : (T * m') ^ 2 ≤ (T * m) ^ 2 + 7 * (eps * (T * m) ^ 2) := by
    calc (T * m') ^ 2 ≤ (T * (m * (1 + 3 * eps))) ^ 2 :=
          pow_le_pow_left₀ (mul_nonneg hT hm') (mul_le_mul_of_nonneg_left hmedian' hT) 2
      _ = (T * m) ^ 2 + (6 * eps + 9 * eps * eps) * (T * m) ^ 2 := by ring
      _ ≤ (T * m) ^ 2 + 7 * eps * (T * m) ^ 2 := by
          have hcoeff : 6 * eps + 9 * eps * eps ≤ 7 * eps := by nlinarith
          linarith [mul_le_mul_of_nonneg_right hcoeff (sq_nonneg (T * m))]
      _ = (T * m) ^ 2 + 7 * (eps * (T * m) ^ 2) := by ring
  have hscale := two_eps_mul_sq_le (T := T) hν hm hM
  have hrest : 0 ≤ ν * M ^ 2 := mul_nonneg (by linarith) (sq_nonneg M)
  refine (pow_le_pow_iff_left₀ (mul_nonneg hT hm') hS two_ne_zero).1 ?_
  linarith [(abs_le.1 herror).1, mul_nonneg hε.le (sq_nonneg (T * m))]

/-- A deviation well below the limit stays below it after the rounding of the quotient. -/
theorem lt_of_below (hν : 2 * eps ≤ ν) (hm : 0 < m) (hM : m ≤ M) (hT : 0 ≤ T) (hmedian : |m' - m| ≤ 3 * (eps * m))
    (hS : 0 ≤ S) (herror : |S ^ 2 - V| ≤ 96 * (ν * M ^ 2)) (hbelow : V + 128 * (ν * ((1 + T ^ 2) * M ^ 2)) < (T * m) ^ 2) :
    S * (1 + eps) < T * (1 - eps) * m' := by
  have hε := eps_pos
  have hε' : 8 * eps ≤ 1 := by linarith [eps_le]
  have hscale := two_eps_mul_sq_le (T := T) hν hm hM
  have hrest : 0 ≤ ν * M ^ 2 := mul_nonneg (by linarith) (sq_nonneg M)
  have hTm : 0 ≤ T * m := mul_nonneg hT hm.le
  have hlower : T * m * (1 - 4 * eps) ≤ T * (1 - eps) * m' := by
    have hmedian' : m * (1 - 3 * eps) ≤ m' := by linarith [(abs_le.1 hmedian).1]
    calc T * m * (1 - 4 * eps) ≤ T * (1 - eps) * (m * (1 - 3 * eps)) := by nlinarith [mul_nonneg hTm (mul_nonneg hε.le hε.le)]
      _ ≤ T * (1 - eps) * m' := mul_le_mul_of_nonneg_left hmedian' (mul_nonneg hT (by linarith))
  refine lt_of_lt_of_le ?_ hlower
  refine (pow_lt_pow_iff_left₀ (mul_nonneg hS (by linarith)) (mul_nonneg hTm (by linarith)) two_ne_zero).1 ?_
  have hsquare : S ^ 2 < (T * m) ^ 2 - 128 * (ν * (T ^ 2 * M ^ 2)) := by linarith [(abs_le.1 herror).2]
  have hsmall : S ^ 2 ≤ (T * m) ^ 2 := by linarith [mul_nonneg hε.le (sq_nonneg (T * m))]
  calc (S * (1 + eps)) ^ 2 = S ^ 2 + (2 * eps + eps * eps) * S ^ 2 := by ring
    _ ≤ S ^ 2 + 3 * eps * S ^ 2 := by
        have hcoeff : 2 * eps + eps * eps ≤ 3 * eps := by nlinarith
        linarith [mul_le_mul_of_nonneg_right hcoeff (sq_nonneg S)]
    _ ≤ S ^ 2 + 3 * eps * (T * m) ^ 2 := by linarith [mul_le_mul_of_nonneg_left hsmall (by linarith : 0 ≤ 3 * eps)]
    _ < (T * m) ^ 2 - 8 * eps * (T * m) ^ 2 := by linarith [mul_nonneg hε.le (sq_nonneg (T * m))]
    _ ≤ (T * m * (1 - 4 * eps)) ^ 2 := by nlinarith [mul_nonneg (mul_nonneg hε.le hε.le) (sq_nonneg (T * m))]

end Margin

/-- What the deviation is held against. -/
noncomputable def limit (e : EnsembleProvider T Float) (validPoints : List (IrradiancePoint T Float)) : ℝ :=
  if OrderStatistics.median (numbers validPoints) = 0 then toReal e.nightStdThreshold
  else toReal e.divergenceThreshold * |OrderStatistics.median (numbers validPoints)|

/-- How far rounding reaches, for numbers within `M`. -/
noncomputable def margin (e : EnsembleProvider T Float) (validPoints : List (IrradiancePoint T Float)) (M : ℝ) : ℝ :=
  (128 : Nat) * (slack (validPoints.map (·.ghi)) * ((1 + toReal e.divergenceThreshold ^ 2) * M ^ 2))

/-- Numbers of ordinary size, with a deviation further from the limit than rounding reaches. -/
structure Clear (e : EnsembleProvider T Float) (validPoints : List (IrradiancePoint T Float)) (M : ℝ) : Prop where
  moderate : Moderate (validPoints.map (·.ghi)) M
  median : OrderStatistics.median (numbers validPoints) = 0 ∨ 2⁻¹ ^ 100 ≤ |OrderStatistics.median (numbers validPoints)|
  nightStdThreshold : e.nightStdThreshold.isFinite = true
  divergenceThreshold : e.divergenceThreshold.isFinite = true
  threshold_ge : 2⁻¹ ^ 100 ≤ toReal e.divergenceThreshold
  apart : margin e validPoints M < |populationStdDev (numbers validPoints) ^ 2 - limit e validPoints ^ 2|

variable {M : ℝ}

theorem numbers_eq (validPoints : List (IrradiancePoint T Float)) : numbers validPoints = (validPoints.map (·.ghi)).map toReal := by
  rw [numbers, List.map_map]
  rfl

theorem agree_iff_lt_limit (hn : e.nightStdThreshold.isFinite = true) (hd : e.divergenceThreshold.isFinite = true) :
    Agree e validPoints ↔ populationStdDev (numbers validPoints) < limit e validPoints := by
  rw [Agree, limit, toEReal_of_isFinite hn, toEReal_of_isFinite hd]
  split
  case isTrue => exact EReal.coe_lt_coe_iff
  case isFalse => rw [← EReal.coe_mul, EReal.coe_lt_coe_iff]

theorem limit_pos (h : Clear e validPoints M) (hn : 0 < e.nightStdThreshold) : 0 < limit e validPoints := by
  rw [limit]
  split
  case isTrue => exact toReal_pos h.nightStdThreshold hn
  case isFalse hm => exact mul_pos (lt_of_lt_of_le (by norm_num) h.threshold_ge) (abs_pos.2 hm)

theorem agree_iff_sq_lt (h : Clear e validPoints M) (hn : 0 < e.nightStdThreshold) :
    Agree e validPoints ↔ populationStdDev (numbers validPoints) ^ 2 < limit e validPoints ^ 2 := by
  rw [agree_iff_lt_limit h.nightStdThreshold h.divergenceThreshold,
    pow_lt_pow_iff_left₀ (populationStdDev_nonneg _) (limit_pos h hn).le two_ne_zero]

/-- The computed deviation, squared, is within three quarters of the margin. -/
theorem roundedStdDev_error (h : Clear e validPoints M) :
    (roundedStdDev validPoints).isFinite = true ∧ 0 ≤ toReal (roundedStdDev validPoints) ∧
      toReal (roundedStdDev validPoints) ≤ 4 * M ∧
      |toReal (roundedStdDev validPoints) ^ 2 - populationStdDev (numbers validPoints) ^ 2| ≤
        96 * (slack (validPoints.map (·.ghi)) * M ^ 2) := by
  have hperm := sortAsc_perm (validPoints.map (·.ghi))
  have herror := computeStdDev_error (h.moderate.of_perm hperm)
  rw [sumSq_perm (hperm.map toReal), hperm.length_eq, slack, hperm.length_eq, ← slack] at herror
  rwa [populationStdDev, Real.sq_sqrt (div_nonneg (sumSq_nonneg _) (Nat.cast_nonneg _)), numbers_eq, List.length_map]

theorem roundedMedian_error (h : Clear e validPoints M) :
    (roundedMedian validPoints).isFinite = true ∧
      (OrderStatistics.median (numbers validPoints) = 0 → toReal (roundedMedian validPoints) = 0) ∧
      (OrderStatistics.median (numbers validPoints) ≠ 0 →
        |toReal (roundedMedian validPoints) - OrderStatistics.median (numbers validPoints)| ≤
          3 * (eps * |OrderStatistics.median (numbers validPoints)|)) := by
  have hmedian := h.median
  rw [numbers_eq] at hmedian ⊢
  obtain ⟨hfinite, hzero, herror⟩ := computeMedian_error h.moderate
  exact ⟨hfinite, hzero, fun hne => herror (hmedian.resolve_left hne)⟩

/-- The computed median has the sign of the exact one. -/
theorem roundedMedian_sign (h : Clear e validPoints M) :
    (toReal (roundedMedian validPoints) = 0 ↔ OrderStatistics.median (numbers validPoints) = 0) ∧
      (0 < OrderStatistics.median (numbers validPoints) → 0 < toReal (roundedMedian validPoints)) ∧
      (OrderStatistics.median (numbers validPoints) < 0 → toReal (roundedMedian validPoints) < 0) := by
  obtain ⟨-, hzero, herror⟩ := roundedMedian_error h
  have hnear (hne : OrderStatistics.median (numbers validPoints) ≠ 0) :
      |toReal (roundedMedian validPoints) - OrderStatistics.median (numbers validPoints)| <
        |OrderStatistics.median (numbers validPoints)| := by
    have hpos := abs_pos.2 hne
    have heps := mul_le_mul_of_nonneg_right eps_le hpos.le
    linarith [herror hne]
  have hpos (hm : 0 < OrderStatistics.median (numbers validPoints)) : 0 < toReal (roundedMedian validPoints) := by
    have h := hnear hm.ne'
    rw [abs_of_pos hm] at h
    linarith [(abs_lt.1 h).1]
  have hneg (hm : OrderStatistics.median (numbers validPoints) < 0) : toReal (roundedMedian validPoints) < 0 := by
    have h := hnear hm.ne
    rw [abs_of_neg hm] at h
    linarith [(abs_lt.1 h).2]
  refine ⟨⟨fun h0 => ?_, hzero⟩, hpos, hneg⟩
  rcases lt_trichotomy (OrderStatistics.median (numbers validPoints)) 0 with hm | hm | hm
  · exact absurd h0 (hneg hm).ne
  · exact hm
  · exact absurd h0 (hpos hm).ne'

theorem roundedMedian_beq (h : Clear e validPoints M) :
    (roundedMedian validPoints == 0) = true ↔ OrderStatistics.median (numbers validPoints) = 0 := by
  obtain ⟨hfinite, -⟩ := roundedMedian_error h
  rw [beq_iff (isNaN_of_isFinite hfinite) isNaN_zero, toEReal_of_isFinite hfinite, toEReal_zero, ← (roundedMedian_sign h).1]
  exact EReal.coe_eq_zero

theorem roundedMedian_neg (h : Clear e validPoints M) :
    roundedMedian validPoints < 0 ↔ OrderStatistics.median (numbers validPoints) < 0 := by
  obtain ⟨hzero, hpos, hneg⟩ := roundedMedian_sign h
  obtain ⟨hfinite, -⟩ := roundedMedian_error h
  rw [lt_iff_toReal hfinite rfl, toReal_zero]
  refine ⟨fun hlt => ?_, hneg⟩
  rcases lt_trichotomy (OrderStatistics.median (numbers validPoints)) 0 with hm | hm | hm
  · exact hm
  · exact absurd (hzero.2 hm) hlt.ne
  · exact absurd (hpos hm) hlt.not_gt

theorem margin_eq (e : EnsembleProvider T Float) (validPoints : List (IrradiancePoint T Float)) (M : ℝ) :
    margin e validPoints M =
      128 * (slack (validPoints.map (·.ghi)) * ((1 + toReal e.divergenceThreshold ^ 2) * M ^ 2)) := by
  rw [margin, Nat.cast_ofNat]

theorem le_margin (e : EnsembleProvider T Float) (validPoints : List (IrradiancePoint T Float)) (M : ℝ) :
    0 ≤ margin e validPoints M ∧ 96 * (slack (validPoints.map (·.ghi)) * M ^ 2) ≤ margin e validPoints M := by
  have hM : 0 ≤ slack (validPoints.map (·.ghi)) * M ^ 2 := mul_nonneg (slack_nonneg _) (sq_nonneg M)
  have hT : 0 ≤ slack (validPoints.map (·.ghi)) * (toReal e.divergenceThreshold ^ 2 * M ^ 2) :=
    mul_nonneg (slack_nonneg _) (by positivity)
  rw [margin_eq]
  constructor <;> linarith

/-- Which side of the limit the deviation is on. -/
theorem sides (h : Clear e validPoints M) (hn : 0 < e.nightStdThreshold) :
    limit e validPoints ^ 2 + margin e validPoints M < populationStdDev (numbers validPoints) ^ 2 ∧ ¬ Agree e validPoints ∨
      populationStdDev (numbers validPoints) ^ 2 + margin e validPoints M < limit e validPoints ^ 2 ∧ Agree e validPoints := by
  obtain ⟨hmargin, -⟩ := le_margin e validPoints M
  rw [agree_iff_sq_lt h hn, not_lt]
  rcases lt_abs.1 h.apart with hlt | hlt
  · exact .inl ⟨by linarith, by linarith⟩
  · exact .inr ⟨by linarith, by linarith⟩

theorem reached_iff_night (h : Clear e validPoints M) (hn : 0 < e.nightStdThreshold)
    (hm : OrderStatistics.median (numbers validPoints) = 0) :
    Reached e (roundedMedian validPoints) (roundedStdDev validPoints) ↔ ¬ Agree e validPoints := by
  obtain ⟨hfinite, h0, -, herror⟩ := roundedStdDev_error h
  obtain ⟨hlow, hhigh⟩ := abs_le.1 herror
  obtain ⟨-, hmargin⟩ := le_margin e validPoints M
  have hlimit : limit e validPoints = toReal e.nightStdThreshold := if_pos hm
  rw [Reached, if_pos ((roundedMedian_beq h).2 hm), le_iff_toReal h.nightStdThreshold hfinite,
    ← pow_le_pow_iff_left₀ (toReal_pos h.nightStdThreshold hn).le h0 two_ne_zero, ← hlimit]
  rcases sides h hn with ⟨hside, hagree⟩ | ⟨hside, hagree⟩
  · exact iff_of_true (by linarith) hagree
  · exact iff_of_false (by linarith) (not_not.2 hagree)

/-- A quotient that short of the threshold is not rounded up to it. -/
theorem not_le_quotient {t q : Float} {S m' : ℝ} (ht : 2⁻¹ ^ 100 ≤ toReal t) (hm' : 0 < m') (hsize : S / m' ≤ 2 ^ 250) (hS : 0 ≤ S)
    (hshort : S * (1 + eps) < toReal t * (1 - eps) * m') (hq : Rounds q (S / m')) (htfinite : t.isFinite = true) : ¬ t ≤ q := by
  have hquotient : 0 ≤ S / m' := div_nonneg hS hm'.le
  obtain ⟨hqfinite, hqreal⟩ := hq.finite_of_le (by rwa [abs_of_nonneg hquotient])
  have hround := abs_rnd_sub_le (S / m')
  rw [← hqreal, abs_of_nonneg hquotient] at hround
  have htiny : tiny ≤ eps * toReal t :=
    tiny_le.trans (mul_le_mul_of_nonneg_left (le_trans (by norm_num) ht) eps_pos.le)
  have hbound : S / m' * (1 + eps) < toReal t * (1 - eps) := by
    rwa [div_mul_eq_mul_div, div_lt_iff₀ hm']
  rw [le_iff_toReal htfinite hqfinite, not_le]
  linarith [(abs_le.1 hround).2]

/-- The quotient is of moderate size. -/
theorem quotient_le (h : Clear e validPoints M) (hm : 0 < OrderStatistics.median (numbers validPoints))
    (hmedian : |toReal (roundedMedian validPoints) - OrderStatistics.median (numbers validPoints)| ≤
      3 * (eps * OrderStatistics.median (numbers validPoints))) :
    toReal (roundedStdDev validPoints) / toReal (roundedMedian validPoints) ≤ 2 ^ 250 := by
  have hmhat := (roundedMedian_sign h).2.1 hm
  have hlarge := h.median.resolve_left hm.ne'
  rw [abs_of_pos hm] at hlarge
  have hhalf : OrderStatistics.median (numbers validPoints) / 2 ≤ toReal (roundedMedian validPoints) := by
    linarith [(abs_le.1 hmedian).1, mul_le_mul_of_nonneg_right eps_le hm.le]
  obtain ⟨-, -, hupper, -⟩ := roundedStdDev_error h
  rw [div_le_iff₀ hmhat]
  calc toReal (roundedStdDev validPoints) ≤ 4 * 2 ^ 100 := by linarith [h.moderate.le]
    _ ≤ 2 ^ 250 * (2⁻¹ ^ 100 / 2) := by norm_num
    _ ≤ 2 ^ 250 * toReal (roundedMedian validPoints) := by linarith

theorem reached_iff_day (h : Clear e validPoints M) (hn : 0 < e.nightStdThreshold)
    (hm : 0 < OrderStatistics.median (numbers validPoints)) :
    Reached e (roundedMedian validPoints) (roundedStdDev validPoints) ↔ ¬ Agree e validPoints := by
  obtain ⟨hfinite, h0, hupper, herror⟩ := roundedStdDev_error h
  obtain ⟨hmfinite, -, hmerror⟩ := roundedMedian_error h
  have hmhat := (roundedMedian_sign h).2.1 hm
  have hT : 0 < toReal e.divergenceThreshold := lt_of_lt_of_le (by norm_num) h.threshold_ge
  have hM : OrderStatistics.median (numbers validPoints) ≤ M := by
    rw [numbers_eq]
    exact (le_abs_self _).trans (abs_median_le h.moderate)
  have hlimit : limit e validPoints = toReal e.divergenceThreshold * OrderStatistics.median (numbers validPoints) := by
    rw [limit, if_neg hm.ne', abs_of_pos hm]
  have hquotient := div_rounds hfinite hmfinite hmhat.ne'
  replace hmerror := hmerror hm.ne'
  rw [abs_of_pos hm] at hmerror
  rw [Reached, if_neg (by rw [roundedMedian_beq h]; exact hm.ne')]
  rcases sides h hn with ⟨hside, hagree⟩ | ⟨hside, hagree⟩
  · refine iff_of_true (rounds_mono (rounds_toReal h.divergenceThreshold) hquotient ?_) hagree
    rw [hlimit, margin_eq] at hside
    rw [le_div_iff₀ hmhat]
    exact le_of_above h.moderate.two_eps_le hm hM hT.le hmhat.le hmerror h0 herror hside
  · refine iff_of_false (fun hle => ?_) (not_not.2 hagree)
    rw [hlimit, margin_eq] at hside
    have hshort := lt_of_below h.moderate.two_eps_le hm hM hT.le hmerror h0 herror hside
    exact not_le_quotient h.threshold_ge hmhat (quotient_le h hm hmerror) h0 hshort hquotient h.divergenceThreshold hle

/-- Beyond the reach of rounding the code compares as the numbers do. -/
theorem reached_iff (h : Clear e validPoints M) (hn : 0 < e.nightStdThreshold)
    (hm : 0 ≤ OrderStatistics.median (numbers validPoints)) :
    Reached e (roundedMedian validPoints) (roundedStdDev validPoints) ↔ ¬ Agree e validPoints := by
  rcases hm.eq_or_lt with hm | hm
  · exact reached_iff_night h hn hm.symm
  · exact reached_iff_day h hn hm

/-! ### The law -/

/-- `ok` where the points agree, and `divergent` elsewhere. -/
def Tells (e : EnsembleProvider T Float) (validPoints : List (IrradiancePoint T Float)) (status : EnsembleStatus) : Prop :=
  (status = .ok ↔ Agree e validPoints) ∧ (status = .divergent ↔ ¬ Agree e validPoints)

theorem tells_iff (hd : 0 < e.divergenceThreshold) (h : 2 ≤ validPoints.length) :
    Tells e validPoints (e.classify Float.sqrt validPoints perProvider).status ↔
      if roundedMedian validPoints < 0 then Agree e validPoints
      else (Reached e (roundedMedian validPoints) (roundedStdDev validPoints) ↔ ¬ Agree e validPoints) := by
  obtain ⟨hdivergent, hok⟩ := spreadStatus_iff e (roundedMedian validPoints) (roundedStdDev validPoints)
  rw [Tells, classify_status h, hdivergent, hok, and_iff_right_of_imp fun h => by rw [h, not_not]]
  split
  case isTrue hm => rw [iff_false_left (not_reached_of_neg hd hm (roundedStdDev_nonneg h)), not_not]
  case isFalse => rfl

theorem tells_iff_of_clear (hd : 0 < e.divergenceThreshold) (hn : 0 < e.nightStdThreshold) (h : Clear e validPoints M) :
    Tells e validPoints (e.classify Float.sqrt validPoints perProvider).status ↔
      0 ≤ OrderStatistics.median (numbers validPoints) ∨ Agree e validPoints := by
  have hlen := h.moderate.two_le
  rw [List.length_map] at hlen
  rw [tells_iff hd hlen]
  split
  case isTrue hm => rw [or_iff_right (not_le.2 ((roundedMedian_neg h).1 hm))]
  case isFalse hm =>
    have h0 : 0 ≤ OrderStatistics.median (numbers validPoints) := not_lt.1 fun hlt => hm ((roundedMedian_neg h).2 hlt)
    exact iff_of_true (reached_iff h hn h0) (.inl h0)

theorem divergent_mono (hd : 0 < e.divergenceThreshold) {wider : List (IrradiancePoint T Float)} (h : 2 ≤ validPoints.length)
    (hw : 2 ≤ wider.length) (hmedian : roundedMedian wider = roundedMedian validPoints)
    (hm : (roundedMedian validPoints == 0) = false) (hle : roundedStdDev validPoints ≤ roundedStdDev wider)
    (hdivergent : (e.classify Float.sqrt validPoints perProvider).status = .divergent) :
    (e.classify Float.sqrt wider perProvider').status ≠ .ok := by
  rw [classify_status h] at hdivergent
  rw [classify_status hw, hmedian]
  have hreached := reached_mono hd (roundedStdDev_nonneg h (isNaN_of_le hle).1) hle hm ((spreadStatus_iff e _ _).1.1 hdivergent)
  exact fun hok => (spreadStatus_iff e _ _).2.1 hok hreached

/-- The same of the exact deviations, beyond the reach of rounding. -/
theorem divergent_mono_of_clear (hd : 0 < e.divergenceThreshold) (hn : 0 < e.nightStdThreshold)
    {wider : List (IrradiancePoint T Float)} {M' : ℝ} (h : Clear e validPoints M) (hw : Clear e wider M')
    (hmedian : OrderStatistics.median (numbers wider) = OrderStatistics.median (numbers validPoints))
    (hne : OrderStatistics.median (numbers validPoints) ≠ 0)
    (hle : populationStdDev (numbers validPoints) ≤ populationStdDev (numbers wider))
    (hdivergent : (e.classify Float.sqrt validPoints perProvider).status = .divergent) :
    (e.classify Float.sqrt wider perProvider').status ≠ .ok := by
  rcases lt_or_gt_of_ne hne with hm | hm
  · have hlen := h.moderate.two_le
    rw [List.length_map] at hlen
    rw [classify_status hlen] at hdivergent
    have hnot := not_reached_of_neg hd ((roundedMedian_neg h).2 hm) (roundedStdDev_nonneg hlen)
    exact absurd ((spreadStatus_iff e _ _).1.1 hdivergent) hnot
  · have htells : Tells e validPoints (e.classify Float.sqrt validPoints perProvider).status :=
      (tells_iff_of_clear hd hn h).2 (.inl hm.le)
    have htells' : Tells e wider (e.classify Float.sqrt wider perProvider').status :=
      (tells_iff_of_clear hd hn hw).2 (.inl (hmedian ▸ hm.le))
    have hlimit : limit e wider = limit e validPoints := by rw [limit, hmedian, ← limit]
    intro hok
    refine htells.2.1 hdivergent ?_
    have hagree := (agree_iff_lt_limit hw.nightStdThreshold hw.divergenceThreshold).1 (htells'.1.1 hok)
    rw [hlimit] at hagree
    exact (agree_iff_lt_limit h.nightStdThreshold h.divergenceThreshold).2 (hle.trans_lt hagree)

/-- The default thresholds are positive. -/
theorem default_thresholds_pos {providers : List (Provider T Float)}
    (h : ensembleProvider providers ⟨none, none⟩ = .ok e) : 0 < e.divergenceThreshold ∧ 0 < e.nightStdThreshold := by
  have hd : (0 : Float) < DEFAULT_DIVERGENCE_THRESHOLD := by decide +kernel
  have hn : (0 : Float) < DEFAULT_NIGHT_STD_THRESHOLD := by decide +kernel
  rw [ensembleProvider] at h
  split at h
  case isTrue => cases h
  case isFalse =>
    cases h
    exact ⟨hd, hn⟩

/-- The status tells whether the points agree exactly while the computed median is not negative and rounding leaves the
comparison as it is, or it is negative and the points agree all the same. Beyond the reach of rounding that is to say while the
median is not negative, or the points agree. -/
theorem classify_status_iff (e : EnsembleProvider T Float) (hd : 0 < e.divergenceThreshold) (hn : 0 < e.nightStdThreshold)
    (validPoints : List (IrradiancePoint T Float)) (h : 2 ≤ validPoints.length) (perProvider : List (ProviderResult T Float)) :
    let status points := (e.classify Float.sqrt points perProvider).status
    (Tells e validPoints (status validPoints) ↔
      if roundedMedian validPoints < 0 then Agree e validPoints
      else (Reached e (roundedMedian validPoints) (roundedStdDev validPoints) ↔ ¬ Agree e validPoints)) ∧
    (∀ M, Clear e validPoints M →
      (Tells e validPoints (status validPoints) ↔ 0 ≤ OrderStatistics.median (numbers validPoints) ∨ Agree e validPoints)) ∧
    (∀ wider, 2 ≤ wider.length → roundedMedian wider = roundedMedian validPoints → (roundedMedian validPoints == 0) = false →
      roundedStdDev validPoints ≤ roundedStdDev wider → status validPoints = .divergent → status wider ≠ .ok) ∧
    ∀ wider M M', Clear e validPoints M → Clear e wider M' →
      OrderStatistics.median (numbers wider) = OrderStatistics.median (numbers validPoints) →
      OrderStatistics.median (numbers validPoints) ≠ 0 →
      populationStdDev (numbers validPoints) ≤ populationStdDev (numbers wider) → status validPoints = .divergent →
      status wider ≠ .ok :=
  ⟨tells_iff hd h, fun _ hclear => tells_iff_of_clear hd hn hclear, fun _ hw hmedian hm hle => divergent_mono hd h hw hmedian hm hle,
    fun _ _ _ hclear hw hmedian hne hle => divergent_mono_of_clear hd hn hclear hw hmedian hne hle⟩

end EnsembleProvider

/-! ### Points about midnight -/

namespace SamplePoints
open EnsembleProvider

def reading (source : Source) (ghi : Float) : IrradiancePoint Int Float := ⟨0, ghi, none, none, none, source⟩

def providers : List (Provider Int Float) := [⟨"open-meteo", .throws (.other (.ok "down"))⟩]

def ensemble : EnsembleProvider Int Float :=
  ⟨providers, DEFAULT_DIVERGENCE_THRESHOLD, DEFAULT_NIGHT_STD_THRESHOLD, List.cons_ne_nil _ _⟩

theorem ensemble_thresholds_pos : 0 < ensemble.divergenceThreshold ∧ 0 < ensemble.nightStdThreshold :=
  default_thresholds_pos (show ensembleProvider providers ⟨none, none⟩ = .ok ensemble from rfl)

def midnight : List (IrradiancePoint Int Float) :=
  [reading .openMeteo (-2), reading .nasaPower (-1), reading .pvgis 900]

theorem toReal_midnight : toReal (-2) = -2 ∧ toReal (-1) = -1 ∧ toReal 900 = 900 := by
  refine ⟨?_, ?_, ?_⟩
  · rw [(toReal_of_unpack .negative (2 ^ 52) (-51) (by decide) rfl).2]
    norm_num [Sign.real]
  · rw [(toReal_of_unpack .negative (2 ^ 52) (-52) (by decide) rfl).2]
    norm_num [Sign.real]
  · rw [(toReal_of_unpack .positive (225 * 2 ^ 45) (-43) (by decide) rfl).2]
    norm_num [Sign.real]

theorem toReal_divergenceThreshold : toReal ensemble.divergenceThreshold = 5404319552844595 / 2 ^ 54 := by
  rw [(toReal_of_unpack .positive 5404319552844595 (-54) (by decide) rfl).2]
  norm_num [Sign.real]

theorem numbers_midnight : numbers midnight = [-2, -1, 900] := by
  obtain ⟨h2, h1, h900⟩ := toReal_midnight
  simp only [numbers, midnight, reading, List.map_cons, List.map_nil, h2, h1, h900]

theorem median_midnight : OrderStatistics.median (numbers midnight) = -1 := by
  have hsort : sort (numbers midnight) = [-2, -1, 900] := by
    rw [numbers_midnight]
    apply sort_eq_self
    norm_num
  rw [OrderStatistics.median, hsort, numbers_midnight]
  norm_num

theorem sq_populationStdDev_midnight : populationStdDev (numbers midnight) ^ 2 = 541802 / 3 := by
  rw [populationStdDev, Real.sq_sqrt (div_nonneg (sumSq_nonneg _) (Nat.cast_nonneg _)), numbers_midnight]
  norm_num [sumSq, mean]

theorem limit_midnight : limit ensemble midnight = 5404319552844595 / 2 ^ 54 := by
  rw [limit, median_midnight, if_neg (by norm_num), toReal_divergenceThreshold]
  norm_num

theorem sortAsc_midnight : sortAsc (midnight.map (·.ghi)) = [-2, -1, 900] :=
  List.mergeSort_of_pairwise (by decide +kernel)

theorem clear_midnight : Clear ensemble midnight 900 where
  moderate := by
    obtain ⟨h2, h1, h900⟩ := toReal_midnight
    refine ⟨by decide, by decide, by norm_num, by norm_num, fun x hx => ?_, fun x hx => ?_⟩ <;>
      rcases List.mem_cons.1 hx with rfl | hx
    · rfl
    · rcases List.mem_pair.1 hx with rfl | rfl <;> rfl
    · exact (congrArg abs h2).trans_le (by norm_num)
    · rcases List.mem_pair.1 hx with rfl | rfl
      · exact (congrArg abs h1).trans_le (by norm_num)
      · exact (congrArg abs h900).trans_le (by norm_num)
  median := .inr (by norm_num [median_midnight])
  nightStdThreshold := rfl
  divergenceThreshold := rfl
  threshold_ge := by
    rw [toReal_divergenceThreshold]
    norm_num
  apart := by
    rw [sq_populationStdDev_midnight, limit_midnight, margin_eq, toReal_divergenceThreshold, slack, eps_eq, List.length_map]
    norm_num [midnight]

theorem not_agree_midnight : ¬ Agree ensemble midnight := by
  rw [agree_iff_sq_lt clear_midnight ensemble_thresholds_pos.2, sq_populationStdDev_midnight, limit_midnight]
  norm_num

/-- Two providers report a little below nothing and the third a bright day, and the status is `ok`. -/
theorem ok_divergent_midnight :
    (ensemble.classify Float.sqrt midnight []).status = .ok ∧ ¬ Agree ensemble midnight := by
  refine ⟨?_, not_agree_midnight⟩
  rw [classify_status (by decide), roundedMedian, roundedStdDev, sortAsc_midnight]
  decide +kernel

theorem classify_status_iff_sample : ¬ Tells ensemble midnight (ensemble.classify Float.sqrt midnight []).status := by
  obtain ⟨hd, hn⟩ := ensemble_thresholds_pos
  have hclear := (classify_status_iff ensemble hd hn midnight (by decide) []).2.1 900 clear_midnight
  rw [hclear, median_midnight]
  rintro (h0 | hagree)
  · norm_num at h0
  · exact not_agree_midnight hagree

def twilight : List (IrradiancePoint Int Float) := [reading .openMeteo 2.1, reading .nasaPower 3.9]

theorem numbers_twilight : numbers twilight = [4728779608739021 / 2 ^ 51, 8782019273372467 / 2 ^ 51] := by
  have hlow : toReal 2.1 = 4728779608739021 / 2 ^ 51 := by
    rw [(toReal_of_unpack .positive 4728779608739021 (-51) (by decide) rfl).2]
    norm_num [Sign.real]
  have hhigh : toReal 3.9 = 8782019273372467 / 2 ^ 51 := by
    rw [(toReal_of_unpack .positive 8782019273372467 (-51) (by decide) rfl).2]
    norm_num [Sign.real]
  simp only [numbers, twilight, reading, List.map_cons, List.map_nil, hlow, hhigh]

/-- The deviation is a little below the limit, and its quotient by the median is rounded up to the threshold. -/
theorem divergent_agree_twilight :
    (ensemble.classify Float.sqrt twilight []).status = .divergent ∧ Agree ensemble twilight := by
  constructor
  · have hsort : sortAsc (twilight.map (·.ghi)) = [2.1, 3.9] := List.mergeSort_of_pairwise (by decide +kernel)
    rw [classify_status (by decide), roundedMedian, roundedStdDev, hsort]
    decide +kernel
  · have hsort : sort (numbers twilight) = numbers twilight := by
      rw [numbers_twilight]
      apply sort_eq_self
      norm_num
    have hmedian : OrderStatistics.median (numbers twilight) = 13510798882111488 / 2 ^ 52 := by
      rw [OrderStatistics.median, hsort, numbers_twilight]
      norm_num
    rw [agree_iff_lt_limit rfl rfl, limit, hmedian, if_neg (by norm_num), toReal_divergenceThreshold, populationStdDev, numbers_twilight,
      Real.sqrt_lt' (by norm_num)]
    norm_num [sumSq, mean]

end SamplePoints
end Weather
end InfraVeritas
