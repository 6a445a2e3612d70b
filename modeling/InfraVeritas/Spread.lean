import InfraVeritas.Consensus
import InfraVeritas.Lib.Doubles

/-!
# The spread in doubles

How far the median and the deviation that the code computes are from those of the numbers themselves (`near_variance`,
`computeStdDev_error`, `computeMedian_error`), for up to 2³² numbers of moderate size.
-/

namespace InfraVeritas
open Dispersion OrderStatistics Binary64

namespace Weather

theorem sortAsc_perm (values : List Float) : (sortAsc values).Perm values := List.mergeSort_perm _ _

theorem length_sortAsc (values : List Float) : (sortAsc values).length = values.length := (sortAsc_perm values).length_eq

/-- Two numbers or more, within `M`. -/
structure Moderate (values : List Float) (M : ℝ) : Prop where
  two_le : 2 ≤ values.length
  length_le : values.length ≤ 2 ^ 32
  one_le : 1 ≤ M
  le : M ≤ 2 ^ 100
  isFinite : ∀ x ∈ values, x.isFinite = true
  abs_le : ∀ x ∈ values, |toReal x| ≤ M

/-- What rounding makes of one number, as many times over as there are numbers. -/
noncomputable def slack (values : List Float) : ℝ := values.length * eps

theorem slack_nonneg (values : List Float) : 0 ≤ slack values := mul_nonneg (Nat.cast_nonneg _) eps_pos.le

def roundedMean (values : List Float) : Float := values.foldl (fun s x => s + x) 0 / (values.length : Float)

def roundedVariance (values : List Float) : Float :=
  values.foldl (fun s x => s + (x - roundedMean values) * (x - roundedMean values)) 0 / (values.length : Float)

theorem computeStdDev_eq_sqrt {values : List Float} (h : 2 ≤ values.length) :
    computeStdDev Float.sqrt values = (roundedVariance values).sqrt := by
  rw [computeStdDev, if_neg (by omega)]
  rfl

section Deviation
variable {values : List Float} {M : ℝ}

theorem Moderate.two_eps_le (h : Moderate values M) : 2 * eps ≤ slack values :=
  mul_le_mul_of_nonneg_right (by exact_mod_cast h.two_le) eps_pos.le

theorem Moderate.slack_le (h : Moderate values M) : slack values ≤ 2⁻¹ ^ 20 := by
  have hlen : (values.length : ℝ) ≤ 2 ^ 32 := by exact_mod_cast h.length_le
  calc slack values ≤ 2 ^ 32 * eps := mul_le_mul_of_nonneg_right hlen eps_pos.le
    _ ≤ 2⁻¹ ^ 20 := by norm_num [eps]

theorem Moderate.length_pos (h : Moderate values M) : (0 : ℝ) < values.length := by exact_mod_cast (by linarith [h.two_le])

/-- The size carries over to the products. -/
theorem Moderate.slack_mul_le (h : Moderate values M) {B : ℝ} (hB : 0 ≤ B) :
    slack values * B ≤ B / 2 ^ 20 ∧ 2 * (eps * B) ≤ slack values * B := by
  have hs := mul_le_mul_of_nonneg_right h.slack_le hB
  have he := mul_le_mul_of_nonneg_right h.two_eps_le hB
  constructor
  · calc slack values * B ≤ 2⁻¹ ^ 20 * B := hs
      _ = B / 2 ^ 20 := by ring
  · linarith

theorem Moderate.length (h : Moderate values M) :
    (values.length : Float).isFinite = true ∧ toReal (values.length : Float) = values.length :=
  toReal_ofNat (h.length_le.trans_lt (by norm_num))

theorem Moderate.forall_map (h : Moderate values M) : ∀ x ∈ values.map toReal, |x| ≤ M := by
  intro x hx
  obtain ⟨y, hy, rfl⟩ := List.mem_map.1 hx
  exact h.abs_le y hy

theorem Moderate.map_ne_nil (h : Moderate values M) : values.map toReal ≠ [] := by
  intro hnil
  have hlen := h.two_le
  rw [List.map_eq_nil_iff.1 hnil] at hlen
  cases hlen

theorem Moderate.abs_mean_le (h : Moderate values M) : |mean (values.map toReal)| ≤ M :=
  Dispersion.abs_mean_le h.map_ne_nil h.forall_map

theorem Moderate.of_perm {values' : List Float} (h : Moderate values M) (hperm : values'.Perm values) : Moderate values' M :=
  ⟨hperm.length_eq ▸ h.two_le, hperm.length_eq ▸ h.length_le, h.one_le, h.le, fun x hx => h.isFinite x (hperm.mem_iff.1 hx),
    fun x hx => h.abs_le x (hperm.mem_iff.1 hx)⟩

theorem near_zero : Near 0 0 0 := ⟨rfl, by rw [toReal_zero, sub_self, abs_zero]⟩

theorem near_sum (h : Moderate values M) :
    Near (values.foldl (fun s x => s + x) 0) (values.map toReal).sum (values.length * (4 * (slack values * M))) := by
  have hM := h.one_le
  have hbound := h.slack_mul_le (B := M) (by linarith)
  have hlen : (values.length : ℝ) ≤ 2 ^ 32 := by exact_mod_cast h.length_le
  have hsum := (foldl_add_near (fun x => x) toReal 0 (N := values.length) hM
    (by rw [slack] at hbound; linarith) ((mul_le_mul hlen h.le (by linarith) (by norm_num)).trans (by norm_num)) values
    (fun x hx => near_self (h.isFinite x hx)) h.abs_le (k := 0) (by omega) (s := 0) (by simp) (near_zero.weaken (by simp))).1
  rw [zero_add, Nat.zero_add] at hsum
  refine hsum.weaken (le_of_eq ?_)
  rw [slack]
  ring

/-- A quotient by the number of values. -/
theorem near_div (h : Moderate values M) {x : Float} {r δ B : ℝ} (hx : Near x r (values.length * δ))
    (hr : |r| ≤ values.length * B) (hB : 1 ≤ B + δ) (hlarge : B + δ ≤ 2 ^ 250) :
    Near (x / (values.length : Float)) (r / values.length) (δ + 2 * eps * (B + δ)) ∧
      (0 ≤ toReal x → 0 ≤ toReal (x / (values.length : Float))) := by
  have hpos := h.length_pos
  obtain ⟨hfinite, hreal⟩ := h.length
  have hrounds := div_rounds hx.isFinite hfinite (by rw [hreal]; exact hpos.ne')
  rw [hreal] at hrounds
  have hsize : |toReal x / values.length| ≤ B + δ := by
    rw [abs_div, abs_of_pos hpos, div_le_iff₀ hpos]
    linarith [hx.abs_le hr]
  refine ⟨hrounds.near ?_ hsize hB hlarge, fun h0 => ?_⟩
  · rw [← sub_div, abs_div, abs_of_pos hpos, div_le_iff₀ hpos, mul_comm δ]
    exact hx.error
  · rw [(hrounds.finite_of_le (hsize.trans hlarge)).2]
    exact rnd_nonneg (div_nonneg h0 hpos.le)

theorem near_mean (h : Moderate values M) : Near (roundedMean values) (mean (values.map toReal)) (6 * (slack values * M)) := by
  have hM := h.one_le
  obtain ⟨hs, he⟩ := h.slack_mul_le (B := M) (by linarith)
  have hpos := h.length_pos
  have hsum := abs_sum_le h.forall_map
  rw [List.length_map] at hsum
  have hnear := (near_div h (near_sum h) hsum (by linarith [mul_nonneg eps_pos.le (by linarith : 0 ≤ M)])
    (by linarith [h.le])).1
  rw [mean, List.length_map]
  refine hnear.weaken ?_
  have hB : M + 4 * (slack values * M) ≤ 2 * M := by linarith
  have hround := mul_le_mul_of_nonneg_left hB eps_pos.le
  linarith

theorem abs_deviation_le (h : Moderate values M) {x : Float} (hx : x ∈ values) :
    |toReal x - mean (values.map toReal)| ≤ 2 * M := by
  linarith [abs_sub (toReal x) (mean (values.map toReal)), h.abs_le x hx, h.abs_mean_le]

theorem near_deviation (h : Moderate values M) {x : Float} (hx : x ∈ values) :
    Near (x - roundedMean values) (toReal x - mean (values.map toReal)) (9 * (slack values * M)) := by
  have hM := h.one_le
  obtain ⟨hs, he⟩ := h.slack_mul_le (B := M) (by linarith)
  have hmean := near_mean h
  have hdistance : |toReal x - toReal (roundedMean values) - (toReal x - mean (values.map toReal))| ≤ 6 * (slack values * M) := by
    rw [sub_sub_sub_cancel_left, abs_sub_comm]
    exact hmean.error
  have hsize : |toReal x - toReal (roundedMean values)| ≤ 3 * M := by
    have htriangle := abs_sub_abs_le_abs_sub (toReal x - toReal (roundedMean values)) (toReal x - mean (values.map toReal))
    linarith [abs_deviation_le h hx]
  refine ((sub_rounds (h.isFinite x hx) hmean.isFinite).near hdistance hsize (by linarith) (by linarith [h.le])).weaken ?_
  linarith

theorem near_square (h : Moderate values M) {x : Float} (hx : x ∈ values) :
    Near ((x - roundedMean values) * (x - roundedMean values)) ((toReal x - mean (values.map toReal)) ^ 2)
        (54 * (slack values * M ^ 2)) ∧
      0 ≤ toReal ((x - roundedMean values) * (x - roundedMean values)) := by
  have hM := h.one_le
  obtain ⟨hs, -⟩ := h.slack_mul_le (B := M) (by linarith)
  obtain ⟨-, he⟩ := h.slack_mul_le (B := M ^ 2) (by positivity)
  have hdeviation := near_deviation h hx
  have hexact := abs_deviation_le h hx
  have hsize : |toReal (x - roundedMean values)| ≤ 3 * M := (hdeviation.abs_le hexact).trans (by linarith)
  have hM2 : M ^ 2 ≤ (2 ^ 100) ^ 2 := pow_le_pow_left₀ (by linarith) h.le 2
  have hsquare : |toReal (x - roundedMean values) * toReal (x - roundedMean values)| ≤ 9 * M ^ 2 := by
    rw [abs_mul]
    calc _ ≤ 3 * M * (3 * M) := mul_le_mul hsize hsize (abs_nonneg _) (by linarith)
      _ = 9 * M ^ 2 := by ring
  have hdistance : |toReal (x - roundedMean values) * toReal (x - roundedMean values) -
      (toReal x - mean (values.map toReal)) ^ 2| ≤ 45 * (slack values * M ^ 2) := by
    have hfactor : toReal (x - roundedMean values) * toReal (x - roundedMean values) - (toReal x - mean (values.map toReal)) ^ 2 =
        (toReal (x - roundedMean values) - (toReal x - mean (values.map toReal))) *
          (toReal (x - roundedMean values) + (toReal x - mean (values.map toReal))) := by ring
    have hsum := abs_add_le (toReal (x - roundedMean values)) (toReal x - mean (values.map toReal))
    rw [hfactor, abs_mul]
    calc _ ≤ 9 * (slack values * M) * (5 * M) :=
          mul_le_mul hdeviation.error (by linarith) (abs_nonneg _) ((abs_nonneg _).trans hdeviation.error)
      _ = 45 * (slack values * M ^ 2) := by ring
  have hrounds := mul_rounds hdeviation.isFinite hdeviation.isFinite
  refine ⟨(hrounds.near hdistance hsquare (by nlinarith) (by linarith)).weaken (by linarith), ?_⟩
  rw [(hrounds.finite_of_le (hsquare.trans (by linarith))).2]
  exact rnd_nonneg (mul_self_nonneg _)

theorem sumSq_map (values : List Float) :
    sumSq (values.map toReal) = (values.map fun x => (toReal x - mean (values.map toReal)) ^ 2).sum := by
  rw [sumSq, List.map_map]
  rfl

theorem sq_deviation_le (h : Moderate values M) {x : Float} (hx : x ∈ values) :
    |(toReal x - mean (values.map toReal)) ^ 2| ≤ 4 * M ^ 2 := by
  rw [abs_of_nonneg (sq_nonneg _), ← sq_abs]
  calc _ ≤ (2 * M) ^ 2 := pow_le_pow_left₀ (abs_nonneg _) (abs_deviation_le h hx) 2
    _ = 4 * M ^ 2 := by ring

theorem abs_sumSq_le (h : Moderate values M) : |sumSq (values.map toReal)| ≤ values.length * (4 * M ^ 2) := by
  have hterms : ∀ y ∈ values.map fun x => (toReal x - mean (values.map toReal)) ^ 2, |y| ≤ 4 * M ^ 2 := by
    intro y hy
    obtain ⟨x, hx, rfl⟩ := List.mem_map.1 hy
    exact sq_deviation_le h hx
  have hle := abs_sum_le hterms
  rwa [List.length_map, ← sumSq_map] at hle

theorem near_squares (h : Moderate values M) :
    Near (values.foldl (fun s x => s + (x - roundedMean values) * (x - roundedMean values)) 0) (sumSq (values.map toReal))
        (values.length * (70 * (slack values * M ^ 2))) ∧
      0 ≤ toReal (values.foldl (fun s x => s + (x - roundedMean values) * (x - roundedMean values)) 0) := by
  have hM := h.one_le
  have hM2 : M ^ 2 ≤ (2 ^ 100) ^ 2 := pow_le_pow_left₀ (by linarith) h.le 2
  have hM0 := sq_nonneg M
  obtain ⟨hs, -⟩ := h.slack_mul_le hM0
  have hlen : (values.length : ℝ) ≤ 2 ^ 32 := by exact_mod_cast h.length_le
  have hunit : 4 * eps * (values.length * (4 * M ^ 2)) = 16 * (slack values * M ^ 2) := by
    rw [slack]
    ring
  obtain ⟨hnear, hnonneg⟩ := foldl_add_near (fun x => (x - roundedMean values) * (x - roundedMean values))
    (fun x => (toReal x - mean (values.map toReal)) ^ 2) (54 * (slack values * M ^ 2)) (B := 4 * M ^ 2)
    (N := values.length) (by nlinarith) (by linarith)
    ((mul_le_mul hlen (by linarith : 4 * M ^ 2 ≤ 4 * (2 ^ 100) ^ 2) (by positivity) (by norm_num)).trans (by norm_num)) values
    (fun x hx => (near_square h hx).1) (fun x hx => sq_deviation_le h hx) (k := 0) (by omega) (s := 0) (by simp)
    (near_zero.weaken (by simp))
  rw [zero_add, Nat.zero_add, ← sumSq_map] at hnear
  exact ⟨hnear.weaken (by rw [hunit]; linarith), hnonneg toReal_zero.ge fun x hx => (near_square h hx).2⟩

theorem near_variance (h : Moderate values M) :
    Near (roundedVariance values) (sumSq (values.map toReal) / values.length) (75 * (slack values * M ^ 2)) ∧
      0 ≤ toReal (roundedVariance values) := by
  have hM := h.one_le
  have hM2 : M ^ 2 ≤ (2 ^ 100) ^ 2 := pow_le_pow_left₀ (by linarith) h.le 2
  obtain ⟨hs, he⟩ := h.slack_mul_le (B := M ^ 2) (by positivity)
  obtain ⟨hsquares, hnonneg⟩ := near_squares h
  have hpos : 0 ≤ eps * M ^ 2 := mul_nonneg eps_pos.le (sq_nonneg M)
  obtain ⟨hnear, hquotient⟩ := near_div h hsquares (abs_sumSq_le h) (by nlinarith) (by linarith)
  refine ⟨hnear.weaken ?_, hquotient hnonneg⟩
  have hround := mul_le_mul_of_nonneg_left (by linarith : 4 * M ^ 2 + 70 * (slack values * M ^ 2) ≤ 5 * M ^ 2) eps_pos.le
  linarith

/-- The computed deviation, against the exact one. -/
theorem computeStdDev_error (h : Moderate values M) :
    (computeStdDev Float.sqrt values).isFinite = true ∧ 0 ≤ toReal (computeStdDev Float.sqrt values) ∧
      toReal (computeStdDev Float.sqrt values) ≤ 4 * M ∧
      |toReal (computeStdDev Float.sqrt values) ^ 2 - sumSq (values.map toReal) / values.length| ≤
        96 * (slack values * M ^ 2) := by
  have hM := h.one_le
  obtain ⟨hs, he⟩ := h.slack_mul_le (B := M ^ 2) (by positivity)
  have hpos : 0 ≤ eps * M := mul_nonneg eps_pos.le (by linarith)
  have hepsM := mul_le_mul_of_nonneg_right eps_le (by linarith : 0 ≤ M)
  obtain ⟨hvariance, hnonneg⟩ := near_variance h
  have hexact : |sumSq (values.map toReal) / values.length| ≤ 4 * M ^ 2 := by
    rw [abs_div, abs_of_pos h.length_pos, div_le_iff₀ h.length_pos, mul_comm]
    exact abs_sumSq_le h
  have hsize : Real.sqrt (toReal (roundedVariance values)) ≤ 3 * M := by
    rw [Real.sqrt_le_iff]
    have hle := (le_abs_self _).trans (hvariance.abs_le hexact)
    exact ⟨by linarith, by nlinarith⟩
  have hroot := Real.sqrt_nonneg (toReal (roundedVariance values))
  have hrounds := sqrt_rounds hvariance.isFinite hnonneg
  have hnear : Near (roundedVariance values).sqrt (Real.sqrt (toReal (roundedVariance values))) (0 + 2 * eps * (3 * M)) :=
    hrounds.near (by rw [sub_self, abs_zero]) (by rwa [abs_of_nonneg hroot]) (by linarith) (by linarith [h.le])
  rw [computeStdDev_eq_sqrt h.two_le]
  have hnonneg' : 0 ≤ toReal (roundedVariance values).sqrt := by
    rw [(hrounds.finite_of_le (by rw [abs_of_nonneg hroot]; linarith [h.le])).2]
    exact rnd_nonneg hroot
  have herror := hnear.error
  have hupper : toReal (roundedVariance values).sqrt ≤ 4 * M := by
    linarith [le_abs_self (toReal (roundedVariance values).sqrt - Real.sqrt (toReal (roundedVariance values)))]
  refine ⟨hnear.isFinite, hnonneg', hupper, ?_⟩
  have hsquare : |toReal (roundedVariance values).sqrt ^ 2 - toReal (roundedVariance values)| ≤ 21 * (slack values * M ^ 2) := by
    have hfactor : toReal (roundedVariance values).sqrt ^ 2 - toReal (roundedVariance values) =
        (toReal (roundedVariance values).sqrt - Real.sqrt (toReal (roundedVariance values))) *
          (toReal (roundedVariance values).sqrt + Real.sqrt (toReal (roundedVariance values))) := by
      linear_combination Real.sq_sqrt hnonneg
    rw [hfactor, abs_mul, abs_of_nonneg (add_nonneg hnonneg' hroot)]
    calc _ ≤ 6 * (eps * M) * (7 * M) := mul_le_mul (by linarith) (by linarith) (add_nonneg hnonneg' hroot) (by linarith)
      _ ≤ 21 * (slack values * M ^ 2) := by linarith
  linarith [abs_sub_le (toReal (roundedVariance values).sqrt ^ 2) (toReal (roundedVariance values))
    (sumSq (values.map toReal) / values.length), hvariance.error]

end Deviation

section Median
variable {values : List Float} {M : ℝ}

theorem map_sortAsc (h : ∀ x ∈ values, x.isFinite = true) : (sortAsc values).map toReal = sort (values.map toReal) := by
  rw [sortAsc, sort]
  refine List.map_mergeSort fun a ha b hb => ?_
  rw [decide_eq_decide]
  exact le_iff_toReal (h a ha) (h b hb)

theorem isFinite_getD (h : ∀ x ∈ values, x.isFinite = true) (i : ℕ) : (values.getD i 0).isFinite = true := by
  by_cases hi : i < values.length
  · rw [List.getD_eq_getElem _ _ hi]
    exact h _ (List.getElem_mem hi)
  · rw [List.getD_eq_default _ _ (not_lt.1 hi)]
    rfl

theorem toReal_getD_sortAsc (h : ∀ x ∈ values, x.isFinite = true) (i : ℕ) :
    toReal ((sortAsc values).getD i 0) = (sort (values.map toReal)).getD i 0 := by
  rw [← map_sortAsc h, ← toReal_zero, List.getD_map]

/-- The double nearest to the mean of two numbers, all but one digit of it. -/
theorem near_half {lo hi : Float} {m : ℝ} (hlo : lo.isFinite = true) (hhi : hi.isFinite = true)
    (hm : toReal lo + toReal hi = 2 * m) (hsize : |m| ≤ 2 ^ 100) :
    ((lo + hi) / ((2 : Nat) : Float)).isFinite = true ∧ (m = 0 → toReal ((lo + hi) / ((2 : Nat) : Float)) = 0) ∧
      (2⁻¹ ^ 100 ≤ |m| → |toReal ((lo + hi) / ((2 : Nat) : Float)) - m| ≤ 3 * (eps * |m|)) := by
  obtain ⟨htwo, htwo'⟩ : ((2 : Nat) : Float).isFinite = true ∧ toReal ((2 : Nat) : Float) = (2 : Nat) :=
    toReal_ofNat (by norm_num)
  have hsum := add_rounds hlo hhi
  have habs : |2 * m| = 2 * |m| := by rw [abs_mul, abs_two]
  have heps : eps * |m| ≤ 2⁻¹ ^ 50 * |m| := mul_le_mul_of_nonneg_right eps_le (abs_nonneg m)
  rw [hm] at hsum
  obtain ⟨hfinite, hreal⟩ := hsum.finite_of_le (by rw [habs]; linarith)
  have hround := abs_rnd_sub_le (2 * m)
  rw [habs, ← hreal] at hround
  have hdiv := div_rounds hfinite htwo (by rw [htwo']; norm_num)
  rw [htwo', show ((2 : Nat) : ℝ) = 2 from Nat.cast_ofNat] at hdiv
  have htiny : tiny ≤ 1 := tiny_le.trans (by nlinarith [eps_le])
  have hhalf : |toReal (lo + hi) / 2 - m| ≤ eps * |m| + tiny := by
    have h2 : toReal (lo + hi) / 2 - m = (toReal (lo + hi) - 2 * m) / 2 := by ring
    rw [h2, abs_div, abs_two]
    linarith [tiny_pos]
  have hbound : |toReal (lo + hi) / 2| ≤ |m| + eps * |m| + tiny := by
    linarith [abs_sub_abs_le_abs_sub (toReal (lo + hi) / 2) m]
  obtain ⟨hfinite', hreal'⟩ := hdiv.finite_of_le (by linarith)
  refine ⟨hfinite', ?_, ?_⟩
  · rintro rfl
    rw [mul_zero, rnd_zero] at hreal
    exact hreal'.trans (by rw [hreal, zero_div, rnd_zero])
  · intro hlarge
    have hround' := abs_rnd_sub_le (toReal (lo + hi) / 2)
    rw [← hreal'] at hround'
    have hsmall : tiny ≤ eps * |m| / 8 := by
      have hscale := mul_le_mul_of_nonneg_left hlarge eps_pos.le
      linarith [tiny_le, mul_pos eps_pos (show (0 : ℝ) < 2⁻¹ ^ 200 by norm_num)]
    have hproduct := mul_le_mul_of_nonneg_left hbound eps_pos.le
    have hsecond : eps * (|m| + eps * |m| + tiny) ≤ 5 / 4 * (eps * |m|) := by nlinarith [eps_pos, eps_le, abs_nonneg m]
    linarith [abs_sub_le (toReal ((lo + hi) / ((2 : Nat) : Float))) (toReal (lo + hi) / 2) m,
      mul_nonneg eps_pos.le (abs_nonneg m)]

theorem abs_median_le (h : Moderate values M) : |median (values.map toReal)| ≤ M := by
  have hlen : (values.map toReal).length < 2 * (values.map toReal).length := by
    rw [List.length_map]
    linarith [h.two_le]
  obtain ⟨x, hx, hle⟩ := exists_le_median (List.Subperm.refl _) hlen
  obtain ⟨y, hy, hge⟩ := exists_median_le (List.Subperm.refl _) hlen
  rw [abs_le]
  exact ⟨(abs_le.1 (h.forall_map x hx)).1.trans hle, hge.trans (abs_le.1 (h.forall_map y hy)).2⟩

/-- The computed median, against the exact one. -/
theorem computeMedian_error (h : Moderate values M) :
    (computeMedian (sortAsc values)).isFinite = true ∧
      (median (values.map toReal) = 0 → toReal (computeMedian (sortAsc values)) = 0) ∧
      (2⁻¹ ^ 100 ≤ |median (values.map toReal)| → |toReal (computeMedian (sortAsc values)) - median (values.map toReal)| ≤
        3 * (eps * |median (values.map toReal)|)) := by
  have hfinite := (h.of_perm (sortAsc_perm values)).isFinite
  have hmedian : (sort (values.map toReal)).getD ((values.length - 1) / 2) 0 + (sort (values.map toReal)).getD (values.length / 2) 0 =
      2 * median (values.map toReal) := by
    rw [median, List.length_map, Nat.cast_ofNat]
    ring
  have htwo := h.two_le
  rw [computeMedian, length_sortAsc, if_neg (by omega)]
  split
  case isTrue hodd =>
    have hmid : values.length / 2 = (values.length - 1) / 2 := by omega
    rw [hmid, ← toReal_getD_sortAsc h.isFinite] at hmedian
    have heq : toReal ((sortAsc values).getD ((values.length - 1) / 2) 0) = median (values.map toReal) := by linarith
    refine ⟨isFinite_getD hfinite _, fun h0 => heq.trans h0, fun _ => ?_⟩
    rw [heq, sub_self, abs_zero]
    exact mul_nonneg three_pos.le (mul_nonneg eps_pos.le (abs_nonneg _))
  case isFalse heven =>
    have hmid : (values.length - 1) / 2 = values.length / 2 - 1 := by omega
    rw [hmid, ← toReal_getD_sortAsc h.isFinite, ← toReal_getD_sortAsc h.isFinite] at hmedian
    exact near_half (isFinite_getD hfinite _) (isFinite_getD hfinite _) hmedian ((abs_median_le h).trans h.le)

end Median
end Weather
end InfraVeritas
