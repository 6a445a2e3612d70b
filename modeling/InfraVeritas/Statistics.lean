import InfraVeritas.Lib.Dispersion
import InfraVeritas.Persistence
import Mathlib.Analysis.Real.Sqrt

/-!
# `StatisticsModule`

The two queries over `device_readings_history` and what the module makes of their rows, in exact arithmetic:
the numbers are those of a field with a square root. `NULL` is `none`, also for the mean of no rows and the
deviation of fewer than two.
-/

namespace InfraVeritas
open Checks Dispersion Validation

namespace Statistics

/-- The columns that the queries read; `submitted_at` in milliseconds. -/
structure Row where
  submitted_at : Int
  device_id : BigInt64
  ensemble_status : EnsembleStatus
  total_energy_mwh : Int
deriving DecidableEq

section Queries
variable {K : Type} [DivisionRing K]

/-- `AVG`. -/
def avg (xs : List Int) : Option K := if xs = [] then none else some (mean (xs.map Int.cast))

/-- `STDDEV`, of the sample. -/
def stddev (sqrt : K → K) (xs : List Int) : Option K :=
  if xs.length < 2 then none else some (sqrt (sumSq (xs.map Int.cast) / (xs.length - 1)))

def energies (rows : List Row) : List Int := rows.map (·.total_energy_mwh)

structure ZScoreRow (K : Type) where
  mean : Option K
  std : Option K
  n : Nat

structure DriftRow (K : Type) where
  recent_mean : Option K
  baseline_mean : Option K
  baseline_std : Option K

structure DriftSummary (K : Type) where
  drift : Bool
  magnitude : K
deriving DecidableEq

def zScoreQuery (sqrt : K → K) (history : List Row) (device : BigInt64) (windowStart : Int) : ZScoreRow K :=
  let rows := history.filter fun r => r.device_id = device ∧ r.submitted_at ≥ windowStart * 1000 ∧
    r.ensemble_status ∈ [.ok, .degraded]
  ⟨avg (energies rows), stddev sqrt (energies rows), rows.length⟩

def recent (now : Int) (rows : List Row) : List Int :=
  energies (rows.filter fun r => r.submitted_at ≥ now - DAY_MS)

def baseline (now : Int) (rows : List Row) : List Int :=
  energies (rows.filter fun r => r.submitted_at ≥ now - 7 * DAY_MS ∧ r.submitted_at < now - DAY_MS)

def week (now : Int) (rows : List Row) : List Int :=
  energies (rows.filter fun r => r.submitted_at ≥ now - 7 * DAY_MS)

def driftQuery (sqrt : K → K) (history : List Row) (device : BigInt64) (now : Int) : DriftRow K :=
  let rows := history.filter (·.device_id = device)
  ⟨avg (recent now rows), avg (baseline now rows), stddev sqrt (week now rows)⟩

variable [LinearOrder K]

def DRIFT_THRESHOLD_STD : K := ((2 : Nat) : K)

def computeEnergyZScore (sqrt : K → K) (history : List Row) (now deviceId currentEnergyMwh windowSeconds : Int) :
    Except DbError (Option K) := do
  let windowStart := now / 1000 - windowSeconds
  let device ← int8in (decimal deviceId)
  let row := zScoreQuery sqrt history device windowStart
  match row.mean, row.std with
  | some mean, some std =>
    if row.n < MIN_SAMPLES ∨ std = 0 then return none else return some ((currentEnergyMwh - mean) / std)
  | _, _ => return none

def DriftRow.summary (row : DriftRow K) : DriftSummary K :=
  match row.recent_mean, row.baseline_mean, row.baseline_std with
  | some recent_mean, some baseline_mean, some baseline_std =>
    if baseline_std = 0 then ⟨false, 0⟩
    else
      let magnitude := |recent_mean - baseline_mean| / baseline_std
      ⟨decide (magnitude > DRIFT_THRESHOLD_STD), magnitude⟩
  | _, _, _ => ⟨false, 0⟩

def detectDrift (sqrt : K → K) (history : List Row) (now deviceId : Int) : Except DbError (DriftSummary K) := do
  let device ← int8in (decimal deviceId)
  return (driftQuery sqrt history device now).summary

end Queries

/-! ### Aggregates -/

section Aggregates
variable {K : Type} [DivisionRing K] {sqrt : K → K} {xs ys : List Int} {rows rows' : List Row} {now : Int}

theorem avg_perm (h : xs.Perm ys) : (avg xs : Option K) = avg ys := by
  rw [avg, avg, mean_perm (h.map _)]
  by_cases hx : xs = []
  · subst hx
    rw [if_pos rfl, if_pos h.nil_eq.symm]
  · have hy : ys ≠ [] := fun hy => hx (by rw [hy] at h; exact h.eq_nil)
    rw [if_neg hx, if_neg hy]

theorem stddev_perm (h : xs.Perm ys) : stddev sqrt xs = stddev sqrt ys := by
  rw [stddev, stddev, h.length_eq, sumSq_perm (h.map _)]

theorem energies_filter_append (p : Row → Prop) [DecidablePred p] :
    energies ((rows ++ rows').filter p) = energies (rows.filter p) ++ energies (rows'.filter p) := by
  rw [List.filter_append, energies, List.map_append]
  rfl

theorem energies_filter_cons (p : Row → Prop) [DecidablePred p] (r : Row) :
    energies ((r :: rows).filter p) =
      if p r then r.total_energy_mwh :: energies (rows.filter p) else energies (rows.filter p) := by
  simp only [energies, List.filter_cons, decide_eq_true_eq]
  split <;> rfl

theorem recent_append : recent now (rows ++ rows') = recent now rows ++ recent now rows' := energies_filter_append _

theorem baseline_append : baseline now (rows ++ rows') = baseline now rows ++ baseline now rows' :=
  energies_filter_append _

theorem recent_cons (r : Row) : recent now (r :: rows) =
    if r.submitted_at ≥ now - DAY_MS then r.total_energy_mwh :: recent now rows else recent now rows :=
  energies_filter_cons _ r

theorem baseline_cons (r : Row) : baseline now (r :: rows) =
    if r.submitted_at ≥ now - 7 * DAY_MS ∧ r.submitted_at < now - DAY_MS then r.total_energy_mwh :: baseline now rows
    else baseline now rows := energies_filter_cons _ r

theorem week_cons (r : Row) : week now (r :: rows) =
    if r.submitted_at ≥ now - 7 * DAY_MS then r.total_energy_mwh :: week now rows else week now rows :=
  energies_filter_cons _ r

/-- The window of the deviation is the two windows of the means together. -/
theorem week_perm (now : Int) (rows : List Row) : (week now rows).Perm (recent now rows ++ baseline now rows) := by
  induction rows with
  | nil => exact .refl _
  | cons r rows ih =>
    rw [recent_cons, baseline_cons, week_cons]
    by_cases hday : r.submitted_at ≥ now - DAY_MS
    · have hweek : r.submitted_at ≥ now - 7 * DAY_MS := by rw [DAY_MS] at hday ⊢; omega
      rw [if_pos hday, if_pos hweek, if_neg (by omega)]
      exact ih.cons _
    · rw [if_neg hday]
      by_cases hweek : r.submitted_at ≥ now - 7 * DAY_MS
      · rw [if_pos hweek, if_pos ⟨hweek, by omega⟩]
        exact (ih.cons _).trans List.perm_middle.symm
      · rw [if_neg hweek, if_neg (by omega)]
        exact ih

end Aggregates

/-! ### Results -/

section Results
variable {K : Type} [DivisionRing K] [LinearOrder K] {sqrt : K → K} {history history' : List Row} {now deviceId : Int}

theorem detectDrift_of_isI64 (h : IsI64 deviceId) :
    detectDrift sqrt history now deviceId = .ok (driftQuery sqrt history ⟨deviceId, h⟩ now).summary := by
  rw [detectDrift, int8in_decimal h]
  rfl

/-- A device id outside `BIGINT` is refused, whatever the history is. -/
theorem detectDrift_of_not_isI64 (h : ¬ IsI64 deviceId) :
    detectDrift sqrt history now deviceId = detectDrift sqrt history' now deviceId := by
  rcases hd : int8in (decimal deviceId) with err | device
  · rw [detectDrift, detectDrift, hd]
    rfl
  · have hv := int8in_decimal_eq_ok.1 hd
    exact absurd (hv ▸ device.property) h

end Results

/-! ### Drift over the reals -/

section Real
variable {xs ys zs : List Int}

theorem summary_of_eq {row : DriftRow ℝ} (h : row.recent_mean = row.baseline_mean) : row.summary = ⟨false, 0⟩ := by
  obtain ⟨r, b, s⟩ := row
  obtain rfl : r = b := h
  rcases r with _ | r <;> rcases s with _ | s
  · rfl
  · rfl
  · rfl
  · rw [DriftRow.summary]
    dsimp only
    split
    · rfl
    · simp [DRIFT_THRESHOLD_STD]

/-- The module's numbers where both groups have rows and not all of them are equal. -/
theorem summary_of_ne (hx : xs ≠ []) (hy : ys ≠ []) (hz : zs.Perm (xs ++ ys))
    (hpos : 0 < sumSq (zs.map (Int.cast : ℤ → ℝ))) :
    0 < sumSq (zs.map (Int.cast : ℤ → ℝ)) / (zs.length - 1) ∧
    (⟨avg xs, avg ys, stddev Real.sqrt zs⟩ : DriftRow ℝ).summary =
      ⟨decide (|mean (xs.map Int.cast) - mean (ys.map Int.cast)| / √(sumSq (zs.map Int.cast) / (zs.length - 1)) > 2),
        |mean (xs.map Int.cast) - mean (ys.map Int.cast)| / √(sumSq (zs.map Int.cast) / (zs.length - 1))⟩ := by
  have hlen : 2 ≤ zs.length := by
    have h1 := List.length_pos_iff.2 hx
    have h2 := List.length_pos_iff.2 hy
    rw [hz.length_eq, List.length_append]
    omega
  have hn : (0 : ℝ) < zs.length - 1 := by
    have : (2 : ℝ) ≤ zs.length := by exact_mod_cast hlen
    linarith
  have hvar := div_pos hpos hn
  have hstd : √(sumSq (zs.map (Int.cast : ℤ → ℝ)) / (zs.length - 1)) ≠ 0 := (Real.sqrt_pos.2 hvar).ne'
  refine ⟨hvar, ?_⟩
  rw [avg, avg, stddev, if_neg hx, if_neg hy, if_neg (by omega), DriftRow.summary]
  dsimp only
  rw [if_neg hstd]
  rfl

theorem drift_iff (hx : xs ≠ []) (hy : ys ≠ []) (hz : zs.Perm (xs ++ ys))
    (hpos : 0 < sumSq (zs.map (Int.cast : ℤ → ℝ))) :
    (⟨avg xs, avg ys, stddev Real.sqrt zs⟩ : DriftRow ℝ).summary.drift = true ↔
      4 * (sumSq (zs.map (Int.cast : ℤ → ℝ)) / (zs.length - 1)) <
        (mean (xs.map (Int.cast : ℤ → ℝ)) - mean (ys.map Int.cast)) ^ 2 := by
  obtain ⟨hvar, hsum⟩ := summary_of_ne hx hy hz hpos
  set v := sumSq (zs.map (Int.cast : ℤ → ℝ)) / (zs.length - 1)
  set δ := mean (xs.map (Int.cast : ℤ → ℝ)) - mean (ys.map Int.cast)
  have hsqrt := Real.sqrt_pos.2 hvar
  have hsq : (2 * √v) ^ 2 = 4 * v := by
    rw [mul_pow, Real.sq_sqrt hvar.le]
    norm_num
  rw [hsum, decide_eq_true_eq, gt_iff_lt, lt_div_iff₀ hsqrt, ← sq_lt_sq₀ (by positivity) (abs_nonneg δ), sq_abs, hsq]

end Real

namespace SampleHistory

def panel : BigInt64 := ⟨7, by decide⟩
def noon : Int := 1700049600000

end SampleHistory
end Statistics
end InfraVeritas
