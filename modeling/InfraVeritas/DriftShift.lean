import InfraVeritas.Statistics

/-!
# A drift that grows

The deviation that the drift is measured in is taken over the whole week, the recent rows included. A shift of
the recent rows enters it as well: its square is the squared distance of the means by a factor that depends
on the numbers of rows alone, and the square within the groups.
-/

namespace InfraVeritas
open Dispersion Validation

namespace Statistics
variable {device : BigInt64}

def shiftRow (device : BigInt64) (now δ : Int) (r : Row) : Row :=
  if r.device_id = device ∧ r.submitted_at ≥ now - DAY_MS then { r with total_energy_mwh := r.total_energy_mwh + δ } else r

/-- The recent rows of the device with `δ` added to their energies. -/
def shiftRecent (history : List Row) (device : BigInt64) (now δ : Int) : List Row := history.map (shiftRow device now δ)

theorem device_id_shiftRow (device : BigInt64) (now δ : Int) (r : Row) :
    (shiftRow device now δ r).device_id = r.device_id := by
  rw [shiftRow]
  split <;> rfl

theorem filter_shiftRecent (history : List Row) (device : BigInt64) (now δ : Int) :
    (shiftRecent history device now δ).filter (·.device_id = device) =
      shiftRecent (history.filter (·.device_id = device)) device now δ := by
  rw [shiftRecent, List.filter_map, shiftRecent]
  congr 1
  refine List.filter_congr ?_
  intro r _
  rw [Function.comp_apply, device_id_shiftRow]

theorem windows_shiftRecent (now : Int) {rows : List Row} (h : ∀ r ∈ rows, r.device_id = device) (δ : Int) :
    recent now (shiftRecent rows device now δ) = (recent now rows).map (· + δ) ∧
      baseline now (shiftRecent rows device now δ) = baseline now rows := by
  induction rows with
  | nil => exact ⟨rfl, rfl⟩
  | cons r rows ih =>
    obtain ⟨hr, hrs⟩ := List.forall_mem_cons.1 h
    obtain ⟨ihr, ihb⟩ := ih hrs
    rw [shiftRecent, List.map_cons, ← shiftRecent, recent_cons, recent_cons, baseline_cons, baseline_cons, ihr, ihb]
    by_cases hday : r.submitted_at ≥ now - DAY_MS
    · have hrow : shiftRow device now δ r = { r with total_energy_mwh := r.total_energy_mwh + δ } := if_pos ⟨hr, hday⟩
      rw [hrow]
      dsimp only
      rw [if_pos hday, if_pos hday, if_neg (by omega), if_neg (by omega)]
      exact ⟨rfl, rfl⟩
    · have hrow : shiftRow device now δ r = r := if_neg fun hc => hday hc.2
      rw [hrow, if_neg hday, if_neg hday]
      exact ⟨rfl, rfl⟩

section Real
variable {xs ys zs : List Int}

theorem map_cast_add (xs : List Int) (δ : Int) :
    (xs.map (· + δ)).map (Int.cast : ℤ → ℝ) = (xs.map Int.cast).map (· + (δ : ℝ)) := by
  rw [List.map_map, List.map_map]
  refine List.map_congr_left ?_
  intro x _
  simp

/-- The squared deviations within the two groups. -/
noncomputable def within (xs ys : List Int) : ℝ := sumSq (xs.map (Int.cast : ℤ → ℝ)) + sumSq (ys.map (Int.cast : ℤ → ℝ))

theorem within_pos (xs : List Int) (hy : ∃ a ∈ ys, ∃ b ∈ ys, a ≠ b) : 0 < within xs ys := by
  obtain ⟨a, ha, b, hb, hne⟩ := hy
  refine add_pos_of_nonneg_of_pos (sumSq_nonneg _) (sumSq_pos_iff.2 ?_)
  exact ⟨a, List.mem_map_of_mem ha, b, List.mem_map_of_mem hb, fun h => hne (Int.cast_injective h)⟩

/-- The threshold on squares: the distance of the means enters the deviation it is compared with. -/
theorem drift_shift_iff (hx : xs ≠ []) (hy : ∃ a ∈ ys, ∃ b ∈ ys, a ≠ b) (δ : Int)
    (hz : zs.Perm (xs.map (· + δ) ++ ys)) :
    (⟨avg (xs.map (· + δ)), avg ys, stddev Real.sqrt zs⟩ : DriftRow ℝ).summary.drift = true ↔
      4 * (xs.length + ys.length) * within xs ys <
        (((xs.length : ℝ) - ys.length) ^ 2 - (xs.length + ys.length)) *
          (mean (xs.map (Int.cast : ℤ → ℝ)) - mean (ys.map Int.cast) + δ) ^ 2 := by
  have hys : ys ≠ [] := by
    rintro rfl
    obtain ⟨a, ha, -⟩ := hy
    cases ha
  have hxr : xs.map (Int.cast : ℤ → ℝ) ≠ [] := by simpa using hx
  have hyr : ys.map (Int.cast : ℤ → ℝ) ≠ [] := by simpa using hys
  have hxδ : (xs.map (Int.cast : ℤ → ℝ)).map (· + (δ : ℝ)) ≠ [] := by simpa using hx
  set m : ℝ := (xs.length : ℝ)
  set n : ℝ := (ys.length : ℝ)
  have hm : 1 ≤ m := Nat.one_le_cast.2 (List.length_pos_iff.2 hx)
  have hn : 1 ≤ n := Nat.one_le_cast.2 (List.length_pos_iff.2 hys)
  set Δ := mean (xs.map (Int.cast : ℤ → ℝ)) - mean (ys.map Int.cast) + δ
  have hmean : mean ((xs.map (· + δ)).map (Int.cast : ℤ → ℝ)) - mean (ys.map Int.cast) = Δ := by
    rw [map_cast_add, mean_map_add hxr]
    ring
  have hsum : sumSq (zs.map (Int.cast : ℤ → ℝ)) = within xs ys + m * n / (m + n) * Δ ^ 2 := by
    rw [sumSq_perm (hz.map Int.cast), List.map_append, map_cast_add, sumSq_append hxδ hyr, sumSq_map_add hxr,
      mean_map_add hxr, List.length_map, List.length_map, List.length_map, within]
    ring
  have hW := within_pos xs hy
  have hpos : 0 < sumSq (zs.map (Int.cast : ℤ → ℝ)) := by
    rw [hsum]
    positivity
  have hlen : (zs.length : ℝ) = m + n := by
    rw [hz.length_eq, List.length_append, List.length_map, Nat.cast_add]
  rw [drift_iff (by simpa using hx) hys hz hpos, hmean, hsum, hlen]
  have hN : 0 < m + n - 1 := by linarith
  have hN' : 0 < m + n := by linarith
  rw [← mul_div_assoc, div_lt_iff₀ hN]
  have hscale : 4 * (within xs ys + m * n / (m + n) * Δ ^ 2) * (m + n) =
      4 * (m + n) * within xs ys + 4 * (m * n) * Δ ^ 2 := by
    field_simp
  rw [← mul_lt_mul_iff_of_pos_right hN', hscale]
  constructor
  · intro h
    linarith
  · intro h
    linarith

theorem driftQuery_shiftRecent (history : List Row) (device : BigInt64) (now δ : Int) :
    ∃ zs, zs.Perm ((recent now (history.filter (·.device_id = device))).map (· + δ) ++
        baseline now (history.filter (·.device_id = device))) ∧
      driftQuery Real.sqrt (shiftRecent history device now δ) device now =
        ⟨avg ((recent now (history.filter (·.device_id = device))).map (· + δ)),
          avg (baseline now (history.filter (·.device_id = device))), stddev Real.sqrt zs⟩ := by
  have hdev : ∀ r ∈ history.filter (·.device_id = device), r.device_id = device := fun r hr => by
    simpa using (List.mem_filter.1 hr).2
  obtain ⟨hr, hb⟩ := windows_shiftRecent now hdev δ
  have hw := week_perm now (shiftRecent (history.filter (·.device_id = device)) device now δ)
  rw [hr, hb] at hw
  refine ⟨_, hw, ?_⟩
  simp only [driftQuery, filter_shiftRecent, hr, hb]

/-- The same shift is reported whenever it is large enough, exactly if the numbers of recent and baseline rows are
far enough apart. -/
theorem drift_unmasked_iff (history : List Row) (device : BigInt64) (now : Int)
    (hrecent : recent now (history.filter (·.device_id = device)) ≠ [])
    (hbaseline : ∃ a ∈ baseline now (history.filter (·.device_id = device)),
      ∃ b ∈ baseline now (history.filter (·.device_id = device)), a ≠ b) :
    (∃ D : Int, ∀ δ ≥ D, ∃ summary,
      detectDrift Real.sqrt (shiftRecent history device now δ) now device.val = .ok summary ∧ summary.drift = true) ↔
    ((recent now (history.filter (·.device_id = device))).length : ℤ) +
        (baseline now (history.filter (·.device_id = device))).length <
      ((recent now (history.filter (·.device_id = device))).length -
        (baseline now (history.filter (·.device_id = device))).length : ℤ) ^ 2 := by
  set xs := recent now (history.filter (·.device_id = device))
  set ys := baseline now (history.filter (·.device_id = device))
  have hdrift (δ : Int) : (∃ summary, detectDrift Real.sqrt (shiftRecent history device now δ) now device.val = .ok summary ∧
      summary.drift = true) ↔ 4 * (xs.length + ys.length) * within xs ys <
        (((xs.length : ℝ) - ys.length) ^ 2 - (xs.length + ys.length)) *
          (mean (xs.map (Int.cast : ℤ → ℝ)) - mean (ys.map Int.cast) + δ) ^ 2 := by
    obtain ⟨zs, hz, hq⟩ := driftQuery_shiftRecent history device now δ
    rw [← drift_shift_iff hrecent hbaseline δ hz, ← hq, detectDrift_of_isI64 device.property]
    exact ⟨fun ⟨summary, hs, hd⟩ => (Except.ok.inj hs) ▸ hd, fun hd => ⟨_, rfl, hd⟩⟩
  simp only [hdrift]
  set gap : ℝ := mean (xs.map (Int.cast : ℤ → ℝ)) - mean (ys.map Int.cast)
  have hW := within_pos xs hbaseline
  have hm : (1 : ℝ) ≤ xs.length := Nat.one_le_cast.2 (List.length_pos_iff.2 hrecent)
  have hbound : 0 < 4 * ((xs.length : ℝ) + ys.length) * within xs ys := by positivity
  constructor
  · rintro ⟨D, hD⟩
    by_contra hle
    have hle' : ((xs.length : ℝ) - ys.length) ^ 2 - (xs.length + ys.length) ≤ 0 := by
      have : ((xs.length : ℝ) - ys.length) ^ 2 ≤ xs.length + ys.length := by exact_mod_cast not_lt.1 hle
      linarith
    have hprod := mul_nonpos_of_nonpos_of_nonneg hle' (sq_nonneg (gap + D))
    linarith [hD D le_rfl]
  · intro hlt
    have hge : 1 ≤ ((xs.length : ℝ) - ys.length) ^ 2 - (xs.length + ys.length) := by
      have : (xs.length : ℝ) + ys.length + 1 ≤ ((xs.length : ℝ) - ys.length) ^ 2 := by exact_mod_cast hlt
      linarith
    -- beyond this the square alone exceeds the bound
    refine ⟨⌈1 + 4 * ((xs.length : ℝ) + ys.length) * within xs ys - gap⌉, fun δ hδ => ?_⟩
    have hfar : 1 + 4 * ((xs.length : ℝ) + ys.length) * within xs ys ≤ gap + δ := by
      have := Int.ceil_le.1 hδ
      linarith
    have hsq : 4 * ((xs.length : ℝ) + ys.length) * within xs ys < (gap + δ) ^ 2 := by nlinarith
    have hmul : (gap + δ) ^ 2 ≤ (((xs.length : ℝ) - ys.length) ^ 2 - (xs.length + ys.length)) * (gap + δ) ^ 2 :=
      le_mul_of_one_le_left (sq_nonneg _) hge
    linarith

end Real

namespace SampleHistory

def rowAt (submitted_at energy : Int) : Row := ⟨submitted_at, panel, .ok, energy⟩

/-- One recent row, five in the baseline. -/
def steady : List Row := rowAt noon 10 :: [9, 10, 11, 10, 10].map (rowAt (noon - 2 * DAY_MS))

/-- Two recent rows, two in the baseline. -/
def balanced : List Row := [rowAt noon 10, rowAt noon 10, rowAt (noon - 2 * DAY_MS) 9, rowAt (noon - 2 * DAY_MS) 11]

end SampleHistory

open SampleHistory in
theorem drift_unmasked_iff_sample :
    recent noon (steady.filter (·.device_id = panel)) = [10] ∧
    baseline noon (steady.filter (·.device_id = panel)) = [9, 10, 11, 10, 10] ∧
    ∃ D : Int, ∀ δ ≥ D, ∃ summary,
      detectDrift Real.sqrt (shiftRecent steady panel noon δ) noon panel.val = .ok summary ∧ summary.drift = true := by
  have hr : recent noon (steady.filter (·.device_id = panel)) = [10] := by decide +kernel
  have hb : baseline noon (steady.filter (·.device_id = panel)) = [9, 10, 11, 10, 10] := by decide +kernel
  refine ⟨hr, hb, (drift_unmasked_iff steady panel noon (by simp [hr]) ?_).2 ?_⟩
  · rw [hb]
    exact ⟨9, by simp, 10, by simp, by decide⟩
  · rw [hr, hb]
    decide

open SampleHistory in
/-- With two recent and two baseline rows no shift is large enough. -/
theorem drift_masked :
    recent noon (balanced.filter (·.device_id = panel)) = [10, 10] ∧
    baseline noon (balanced.filter (·.device_id = panel)) = [9, 11] ∧
    ∀ δ : Int, ∀ summary,
      detectDrift Real.sqrt (shiftRecent balanced panel noon δ) noon panel.val = .ok summary → summary.drift = false := by
  have hr : recent noon (balanced.filter (·.device_id = panel)) = [10, 10] := by decide +kernel
  have hb : baseline noon (balanced.filter (·.device_id = panel)) = [9, 11] := by decide +kernel
  have hne : ∃ a ∈ ([9, 11] : List Int), ∃ b ∈ ([9, 11] : List Int), a ≠ b := ⟨9, by simp, 11, by simp, by decide⟩
  refine ⟨hr, hb, fun δ summary hs => ?_⟩
  obtain ⟨zs, hz, hq⟩ := driftQuery_shiftRecent balanced panel noon δ
  rw [hr, hb] at hz hq
  rw [detectDrift_of_isI64 panel.property, hq] at hs
  obtain rfl := Except.ok.inj hs
  have hW := within_pos [10, 10] hne
  refine Bool.eq_false_iff.2 ?_
  intro hd
  rw [drift_shift_iff (by simp) hne δ hz] at hd
  norm_num at hd
  nlinarith [sq_nonneg (mean (([10, 10] : List Int).map (Int.cast : ℤ → ℝ)))]

end Statistics
end InfraVeritas
