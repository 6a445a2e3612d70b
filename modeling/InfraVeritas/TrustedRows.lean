import InfraVeritas.Statistics

/-!
# What the statistics learn from

The module excludes `divergent` and `unavailable` rows from its baselines. The z-score does: it is the same for
histories with the same trusted rows. The drift has no such condition, and untrusted rows can give it any
appearance: with them the recent rows and the baseline can be made the same multiset, or moved apart.
-/

namespace InfraVeritas
open Dispersion Validation

namespace Statistics

/-- The statuses of a baseline. -/
def trusted (history : List Row) : List Row := history.filter fun r => r.ensemble_status ∈ [.ok, .degraded]

/-- The histories differ in `divergent` and `unavailable` rows only. -/
def SameTrusted (history history' : List Row) : Prop := (trusted history).Perm (trusted history')

/-- The rows of the device in the last seven days that are not trusted. -/
def untrustedWeek (history : List Row) (device : BigInt64) (now : Int) : List Row :=
  history.filter fun r => r.device_id = device ∧ r.submitted_at ≥ now - 7 * DAY_MS ∧ r.ensemble_status ∉ [.ok, .degraded]

variable {history history' : List Row} {now deviceId : Int} {device : BigInt64}

section Queries
variable {K : Type} [DivisionRing K] {sqrt : K → K}

theorem zScoreQuery_congr (h : SameTrusted history history') (device : BigInt64) (windowStart : Int) :
    zScoreQuery sqrt history device windowStart = zScoreQuery sqrt history' device windowStart := by
  have hfilter (history : List Row) : (history.filter fun r => r.device_id = device ∧
      r.submitted_at ≥ windowStart * 1000 ∧ r.ensemble_status ∈ [.ok, .degraded]) =
      (trusted history).filter fun r => r.device_id = device ∧ r.submitted_at ≥ windowStart * 1000 := by
    rw [trusted, List.filter_filter]
    refine List.filter_congr ?_
    intro r _
    simp only [← Bool.decide_and, and_assoc]
  have hrows := h.filter fun r => r.device_id = device ∧ r.submitted_at ≥ windowStart * 1000
  have henergies : (energies ((trusted history).filter fun r => r.device_id = device ∧ r.submitted_at ≥ windowStart * 1000)).Perm
      (energies ((trusted history').filter fun r => r.device_id = device ∧ r.submitted_at ≥ windowStart * 1000)) :=
    hrows.map _
  simp only [zScoreQuery, hfilter]
  rw [avg_perm henergies, stddev_perm henergies, hrows.length_eq]

theorem filter_perm_of_trusted {p : Row → Prop} [DecidablePred p] (h : SameTrusted history history')
    (hu : (untrustedWeek history device now).Perm (untrustedWeek history' device now))
    (hp : ∀ r, p r → r.device_id = device ∧ r.submitted_at ≥ now - 7 * DAY_MS) :
    (history.filter fun r => p r).Perm (history'.filter fun r => p r) := by
  have hsplit (history : List Row) : (history.filter fun r => p r).Perm
      ((trusted history).filter (fun r => p r) ++ (untrustedWeek history device now).filter fun r => p r) := by
    have htrusted : (history.filter fun r => p r).filter (fun r => r.ensemble_status ∈ [.ok, .degraded]) =
        (trusted history).filter fun r => p r := List.filter_comm ..
    have hrest : (history.filter fun r => p r).filter (fun r => ! decide (r.ensemble_status ∈ [.ok, .degraded])) =
        (untrustedWeek history device now).filter fun r => p r := by
      rw [untrustedWeek, List.filter_filter, List.filter_filter]
      refine List.filter_congr ?_
      intro r _
      by_cases hr : p r
      · obtain ⟨hd, hw⟩ := hp r hr
        simp [hr, hd, hw]
      · simp [hr]
    rw [← htrusted, ← hrest]
    exact (List.filter_append_perm _ _).symm
  exact (hsplit history).trans (((h.filter _).append (hu.filter _)).trans (hsplit history').symm)

theorem filter_device (history : List Row) (device : BigInt64) (p : Row → Prop) [DecidablePred p] :
    (history.filter (·.device_id = device)).filter (fun r => p r) = history.filter fun r => r.device_id = device ∧ p r := by
  rw [List.filter_filter]
  refine List.filter_congr ?_
  intro r _
  simp [and_comm]

theorem driftQuery_congr (h : SameTrusted history history')
    (hu : (untrustedWeek history device now).Perm (untrustedWeek history' device now)) :
    driftQuery sqrt history' device now = driftQuery sqrt history device now := by
  have hperm (p : Row → Prop) [DecidablePred p] (hp : ∀ r, p r → r.submitted_at ≥ now - 7 * DAY_MS) :
      (energies ((history'.filter (·.device_id = device)).filter fun r => p r)).Perm
        (energies ((history.filter (·.device_id = device)).filter fun r => p r)) := by
    rw [filter_device, filter_device]
    exact (filter_perm_of_trusted h hu fun r hr => ⟨hr.1, hp r hr.2⟩).symm.map _
  have hrecent := hperm (fun r => r.submitted_at ≥ now - DAY_MS) fun r hr => by
    simp only [DAY_MS] at hr ⊢
    omega
  have hbaseline := hperm (fun r => r.submitted_at ≥ now - 7 * DAY_MS ∧ r.submitted_at < now - DAY_MS) fun r hr => hr.1
  have hweek := hperm (fun r => r.submitted_at ≥ now - 7 * DAY_MS) fun r hr => hr
  simp only [driftQuery, recent, baseline, week]
  rw [avg_perm hrecent, avg_perm hbaseline, stddev_perm hweek]

variable [LinearOrder K]

theorem computeEnergyZScore_congr (h : SameTrusted history history') (now deviceId currentEnergyMwh windowSeconds : Int) :
    computeEnergyZScore sqrt history' now deviceId currentEnergyMwh windowSeconds =
      computeEnergyZScore sqrt history now deviceId currentEnergyMwh windowSeconds := by
  simp only [computeEnergyZScore, zScoreQuery_congr h]

end Queries

/-- Rows that nobody vouches for. -/
def untrustedRows (device : BigInt64) (submitted_at : Int) (es : List Int) : List Row :=
  es.map fun e => ⟨submitted_at, device, .divergent, e⟩

/-- The recent energies once more in the baseline, and the baseline's once more as recent. -/
def mixed (device : BigInt64) (now : Int) (rs bs : List Int) : List Row :=
  untrustedRows device now bs ++ untrustedRows device (now - 2 * DAY_MS) rs

theorem sameTrusted_mixed (history : List Row) (device : BigInt64) (now : Int) (rs bs : List Int) :
    SameTrusted history (history ++ mixed device now rs bs) := by
  have hnone : trusted (mixed device now rs bs) = [] := by
    refine List.filter_eq_nil_iff.2 ?_
    intro r hr
    simp only [mixed, untrustedRows, List.mem_append, List.mem_map] at hr
    obtain ⟨e, -, rfl⟩ | ⟨e, -, rfl⟩ := hr <;> simp
  rw [SameTrusted, trusted, trusted, List.filter_append, ← trusted, ← trusted, hnone, List.append_nil]

theorem filter_mixed (rs bs : List Int) :
    (mixed device now rs bs).filter (·.device_id = device) = mixed device now rs bs := by
  refine List.filter_eq_self.2 ?_
  intro r hr
  simp only [mixed, untrustedRows, List.mem_append, List.mem_map] at hr
  obtain ⟨e, -, rfl⟩ | ⟨e, -, rfl⟩ := hr <;> simp

/-- A window has all of the rows that come at one time, or none. -/
theorem energies_filter_untrustedRows (p : Int → Prop) [DecidablePred p] (device : BigInt64) (submitted_at : Int)
    (es : List Int) :
    energies ((untrustedRows device submitted_at es).filter fun r => p r.submitted_at) =
      if p submitted_at then es else [] := by
  induction es with
  | nil => exact (ite_self _).symm
  | cons e es ih =>
    rw [untrustedRows, List.map_cons, energies_filter_cons, ← untrustedRows, ih]
    split <;> rfl

theorem recent_mixed (rs bs : List Int) : recent now (mixed device now rs bs) = bs := by
  have h := energies_filter_untrustedRows (fun ms => ms ≥ now - DAY_MS) device
  rw [mixed, recent_append, recent, recent, h, h, if_pos (by simp only [DAY_MS]; omega),
    if_neg (by simp only [DAY_MS]; omega), List.append_nil]

theorem baseline_mixed (rs bs : List Int) : baseline now (mixed device now rs bs) = rs := by
  have h := energies_filter_untrustedRows (fun ms => ms ≥ now - 7 * DAY_MS ∧ ms < now - DAY_MS) device
  rw [mixed, baseline_append, baseline, baseline, h, h, if_neg (by simp only [DAY_MS]; omega),
    if_pos (by simp only [DAY_MS]; omega), List.nil_append]

theorem driftQuery_mixed (history : List Row) (device : BigInt64) (now : Int) (rs bs : List Int) :
    ∃ zs, zs.Perm ((recent now (history.filter (·.device_id = device)) ++ bs) ++
        (baseline now (history.filter (·.device_id = device)) ++ rs)) ∧
      driftQuery Real.sqrt (history ++ mixed device now rs bs) device now =
        ⟨avg (recent now (history.filter (·.device_id = device)) ++ bs),
          avg (baseline now (history.filter (·.device_id = device)) ++ rs), stddev Real.sqrt zs⟩ := by
  have hr : recent now ((history ++ mixed device now rs bs).filter (·.device_id = device)) =
      recent now (history.filter (·.device_id = device)) ++ bs := by
    rw [List.filter_append, filter_mixed, recent_append, recent_mixed]
  have hb : baseline now ((history ++ mixed device now rs bs).filter (·.device_id = device)) =
      baseline now (history.filter (·.device_id = device)) ++ rs := by
    rw [List.filter_append, filter_mixed, baseline_append, baseline_mixed]
  have hw := week_perm now ((history ++ mixed device now rs bs).filter (·.device_id = device))
  rw [hr, hb] at hw
  refine ⟨_, hw, ?_⟩
  simp only [driftQuery, hr, hb]

/-- Untrusted rows can hide any drift of a device. -/
theorem detectDrift_masked (history : List Row) (now : Int) (h : IsI64 deviceId) :
    ∃ history', SameTrusted history history' ∧ detectDrift Real.sqrt history' now deviceId = .ok ⟨false, 0⟩ := by
  set device : BigInt64 := ⟨deviceId, h⟩
  set rs := recent now (history.filter (·.device_id = device))
  set bs := baseline now (history.filter (·.device_id = device))
  refine ⟨_, sameTrusted_mixed history device now rs bs, ?_⟩
  obtain ⟨zs, -, hq⟩ := driftQuery_mixed history device now rs bs
  rw [detectDrift_of_isI64 h, hq, summary_of_eq (avg_perm List.perm_append_comm)]

/-- Two groups of as many numbers, whose sums differ by one. -/
theorem mean_moved_ne (rs bs : List Int) :
    mean ((rs ++ (bs ++ [1])).map (Int.cast : ℤ → ℝ)) ≠ mean ((bs ++ (rs ++ [0])).map Int.cast) := by
  intro heq
  have hl : (((bs ++ (rs ++ [0])).map (Int.cast : ℤ → ℝ)).length : ℝ) =
      ((rs ++ (bs ++ [1])).map (Int.cast : ℤ → ℝ)).length := by
    simp only [List.length_map, List.length_append, List.length_singleton]
    congr 1
    omega
  have hl0 : (((rs ++ (bs ++ [1])).map (Int.cast : ℤ → ℝ)).length : ℝ) ≠ 0 := by
    refine length_ne_zero ?_
    simp
  rw [mean, mean, hl, div_left_inj' hl0] at heq
  simp only [List.map_append, List.sum_append, List.map_cons, List.map_nil, List.sum_cons, List.sum_nil,
    Int.cast_one, Int.cast_zero] at heq
  linarith

/-- Untrusted rows can move the magnitude away from zero. -/
theorem detectDrift_moved (history : List Row) (now : Int) (h : IsI64 deviceId) :
    ∃ history' summary, SameTrusted history history' ∧
      detectDrift Real.sqrt history' now deviceId = .ok summary ∧ summary.magnitude ≠ 0 := by
  set device : BigInt64 := ⟨deviceId, h⟩
  set rs := recent now (history.filter (·.device_id = device))
  set bs := baseline now (history.filter (·.device_id = device))
  obtain ⟨zs, hz, hq⟩ := driftQuery_mixed history device now (rs ++ [0]) (bs ++ [1])
  refine ⟨_, _, sameTrusted_mixed history device now (rs ++ [0]) (bs ++ [1]),
    detectDrift_of_isI64 h, ?_⟩
  rw [hq]
  change zs.Perm ((rs ++ (bs ++ [1])) ++ (bs ++ (rs ++ [0]))) at hz
  have hpos : 0 < sumSq (zs.map (Int.cast : ℤ → ℝ)) := by
    refine sumSq_pos_iff.2 ⟨(0 : ℤ), List.mem_map_of_mem (hz.mem_iff.2 (by simp)), (1 : ℤ),
      List.mem_map_of_mem (hz.mem_iff.2 (by simp)), by norm_num⟩
  obtain ⟨hvar, hsum⟩ := summary_of_ne (by simp) (by simp) hz hpos
  have hmean := mean_moved_ne rs bs
  change (⟨avg (rs ++ (bs ++ [1])), avg (bs ++ (rs ++ [0])), stddev Real.sqrt zs⟩ : DriftRow ℝ).summary.magnitude ≠ 0
  rw [hsum]
  exact (div_pos (abs_pos.2 (sub_ne_zero.2 hmean)) (Real.sqrt_pos.2 hvar)).ne'

/-- The z-score reads trusted rows only. The drift reads every row: it depends on the untrusted ones for each
device whose id a row can have, and on none of them older than a week. -/
theorem statistics_trusted_iff (history : List Row) (now deviceId : Int) :
    (∀ history', SameTrusted history history' → ∀ now' currentEnergyMwh windowSeconds,
      computeEnergyZScore Real.sqrt history' now' deviceId currentEnergyMwh windowSeconds =
        computeEnergyZScore Real.sqrt history now' deviceId currentEnergyMwh windowSeconds) ∧
    ((∀ history', SameTrusted history history' →
      detectDrift Real.sqrt history' now deviceId = detectDrift Real.sqrt history now deviceId) ↔ ¬ IsI64 deviceId) ∧
    ∀ history' device, device.val = deviceId → SameTrusted history history' →
      (untrustedWeek history device now).Perm (untrustedWeek history' device now) →
      detectDrift Real.sqrt history' now deviceId = detectDrift Real.sqrt history now deviceId := by
  refine ⟨fun history' h now' energy window => computeEnergyZScore_congr h now' deviceId energy window, ⟨?_, ?_⟩, ?_⟩
  · intro hsame h
    obtain ⟨history₁, h₁, hd₁⟩ := detectDrift_masked history now h
    obtain ⟨history₂, summary, h₂, hd₂, hne⟩ := detectDrift_moved history now h
    rw [hsame history₁ h₁] at hd₁
    rw [hsame history₂ h₂, hd₁] at hd₂
    obtain rfl := Except.ok.inj hd₂
    exact hne rfl
  · intro h history' _
    exact detectDrift_of_not_isI64 h
  · rintro history' device rfl h hu
    rw [detectDrift_of_isI64 device.property, detectDrift_of_isI64 device.property, driftQuery_congr h hu]

namespace SampleHistory

/-- Seven submissions for which the weather sources diverged. -/
def divergent : List Row := untrustedRows panel noon [100] ++ untrustedRows panel (noon - 2 * DAY_MS) [0, 0, 0, 0, 0, 0]

end SampleHistory

open SampleHistory in
/-- The rows that must not be learned from make the difference between no drift and drift. -/
theorem drift_from_divergent :
    (∀ r ∈ divergent, r.ensemble_status = .divergent) ∧
    detectDrift Real.sqrt [] noon 7 = .ok ⟨false, 0⟩ ∧
    ∃ summary, detectDrift Real.sqrt divergent noon 7 = .ok summary ∧ summary.drift = true := by
  refine ⟨by simp [divergent, untrustedRows], rfl, _, detectDrift_of_isI64 panel.property, ?_⟩
  have hr : recent noon (divergent.filter (·.device_id = panel)) = [100] := by decide +kernel
  have hb : baseline noon (divergent.filter (·.device_id = panel)) = [0, 0, 0, 0, 0, 0] := by decide +kernel
  have hw : week noon (divergent.filter (·.device_id = panel)) = [100, 0, 0, 0, 0, 0, 0] := by decide +kernel
  have hq : driftQuery Real.sqrt divergent panel noon =
      ⟨avg [100], avg [0, 0, 0, 0, 0, 0], stddev Real.sqrt [100, 0, 0, 0, 0, 0, 0]⟩ := by
    simp only [driftQuery, hr, hb, hw]
  change (driftQuery Real.sqrt divergent panel noon).summary.drift = true
  have hz : [100, 0, 0, 0, 0, 0, 0].Perm ([100] ++ [0, 0, 0, 0, 0, 0] : List Int) := .refl _
  rw [hq, drift_iff (by simp) (by simp) hz]
  · norm_num [sumSq, mean]
  · norm_num [sumSq, mean]

end Statistics
end InfraVeritas
