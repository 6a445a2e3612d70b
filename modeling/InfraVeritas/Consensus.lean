import InfraVeritas.Ensemble
import InfraVeritas.Lib.Dispersion
import InfraVeritas.Lib.OrderStatistics
import Mathlib.Analysis.Real.Sqrt

/-!
# The consensus of the ensemble

In exact arithmetic the code's `computeMedian` and `computeStdDev` are the median and the population deviation
of the points' irradiances. So the consensus ignores the order of the providers, and a minority of them cannot
move it out of the range of the others (`fetch_consensus`).
-/

namespace InfraVeritas
open Dispersion OrderStatistics

namespace Weather

/-- The population standard deviation. -/
noncomputable def populationStdDev (xs : List ℝ) : ℝ := Real.sqrt (sumSq xs / xs.length)

theorem populationStdDev_perm {xs ys : List ℝ} (h : xs.Perm ys) : populationStdDev xs = populationStdDev ys := by
  rw [populationStdDev, populationStdDev, sumSq_perm h, h.length_eq]

theorem populationStdDev_nonneg (xs : List ℝ) : 0 ≤ populationStdDev xs := Real.sqrt_nonneg _

theorem sortAsc_eq (xs : List ℝ) : sortAsc xs = sort xs := rfl

theorem computeMedian_sort (xs : List ℝ) : computeMedian (sort xs) = median xs := by
  rw [computeMedian, median, length_sort]
  split
  case isTrue h0 => simp [List.length_eq_zero_iff.1 h0, sort]
  case isFalse h0 =>
    split
    case isTrue hodd =>
      have hmid : (xs.length - 1) / 2 = xs.length / 2 := by omega
      rw [hmid, ← two_mul, Nat.cast_ofNat, mul_div_cancel_left₀ _ two_ne_zero]
    case isFalse heven =>
      have hmid : xs.length / 2 - 1 = (xs.length - 1) / 2 := by omega
      rw [hmid]

theorem foldl_add_eq (f : ℝ → ℝ) (xs : List ℝ) (a : ℝ) : xs.foldl (fun s x => s + f x) a = a + (xs.map f).sum := by
  induction xs generalizing a with
  | nil => simp
  | cons x xs ih => rw [List.foldl_cons, ih, List.map_cons, List.sum_cons, add_assoc]

theorem computeStdDev_eq {xs : List ℝ} (h : 2 ≤ xs.length) :
    computeStdDev Real.sqrt xs = populationStdDev xs := by
  have hsum : xs.foldl (fun s x => s + x) 0 = xs.sum := by
    have h := foldl_add_eq id xs 0
    rwa [zero_add, List.map_id] at h
  have hsq (m : ℝ) : xs.foldl (fun s x => s + (x - m) * (x - m)) 0 = (xs.map fun x => (x - m) ^ 2).sum := by
    rw [foldl_add_eq (fun x => (x - m) * (x - m)), zero_add]
    simp only [sq]
  rw [computeStdDev, if_neg (by omega), populationStdDev, sumSq, mean]
  dsimp only
  rw [hsum, hsq]

namespace EnsembleProvider
variable {T : Type} {e e' : EnsembleProvider T ℝ} {r r' : EnsembleResult T ℝ}
  {validPoints points' : List (IrradiancePoint T ℝ)} {perProvider perProvider' : List (ProviderResult T ℝ)}

def ghis (validPoints : List (IrradiancePoint T ℝ)) : List ℝ := validPoints.map (·.ghi)

/-- Two points or more, by the median and the deviation of their irradiances. -/
theorem classify_eq (h : 2 ≤ validPoints.length) :
    e.classify Real.sqrt validPoints perProvider =
      ⟨median (ghis validPoints), validPoints.length, some (populationStdDev (ghis validPoints)),
        if median (ghis validPoints) = 0 then none
        else some (populationStdDev (ghis validPoints) / median (ghis validPoints)), perProvider,
        e.spreadStatus (median (ghis validPoints)) (populationStdDev (ghis validPoints))⟩ := by
  have hdev : computeStdDev Real.sqrt (sort (ghis validPoints)) = populationStdDev (ghis validPoints) := by
    rw [computeStdDev_eq (by rwa [length_sort, ghis, List.length_map]), populationStdDev_perm (sort_perm _)]
  rw [classify_of_two_le h]
  dsimp only
  rw [sortAsc_eq, ← ghis, computeMedian_sort, hdev]
  simp only [beq_iff_eq]

/-- The fields of a result that speak of the providers as a whole. -/
structure SameConsensus (r r' : EnsembleResult T ℝ) : Prop where
  ghi : r'.ghi = r.ghi
  stdDev : r'.stdDev = r.stdDev
  relativeDivergence : r'.relativeDivergence = r.relativeDivergence
  providersResponded : r'.providersResponded = r.providersResponded
  status : r'.status = r.status

/-- The same providers in another order, under the same thresholds. -/
structure Reorders (e e' : EnsembleProvider T ℝ) : Prop where
  providers : e.providers.Perm e'.providers
  divergenceThreshold : e'.divergenceThreshold = e.divergenceThreshold
  nightStdThreshold : e'.nightStdThreshold = e.nightStdThreshold

theorem spreadStatus_reorders (h : Reorders e e') (median stdDev : ℝ) :
    e'.spreadStatus median stdDev = e.spreadStatus median stdDev := by
  rw [spreadStatus, spreadStatus, h.divergenceThreshold, h.nightStdThreshold]

theorem classify_perm (h : Reorders e e') (hperm : validPoints.Perm points') :
    SameConsensus (e.classify Real.sqrt validPoints perProvider) (e'.classify Real.sqrt points' perProvider') := by
  rcases validPoints with _ | ⟨a, _ | ⟨b, rest⟩⟩
  case nil =>
    cases hperm.nil_eq
    exact ⟨rfl, rfl, rfl, rfl, rfl⟩
  case cons.nil =>
    cases List.singleton_perm.1 hperm
    exact ⟨rfl, rfl, rfl, rfl, rfl⟩
  case cons.cons =>
    have hghis : (ghis (a :: b :: rest)).Perm (ghis points') := hperm.map _
    have h2 : 2 ≤ (a :: b :: rest).length := by simp
    rw [classify_eq h2, classify_eq (hperm.length_eq ▸ h2), median_perm hghis, populationStdDev_perm hghis,
      spreadStatus_reorders h]
    exact ⟨rfl, rfl, rfl, hperm.length_eq.symm, rfl⟩

/-- Three points or more lie about any part of more than half of them. -/
theorem classify_between (h3 : 3 ≤ validPoints.length) {honest : List ℝ} (hpart : honest.Subperm (ghis validPoints))
    (hmost : 2 * (validPoints.length - honest.length) < validPoints.length) :
    (∃ lo ∈ honest, lo ≤ (e.classify Real.sqrt validPoints perProvider).ghi) ∧
      ∃ hi ∈ honest, (e.classify Real.sqrt validPoints perProvider).ghi ≤ hi := by
  have hlen : (ghis validPoints).length = validPoints.length := List.length_map _
  have hle := hpart.length_le
  rw [classify_eq (by omega)]
  exact ⟨exists_le_median hpart (by omega), exists_median_le hpart (by omega)⟩

theorem points_perm (h : Reorders e e') : e.points.Perm e'.points := h.providers.filterMap _

/-- A fetch resolves where the providers' rejections can be read, and then the order of the providers is immaterial, and so
are the values of a minority of the points. -/
theorem fetch_consensus (e : EnsembleProvider T ℝ) :
    ((∃ r, e.fetch Real.sqrt = .ok r) ↔ ∀ p ∈ e.providers, p.call.Readable) ∧
    ∀ r, e.fetch Real.sqrt = .ok r → r.providersResponded = e.points.length ∧
      (∀ e', Reorders e e' → ∃ r', e'.fetch Real.sqrt = .ok r' ∧ SameConsensus r r') ∧
      ∀ rest arbitrary, e.points.Perm (rest ++ arbitrary) → 3 ≤ e.points.length →
        2 * arbitrary.length < e.points.length →
        (∃ lo ∈ rest, lo.ghi ≤ r.ghi) ∧ ∃ hi ∈ rest, r.ghi ≤ hi.ghi := by
  refine ⟨fetch_resolves_iff e Real.sqrt, fun r hr => ?_⟩
  have hread := (fetch_resolves_iff e Real.sqrt).1 ⟨r, hr⟩
  obtain ⟨entries, -, rfl⟩ := fetch_eq_ok hr
  refine ⟨classify_providersResponded, fun e' h => ?_, fun rest arbitrary hperm h3 hmost => ?_⟩
  · obtain ⟨r', hr'⟩ := (fetch_resolves_iff e' Real.sqrt).2 fun p hp => hread p (h.providers.mem_iff.2 hp)
    obtain ⟨entries', -, rfl⟩ := fetch_eq_ok hr'
    exact ⟨_, hr', classify_perm h (points_perm h)⟩
  · have hpart : (ghis rest).Subperm (ghis e.points) :=
      ((List.sublist_append_left rest arbitrary).map _).subperm.trans (hperm.symm.map _).subperm
    have hlen := hperm.length_eq
    rw [List.length_append] at hlen
    have hrest : (ghis rest).length = rest.length := List.length_map _
    obtain ⟨⟨lo, hlo, hle⟩, hi, hhi, hge⟩ : (∃ lo ∈ ghis rest, lo ≤ (e.classify Real.sqrt e.points entries).ghi) ∧
        ∃ hi ∈ ghis rest, (e.classify Real.sqrt e.points entries).ghi ≤ hi :=
      classify_between h3 hpart (by omega)
    obtain ⟨l, hl, rfl⟩ := List.mem_map.1 hlo
    obtain ⟨h, hh, rfl⟩ := List.mem_map.1 hhi
    exact ⟨⟨l, hl, hle⟩, h, hh, hge⟩

end EnsembleProvider

namespace SamplePoints
open EnsembleProvider

def irradiance (source : Source) (ghi : Int) : IrradiancePoint Int ℝ := ⟨0, ghi, none, none, none, source⟩

/-- The third provider reads a hundred kilowatts, the fourth is down. -/
noncomputable def day : EnsembleProvider Int ℝ :=
  ⟨[⟨"open-meteo", .resolves (irradiance .openMeteo 500)⟩, ⟨"nasa-power", .resolves (irradiance .nasaPower 520)⟩,
      ⟨"pvgis", .resolves (irradiance .pvgis 100000)⟩, ⟨"mirror", .rejects (.error (.ok "down"))⟩],
    DEFAULT_DIVERGENCE_THRESHOLD, DEFAULT_NIGHT_STD_THRESHOLD, List.cons_ne_nil _ _⟩

noncomputable def dayReversed : EnsembleProvider Int ℝ := { day with
  providers := day.providers.reverse
  providers_ne := by simp [day] }

theorem reorders_day : Reorders day dayReversed := ⟨(List.reverse_perm _).symm, rfl, rfl⟩

theorem readable_day : ∀ p ∈ day.providers, p.call.Readable := by
  simp [day, FetchCall.Readable, Rejection.Readable]

theorem points_day :
    day.points = [irradiance .openMeteo 500, irradiance .nasaPower 520] ++ [irradiance .pvgis 100000] := rfl

theorem fetch_consensus_day : ∃ r r', day.fetch Real.sqrt = .ok r ∧ dayReversed.fetch Real.sqrt = .ok r' ∧
    r.providersResponded = 3 ∧ SameConsensus r r' ∧ 500 ≤ r.ghi ∧ r.ghi ≤ 520 := by
  obtain ⟨hresolves, hall⟩ := fetch_consensus day
  obtain ⟨r, hr⟩ := hresolves.2 readable_day
  obtain ⟨hcount, horder, hbetween⟩ := hall r hr
  obtain ⟨r', hr', hsame⟩ := horder dayReversed reorders_day
  obtain ⟨⟨lo, hlo, hle⟩, hi, hhi, hge⟩ := hbetween _ _ (.of_eq points_day) (by decide) (by decide)
  have hrange {p : IrradiancePoint Int ℝ} (hp : p ∈ [irradiance .openMeteo 500, irradiance .nasaPower 520]) :
      500 ≤ p.ghi ∧ p.ghi ≤ 520 := by
    rcases List.mem_pair.1 hp with rfl | rfl <;> norm_num [irradiance]
  exact ⟨r, r', hr, hr', hcount, hsame, (hrange hlo).1.trans hle, hge.trans (hrange hhi).2⟩

end SamplePoints

end Weather
end InfraVeritas
