import InfraVeritas.Providers

/-!
# The law of the closest point

A provider answers with its series' first nearest entry, among those whose time can be read, or with the error
`malformed`. The loops of NASA POWER and of PVGIS skip a time of `null` and obey the law; Open-Meteo's starts
from index 0 and keeps it when every comparison is with `NaN`.
-/

namespace InfraVeritas
open Argmin Edge

namespace Weather

/-- A `ProviderError` of the provider, with the code `malformed`. -/
def Malformed {T V : Type} (name : String) (result : Except ProviderError (IrradiancePoint T V)) : Prop :=
  ∃ message, result = .error (providerError name .malformed message)

/-- The result is the value of the nearest entry at that entry's time, or an error. -/
structure ClosestPointLaw {E V : Type} (name : String) (entries : List E) (ts : E → Option Int) (delta : Int → ℚ)
    (value : E → Option V) (result : Except ProviderError (IrradiancePoint (Option Int) V)) : Prop where
  found : ∀ entry ghi, IsFirstMin (fun e => (ts e).map delta) entries entry → value entry = some ghi →
    ∃ point, result = .ok point ∧ point.timestamp = ts entry ∧ point.ghi = ghi
  missing : ∀ entry, IsFirstMin (fun e => (ts e).map delta) entries entry → value entry = none → Malformed name result
  unparseable : (∀ entry ∈ entries, ts entry = none) → Malformed name result

/-! ### The loop that skips -/

section Scan
variable {E : Type} {parse : E → Option Int} {delta : Int → ℚ} {entries : List E} {entry : E}

/-- The best entry so far as the loop keeps it. -/
def Closest.ofBest (parse : E → Option Int) : Option (E × ℚ) → Closest E
  | none => ⟨none, none, 0⟩
  | some (entry, delta) => ⟨some entry, some delta, (parse entry).getD 0⟩

theorem scan_eq (parse : E → Option Int) (delta : Int → ℚ) (entries : List E) :
    scan parse delta entries = Closest.ofBest parse (firstMin (fun e => (parse e).map delta) entries) := by
  refine foldl_eq_firstMin (Closest.ofBest parse) ?_
  intro best entry
  rcases hp : parse entry with _ | ts
  · simp only [better, hp, Option.map_none]
  · rcases best with _ | ⟨e, d⟩
    · simp [better, hp, Closest.ofBest, closer]
    · simp only [better, hp, Option.map_some, Closest.ofBest, closer, decide_eq_true_eq]
      split
      · simp [hp]
      · rfl

theorem scan_of_isFirstMin (h : IsFirstMin (fun e => (parse e).map delta) entries entry) :
    (scan parse delta entries).entry = some entry ∧ some (scan parse delta entries).ts = parse entry := by
  obtain ⟨k, hk, hmin⟩ := firstMin_eq_some h
  obtain ⟨ts, hts, -⟩ := Option.map_eq_some_iff.1 hk
  rw [scan_eq, hmin]
  exact ⟨rfl, by simp [Closest.ofBest, hts]⟩

theorem scan_of_none (h : ∀ entry ∈ entries, parse entry = none) : (scan parse delta entries).entry = none := by
  rw [scan_eq, firstMin_eq_none.2 fun e he => by rw [h e he]; rfl]
  rfl

end Scan

section Providers
variable {V : Type} {other : String → Option Int} {round : ℚ → ℚ} {targetTs : ℚ}

namespace OpenMeteo
variable {time : List String}

/-- The key of a time and its index. -/
def delta (other : String → Option Int) (round : ℚ → ℚ) (targetTs : ℚ) (entry : String × Nat) : Option ℚ :=
  (seconds other entry.1).map (distance round targetTs)

def ofBest : Option ((String × Nat) × ℚ) → Nat × Option ℚ
  | none => (0, none)
  | some ((_, i), delta) => (i, some delta)

theorem closestIdx_eq :
    closestIdx other round time targetTs = (ofBest (firstMin (delta other round targetTs) time.zipIdx)).1 := by
  refine congrArg Prod.fst (foldl_eq_firstMin ofBest fun best entry => ?_)
  rcases hs : seconds other entry.1 with _ | ts
  · simp [better, delta, hs, closer]
  · rcases best with _ | ⟨⟨t, i⟩, d⟩
    · simp [better, delta, hs, closer, ofBest]
    · simp only [better, delta, hs, Option.map_some, ofBest, closer, decide_eq_true_eq]
      split
      · rfl
      · rfl

theorem closestIdx_of_isFirstMin {t : String} {i : Nat}
    (h : IsFirstMin (delta other round targetTs) time.zipIdx (t, i)) :
    closestIdx other round time targetTs = i ∧ time[i]? = some t := by
  obtain ⟨k, -, hmin⟩ := firstMin_eq_some h
  rw [closestIdx_eq, hmin]
  exact ⟨rfl, List.mem_zipIdx_iff_getElem?.1 h.mem⟩

theorem closestIdx_of_none (h : ∀ entry ∈ time.zipIdx, seconds other entry.1 = none) :
    closestIdx other round time targetTs = 0 := by
  rw [closestIdx_eq, firstMin_eq_none.2 fun entry he => by rw [delta, h entry he]; rfl]
  rfl

/-- Open-Meteo obeys the law unless no time can be read and there is a value at index 0. -/
theorem closest_point_iff (hourly : OpenMeteoHourly V) (hne : hourly.time ≠ []) :
    ClosestPointLaw name hourly.time.zipIdx (fun entry => seconds other entry.1) (distance round targetTs)
        (fun entry => hourly.shortwave_radiation[entry.2]?.join) (findClosestPoint other round hourly targetTs) ↔
      (∃ time ∈ hourly.time, seconds other time ≠ none) ∨ hourly.shortwave_radiation[0]?.join = none := by
  constructor
  · intro law
    by_cases h : ∃ time ∈ hourly.time, seconds other time ≠ none
    · exact .inl h
    · right
      have hnone : ∀ entry ∈ hourly.time.zipIdx, seconds other entry.1 = none := fun entry he => by
        by_contra hs
        exact h ⟨entry.1, List.mem_of_getElem? (List.mem_zipIdx_iff_getElem?.1 he), hs⟩
      obtain ⟨message, hm⟩ := law.unparseable hnone
      rw [findClosestPoint, if_neg hne] at hm
      dsimp only at hm
      rw [closestIdx_of_none hnone] at hm
      rcases hv : hourly.shortwave_radiation[0]?.join with _ | ghi
      · rfl
      · rw [hv] at hm
        cases hm
  · intro h
    refine ⟨fun (t, i) ghi hmin hv => ?_, fun (t, i) hmin hv => ?_, ?_⟩
    · obtain ⟨hidx, ht⟩ := closestIdx_of_isFirstMin hmin
      dsimp only at hv ⊢
      rw [findClosestPoint, if_neg hne]
      dsimp only
      rw [hidx, hv, ht]
      exact ⟨_, rfl, rfl, rfl⟩
    · obtain ⟨hidx, -⟩ := closestIdx_of_isFirstMin hmin
      dsimp only at hv ⊢
      rw [findClosestPoint, if_neg hne]
      dsimp only
      rw [hidx, hv]
      exact ⟨_, rfl⟩
    · intro hnone
      rcases h with ⟨time, ht, hs⟩ | h
      · obtain ⟨i, hi⟩ := List.getElem?_of_mem ht
        exact absurd (hnone (time, i) (List.mem_zipIdx_iff_getElem?.2 hi)) hs
      · rw [findClosestPoint, if_neg hne]
        dsimp only
        rw [closestIdx_of_none hnone, h]
        exact ⟨_, rfl⟩

end OpenMeteo

variable [JsNumber V]

namespace NASAPower

/-- The value at a key, unless it is missing. -/
def valueAt (series : Series V) (key : String) : Option V :=
  (series.entries.lookup key).join.filter fun value => !(value == MISSING_DATA)

theorem closest_point (series : Series V) :
    ClosestPointLaw name (series.entries.map (·.1)) parseNasaKey (distance round targetTs) (valueAt series)
      (findClosestPoint round series targetTs) where
  found key ghi h hv := by
    obtain ⟨hentry, hts⟩ := scan_of_isFirstMin h
    have hne : series.entries.map (·.1) ≠ [] := List.ne_nil_of_mem h.mem
    obtain ⟨hv, hm⟩ := Option.filter_eq_some_iff.1 hv
    have hm : (ghi == MISSING_DATA) = false := by simpa using hm
    rw [findClosestPoint, if_neg hne]
    dsimp only
    rw [hentry]
    dsimp only
    rw [hv]
    dsimp only
    rw [hm, hts]
    exact ⟨_, rfl, rfl, rfl⟩
  missing key h hv := by
    obtain ⟨hentry, -⟩ := scan_of_isFirstMin h
    have hne : series.entries.map (·.1) ≠ [] := List.ne_nil_of_mem h.mem
    rw [findClosestPoint, if_neg hne]
    dsimp only
    rw [hentry]
    dsimp only
    rcases hl : (series.entries.lookup key).join with _ | value
    · exact ⟨_, rfl⟩
    · have hm : (value == MISSING_DATA) = true := by
        rw [valueAt, hl, Option.filter_eq_none_iff] at hv
        simpa using hv value rfl
      dsimp only
      rw [if_pos hm]
      exact ⟨_, rfl⟩
  unparseable h := by
    rw [findClosestPoint]
    split
    · exact ⟨_, rfl⟩
    · dsimp only
      rw [scan_of_none h]
      exact ⟨_, rfl⟩

end NASAPower

namespace PVGIS

theorem closest_point (hourly : List (PVGISHourlyEntry V)) :
    ClosestPointLaw name hourly (fun entry => parsePVGISTime entry.time) (distance round targetTs)
      (fun entry => validNumber entry.G_i) (findClosestPoint round hourly targetTs) where
  found entry ghi h hv := by
    obtain ⟨hentry, hts⟩ := scan_of_isFirstMin h
    obtain ⟨hv, hfin⟩ := Option.filter_eq_some_iff.1 hv
    rw [findClosestPoint, hentry]
    dsimp only
    rw [hv]
    dsimp only
    rw [if_pos hfin, ← hts]
    exact ⟨_, rfl, rfl, rfl⟩
  missing entry h hv := by
    obtain ⟨hentry, -⟩ := scan_of_isFirstMin h
    rw [findClosestPoint, hentry]
    dsimp only
    rcases hg : entry.G_i with _ | ghi
    · exact ⟨_, rfl⟩
    · have hfin : ¬ JsNumber.isFinite ghi = true := by
        rw [hg, validNumber, Option.filter_eq_none_iff] at hv
        exact hv ghi rfl
      dsimp only
      rw [if_neg hfin]
      exact ⟨_, rfl⟩
  unparseable h := by
    rw [findClosestPoint, scan_of_none h]
    exact ⟨_, rfl⟩

end PVGIS

/-- The three laws together, for every series and target. -/
theorem closest_point_law_iff (other : String → Option Int) (round : ℚ → ℚ) (targetTs : ℚ) :
    (∀ hourly : OpenMeteoHourly V, hourly.time ≠ [] →
      (ClosestPointLaw OpenMeteo.name hourly.time.zipIdx (fun entry => OpenMeteo.seconds other entry.1)
          (distance round targetTs) (fun entry => hourly.shortwave_radiation[entry.2]?.join)
          (OpenMeteo.findClosestPoint other round hourly targetTs) ↔
        (∃ time ∈ hourly.time, OpenMeteo.seconds other time ≠ none) ∨ hourly.shortwave_radiation[0]?.join = none)) ∧
    (∀ series : Series V, ClosestPointLaw NASAPower.name (series.entries.map (·.1)) parseNasaKey
      (distance round targetTs) (NASAPower.valueAt series) (NASAPower.findClosestPoint round series targetTs)) ∧
    ∀ hourly : List (PVGISHourlyEntry V), ClosestPointLaw PVGIS.name hourly
      (fun entry => parsePVGISTime entry.time) (distance round targetTs) (fun entry => validNumber entry.G_i)
      (PVGIS.findClosestPoint round hourly targetTs) :=
  ⟨OpenMeteo.closest_point_iff, NASAPower.closest_point, PVGIS.closest_point⟩

end Providers

/-! ### A series without times -/

namespace SamplePoints

instance : JsNumber Int where
  isFinite _ := true
  text := str

def noTimes : OpenMeteoHourly Int := ⟨["n/a"], [some 500], none, none, none⟩

/-- The only time cannot be read, and its value comes back as a point without one. -/
theorem point_without_time :
    OpenMeteo.findClosestPoint (fun _ => none) id noTimes 1778846400 = .ok ⟨none, 500, none, none, none, .openMeteo⟩ ∧
      ¬ ClosestPointLaw OpenMeteo.name noTimes.time.zipIdx (fun entry => OpenMeteo.seconds (fun _ => none) entry.1)
        (distance id 1778846400) (fun entry => noTimes.shortwave_radiation[entry.2]?.join)
        (OpenMeteo.findClosestPoint (fun _ => none) id noTimes 1778846400) := by
  have hpoint : OpenMeteo.findClosestPoint (fun _ => none) id noTimes 1778846400 =
      .ok ⟨none, 500, none, none, none, .openMeteo⟩ := by decide +kernel
  refine ⟨hpoint, ?_⟩
  intro law
  obtain ⟨message, h⟩ := law.unparseable (by decide +kernel)
  rw [hpoint] at h
  cases h

end SamplePoints
end Weather
end InfraVeritas
