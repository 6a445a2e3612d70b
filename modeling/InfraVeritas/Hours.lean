import InfraVeritas.ClosestPoint
import Mathlib.Tactic.Linarith

/-!
# The hours that the providers compare

Against APIs that serve complete series of whole hours, in time order, for just the window that a URL asks for:
Open-Meteo and NASA POWER for a UTC day and PVGIS for a UTC year. The nearest hour is then in all three series,
except in the last half hour of a day, when it is the first hour of the next day.
-/

namespace InfraVeritas
open Argmin Calendar FixedWidth Edge

namespace Weather

/-! ### Days and hours in the formats of the APIs -/

/-- The days of the years 1970 to 9999. -/
def IsDay (D : Int) : Prop := 0 ≤ D ∧ D < 2932897

/-- Year, month and date, the month from 1. -/
def civil (D : Int) : List Nat := [(yearOfDay D).toNat, (monthOfDay D + 1).toNat, (dateOfDay D).toNat]

def isoDate : List Piece := [.digits 4, .text '-', .digits 2, .text '-', .digits 2]

def isoDay (D : Int) : String := String.ofList (write isoDate (civil D))
def compactDay (D : Int) : String := String.ofList (write [.digits 4, .digits 2, .digits 2] (civil D))

/-- `YYYY-MM-DDTHH:00`. -/
def isoHour (D : Int) (h : Nat) : String :=
  String.ofList (write (isoDate ++ [.text 'T', .digits 2, .text ':', .digits 2]) (civil D ++ [h, 0]))

/-- `YYYYMMDDHH`. -/
def compactHour (D : Int) (h : Nat) : String := String.ofList (write nasaKey (civil D ++ [h]))

/-- `YYYYMMDD:HH00`. -/
def colonHour (D : Int) (h : Nat) : String := String.ofList (write pvgisTime (civil D ++ [h, 0]))

section Formats
variable {D : Int} {h : Nat} {other : String → Option Int}

theorem IsDay.year (hD : IsDay D) : 1970 ≤ yearOfDay D ∧ yearOfDay D ≤ 9999 := by
  obtain ⟨h0, h1⟩ := hD
  have hle : (1970 : Int) ≤ yearOfDay D := le_yearOfDay h0
  have hlt : yearOfDay D < 10000 := yearOfDay_lt h1
  omega

theorem date_le (D : Int) : 1 ≤ dateOfDay D ∧ dateOfDay D ≤ 31 := by
  obtain ⟨h0, h1⟩ := monthOfDay_spec D
  obtain ⟨h2, h3⟩ := dateOfDay_spec D
  have h4 := daysInMonth_le (isLeap (yearOfDay D)) h0 h1
  omega

theorem makeDay_civil (hD : IsDay D) :
    makeDay (yearOfDay D).toNat (((monthOfDay D + 1).toNat : Int) - 1) (dateOfDay D).toNat = D := by
  obtain ⟨hy, -⟩ := hD.year
  obtain ⟨hm, -⟩ := monthOfDay_spec D
  obtain ⟨hd, -⟩ := dateOfDay_spec D
  have hyear : ((yearOfDay D).toNat : Int) = yearOfDay D := by omega
  have hmonth : ((monthOfDay D + 1).toNat : Int) - 1 = monthOfDay D := by omega
  have hdate : ((dateOfDay D).toNat : Int) = dateOfDay D := by omega
  rw [hyear, hmonth, hdate, makeDay_ofDay]

theorem fits_civil (hD : IsDay D) :
    (yearOfDay D).toNat < 10 ^ 4 ∧ (monthOfDay D + 1).toNat < 10 ^ 2 ∧ (dateOfDay D).toNat < 10 ^ 2 := by
  obtain ⟨-, hy⟩ := hD.year
  obtain ⟨-, hm⟩ := monthOfDay_spec D
  obtain ⟨-, hd⟩ := date_le D
  omega

theorem dateUTC_civil (hD : IsDay D) (hour minute : Int) :
    dateUTC (yearOfDay D).toNat (((monthOfDay D + 1).toNat : Int) - 1) (dateOfDay D).toNat hour minute / 1000 =
      D * 86400 + hour * 3600 + minute * 60 := by
  obtain ⟨hy, -⟩ := hD.year
  rw [dateUTC, if_neg (by omega), makeDay_civil hD, Int.mul_ediv_cancel _ (by decide)]

theorem parseNasaKey_compactHour (hD : IsDay D) (hh : h < 24) :
    parseNasaKey (compactHour D h) = some (D * 86400 + h * 3600) := by
  obtain ⟨hy, hm, hd⟩ := fits_civil hD
  have hfits : Fits nasaKey (civil D ++ [h]) := ⟨by decide, hy, by decide, hm, by decide, hd, by decide, by omega, rfl⟩
  rw [parseNasaKey, compactHour, String.toList_ofList, read_write hfits]
  simp only [civil, List.cons_append, List.nil_append]
  rw [dateUTC_civil hD]
  simp

theorem parsePVGISTime_colonHour (hD : IsDay D) (hh : h < 24) :
    parsePVGISTime (colonHour D h) = some (D * 86400 + h * 3600) := by
  obtain ⟨hy, hm, hd⟩ := fits_civil hD
  have hfits : Fits pvgisTime (civil D ++ [h, 0]) := ⟨by decide, hy, by decide, hm, by decide, hd, by decide, by omega, by decide, by decide, rfl⟩
  rw [parsePVGISTime, colonHour, String.toList_ofList, read_write hfits]
  simp only [civil, List.cons_append, List.nil_append]
  rw [dateUTC_civil hD]
  simp

theorem getTime_of_read {s : String} {year month date hour minute : Nat}
    (hread : read isoMinute s.toList = some [year, month, date, hour, minute])
    (hvalid : 1 ≤ month ∧ month ≤ 12 ∧ 1 ≤ date ∧ (date : Int) ≤ daysInMonth (isLeap year) (month - 1) ∧
      (hour < 24 ∧ minute < 60 ∨ hour = 24 ∧ minute = 0)) :
    getTime other s = some ((makeDay year (month - 1) date * 86400 + hour * 3600 + minute * 60) * 1000) := by
  rw [getTime, hread]
  exact if_pos hvalid

theorem getTime_iso (hD : IsDay D) (hh : h < 24) :
    getTime other (String.ofList (write isoMinute (civil D ++ [h, 0]))) = some ((D * 86400 + h * 3600) * 1000) := by
  obtain ⟨hy, hm, hd⟩ := fits_civil hD
  have hfits : Fits isoMinute (civil D ++ [h, 0]) := ⟨by decide, hy, by decide, hm, by decide, hd, by decide, by omega, by decide, by decide, rfl⟩
  have hvalid : 1 ≤ (monthOfDay D + 1).toNat ∧ (monthOfDay D + 1).toNat ≤ 12 ∧ 1 ≤ (dateOfDay D).toNat ∧
      ((dateOfDay D).toNat : Int) ≤
        daysInMonth (isLeap ((yearOfDay D).toNat : Int)) (((monthOfDay D + 1).toNat : Int) - 1) ∧
      (h < 24 ∧ 0 < 60 ∨ h = 24 ∧ (0 : Nat) = 0) := by
    obtain ⟨hm0, hm1⟩ := monthOfDay_spec D
    obtain ⟨hd0, hd1⟩ := dateOfDay_spec D
    have hyear : ((yearOfDay D).toNat : Int) = yearOfDay D := by have := hD.year; omega
    have hmonth : ((monthOfDay D + 1).toNat : Int) - 1 = monthOfDay D := by omega
    rw [hyear, hmonth]
    omega
  rw [getTime_of_read (by rw [String.toList_ofList, read_write hfits]; rfl) hvalid, makeDay_civil hD]
  simp

theorem seconds_isoHour (hD : IsDay D) (hh : h < 24) :
    OpenMeteo.seconds other (isoHour D h) = some (D * 86400 + h * 3600) := by
  have hZ : isoHour D h ++ "Z" = String.ofList (write isoMinute (civil D ++ [h, 0])) := by
    rw [isoHour, show "Z" = String.ofList ['Z'] from rfl, ← String.ofList_append]
    simp [isoDate, isoMinute, civil, write]
  rw [OpenMeteo.seconds, hZ, getTime_iso hD hh, Option.map_some, Int.mul_ediv_cancel _ (by decide)]

end Formats
/-! ### The requests -/

section Requests
variable {V : Type} [JsNumber V] {t : ℚ}

theorem isDay_floor (h0 : 0 ≤ t) (h1 : t < 253402300800) : IsDay ⌊t / 86400⌋ := by
  refine ⟨Int.floor_nonneg.2 (by positivity), Int.floor_lt.2 ?_⟩
  push_cast
  linarith

/-- A day begins at or before each of its times, and ends after it. -/
theorem floor_bounds (t : ℚ) : (⌊t / 86400⌋ * 86400 : ℚ) ≤ t ∧ t < ⌊t / 86400⌋ * 86400 + 86400 := by
  have hle := Int.floor_le (t / 86400)
  have hlt := Int.lt_floor_add_one (t / 86400)
  constructor <;> linarith

theorem dateOf_eq (h0 : 0 ≤ t) (h1 : t < 253402300800) : ∃ ms, dateOf t = some ms ∧ dayOf ms = ⌊t / 86400⌋ := by
  have hpos : 0 ≤ t * 1000 := by positivity
  have hle : |t * 1000| ≤ 8640000000000000 := by
    rw [abs_of_nonneg hpos]
    linarith
  refine ⟨⌊t * 1000⌋, ?_, ?_⟩
  · rw [dateOf, if_pos hle, if_pos hpos]
  · obtain ⟨hday, hday'⟩ := floor_bounds t
    have hms : ⌊t / 86400⌋ * 86400000 ≤ ⌊t * 1000⌋ := by
      rw [Int.le_floor]
      push_cast
      linarith
    have hms' : ⌊t * 1000⌋ < ⌊t / 86400⌋ * 86400000 + 86400000 := by
      rw [Int.floor_lt]
      push_cast
      linarith
    rw [dayOf]
    omega

theorem take_toISOString {ms : Int} (hD : IsDay (dayOf ms)) :
    String.ofList ((toISOString ms).take 10) = isoDay (dayOf ms) := by
  obtain ⟨hy, hy'⟩ := hD.year
  obtain ⟨hY, hm, hd⟩ := fits_civil hD
  have hlen : (write isoDate (civil (dayOf ms))).length = 10 := by
    simp [isoDate, civil, write, length_padded (by decide) hY, length_padded (by decide) hm,
      length_padded (by decide) hd]
  obtain ⟨rest, hrest⟩ : ∃ rest, toISOString ms = write isoDate (civil (dayOf ms)) ++ rest := by
    rw [toISOString, isoYear, getUTCFullYear, getUTCMonth, getUTCDate, if_pos ⟨by omega, hy'⟩]
    simp only [isoDate, civil, write, List.append_assoc, List.cons_append, List.nil_append]
    exact ⟨_, rfl⟩
  rw [hrest, List.take_left' hlen, isoDay]

theorem formatYYYYMMDD_eq (h0 : 0 ≤ t) (h1 : t < 253402300800) : formatYYYYMMDD t = compactDay ⌊t / 86400⌋ := by
  obtain ⟨ms, hms, hday⟩ := dateOf_eq h0 h1
  obtain ⟨hy, hy'⟩ := (isDay_floor h0 h1).year
  obtain ⟨Y, hY⟩ := Int.eq_ofNat_of_zero_le (show 0 ≤ yearOfDay ⌊t / 86400⌋ by omega)
  rw [formatYYYYMMDD, hms, Option.elim_some, getUTCFullYear, getUTCMonth, getUTCDate, hday, compactDay, civil, hY, Int.toNat_natCast]
  simp only [write, List.append_nil, padded_four (n := Y) (by omega) (by omega), str, String.ofList_append,
    String.append_assoc]

end Requests

/-! ### The nearest hour -/

section Series
variable {E : Type} {ts : E → Option Int} {start : Int} {n k : Nat} {entries : List E} {t : ℚ}

/-- The entries' times are the whole hours from `start` on, in order. -/
def Hourly (ts : E → Option Int) (start : Int) (n : Nat) (entries : List E) : Prop :=
  entries.map ts = (List.range n).map fun i : Nat => some (start + 3600 * (i : Int))

theorem Hourly.mem (h : Hourly ts start n entries) {e : E} (he : e ∈ entries) :
    ∃ i < n, ts e = some (start + 3600 * (i : Int)) := by
  have hm : ts e ∈ entries.map ts := List.mem_map_of_mem he
  rw [h] at hm
  obtain ⟨i, hi, heq⟩ := List.mem_map.1 hm
  exact ⟨i, List.mem_range.1 hi, heq.symm⟩

theorem Hourly.exists_hour (h : Hourly ts start n entries) (hk : k < n) :
    ∃ e ∈ entries, ts e = some (start + 3600 * (k : Int)) := by
  have hm : some (start + 3600 * (k : Int)) ∈ entries.map ts := by
    rw [h]
    exact List.mem_map.2 ⟨k, List.mem_range.2 hk, rfl⟩
  exact List.mem_map.1 hm

theorem Hourly.pairwise (h : Hourly ts start n entries) :
    entries.Pairwise fun e e' => (ts e).getD 0 < (ts e').getD 0 := by
  have hp : (entries.map ts).Pairwise fun a b => a.getD 0 < b.getD 0 := by
    rw [h, List.pairwise_map]
    refine List.pairwise_lt_range.imp fun {i j} hij => ?_
    simp only [Option.getD_some]
    omega
  rwa [List.pairwise_map] at hp

/-- An hour is the first nearest to a target that lies between the middles to its neighbours. -/
theorem Hourly.isFirstMin (h : Hourly ts start n entries) (hk : k < n)
    (hlo : 0 < k → (start + 3600 * k - 1800 : ℚ) < t) (hhi : k + 1 < n → t ≤ start + 3600 * k + 1800) :
    ∃ e, IsFirstMin (fun e => (ts e).map (distance id t)) entries e ∧ ts e = some (start + 3600 * (k : Int)) := by
  obtain ⟨e, he, hts⟩ := h.exists_hour hk
  refine ⟨e, isFirstMin_of_pairwise h.pairwise he (by rw [hts]; rfl) ?_ ?_, hts⟩
  · intro e' he' hlt d hd
    obtain ⟨i, -, hi⟩ := h.mem he'
    rw [hts, hi, Option.getD_some, Option.getD_some] at hlt
    rw [hi] at hd
    cases hd
    have hstep : (i : ℚ) + 1 ≤ k := by exact_mod_cast (show i + 1 ≤ k by omega)
    have hlo := hlo (by omega)
    rw [distance, distance, id, id, lt_abs]
    right
    push_cast
    rw [abs_lt]
    constructor <;> linarith
  · intro e' he' hlt d hd
    obtain ⟨i, hn, hi⟩ := h.mem he'
    rw [hts, hi, Option.getD_some, Option.getD_some] at hlt
    rw [hi] at hd
    cases hd
    have hstep : (k : ℚ) + 1 ≤ i := by exact_mod_cast (show k + 1 ≤ i by omega)
    have hhi := hhi (by omega)
    rw [distance, distance, id, id, le_abs]
    left
    push_cast
    rw [abs_le]
    constructor <;> linarith

variable {V : Type} {name : String} {value : E → Option V}
  {result : Except ProviderError (IrradiancePoint (Option Int) V)}

/-- A complete series of hours is answered with the hour that the target is nearest to. -/
theorem ClosestPointLaw.hour (law : ClosestPointLaw name entries ts (distance id t) value result)
    (h : Hourly ts start n entries) (hv : ∀ e ∈ entries, ∃ v, value e = some v) (hk : k < n)
    (hlo : 0 < k → (start + 3600 * k - 1800 : ℚ) < t) (hhi : k + 1 < n → t ≤ start + 3600 * k + 1800) :
    ∃ point, result = .ok point ∧ point.timestamp = some (start + 3600 * (k : Int)) := by
  obtain ⟨e, hmin, hts⟩ := h.isFirstMin hk hlo hhi
  obtain ⟨v, hv⟩ := hv e hmin.mem
  obtain ⟨point, hpoint, hstamp, -⟩ := law.found e v hmin hv
  exact ⟨point, hpoint, hstamp.trans hts⟩

/-- A point from a series of hours is one of its hours. -/
theorem ClosestPointLaw.mem_hours (law : ClosestPointLaw name entries ts (distance id t) value result)
    (h : Hourly ts start n entries) {point : IrradiancePoint (Option Int) V} (hpoint : result = .ok point) :
    ∃ i < n, point.timestamp = some (start + 3600 * (i : Int)) := by
  by_cases hsome : ∃ e ∈ entries, (ts e).map (distance id t) ≠ none
  · obtain ⟨e, hmin⟩ := exists_isFirstMin hsome
    rcases hv : value e with _ | v
    · obtain ⟨message, herr⟩ := law.missing e hmin hv
      rw [hpoint] at herr
      cases herr
    · obtain ⟨point', hpoint', hstamp, -⟩ := law.found e v hmin hv
      rw [hpoint] at hpoint'
      cases hpoint'
      rw [hstamp]
      exact h.mem hmin.mem
  · have hnone : ∀ e ∈ entries, ts e = none := fun e he => by
      by_contra hne
      exact hsome ⟨e, he, by simpa using hne⟩
    obtain ⟨message, herr⟩ := law.unparseable hnone
    rw [hpoint] at herr
    cases herr

end Series

/-! ### Complete APIs -/

section Apis
variable {V : Type} {other : String → Option Int} {t : ℚ}

/-- Asked for one UTC day, the API answers with its hours and a value for each. -/
def OpenMeteo.ServesDays (api : Url → OpenMeteoHourly V) : Prop :=
  ∀ url D, IsDay D → url.params.lookup "start_date" = some (isoDay D) →
    url.params.lookup "end_date" = some (isoDay D) → url.params.lookup "timezone" = some "UTC" →
    (api url).time = (List.range 24).map (isoHour D) ∧
      ∀ i < 24, ∃ v, (api url).shortwave_radiation[i]?.join = some v

variable [JsNumber V]

def NASAPower.ServesDays (api : Url → Series V) : Prop :=
  ∀ url D, IsDay D → url.params.lookup "start" = some (compactDay D) →
    url.params.lookup "end" = some (compactDay D) →
    (api url).entries.map (·.1) = (List.range 24).map (compactHour D) ∧
      ∀ key ∈ (api url).entries.map (·.1), ∃ v, NASAPower.valueAt (api url) key = some v

/-- Asked for one year, the API answers with its hours and a value for each. -/
def PVGIS.ServesYears (api : Url → List (PVGISHourlyEntry V)) : Prop :=
  ∀ url y, 1970 ≤ y → y ≤ 9999 → url.params.lookup "startyear" = some (str y) →
    url.params.lookup "endyear" = some (str y) →
    (api url).map (·.time) = (List.range (24 * (daysInYear y).toNat)).map
        (fun i : Nat => colonHour (dayFromYear y + (i : Int) / 24) (i % 24)) ∧
      ∀ entry ∈ api url, ∃ v, validNumber entry.G_i = some v

/-! ### The three answers -/

def OpenMeteo.Returns (other : String → Option Int) (api : Url → OpenMeteoHourly V) (useArchive : Bool) (lat lng : V)
    (t : ℚ) (point : IrradiancePoint (Option Int) V) : Prop :=
  ∃ url, OpenMeteo.buildUrl useArchive lat lng t = .ok url ∧
    OpenMeteo.findClosestPoint other id (api url) t = .ok point

def NASAPower.Returns (api : Url → Series V) (lat lng : V) (t : ℚ) (point : IrradiancePoint (Option Int) V) : Prop :=
  NASAPower.findClosestPoint id (api (NASAPower.buildUrl lat lng t)) t = .ok point

def PVGIS.Returns (api : Url → List (PVGISHourlyEntry V)) (lat lng : V) (t : ℚ)
    (point : IrradiancePoint (Option Int) V) : Prop :=
  PVGIS.findClosestPoint id (api (PVGIS.buildUrl lat lng t)) t = .ok point

variable {useArchive : Bool} {lat lng : V}

theorem OpenMeteo.buildUrl_spec (useArchive : Bool) (lat lng : V) (h0 : 0 ≤ t) (h1 : t < 253402300800) :
    ∃ url, buildUrl useArchive lat lng t = .ok url ∧ url.params.lookup "start_date" = some (isoDay ⌊t / 86400⌋) ∧
      url.params.lookup "end_date" = some (isoDay ⌊t / 86400⌋) ∧ url.params.lookup "timezone" = some "UTC" := by
  obtain ⟨ms, hms, hday⟩ := dateOf_eq h0 h1
  rw [buildUrl, hms, ← hday, ← take_toISOString (hday ▸ isDay_floor h0 h1)]
  exact ⟨_, rfl, rfl, rfl, rfl⟩

/-- The hours of the day that Open-Meteo is asked for. -/
theorem OpenMeteo.answer {api : Url → OpenMeteoHourly V} (hapi : ServesDays api) (other : String → Option Int)
    (useArchive : Bool) (lat lng : V) (h0 : 0 ≤ t) (h1 : t < 253402300800) :
    ∃ url, buildUrl useArchive lat lng t = .ok url ∧
      Hourly (fun entry => seconds other entry.1) (⌊t / 86400⌋ * 86400) 24 (api url).time.zipIdx ∧
      (∀ entry ∈ (api url).time.zipIdx, ∃ v, (api url).shortwave_radiation[entry.2]?.join = some v) ∧
      ClosestPointLaw name (api url).time.zipIdx (fun entry => seconds other entry.1) (distance id t)
        (fun entry => (api url).shortwave_radiation[entry.2]?.join) (findClosestPoint other id (api url) t) := by
  have hD := isDay_floor h0 h1
  obtain ⟨url, hurl, hstart, hend, hzone⟩ := buildUrl_spec useArchive lat lng h0 h1
  obtain ⟨htime, hvalues⟩ := hapi url _ hD hstart hend hzone
  refine ⟨url, hurl, ?_⟩
  have hhours : Hourly (fun entry => seconds other entry.1) (⌊t / 86400⌋ * 86400) 24 (api url).time.zipIdx := by
    have hfst := congrArg (List.map (seconds other)) (List.zipIdx_map_fst 0 (api url).time)
    rw [List.map_map] at hfst
    refine hfst.trans ?_
    rw [htime, List.map_map]
    refine List.map_congr_left ?_
    intro i hi
    rw [Function.comp_apply, seconds_isoHour hD (List.mem_range.1 hi), Int.mul_comm 3600]
  refine ⟨hhours, ?_, ?_⟩
  · intro entry he
    have hlt := (List.mem_zipIdx he).2.1
    rw [htime, List.length_map, List.length_range] at hlt
    exact hvalues entry.2 hlt
  · have hne : (api url).time ≠ [] := by rw [htime]; simp
    have hfirst : isoHour ⌊t / 86400⌋ 0 ∈ (api url).time :=
      htime ▸ List.mem_map.2 ⟨0, List.mem_range.2 (by decide), rfl⟩
    refine (closest_point_iff _ hne).2 (.inl ⟨isoHour ⌊t / 86400⌋ 0, hfirst, ?_⟩)
    rw [seconds_isoHour hD (by decide)]
    simp

theorem NASAPower.answer {api : Url → Series V} (hapi : ServesDays api) (lat lng : V) (h0 : 0 ≤ t)
    (h1 : t < 253402300800) :
    Hourly parseNasaKey (⌊t / 86400⌋ * 86400) 24 ((api (buildUrl lat lng t)).entries.map (·.1)) ∧
      (∀ key ∈ (api (buildUrl lat lng t)).entries.map (·.1), ∃ v, valueAt (api (buildUrl lat lng t)) key = some v) ∧
      ClosestPointLaw name ((api (buildUrl lat lng t)).entries.map (·.1)) parseNasaKey (distance id t)
        (valueAt (api (buildUrl lat lng t))) (findClosestPoint id (api (buildUrl lat lng t)) t) := by
  have hD := isDay_floor h0 h1
  have hdate := formatYYYYMMDD_eq h0 h1
  obtain ⟨hkeys, hvalues⟩ := hapi (buildUrl lat lng t) _ hD (by rw [← hdate]; rfl) (by rw [← hdate]; rfl)
  refine ⟨?_, hvalues, closest_point _⟩
  rw [Hourly, hkeys, List.map_map]
  refine List.map_congr_left ?_
  intro i hi
  rw [Function.comp_apply, parseNasaKey_compactHour hD (List.mem_range.1 hi), Int.mul_comm 3600]

theorem isDay_of_year {y D : Int} (hy : 1970 ≤ y) (hy' : y ≤ 9999) (h : dayFromYear y ≤ D)
    (h' : D < dayFromYear y + daysInYear y) : IsDay D := by
  have hlo := dayFromYear_le hy
  have hhi := dayFromYear_le (show y + 1 ≤ 10000 by omega)
  rw [dayFromYear_succ, show dayFromYear 10000 = 2932897 from rfl] at hhi
  rw [show dayFromYear 1970 = 0 from rfl] at hlo
  exact ⟨by omega, by omega⟩

theorem PVGIS.answer {api : Url → List (PVGISHourlyEntry V)} (hapi : ServesYears api) (lat lng : V) (h0 : 0 ≤ t)
    (h1 : t < 253402300800) :
    Hourly (fun entry => parsePVGISTime entry.time) (dayFromYear (yearOfDay ⌊t / 86400⌋) * 86400)
        (24 * (daysInYear (yearOfDay ⌊t / 86400⌋)).toNat) (api (buildUrl lat lng t)) ∧
      (∀ entry ∈ api (buildUrl lat lng t), ∃ v, validNumber entry.G_i = some v) ∧
      ClosestPointLaw name (api (buildUrl lat lng t)) (fun entry => parsePVGISTime entry.time) (distance id t)
        (fun entry => validNumber entry.G_i) (findClosestPoint id (api (buildUrl lat lng t)) t) := by
  obtain ⟨ms, hms, hday⟩ := dateOf_eq h0 h1
  obtain ⟨hy, hy'⟩ := (isDay_floor h0 h1).year
  have hyear : (dateOf t).elim "NaN" (fun d => str (getUTCFullYear d)) = str (yearOfDay ⌊t / 86400⌋) := by
    rw [hms, Option.elim_some, getUTCFullYear, hday]
  obtain ⟨htimes, hvalues⟩ := hapi (buildUrl lat lng t) _ hy hy' (by rw [← hyear]; rfl) (by rw [← hyear]; rfl)
  refine ⟨?_, hvalues, closest_point _⟩
  have htimes := congrArg (List.map parsePVGISTime) htimes
  rw [List.map_map, List.map_map] at htimes
  refine htimes.trans (List.map_congr_left fun i hi => ?_)
  have hi := List.mem_range.1 hi
  have hpos := daysInYear_pos (yearOfDay ⌊t / 86400⌋)
  rw [Function.comp_apply, parsePVGISTime_colonHour (isDay_of_year hy hy' (by omega) (by omega)) (by omega)]
  congr 1
  omega

theorem OpenMeteo.returns_hour {api : Url → OpenMeteoHourly V} (hapi : ServesDays api) (other : String → Option Int)
    (useArchive : Bool) (lat lng : V) (h0 : 0 ≤ t) (h1 : t < 253402300800) {k : Nat} (hk : k < 24)
    (hlo : (⌊t / 86400⌋ * 86400 + 3600 * k - 1800 : ℚ) < t)
    (hhi : k + 1 < 24 → t ≤ ⌊t / 86400⌋ * 86400 + 3600 * k + 1800) :
    ∃ point, Returns other api useArchive lat lng t point ∧
      point.timestamp = some (⌊t / 86400⌋ * 86400 + 3600 * (k : Int)) := by
  obtain ⟨url, hurl, hhours, hvalues, hlaw⟩ := answer hapi other useArchive lat lng h0 h1
  have hcast : ((⌊t / 86400⌋ * 86400 : Int) : ℚ) = ⌊t / 86400⌋ * 86400 := by push_cast; rfl
  obtain ⟨point, hpoint, hstamp⟩ := hlaw.hour hhours hvalues hk (fun _ => hcast ▸ hlo) (hcast ▸ hhi)
  exact ⟨point, ⟨url, hurl, hpoint⟩, hstamp⟩

theorem NASAPower.returns_hour {api : Url → Series V} (hapi : ServesDays api) (lat lng : V) (h0 : 0 ≤ t)
    (h1 : t < 253402300800) {k : Nat} (hk : k < 24) (hlo : (⌊t / 86400⌋ * 86400 + 3600 * k - 1800 : ℚ) < t)
    (hhi : k + 1 < 24 → t ≤ ⌊t / 86400⌋ * 86400 + 3600 * k + 1800) :
    ∃ point, Returns api lat lng t point ∧ point.timestamp = some (⌊t / 86400⌋ * 86400 + 3600 * (k : Int)) := by
  obtain ⟨hhours, hvalues, hlaw⟩ := answer hapi lat lng h0 h1
  have hcast : ((⌊t / 86400⌋ * 86400 : Int) : ℚ) = ⌊t / 86400⌋ * 86400 := by push_cast; rfl
  exact hlaw.hour hhours hvalues hk (fun _ => hcast ▸ hlo) (hcast ▸ hhi)

/-- The hours that PVGIS answers with may lie past the day, within the year. -/
theorem PVGIS.returns_hour {api : Url → List (PVGISHourlyEntry V)} (hapi : ServesYears api) (lat lng : V) (h0 : 0 ≤ t)
    (h1 : t < 253402300800) {k : Nat} (hk : ⌊t / 86400⌋ * 24 + k < dayFromYear (yearOfDay ⌊t / 86400⌋ + 1) * 24)
    (hlo : (⌊t / 86400⌋ * 86400 + 3600 * k - 1800 : ℚ) < t)
    (hhi : t ≤ ⌊t / 86400⌋ * 86400 + 3600 * k + 1800) :
    ∃ point, Returns api lat lng t point ∧ point.timestamp = some (⌊t / 86400⌋ * 86400 + 3600 * (k : Int)) := by
  obtain ⟨hhours, hvalues, hlaw⟩ := answer hapi lat lng h0 h1
  obtain ⟨hle, -⟩ := yearOfDay_spec ⌊t / 86400⌋
  rw [dayFromYear_succ] at hk
  obtain ⟨d, hd⟩ := Int.eq_ofNat_of_zero_le (show 0 ≤ ⌊t / 86400⌋ - dayFromYear (yearOfDay ⌊t / 86400⌋) by omega)
  -- The `k`-th hour of the day is the `24 * d + k`-th of the year.
  have hcast : ((dayFromYear (yearOfDay ⌊t / 86400⌋) * 86400 : Int) : ℚ) + 3600 * ((24 * d + k : Nat) : ℚ) =
      ⌊t / 86400⌋ * 86400 + 3600 * k := by
    exact_mod_cast (show dayFromYear (yearOfDay ⌊t / 86400⌋) * 86400 + 3600 * ((24 * d + k : Nat) : Int) =
      ⌊t / 86400⌋ * 86400 + 3600 * (k : Int) by push_cast; omega)
  obtain ⟨point, hpoint, hstamp⟩ := hlaw.hour hhours hvalues (show 24 * d + k < _ by omega)
    (fun _ => hcast ▸ hlo) (fun _ => hcast ▸ hhi)
  refine ⟨point, hpoint, hstamp.trans (congrArg some ?_)⟩
  push_cast
  omega

/-- The three points carry one time, within half an hour of the target. -/
def SameHour (other : String → Option Int) (openMeteo : Url → OpenMeteoHourly V) (nasaPower : Url → Series V)
    (pvgis : Url → List (PVGISHourlyEntry V)) (useArchive : Bool) (lat lng : V) (t : ℚ) : Prop :=
  ∃ ts : Int, |(ts : ℚ) - t| ≤ 1800 ∧
    (∃ point, OpenMeteo.Returns other openMeteo useArchive lat lng t point ∧ point.timestamp = some ts) ∧
    (∃ point, NASAPower.Returns nasaPower lat lng t point ∧ point.timestamp = some ts) ∧
    ∃ point, PVGIS.Returns pvgis lat lng t point ∧ point.timestamp = some ts

/-- Up to half past 23 the nearest hour is one of the day. -/
theorem exists_hour (hs : t - 86400 * ⌊t / 86400⌋ ≤ 84600) :
    ∃ k : Nat, k < 24 ∧ (⌊t / 86400⌋ * 86400 + 3600 * k - 1800 : ℚ) < t ∧ t ≤ ⌊t / 86400⌋ * 86400 + 3600 * k + 1800 := by
  obtain ⟨hle, -⟩ := floor_bounds t
  generalize hx : (t - 86400 * ⌊t / 86400⌋ - 1800) / 3600 = x
  have hx1 : x ≤ 23 := by rw [← hx]; linarith
  have hx2 : -1 / 2 ≤ x := by rw [← hx]; linarith
  have hk : ⌈x⌉₊ ≤ 23 := Nat.ceil_le.2 (by exact_mod_cast hx1)
  have hup := Nat.le_ceil x
  refine ⟨⌈x⌉₊, by omega, ?_, ?_⟩
  · rcases lt_or_ge 0 x with hpos | hneg
    · have hdown := Nat.ceil_lt_add_one hpos.le
      linarith
    · rw [Nat.ceil_eq_zero.2 hneg]
      push_cast
      linarith
  · linarith

section
variable {openMeteo : Url → OpenMeteoHourly V} {nasaPower : Url → Series V}
  {pvgis : Url → List (PVGISHourlyEntry V)}

theorem sameHour_of_le (hom : OpenMeteo.ServesDays openMeteo) (hnasa : NASAPower.ServesDays nasaPower)
    (hpvgis : PVGIS.ServesYears pvgis) (h0 : 0 ≤ t) (h1 : t < 253402300800)
    (hs : t - 86400 * ⌊t / 86400⌋ ≤ 84600) :
    SameHour other openMeteo nasaPower pvgis useArchive lat lng t := by
  obtain ⟨k, hk, hlo, hhi⟩ := exists_hour hs
  obtain ⟨hday, hday'⟩ := floor_bounds t
  have hts : |((⌊t / 86400⌋ * 86400 + 3600 * (k : Int) : Int) : ℚ) - t| ≤ 1800 := by
    rw [abs_le]
    push_cast
    constructor <;> linarith
  have hyear := (yearOfDay_spec ⌊t / 86400⌋).2
  exact ⟨⌊t / 86400⌋ * 86400 + 3600 * (k : Int), hts,
    OpenMeteo.returns_hour hom other useArchive lat lng h0 h1 hk hlo fun _ => hhi,
    NASAPower.returns_hour hnasa lat lng h0 h1 hk hlo fun _ => hhi,
    PVGIS.returns_hour hpvgis lat lng h0 h1 (by omega) hlo hhi⟩

/-- In the last half hour of a day, each hour of the day is more than half an hour off. -/
theorem le_of_sameHour (hom : OpenMeteo.ServesDays openMeteo) (h0 : 0 ≤ t) (h1 : t < 253402300800)
    (h : SameHour other openMeteo nasaPower pvgis useArchive lat lng t) : t - 86400 * ⌊t / 86400⌋ ≤ 84600 := by
  obtain ⟨ts, hts, ⟨point, ⟨url, hurl, hpoint⟩, hstamp⟩, -⟩ := h
  obtain ⟨url', hurl', hhours, -, hlaw⟩ := OpenMeteo.answer hom other useArchive lat lng h0 h1
  rw [hurl] at hurl'
  cases hurl'
  obtain ⟨i, hi, hi'⟩ := hlaw.mem_hours hhours hpoint
  rw [hstamp, Option.some.injEq] at hi'
  have hlast : (i : ℚ) ≤ 23 := by exact_mod_cast (show i ≤ 23 by omega)
  rw [hi', abs_le] at hts
  push_cast at hts
  linarith

/-- Before midnight Open-Meteo and NASA POWER stay at 23:00, and PVGIS goes on unless the year ends. -/
theorem late_hours (hom : OpenMeteo.ServesDays openMeteo) (hnasa : NASAPower.ServesDays nasaPower)
    (hpvgis : PVGIS.ServesYears pvgis) (other : String → Option Int) (useArchive : Bool) (lat lng : V) (h0 : 0 ≤ t)
    (h1 : t < 253402300800) (hs : 84600 < t - 86400 * ⌊t / 86400⌋)
    (hyear : yearOfDay (⌊t / 86400⌋ + 1) = yearOfDay ⌊t / 86400⌋) :
    (∃ point, OpenMeteo.Returns other openMeteo useArchive lat lng t point ∧
      point.timestamp = some (⌊t / 86400⌋ * 86400 + 82800)) ∧
    (∃ point, NASAPower.Returns nasaPower lat lng t point ∧
      point.timestamp = some (⌊t / 86400⌋ * 86400 + 82800)) ∧
    ∃ point, PVGIS.Returns pvgis lat lng t point ∧ point.timestamp = some ((⌊t / 86400⌋ + 1) * 86400) := by
  obtain ⟨hday, hday'⟩ := floor_bounds t
  have hnext := (yearOfDay_spec (⌊t / 86400⌋ + 1)).2
  rw [hyear] at hnext
  have hlo : (⌊t / 86400⌋ * 86400 + 3600 * (23 : Nat) - 1800 : ℚ) < t := by push_cast; linarith
  have hlo' : (⌊t / 86400⌋ * 86400 + 3600 * (24 : Nat) - 1800 : ℚ) < t := by push_cast; linarith
  have hhi' : t ≤ (⌊t / 86400⌋ * 86400 + 3600 * (24 : Nat) + 1800 : ℚ) := by push_cast; linarith
  refine ⟨OpenMeteo.returns_hour hom other useArchive lat lng h0 h1 (by decide) hlo (by omega),
    NASAPower.returns_hour hnasa lat lng h0 h1 (by decide) hlo (by omega), ?_⟩
  rw [Int.add_mul]
  exact PVGIS.returns_hour hpvgis lat lng h0 h1 (by push_cast; omega) hlo' hhi'

/-- The providers compare one hour exactly up to half past 23 of the UTC day. -/
theorem same_hour_iff (other : String → Option Int) (hom : OpenMeteo.ServesDays openMeteo)
    (hnasa : NASAPower.ServesDays nasaPower) (hpvgis : PVGIS.ServesYears pvgis) (useArchive : Bool) (lat lng : V) (t : ℚ)
    (h0 : 0 ≤ t) (h1 : t < 253402300800) :
    SameHour other openMeteo nasaPower pvgis useArchive lat lng t ↔ t - 86400 * ⌊t / 86400⌋ ≤ 84600 :=
  ⟨le_of_sameHour hom h0 h1, sameHour_of_le hom hnasa hpvgis h0 h1⟩

end

end Apis

/-! ### APIs that are complete -/

namespace SamplePoints

def openMeteoDay (D : Int) : OpenMeteoHourly Int :=
  ⟨(List.range 24).map (isoHour D), List.replicate 24 (some 500), none, none, none⟩

def openMeteoApi (url : Url) : OpenMeteoHourly Int :=
  ((url.params.lookup "start_date").bind fun date => getTime (fun _ => none) (date ++ "T00:00Z")).elim
    ⟨[], [], none, none, none⟩ fun ms => openMeteoDay (dayOf ms)

def nasaEntries (D : Int) : List (String × Option Int) := (List.range 24).map fun h => (compactHour D h, some 500)

def nasaDay (D : Int) : Series Int :=
  if h : ((nasaEntries D).map (·.1)).Nodup then ⟨nasaEntries D, h⟩ else ⟨[], List.nodup_nil⟩

def nasaPowerApi (url : Url) : Series Int :=
  ((url.params.lookup "start").bind fun date => parseNasaKey (date ++ "00")).elim ⟨[], List.nodup_nil⟩
    fun ts => nasaDay (ts / 86400)

def pvgisYear (y : Int) : List (PVGISHourlyEntry Int) :=
  (List.range (24 * (daysInYear y).toNat)).map fun i : Nat =>
    ⟨colonHour (dayFromYear y + (i : Int) / 24) (i % 24), some 500, none, none⟩

def pvgisApi (url : Url) : List (PVGISHourlyEntry Int) :=
  (url.params.lookup "startyear").elim [] fun year => pvgisYear (value year.toList)

theorem servesDays_openMeteo : OpenMeteo.ServesDays openMeteoApi := by
  intro url D hD hstart _ _
  have htext : isoDay D ++ "T00:00Z" = String.ofList (write isoMinute (civil D ++ [0, 0])) := by
    have hzero : padded 2 0 = ['0', '0'] := rfl
    rw [isoDay, show "T00:00Z" = String.ofList ['T', '0', '0', ':', '0', '0', 'Z'] from rfl, ← String.ofList_append]
    simp [isoDate, isoMinute, civil, write, hzero]
  have hday : openMeteoApi url = openMeteoDay D := by
    rw [openMeteoApi, hstart, Option.bind_some, htext, getTime_iso hD (by decide), Option.elim_some, dayOf]
    congr 1
    omega
  rw [hday]
  refine ⟨rfl, fun i hi => ⟨500, ?_⟩⟩
  rw [openMeteoDay, List.getElem?_replicate, if_pos hi]
  rfl

theorem nodup_nasaEntries {D : Int} (hD : IsDay D) : ((nasaEntries D).map (·.1)).Nodup := by
  refine List.Nodup.of_map parseNasaKey ?_
  rw [nasaEntries, List.map_map, List.map_map]
  refine List.Nodup.map_on (fun i hi j hj hij => ?_) List.nodup_range
  simp only [Function.comp_apply, parseNasaKey_compactHour hD (List.mem_range.1 hi),
    parseNasaKey_compactHour hD (List.mem_range.1 hj), Option.some.injEq] at hij
  omega

theorem servesDays_nasaPower : NASAPower.ServesDays nasaPowerApi := by
  intro url D hD hstart _
  have htext : compactDay D ++ "00" = compactHour D 0 := by
    have hzero : padded 2 0 = ['0', '0'] := rfl
    rw [compactDay, compactHour, show "00" = String.ofList ['0', '0'] from rfl, ← String.ofList_append]
    simp [nasaKey, civil, write, hzero]
  have hday : nasaPowerApi url = nasaDay D := by
    rw [nasaPowerApi, hstart, Option.bind_some, htext, parseNasaKey_compactHour hD (by decide), Option.elim_some]
    congr 1
    omega
  have hnodup := nodup_nasaEntries hD
  rw [hday, nasaDay, dif_pos hnodup]
  refine ⟨List.map_map, fun key hkey => ⟨500, ?_⟩⟩
  have hlookup : (nasaEntries D).lookup key = some (some 500) := by
    rcases hl : (nasaEntries D).lookup key with _ | v
    · obtain ⟨entry, hentry, rfl⟩ := List.mem_map.1 hkey
      simpa using List.lookup_eq_none_iff.1 hl entry hentry
    · obtain ⟨before, after, heq, -⟩ := List.lookup_eq_some_iff.1 hl
      have hmem : (key, v) ∈ nasaEntries D := heq ▸ List.mem_append_right _ List.mem_cons_self
      obtain ⟨h, -, hh⟩ := List.mem_map.1 hmem
      rw [(Prod.mk.inj hh).2]
  rw [NASAPower.valueAt, hlookup]
  rfl

theorem servesYears_pvgis : PVGIS.ServesYears pvgisApi := by
  intro url y hy hy' hstart _
  obtain ⟨n, rfl⟩ := Int.eq_ofNat_of_zero_le (show 0 ≤ y by omega)
  have hyear : pvgisApi url = pvgisYear n := by
    rw [pvgisApi, hstart, Option.elim_some]
    simp [str, value, Nat.ofDigitChars_ten_toDigits]
  rw [hyear]
  refine ⟨List.map_map, fun entry he => ⟨500, ?_⟩⟩
  obtain ⟨i, -, rfl⟩ := List.mem_map.1 he
  rfl

/-- At 23:45 of 2026-05-15 Open-Meteo answers with 23:00 and PVGIS with the midnight after. -/
theorem different_hours :
    (∃ point, OpenMeteo.Returns (fun _ => none) openMeteoApi true 50 30 1778888700 point ∧
      point.timestamp = some 1778886000) ∧
    (∃ point, PVGIS.Returns pvgisApi 50 30 1778888700 point ∧ point.timestamp = some 1778889600) ∧
    ¬ SameHour (fun _ => none) openMeteoApi nasaPowerApi pvgisApi true 50 30 1778888700 := by
  have hfloor : ⌊(1778888700 : ℚ) / 86400⌋ = 20588 := by norm_num
  have hyear : yearOfDay (20588 + 1) = yearOfDay 20588 := by decide
  have hlate := late_hours servesDays_openMeteo servesDays_nasaPower servesYears_pvgis (fun _ => none) true 50 30
    (t := 1778888700) (by norm_num) (by norm_num) (by rw [hfloor]; norm_num) (by rw [hfloor, hyear])
  rw [hfloor] at hlate
  refine ⟨hlate.1, hlate.2.2, ?_⟩
  intro h
  · have hle := le_of_sameHour servesDays_openMeteo (by norm_num) (by norm_num) h
    rw [hfloor] at hle
    norm_num at hle

theorem same_hour_iff_sample :
    SameHour (fun _ => none) openMeteoApi nasaPowerApi pvgisApi true 50 30 1778846400 ↔
      (1778846400 : ℚ) - 86400 * ⌊(1778846400 : ℚ) / 86400⌋ ≤ 84600 :=
  same_hour_iff (fun _ => none) servesDays_openMeteo servesDays_nasaPower servesYears_pvgis true 50 30 1778846400
    (by norm_num) (by norm_num)

end SamplePoints
end Weather
end InfraVeritas
