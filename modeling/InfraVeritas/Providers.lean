import InfraVeritas.Ensemble
import InfraVeritas.Lib.Argmin
import InfraVeritas.Lib.Calendar
import InfraVeritas.Lib.FixedWidth
import Mathlib.Algebra.Order.Field.Rat
import Mathlib.Algebra.Order.Floor.Ring
import Mathlib.Data.Rat.Floor

/-!
# The weather providers

The request that each provider builds for a time, and its loop over the series that comes back, with the times of
its format. A missing time is `NaN` for Open-Meteo and `null` for the others, and is `none` here; so is a distance
of `Infinity`. `round` is the rounding of the subtraction.
-/

namespace InfraVeritas
open Argmin Calendar FixedWidth Edge

namespace Weather

/-! ### Times -/

/-- `Date.UTC`, in milliseconds: years of two digits are those from 1900. -/
def dateUTC (year month date hour minute : Int) : Int :=
  let yr := if 0 ≤ year ∧ year ≤ 99 then 1900 + year else year
  (makeDay yr month date * 86400 + hour * 3600 + minute * 60) * 1000

def isoMinute : List Piece :=
  [.digits 4, .text '-', .digits 2, .text '-', .digits 2, .text 'T', .digits 2, .text ':', .digits 2, .text 'Z']

/-- `new Date(..).getTime()` of a minute in ISO form. `other` stands for the remaining forms. -/
def getTime (other : String → Option Int) (s : String) : Option Int :=
  match read isoMinute s.toList with
  | some [year, month, date, hour, minute] =>
    if 1 ≤ month ∧ month ≤ 12 ∧ 1 ≤ date ∧ (date : Int) ≤ daysInMonth (isLeap year) (month - 1) ∧
        (hour < 24 ∧ minute < 60 ∨ hour = 24 ∧ minute = 0) then
      some ((makeDay year (month - 1) date * 86400 + hour * 3600 + minute * 60) * 1000)
    else other s
  | _ => other s

/-- `/^\d{10}$/` and its parts. -/
def nasaKey : List Piece := [.digits 4, .digits 2, .digits 2, .digits 2]

def parseNasaKey (key : String) : Option Int :=
  match read nasaKey key.toList with
  | some [year, month, day, hour] => some (dateUTC year (month - 1) day hour 0 / 1000)
  | _ => none

/-- `/^(\d{4})(\d{2})(\d{2}):(\d{2})(\d{2})$/`. -/
def pvgisTime : List Piece := [.digits 4, .digits 2, .digits 2, .text ':', .digits 2, .digits 2]

def parsePVGISTime (time : String) : Option Int :=
  match read pvgisTime time.toList with
  | some [yyyy, mm, dd, hh, mn] => some (dateUTC yyyy (mm - 1) dd hh mn / 1000)
  | _ => none

/-- `new Date(timestamp * 1000)`, truncated to the millisecond; `none` for an invalid date. -/
def dateOf (timestamp : ℚ) : Option Int :=
  let time := timestamp * 1000
  if |time| ≤ 8640000000000000 then some (if 0 ≤ time then ⌊time⌋ else ⌈time⌉) else none

def dayOf (ms : Int) : Int := ms / 86400000

def getUTCFullYear (ms : Int) : Int := yearOfDay (dayOf ms)
def getUTCMonth (ms : Int) : Int := monthOfDay (dayOf ms)
def getUTCDate (ms : Int) : Int := dateOfDay (dayOf ms)

def isoYear (year : Int) : List Char :=
  if 0 ≤ year ∧ year ≤ 9999 then padded 4 year.toNat
  else (if 0 ≤ year then '+' else '-') :: padded 6 year.natAbs

def toISOString (ms : Int) : List Char :=
  let time := (ms % 86400000).toNat
  isoYear (getUTCFullYear ms) ++ write [.text '-', .digits 2, .text '-', .digits 2, .text 'T', .digits 2, .text ':',
    .digits 2, .text ':', .digits 2, .text '.', .digits 3, .text 'Z']
    [(getUTCMonth ms + 1).toNat, (getUTCDate ms).toNat, time / 3600000, time / 60000 % 60, time / 1000 % 60, time % 1000]

def formatYYYYMMDD (timestamp : ℚ) : String :=
  (dateOf timestamp).elim "NaNNaNNaN" fun d => str (getUTCFullYear d) ++
    String.ofList (padded 2 (getUTCMonth d + 1).toNat) ++ String.ofList (padded 2 (getUTCDate d).toNat)

structure Url where
  base : String
  params : List (String × String)
deriving DecidableEq, Repr

/-! ### The loops -/

/-- `delta < closestDelta`: `NaN` is below nothing, and everything else below `Infinity`. -/
def closer : Option ℚ → Option ℚ → Bool
  | none, _ => false
  | some _, none => true
  | some delta, some closestDelta => delta < closestDelta

def distance (round : ℚ → ℚ) (targetTs : ℚ) (ts : Int) : ℚ := |round (ts - targetTs)|

structure Closest (E : Type) where
  entry : Option E
  delta : Option ℚ
  ts : Int

/-- The loop of NASA POWER and of PVGIS, which skip a time of `null`. -/
def scan {E : Type} (parse : E → Option Int) (delta : Int → ℚ) (entries : List E) : Closest E :=
  entries.foldl (fun closest entry =>
    match parse entry with
    | none => closest
    | some ts => if closer (some (delta ts)) closest.delta then ⟨some entry, some (delta ts), ts⟩ else closest)
    ⟨none, none, 0⟩

/-- What the code asks of a number beyond its value. -/
class JsNumber (V : Type) extends BEq V, Neg V, NatCast V where
  isFinite : V → Bool
  text : V → String

section Providers
variable {V : Type} [JsNumber V] (other : String → Option Int) (round : ℚ → ℚ)

structure OpenMeteoHourly (V : Type) where
  time : List String
  shortwave_radiation : List (Option V)
  direct_radiation : Option (List (Option V))
  diffuse_radiation : Option (List (Option V))
  cloud_cover : Option (List (Option V))

namespace OpenMeteo

def name : String := "open-meteo"
def FORECAST_BASE : String := "https://api.open-meteo.com/v1/forecast"
def ARCHIVE_BASE : String := "https://archive-api.open-meteo.com/v1/archive"

def buildUrl (useArchive : Bool) (lat lng : V) (timestamp : ℚ) : Except String Url :=
  (dateOf timestamp).elim (.error "Invalid time value") fun ms =>
    let date := String.ofList ((toISOString ms).take 10)
    .ok ⟨if useArchive then ARCHIVE_BASE else FORECAST_BASE,
      [("latitude", JsNumber.text lat), ("longitude", JsNumber.text lng),
        ("hourly", "shortwave_radiation,direct_radiation,diffuse_radiation,cloud_cover"), ("start_date", date),
        ("end_date", date), ("timezone", "UTC")]⟩

def seconds (time : String) : Option Int := (getTime other (time ++ "Z")).map (· / 1000)

def closestIdx (time : List String) (targetTs : ℚ) : Nat :=
  (time.zipIdx.foldl (fun (closest : Nat × Option ℚ) (time, i) =>
    let delta := (seconds other time).map (distance round targetTs)
    if closer delta closest.2 then (i, delta) else closest) (0, none)).1

def findClosestPoint (hourly : OpenMeteoHourly V) (targetTs : ℚ) :
    Except ProviderError (IrradiancePoint (Option Int) V) :=
  if hourly.time = [] then .error (providerError name .malformed "empty hourly.time array")
  else
    let closestIdx := closestIdx other round hourly.time targetTs
    match hourly.shortwave_radiation[closestIdx]?.join with
    | none =>
      let time := hourly.time.getD closestIdx "undefined"
      .error (providerError name .malformed s!"null GHI at index {closestIdx} (time {time})")
    | some ghi => .ok
      { timestamp := hourly.time[closestIdx]?.bind (seconds other)
        ghi := ghi
        dni := hourly.direct_radiation.bind (·[closestIdx]?.join)
        dhi := hourly.diffuse_radiation.bind (·[closestIdx]?.join)
        cloudCover := hourly.cloud_cover.bind (·[closestIdx]?.join)
        source := .openMeteo }

end OpenMeteo

/-- `Record<string, number>`, in the order of `Object.keys`. -/
structure Series (V : Type) where
  entries : List (String × Option V)
  nodup : (entries.map (·.1)).Nodup

namespace NASAPower

def name : String := "nasa-power"
def ENDPOINT : String := "https://power.larc.nasa.gov/api/temporal/hourly/point"
def MISSING_DATA : V := -((999 : Nat) : V)

def buildUrl (lat lng : V) (timestamp : ℚ) : Url :=
  let date := formatYYYYMMDD timestamp
  ⟨ENDPOINT, [("parameters", "ALLSKY_SFC_SW_DWN"), ("community", "RE"), ("latitude", JsNumber.text lat),
    ("longitude", JsNumber.text lng), ("start", date), ("end", date), ("format", "JSON")]⟩

def findClosestPoint (series : Series V) (targetTs : ℚ) : Except ProviderError (IrradiancePoint (Option Int) V) :=
  let keys := series.entries.map (·.1)
  if keys = [] then .error (providerError name .malformed "empty series")
  else
    let closest := scan parseNasaKey (distance round targetTs) keys
    match closest.entry with
    | none => .error (providerError name .malformed "no parseable keys у series (expected YYYYMMDDHH format)")
    | some closestKey =>
      match (series.entries.lookup closestKey).join with
      | none => .error (providerError name .malformed s!"missing/invalid GHI value at key {closestKey} (null)")
      | some value =>
        if value == MISSING_DATA then
          let text := JsNumber.text value
          .error (providerError name .malformed s!"missing/invalid GHI value at key {closestKey} ({text})")
        else .ok ⟨some closest.ts, value, none, none, none, .nasaPower⟩

end NASAPower

/-- `G(i)`, `Gb(n)` and `Gd(h)` of an hour. -/
structure PVGISHourlyEntry (V : Type) where
  time : String
  G_i : Option V
  Gb_n : Option V
  Gd_h : Option V

def validNumber (v : Option V) : Option V := v.filter JsNumber.isFinite

namespace PVGIS

def name : String := "pvgis"
def ENDPOINT : String := "https://re.jrc.ec.europa.eu/api/v5_2/seriescalc"

def buildUrl (lat lng : V) (timestamp : ℚ) : Url :=
  let year := (dateOf timestamp).elim "NaN" fun d => str (getUTCFullYear d)
  ⟨ENDPOINT, [("lat", JsNumber.text lat), ("lon", JsNumber.text lng), ("startyear", year), ("endyear", year),
    ("outputformat", "json")]⟩

def findClosestPoint (hourly : List (PVGISHourlyEntry V)) (targetTs : ℚ) :
    Except ProviderError (IrradiancePoint (Option Int) V) :=
  let closest := scan (fun entry => parsePVGISTime entry.time) (distance round targetTs) hourly
  match closest.entry with
  | none => .error (providerError name .malformed
      "no parseable time entries у hourly array (expected YYYYMMDD:HHMM format)")
  | some closestEntry =>
    let time := closestEntry.time
    match closestEntry.G_i with
    | none => .error (providerError name .malformed s!"invalid G(i) at {time}: null")
    | some ghi =>
      if JsNumber.isFinite ghi then
        .ok ⟨some closest.ts, ghi, validNumber closestEntry.Gb_n, validNumber closestEntry.Gd_h, none, .pvgis⟩
      else
        let text := JsNumber.text ghi
        .error (providerError name .malformed s!"invalid G(i) at {time}: {text}")

end PVGIS
end Providers
end Weather
end InfraVeritas
