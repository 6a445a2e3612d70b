import InfraVeritas.Providers

/-!
# The time keys of NASA POWER and PVGIS

`parseNasaKey` and `parsePVGISTime` test the shape of a key and leave the rest to `Date.UTC`, for which every
number is a month, a date, an hour or a minute, and a year below 100 one of the last century. So they accept more
than the calendar has, and what they accept beyond it they move to another time.
-/

namespace InfraVeritas
open Calendar FixedWidth

namespace Weather

structure UTCTime where
  year : Nat
  month : Nat
  day : Nat
  hour : Nat
  minute : Nat
deriving DecidableEq, Repr

namespace UTCTime

/-- A date of the calendar and a time of its day. -/
structure Exists (t : UTCTime) : Prop where
  month_pos : 1 ≤ t.month
  month_le : t.month ≤ 12
  day_pos : 1 ≤ t.day
  day_le : (t.day : Int) ≤ daysInMonth (isLeap t.year) (t.month - 1)
  hour_le : t.hour ≤ 23
  minute_le : t.minute ≤ 59

def timestamp (t : UTCTime) : Int := dateUTC t.year (t.month - 1) t.day t.hour t.minute / 1000

/-- What `new Date(ts * 1000)` shows in UTC. -/
def ofTimestamp (ts : Int) : UTCTime where
  year := (getUTCFullYear (ts * 1000)).toNat
  month := (getUTCMonth (ts * 1000) + 1).toNat
  day := (getUTCDate (ts * 1000)).toNat
  hour := (ts * 1000 % 86400000 / 3600000).toNat
  minute := (ts * 1000 % 3600000 / 60000).toNat

variable {t : UTCTime}

/-- The year that `Date.UTC` makes of it. -/
def fullYear (t : UTCTime) : Int := if t.year < 100 then 1900 + t.year else t.year

theorem timestamp_eq (t : UTCTime) :
    t.timestamp = makeDay t.fullYear (t.month - 1) t.day * 86400 + t.hour * 3600 + t.minute * 60 := by
  rw [timestamp, dateUTC, Int.mul_ediv_cancel _ (by decide), fullYear]
  by_cases h : t.year < 100
  · rw [if_pos (by omega), if_pos h]
  · rw [if_neg (by omega), if_neg h]

theorem Exists.dayOf_timestamp (h : t.Exists) :
    dayOf (t.timestamp * 1000) = makeDay t.fullYear (t.month - 1) t.day := by
  have hhour := h.hour_le
  have hminute := h.minute_le
  rw [dayOf, timestamp_eq]
  omega

theorem Exists.getUTC_timestamp (h : t.Exists) (hyear : 100 ≤ t.year) :
    getUTCFullYear (t.timestamp * 1000) = t.year ∧ getUTCMonth (t.timestamp * 1000) = t.month - 1 ∧
      getUTCDate (t.timestamp * 1000) = t.day := by
  have hfull : t.fullYear = t.year := if_neg (by omega)
  have hmonth := h.month_pos
  have hmonth' := h.month_le
  have hday := h.day_pos
  rw [getUTCFullYear, getUTCMonth, getUTCDate, h.dayOf_timestamp, hfull]
  exact ofDay_makeDay (by omega) (by omega) (by omega) h.day_le

/-- An existing time, of a year from 100 on, is what the date made of it shows. -/
theorem Exists.ofTimestamp_timestamp (h : t.Exists) (hyear : 100 ≤ t.year) : ofTimestamp t.timestamp = t := by
  have hhour := h.hour_le
  have hminute := h.minute_le
  obtain ⟨hy, hm, hd⟩ := h.getUTC_timestamp hyear
  have hclock : t.timestamp * 1000 % 86400000 / 3600000 = t.hour ∧
      t.timestamp * 1000 % 3600000 / 60000 = t.minute := by
    rw [timestamp_eq]
    omega
  rw [ofTimestamp, hy, hm, hd, hclock.1, hclock.2]
  simp only [Int.sub_add_cancel, Int.toNat_natCast]

/-- A time of the first century is moved to the last one. -/
theorem Exists.year_ofTimestamp (h : t.Exists) (hyear : t.year < 100) :
    1900 ≤ (ofTimestamp t.timestamp).year ∧ (ofTimestamp t.timestamp).year < 10000 := by
  have hmonth := h.month_pos
  have hmonth' := h.month_le
  have hday := h.day_pos
  have hday' := h.day_le.trans (daysInMonth_le _ (by omega) (by omega))
  have hfull : t.fullYear = 1900 + t.year := if_pos hyear
  obtain ⟨hstart, hstart', -⟩ := daysBeforeMonth_bounds (isLeap t.fullYear) (m := t.month - 1) (by omega) (by omega)
  have hmade := makeDay_of_month (y := t.fullYear) (m := t.month - 1) (by omega) (by omega) t.day
  have hfirst := dayFromYear_le (show 1900 ≤ t.fullYear by omega)
  have hlast := dayFromYear_le (show t.fullYear ≤ 1999 by omega)
  have hnum : dayFromYear 1999 = 10592 := rfl
  have hnum' : dayFromYear 10000 = 2932897 := rfl
  have hle : 1900 ≤ yearOfDay (makeDay t.fullYear (t.month - 1) t.day) := le_yearOfDay (by omega)
  have hlt : yearOfDay (makeDay t.fullYear (t.month - 1) t.day) < 10000 :=
    yearOfDay_lt (by omega)
  rw [ofTimestamp, getUTCFullYear, h.dayOf_timestamp]
  dsimp only
  omega

theorem dateOf_intCast {ts : Int} (h : |ts| ≤ 8640000000000) : dateOf ts = some (ts * 1000) := by
  have hcast : (ts : ℚ) * 1000 = (ts * 1000 : Int) := by push_cast; rfl
  have hle : |(ts * 1000 : Int)| ≤ 8640000000000000 := by
    rw [abs_le] at h ⊢
    omega
  rw [dateOf, hcast, if_pos (by exact_mod_cast hle), Int.floor_intCast, Int.ceil_intCast, ite_self]

/-- The date in a request and the date of a key are written alike, except that the request does not pad the year. -/
theorem Exists.formatYYYYMMDD_timestamp (h : t.Exists) (hyear : 1000 ≤ t.year) (hyear' : t.year < 10000) :
    formatYYYYMMDD t.timestamp =
      String.ofList (write [.digits 4, .digits 2, .digits 2] [t.year, t.month, t.day]) := by
  obtain ⟨hy, hm, hd⟩ := h.getUTC_timestamp (by omega)
  have hbound : |t.timestamp| ≤ 8640000000000 := by
    obtain ⟨hle, hlt⟩ := yearOfDay_spec (dayOf (t.timestamp * 1000))
    have hfirst := dayFromYear_le (show (1000 : Int) ≤ getUTCFullYear (t.timestamp * 1000) by omega)
    have hlast := dayFromYear_le (show getUTCFullYear (t.timestamp * 1000) + 1 ≤ (10000 : Int) by omega)
    rw [show dayFromYear 1000 = -354285 from rfl, getUTCFullYear] at hfirst
    rw [show dayFromYear 10000 = 2932897 from rfl, getUTCFullYear] at hlast
    rw [dayOf] at *
    rw [abs_le]
    omega
  rw [formatYYYYMMDD, dateOf_intCast hbound, Option.elim_some, hy, hm, hd]
  simp only [write, List.append_nil, padded_four hyear hyear', Edge.str, String.ofList_append, String.append_assoc,
    Int.sub_add_cancel, Int.toNat_natCast]

end UTCTime

/-! ### Keys -/

/-- `YYYYMMDDHH` of a time on the hour. -/
def ReadsNasaKey (key : String) (t : UTCTime) : Prop :=
  read nasaKey key.toList = some [t.year, t.month, t.day, t.hour] ∧ t.minute = 0

def formatNasaKey (t : UTCTime) : String := String.ofList (write nasaKey [t.year, t.month, t.day, t.hour])

/-- `YYYYMMDD:HHMM`. -/
def ReadsPVGISTime (time : String) (t : UTCTime) : Prop :=
  read pvgisTime time.toList = some [t.year, t.month, t.day, t.hour, t.minute]

def formatPVGISTime (t : UTCTime) : String :=
  String.ofList (write pvgisTime [t.year, t.month, t.day, t.hour, t.minute])

/-- The parser takes a string exactly if it is the key of an existing time, and the time it returns has that key. -/
def AcceptsCalendar (parse : String → Option Int) (format : UTCTime → String) (Reads : String → UTCTime → Prop)
    (s : String) : Prop :=
  ((parse s).isSome ↔ ∃ t, Reads s t ∧ t.Exists) ∧ ∀ ts, parse s = some ts → format (.ofTimestamp ts) = s

/-- What the two parsers share: they return the timestamp of whatever has the shape. -/
structure ShapeParser (parse : String → Option Int) (format : UTCTime → String) (Reads : String → UTCTime → Prop) :
    Prop where
  parse_eq : ∀ {s : String} {t : UTCTime}, Reads s t → parse s = some t.timestamp
  parse_none : ∀ {s : String}, (∀ t, ¬ Reads s t) → parse s = none
  unique : ∀ {s : String} {t t' : UTCTime}, Reads s t → Reads s t' → t = t'
  format_eq : ∀ {s : String} {t : UTCTime}, Reads s t → format t = s
  year_lt : ∀ {s : String} {t : UTCTime}, Reads s t → t.year < 10000
  year_eq : ∀ {t t' : UTCTime}, t.year < 10000 → t'.year < 10000 → format t = format t' → t.year = t'.year

theorem ShapeParser.acceptsCalendar_iff {parse : String → Option Int} {format : UTCTime → String}
    {Reads : String → UTCTime → Prop} (h : ShapeParser parse format Reads) (s : String) :
    AcceptsCalendar parse format Reads s ↔ ∀ t, Reads s t → t.Exists ∧ 100 ≤ t.year := by
  constructor
  · rintro ⟨hsome, hformat⟩ t hread
    have hparse := h.parse_eq hread
    rw [hparse] at hsome
    obtain ⟨t', hread', hexists⟩ := hsome.1 rfl
    obtain rfl := h.unique hread' hread
    refine ⟨hexists, ?_⟩
    by_contra hyear
    obtain ⟨hle, hlt⟩ := hexists.year_ofTimestamp (by omega)
    have heq := h.year_eq hlt (h.year_lt hread) ((hformat _ hparse).trans (h.format_eq hread).symm)
    omega
  · intro hcal
    by_cases hshape : ∃ t, Reads s t
    · obtain ⟨t, hread⟩ := hshape
      obtain ⟨hexists, hyear⟩ := hcal t hread
      rw [AcceptsCalendar, h.parse_eq hread]
      refine ⟨⟨fun _ => ⟨t, hread, hexists⟩, fun _ => rfl⟩, ?_⟩
      rintro ts ⟨⟩
      rw [hexists.ofTimestamp_timestamp hyear, h.format_eq hread]
    · have hnone : ∀ t, ¬ Reads s t := fun t ht => hshape ⟨t, ht⟩
      rw [AcceptsCalendar, h.parse_none hnone]
      constructor
      · constructor
        · rintro ⟨⟩
        · rintro ⟨t, hread, -⟩
          exact absurd hread (hnone t)
      · rintro ts ⟨⟩

theorem parseNasaKey_shape : ShapeParser parseNasaKey formatNasaKey ReadsNasaKey where
  parse_eq {s t} h := by
    obtain ⟨hread, hminute⟩ := h
    rw [parseNasaKey, hread, UTCTime.timestamp, hminute]
    rfl
  parse_none {s} h := by
    rw [parseNasaKey]
    split
    case h_1 year month day hour hread => exact absurd ⟨hread, rfl⟩ (h ⟨year, month, day, hour, 0⟩)
    case h_2 => rfl
  unique {s t t'} h h' := by
    obtain ⟨year, month, day, hour, minute⟩ := t
    obtain ⟨hread, rfl⟩ := h
    obtain ⟨hread', hminute⟩ := h'
    rw [hread] at hread'
    cases t'
    cases hminute
    cases hread'
    rfl
  format_eq {s t} h := by
    rw [formatNasaKey, ((read_eq_some_iff (by decide)).1 h.1).2, String.ofList_toList]
  year_lt {s t} h := by
    obtain ⟨⟨-, hyear, -⟩, -⟩ := (read_eq_some_iff (by decide)).1 h.1
    exact hyear
  year_eq {t t'} ht ht' h := by
    exact head_eq_of_write (by decide) ht ht' (String.ofList_injective h)

theorem parsePVGISTime_shape : ShapeParser parsePVGISTime formatPVGISTime ReadsPVGISTime where
  parse_eq {s t} h := by
    rw [parsePVGISTime, show read pvgisTime s.toList = _ from h]
    rfl
  parse_none {s} h := by
    rw [parsePVGISTime]
    split
    case h_1 year month day hour minute hread => exact absurd hread (h ⟨year, month, day, hour, minute⟩)
    case h_2 => rfl
  unique {s t t'} h h' := by
    have heq := Option.some.inj (h.symm.trans h')
    cases t
    cases t'
    cases heq
    rfl
  format_eq {s t} h := by
    rw [formatPVGISTime, ((read_eq_some_iff (by decide)).1 h).2, String.ofList_toList]
  year_lt {s t} h := by
    obtain ⟨⟨-, hyear, -⟩, -⟩ := (read_eq_some_iff (by decide)).1 h
    exact hyear
  year_eq {t t'} ht ht' h := by
    exact head_eq_of_write (by decide) ht ht' (String.ofList_injective h)

/-- The two parsers take exactly the keys of the calendar on the strings that do not have the shape and on the keys
of existing times from the year 100 on. -/
theorem time_keys_iff (s : String) :
    (AcceptsCalendar parseNasaKey formatNasaKey ReadsNasaKey s ↔
      ∀ t, ReadsNasaKey s t → t.Exists ∧ 100 ≤ t.year) ∧
    (AcceptsCalendar parsePVGISTime formatPVGISTime ReadsPVGISTime s ↔
      ∀ t, ReadsPVGISTime s t → t.Exists ∧ 100 ≤ t.year) :=
  ⟨parseNasaKey_shape.acceptsCalendar_iff s, parsePVGISTime_shape.acceptsCalendar_iff s⟩

/-- The last of February 2026 is the third of March. -/
theorem moved_to_march :
    parsePVGISTime "20260231:1200" = parsePVGISTime "20260303:1200" ∧
    parseNasaKey "2026023112" = parseNasaKey "2026030312" ∧
    ¬ AcceptsCalendar parsePVGISTime formatPVGISTime ReadsPVGISTime "20260231:1200" ∧
    ¬ AcceptsCalendar parseNasaKey formatNasaKey ReadsNasaKey "2026023112" := by
  refine ⟨by decide +kernel, by decide +kernel, ?_, ?_⟩
  · rw [parsePVGISTime_shape.acceptsCalendar_iff]
    intro h
    have hday := (h ⟨2026, 2, 31, 12, 0⟩ (by unfold ReadsPVGISTime; decide +kernel)).1.day_le
    exact absurd hday (by decide)
  · rw [parseNasaKey_shape.acceptsCalendar_iff]
    intro h
    have hday := (h ⟨2026, 2, 31, 12, 0⟩ ⟨by decide +kernel, rfl⟩).1.day_le
    exact absurd hday (by decide)

end Weather
end InfraVeritas
