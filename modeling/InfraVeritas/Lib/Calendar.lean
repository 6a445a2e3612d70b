import InfraVeritas.Lib.OrderStatistics

/-!
# Days of the proleptic Gregorian calendar

Days are numbered from 1970-01-01, months and the days of a year from 0. `yearOfDay`, `monthOfDay` and
`dateOfDay` take a day apart and `makeDay`, which lets months and dates run over, puts it together again
(`makeDay_ofDay`). On the dates that exist the two are inverse (`ofDay_makeDay`).
-/

namespace Calendar

def isLeap (y : Int) : Bool := y % 4 = 0 ∧ (y % 100 ≠ 0 ∨ y % 400 = 0)

def daysInYear (y : Int) : Int := if isLeap y then 366 else 365

/-- The first day of a year. -/
def dayFromYear (y : Int) : Int := 365 * (y - 1970) + (y - 1969) / 4 - (y - 1901) / 100 + (y - 1601) / 400

theorem dayFromYear_succ (y : Int) : dayFromYear (y + 1) = dayFromYear y + daysInYear y := by
  rw [daysInYear, dayFromYear, dayFromYear]
  by_cases h : isLeap y = true
  · rw [if_pos h]
    rw [isLeap, decide_eq_true_eq] at h
    omega
  · rw [if_neg h]
    rw [isLeap, decide_eq_true_eq] at h
    omega

theorem daysInYear_pos (y : Int) : 0 < daysInYear y := by
  rw [daysInYear]
  split <;> omega

theorem dayFromYear_le {y y' : Int} (h : y ≤ y') : dayFromYear y ≤ dayFromYear y' := by
  rw [dayFromYear, dayFromYear]
  omega

/-- The year of a day: within one of the mean estimate. -/
def yearOfDay (d : Int) : Int :=
  let y := 1970 + 400 * d / 146097
  if d < dayFromYear y then y - 1 else if dayFromYear (y + 1) ≤ d then y + 1 else y

theorem yearOfDay_spec (d : Int) : dayFromYear (yearOfDay d) ≤ d ∧ d < dayFromYear (yearOfDay d + 1) := by
  rw [yearOfDay]
  split
  case isTrue h =>
    rw [Int.sub_add_cancel]
    refine ⟨?_, h⟩
    rw [dayFromYear]
    omega
  case isFalse h =>
    split
    case isTrue h' =>
      refine ⟨h', ?_⟩
      rw [dayFromYear]
      omega
    case isFalse h' => exact ⟨not_lt.1 h, not_le.1 h'⟩

theorem le_yearOfDay {y d : Int} (h : dayFromYear y ≤ d) : y ≤ yearOfDay d := by
  by_contra hy
  obtain ⟨-, hlt⟩ := yearOfDay_spec d
  have hstart := dayFromYear_le (show yearOfDay d + 1 ≤ y by omega)
  omega

theorem yearOfDay_lt {y d : Int} (h : d < dayFromYear y) : yearOfDay d < y := by
  by_contra hy
  obtain ⟨hle, -⟩ := yearOfDay_spec d
  have hstart := dayFromYear_le (show y ≤ yearOfDay d by omega)
  omega

/-! ### Months -/

/-- The first day of each month within the year. -/
def monthStarts (leap : Bool) : List Int :=
  if leap then [0, 31, 60, 91, 121, 152, 182, 213, 244, 274, 305, 335]
  else [0, 31, 59, 90, 120, 151, 181, 212, 243, 273, 304, 334]

def daysBeforeMonth (leap : Bool) (m : Int) : Int := (monthStarts leap).getD m.toNat 0

def daysInMonth (leap : Bool) (m : Int) : Int :=
  if m = 11 then 31 else daysBeforeMonth leap (m + 1) - daysBeforeMonth leap m

/-- The month of a day of the year. -/
def monthWithin (leap : Bool) (d : Int) : Int := (monthStarts leap).countP (· ≤ d) - 1

def dayWithinYear (d : Int) : Int := d - dayFromYear (yearOfDay d)

def monthOfDay (d : Int) : Int := monthWithin (isLeap (yearOfDay d)) (dayWithinYear d)

def dateOfDay (d : Int) : Int := dayWithinYear d - daysBeforeMonth (isLeap (yearOfDay d)) (monthOfDay d) + 1

/-- Months and dates run over. -/
def makeDay (y m date : Int) : Int :=
  dayFromYear (y + m / 12) + daysBeforeMonth (isLeap (y + m / 12)) (m % 12) + date - 1

theorem pairwise_monthStarts (leap : Bool) : (monthStarts leap).Pairwise (· ≤ ·) := by
  cases leap <;> decide

theorem length_monthStarts (leap : Bool) : (monthStarts leap).length = 12 := by
  cases leap <;> rfl

theorem daysBeforeMonth_le_iff (leap : Bool) {i : Nat} (hi : i < 12) (d : Int) :
    daysBeforeMonth leap i ≤ d ↔ i < (monthStarts leap).countP (· ≤ d) := by
  have hi' : i < (monthStarts leap).length := by rwa [length_monthStarts]
  rw [daysBeforeMonth, Int.toNat_natCast, List.getD_eq_getElem _ _ hi']
  exact OrderStatistics.getElem_le_iff (pairwise_monthStarts leap) hi' d

theorem monthWithin_spec (leap : Bool) (d : Int) (h0 : 0 ≤ d) (h : d < if leap then 366 else 365) :
    0 ≤ monthWithin leap d ∧ monthWithin leap d ≤ 11 ∧ daysBeforeMonth leap (monthWithin leap d) ≤ d ∧
      d < daysBeforeMonth leap (monthWithin leap d) + daysInMonth leap (monthWithin leap d) := by
  obtain ⟨n, hn⟩ : ∃ n, (monthStarts leap).countP (· ≤ d) = n := ⟨_, rfl⟩
  have hle : n ≤ 12 := hn ▸ length_monthStarts leap ▸ List.countP_le_length
  have hpos : 0 < n := by
    rw [← hn, ← daysBeforeMonth_le_iff leap (by omega)]
    cases leap <;> exact h0
  obtain ⟨m, rfl⟩ := Nat.exists_eq_add_of_lt hpos
  have hm : monthWithin leap d = m := by
    rw [monthWithin, hn]
    omega
  have hstart : daysBeforeMonth leap m ≤ d := by
    rw [daysBeforeMonth_le_iff leap (by omega), hn]
    omega
  rw [hm]
  refine ⟨by omega, by omega, hstart, ?_⟩
  rw [daysInMonth]
  split
  case isTrue h11 =>
    have hlast : daysBeforeMonth leap m = if leap then 335 else 334 := by
      rw [h11]
      cases leap <;> rfl
    rw [hlast]
    cases leap <;> simp at h ⊢ <;> omega
  case isFalse h11 =>
    have hnext := daysBeforeMonth_le_iff leap (show m + 1 < 12 by omega) d
    rw [hn] at hnext
    push_cast at hnext
    omega

theorem dayWithinYear_spec (d : Int) :
    0 ≤ dayWithinYear d ∧ dayWithinYear d < if isLeap (yearOfDay d) then 366 else 365 := by
  obtain ⟨hle, hlt⟩ := yearOfDay_spec d
  rw [dayFromYear_succ, daysInYear] at hlt
  rw [dayWithinYear]
  omega

theorem monthOfDay_spec (d : Int) : 0 ≤ monthOfDay d ∧ monthOfDay d ≤ 11 := by
  obtain ⟨h0, h⟩ := dayWithinYear_spec d
  obtain ⟨h1, h2, -⟩ := monthWithin_spec _ _ h0 h
  exact ⟨h1, h2⟩

theorem dateOfDay_spec (d : Int) :
    1 ≤ dateOfDay d ∧ dateOfDay d ≤ daysInMonth (isLeap (yearOfDay d)) (monthOfDay d) := by
  obtain ⟨h0, h⟩ := dayWithinYear_spec d
  obtain ⟨-, -, h1, h2⟩ := monthWithin_spec _ _ h0 h
  rw [dateOfDay, monthOfDay]
  omega

theorem daysInMonth_le (leap : Bool) {m : Int} (h0 : 0 ≤ m) (h : m ≤ 11) : daysInMonth leap m ≤ 31 := by
  have hall : ∀ leap : Bool, ∀ m : Fin 12, daysInMonth leap m ≤ 31 := by decide
  have hm := hall leap ⟨m.toNat, by omega⟩
  simp only [Int.toNat_of_nonneg h0] at hm
  exact hm

theorem makeDay_of_month {y m : Int} (h0 : 0 ≤ m) (h11 : m ≤ 11) (date : Int) :
    makeDay y m date = dayFromYear y + daysBeforeMonth (isLeap y) m + date - 1 := by
  have hdiv : m / 12 = 0 := by omega
  have hmod : m % 12 = m := by omega
  rw [makeDay, hdiv, hmod, Int.add_zero]

/-- A day is made of its year, its month and its date. -/
theorem makeDay_ofDay (d : Int) : makeDay (yearOfDay d) (monthOfDay d) (dateOfDay d) = d := by
  obtain ⟨h0, h1⟩ := monthOfDay_spec d
  rw [makeDay_of_month h0 h1, dateOfDay, dayWithinYear]
  omega

/-! ### The day of a date -/

theorem monthWithin_unique (leap : Bool) {m d : Int} (h0 : 0 ≤ m) (h11 : m ≤ 11)
    (hle : daysBeforeMonth leap m ≤ d) (hlt : d < daysBeforeMonth leap m + daysInMonth leap m) :
    monthWithin leap d = m := by
  obtain ⟨i, rfl⟩ := Int.eq_ofNat_of_zero_le h0
  have hle12 : (monthStarts leap).countP (· ≤ d) ≤ 12 := length_monthStarts leap ▸ List.countP_le_length
  rw [daysBeforeMonth_le_iff leap (by omega)] at hle
  rw [monthWithin]
  by_cases hlast : i = 11
  · omega
  · have hnext := daysBeforeMonth_le_iff leap (show i + 1 < 12 by omega) d
    rw [daysInMonth, if_neg (by omega)] at hlt
    push_cast at hnext
    omega

/-- The months of a year lie within it. -/
theorem daysBeforeMonth_bounds (leap : Bool) {m : Int} (h0 : 0 ≤ m) (h11 : m ≤ 11) :
    0 ≤ daysBeforeMonth leap m ∧ daysBeforeMonth leap m ≤ 335 ∧
      daysBeforeMonth leap m + daysInMonth leap m ≤ if leap then 366 else 365 := by
  have hall : ∀ leap : Bool, ∀ m : Fin 12, 0 ≤ daysBeforeMonth leap m ∧ daysBeforeMonth leap m ≤ 335 ∧
      daysBeforeMonth leap m + daysInMonth leap m ≤ if leap then 366 else 365 := by decide
  have hm := hall leap ⟨m.toNat, by omega⟩
  simp only [Int.toNat_of_nonneg h0] at hm
  exact hm

/-- An existing date is taken apart into the year, the month and the date that it was made of. -/
theorem ofDay_makeDay {y m date : Int} (h0 : 0 ≤ m) (h11 : m ≤ 11) (h1 : 1 ≤ date)
    (hdate : date ≤ daysInMonth (isLeap y) m) :
    yearOfDay (makeDay y m date) = y ∧ monthOfDay (makeDay y m date) = m ∧ dateOfDay (makeDay y m date) = date := by
  obtain ⟨hstart, -, hend⟩ := daysBeforeMonth_bounds (isLeap y) h0 h11
  have hday := makeDay_of_month (y := y) h0 h11 date
  have hyear : yearOfDay (makeDay y m date) = y := by
    have hnext := dayFromYear_succ y
    rw [daysInYear] at hnext
    have hle := le_yearOfDay (show dayFromYear y ≤ makeDay y m date by omega)
    have hlt := yearOfDay_lt (show makeDay y m date < dayFromYear (y + 1) by omega)
    omega
  have hwithin : dayWithinYear (makeDay y m date) = daysBeforeMonth (isLeap y) m + date - 1 := by
    rw [dayWithinYear, hyear]
    omega
  have hmonth : monthOfDay (makeDay y m date) = m := by
    rw [monthOfDay, hyear, hwithin]
    exact monthWithin_unique _ h0 h11 (by omega) (by omega)
  refine ⟨hyear, hmonth, ?_⟩
  rw [dateOfDay, hmonth, hyear, hwithin]
  omega

end Calendar
