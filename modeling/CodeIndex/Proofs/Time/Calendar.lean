import CodeIndex.Time.Calendar
/-!
# The calendar goes there and back

The date of a day is a date of the calendar (`isValid_ofDays`), and its number is that day
(`toDays_ofDays`). A day is found in two steps: its year among the 400 years of its era, by a
quotient that takes the leap days out again (`yearOfEra_spec`), and its month in that year
(`monthOfYear_spec`).
-/

namespace CodeIndex.Time

/-! ### Years of an era -/

/-- The year of an era in which a day of the era lies; years begin in March. -/
def yearOfEra (day : Int) : Int :=
  (day - day / 1460 + day / 36524 - day / 146096) / 365

/-- The days of an era before one of its years. -/
def daysBefore (year : Int) : Int :=
  365 * year + year / 4 - year / 100

/-- But for the last day of an era, days and years have the same century. -/
theorem century_yearOfEra {day : Int} (hlow : 0 ≤ day) (hhigh : day < 146096) :
    yearOfEra day / 100 = day / 36524 := by
  have hcentury : day / 36524 = 0 ∨ day / 36524 = 1 ∨ day / 36524 = 2 ∨ day / 36524 = 3 := by
    omega
  rw [yearOfEra]
  rcases hcentury with hcentury | hcentury | hcentury | hcentury <;> rw [hcentury] <;> omega

/-- A day of an era lies in its year, and only years before a leap day have 366 days. -/
theorem yearOfEra_spec {day : Int} (hlow : 0 ≤ day) (hhigh : day < 146097) :
    0 ≤ yearOfEra day ∧ yearOfEra day < 400 ∧
    daysBefore (yearOfEra day) ≤ day ∧ day ≤ daysBefore (yearOfEra day) + 365 ∧
    (day = daysBefore (yearOfEra day) + 365 → (yearOfEra day + 1) % 4 = 0 ∧
      ((yearOfEra day + 1) % 100 ≠ 0 ∨ (yearOfEra day + 1) % 400 = 0)) := by
  by_cases hlast : day = 146096
  · subst hlast
    decide
  have hcentury := century_yearOfEra hlow (by omega)
  have hyear : 365 * yearOfEra day ≤ day - day / 1460 + day / 36524 ∧
      day - day / 1460 + day / 36524 ≤ 365 * yearOfEra day + 364 := by
    rw [yearOfEra]
    omega
  rw [daysBefore, hcentury]
  generalize yearOfEra day = year at hyear hcentury ⊢
  refine ⟨by omega, by omega, by omega, by omega, ?_⟩
  intro hleap
  have hquarter : year % 4 = 3 := by
    -- In the first three of four years the last day comes too late for the quotient by 1460.
    have hsplit : year = 4 * (year / 4) + year % 4 := by omega
    generalize year / 4 = quarter at hsplit hleap
    omega
  omega

/-! ### Months of a year -/

/-- The month in which a day of the year lies, counted from March. -/
def monthOfYear (day : Int) : Int :=
  (5 * day + 2) / 153

theorem monthOfYear_spec {day : Int} (hlow : 0 ≤ day) (hhigh : day ≤ 365) :
    0 ≤ monthOfYear day ∧ monthOfYear day ≤ 11 ∧ (153 * monthOfYear day + 2) / 5 ≤ day ∧
    day < (153 * (monthOfYear day + 1) + 2) / 5 := by
  rw [monthOfYear]
  omega

/-- The number of a month that is counted from March. -/
def monthNumber (month : Int) : Nat :=
  if month < 10 then (month + 3).toNat else (month - 9).toNat

theorem monthNumber_add {month : Nat} (h : month ≤ 11) : (monthNumber month + 9) % 12 = month := by
  rw [monthNumber]
  split <;> omega

/-! ### Dates -/

/-- The era of a day. -/
def era (days : Int) : Int :=
  (days + 719468) / 146097

/-- The number of a day in its era. -/
def dayOfEra (days : Int) : Int :=
  days + 719468 - era days * 146097

/-- The number of a day in its year. -/
def dayOfYear (days : Int) : Int :=
  dayOfEra days - daysBefore (yearOfEra (dayOfEra days))

theorem dayOfEra_bounds (days : Int) : 0 ≤ dayOfEra days ∧ dayOfEra days < 146097 := by
  rw [dayOfEra, era]
  omega

theorem dayOfYear_bounds (days : Int) : 0 ≤ dayOfYear days ∧ dayOfYear days ≤ 365 := by
  obtain ⟨hlow, hhigh⟩ := dayOfEra_bounds days
  obtain ⟨-, -, hbefore, hafter, -⟩ := yearOfEra_spec hlow hhigh
  rw [dayOfYear]
  omega

namespace Date

/-- January and February belong to the year that began in March before. -/
theorem ofDays_eq (days : Int) :
    ofDays days =
      { year := if monthNumber (monthOfYear (dayOfYear days)) ≤ 2
          then yearOfEra (dayOfEra days) + era days * 400 + 1
          else yearOfEra (dayOfEra days) + era days * 400
        month := monthNumber (monthOfYear (dayOfYear days))
        day := (dayOfYear days - (153 * monthOfYear (dayOfYear days) + 2) / 5 + 1).toNat } := by
  have hera : Int.fdiv (days + 719468) 146097 = era days :=
    Int.fdiv_eq_ediv_of_nonneg _ (by decide)
  rw [ofDays, hera]
  rfl

/-- The number of a date from its era, the year of the era and the month from March. -/
theorem toDays_eq {d : Date} (era : Int) {year : Int} {month : Nat}
    (hlow : 0 ≤ year) (hhigh : year < 400)
    (hyear : (if d.month ≤ 2 then d.year - 1 else d.year) = year + era * 400)
    (hmonth : (d.month + 9) % 12 = month) :
    d.toDays = era * 146097 + daysBefore year + (153 * month + 2) / 5 + d.day - 1 - 719468 := by
  have hera : Int.fdiv (year + era * 400) 400 = era := by
    rw [Int.fdiv_eq_ediv_of_nonneg _ (by decide)]
    omega
  have hrest : year + era * 400 - era * 400 = year := by omega
  have htoDays : d.toDays = era * 146097 + (year * 365 + year / 4 - year / 100 +
      (((153 * month + 2) / 5 + d.day : Nat) - 1)) - 719468 := by
    simp only [toDays, hyear, hmonth, hera, hrest]
  rw [htoDays, daysBefore]
  omega

/-- The number of the date of a day is that day. -/
theorem toDays_ofDays (days : Int) : (ofDays days).toDays = days := by
  obtain ⟨hlow, hhigh⟩ := dayOfEra_bounds days
  obtain ⟨hyear, hyear', -, -, -⟩ := yearOfEra_spec hlow hhigh
  obtain ⟨hday, hday'⟩ := dayOfYear_bounds days
  obtain ⟨hmonth, hmonth', hfirst, -⟩ := monthOfYear_spec hday hday'
  have hsum : days + 719468 = era days * 146097 + daysBefore (yearOfEra (dayOfEra days))
      + dayOfYear days := by
    rw [dayOfYear, dayOfEra]
    omega
  rw [ofDays_eq]
  generalize monthOfYear (dayOfYear days) = month at *
  obtain ⟨m, rfl⟩ := Int.eq_ofNat_of_zero_le hmonth
  rw [toDays_eq (era days) hyear hyear' ?_ (monthNumber_add (by omega))]
  · dsimp only
    omega
  · dsimp only
    split
    · exact Int.add_sub_cancel _ _
    · rfl

/-- From March to January months have the days between them and the next. -/
theorem daysInMonth_monthNumber (year : Int) {m : Nat} (hm : m < 11) :
    daysInMonth year (monthNumber m)
      = ((153 * ((m : Int) + 1) + 2) / 5 - (153 * (m : Int) + 2) / 5).toNat := by
  have hcases : m = 0 ∨ m = 1 ∨ m = 2 ∨ m = 3 ∨ m = 4 ∨ m = 5 ∨ m = 6 ∨ m = 7 ∨ m = 8 ∨ m = 9 ∨
      m = 10 := by omega
  rcases hcases with rfl | rfl | rfl | rfl | rfl | rfl | rfl | rfl | rfl | rfl | rfl <;> rfl

/-- The date of a day is in the calendar. -/
theorem isValid_ofDays (days : Int) : (ofDays days).isValid = true := by
  obtain ⟨hlow, hhigh⟩ := dayOfEra_bounds days
  obtain ⟨-, -, -, -, hleap⟩ := yearOfEra_spec hlow hhigh
  obtain ⟨hday, hday'⟩ := dayOfYear_bounds days
  obtain ⟨hmonth, hmonth', hfirst, hnext⟩ := monthOfYear_spec hday hday'
  have hlast : dayOfYear days = 365 →
      dayOfEra days = daysBefore (yearOfEra (dayOfEra days)) + 365 := by
    rw [dayOfYear]
    omega
  rw [ofDays_eq, isValid, Bool.and_eq_true, decide_eq_true_iff, decide_eq_true_iff]
  generalize yearOfEra (dayOfEra days) = year at *
  generalize monthOfYear (dayOfYear days) = month at *
  generalize dayOfYear days = day at *
  obtain ⟨m, rfl⟩ := Int.eq_ofNat_of_zero_le hmonth
  dsimp only
  refine ⟨by omega, ?_⟩
  by_cases hm : m < 11
  · rw [daysInMonth_monthNumber _ hm]
    omega
  · -- The month is February, and its last day may be the leap day.
    obtain rfl : m = 11 := by omega
    show _ ≤ if isLeapYear (year + era days * 400 + 1) then 29 else 28
    by_cases hend : day = 365
    · obtain ⟨hfour, hhundred⟩ := hleap (hlast hend)
      have hisLeap : isLeapYear (year + era days * 400 + 1) = true := by
        rw [isLeapYear, Bool.and_eq_true, beq_iff_eq, Bool.or_eq_true, bne_iff_ne, beq_iff_eq]
        omega
      rw [if_pos hisLeap]
      omega
    · split <;> omega

end Date

end CodeIndex.Time
