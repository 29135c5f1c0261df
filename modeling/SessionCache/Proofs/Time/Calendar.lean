import SessionCache.Time.Calendar

/-!
# Days and dates

Every number of days is the number of a date, and counts back from it (`Date.toDays_ofDays`). An era
has 400 years that start in March, so the year of a day of the era is found by taking the leap days
before it away; `eraYear_spec` says that this finds the right year.

* `Date.isValid_ofDays`: the date of a day is a date of the calendar.
* `Date.ofDays_year_mem`: the years of the days that the calendar reaches.
-/

namespace SessionCache.Time.Date

/-! ## The year of a day -/

/-- The year, of the 400 of an era, of a day of that era. -/
def eraYear (day : Nat) : Nat := (day - day / 1460 + day / 36524 - day / 146096) / 365

/-- The first day of a year of an era. -/
def eraYearStart (year : Nat) : Nat := 365 * year + year / 4 - year / 100

/-- `eraYear` from the century of the day. The last day of the era, a leap day, would be in a fifth
century. -/
theorem eraYear_century {day : Nat} (h : day < 146097) :
    ∃ century ≤ 3, 36524 * century ≤ day ∧ day ≤ 36524 * century + 36524 ∧
      (century < 3 → day < 36524 * century + 36524) ∧
      eraYear day = (day - day / 1460 + century) / 365 ∧ eraYear day / 100 = century := by
  have hcentury : day / 36524 = 0 ∨ day / 36524 = 1 ∨ day / 36524 = 2 ∨ day / 36524 = 3 ∨
      day / 36524 = 4 := by omega
  have hlast : day / 146096 = 0 ∨ day / 146096 = 1 := by omega
  refine ⟨day / 36524 - day / 146096, ?_⟩
  unfold eraYear
  rcases hcentury with h' | h' | h' | h' | h' <;> rcases hlast with h'' | h'' <;> rw [h', h''] <;>
    omega

/-- `eraYear day` is the year that `day` is in; its day 365 is there only if it ends in February of
a leap year. -/
theorem eraYear_spec {day : Nat} (h : day < 146097) :
    eraYear day ≤ 399 ∧ eraYearStart (eraYear day) ≤ day ∧
      day ≤ eraYearStart (eraYear day) + 365 ∧
      (day = eraYearStart (eraYear day) + 365 →
        (eraYear day + 1) % 4 = 0 ∧ ((eraYear day + 1) % 100 = 0 → (eraYear day + 1) % 400 = 0)) := by
  obtain ⟨century, hc, hlow, hhigh, hlast, hyear, hhundred⟩ := eraYear_century h
  generalize eraYear day = year at hyear hhundred ⊢
  unfold eraYearStart
  refine ⟨by omega, by omega, by omega, fun hday => ?_⟩
  have hquad : year % 4 ≠ 3 → day / 1460 = year / 4 := by omega
  have hfour : year % 4 = 3 := by
    rcases Nat.lt_or_ge (year % 4) 3 with hlt | hge
    · have hq := hquad (Nat.ne_of_lt hlt)
      rw [hq] at hyear
      omega
    · omega
  omega

/-! ## The month of a day -/

/-- The month of a day of the year that starts in March. -/
def monthFromMarch (day : Nat) : Nat := (5 * day + 2) / 153

/-- The first day of that month. -/
def monthStart (month : Nat) : Nat := (153 * month + 2) / 5

/-- Its number in the calendar, 1 to 12. -/
def calendarMonth (month : Nat) : Nat := if month < 10 then month + 3 else month - 9

theorem monthFromMarch_spec {day : Nat} (h : day ≤ 365) :
    monthFromMarch day ≤ 11 ∧ monthStart (monthFromMarch day) ≤ day ∧
      day < monthStart (monthFromMarch day + 1) := by
  unfold monthFromMarch monthStart
  omega

theorem calendarMonth_mem {month : Nat} (h : month ≤ 11) :
    1 ≤ calendarMonth month ∧ calendarMonth month ≤ 12 := by
  unfold calendarMonth
  split <;> omega

/-- `monthLength` from the starts of two months; February is the one left out. -/
theorem monthLength_calendarMonth {month : Nat} (h : month ≤ 10) (year : Int) :
    monthLength year (calendarMonth month) = monthStart (month + 1) - monthStart month := by
  have hcases : month = 0 ∨ month = 1 ∨ month = 2 ∨ month = 3 ∨ month = 4 ∨ month = 5 ∨ month = 6 ∨
      month = 7 ∨ month = 8 ∨ month = 9 ∨ month = 10 := by omega
  rcases hcases with rfl | rfl | rfl | rfl | rfl | rfl | rfl | rfl | rfl | rfl | rfl <;> rfl

theorem isLeap_of_four {year : Int} (h : year % 4 = 0) (h' : year % 100 = 0 → year % 400 = 0) :
    isLeap year = true := by
  unfold isLeap
  by_cases hhundred : year % 100 = 0
  · simp [h, h' hhundred]
  · simp [h, hhundred]

/-! ## The date of a day -/

/-- The date of a day of the year that starts in March. -/
def ofMarch (year : Int) (day : Nat) : Date where
  year := if calendarMonth (monthFromMarch day) ≤ 2 then year + 1 else year
  month := calendarMonth (monthFromMarch day)
  day := day - monthStart (monthFromMarch day) + 1

/-- `ofMarch` is valid, for day 365 only before March of a leap year. -/
theorem isValid_ofMarch {year : Int} {day : Nat} (h : day ≤ 365)
    (hleap : day = 365 → isLeap (year + 1) = true) : (ofMarch year day).isValid = true := by
  obtain ⟨hmonth, hstart, hend⟩ := monthFromMarch_spec h
  obtain ⟨hone, htwelve⟩ := calendarMonth_mem hmonth
  have hlength : day - monthStart (monthFromMarch day) + 1 ≤
      monthLength (ofMarch year day).year (calendarMonth (monthFromMarch day)) := by
    unfold ofMarch
    generalize monthFromMarch day = month at *
    rcases Nat.lt_or_eq_of_le hmonth with hlt | rfl
    · rw [monthLength_calendarMonth (by omega)]
      omega
    · change day - monthStart 11 + 1 ≤ if isLeap (year + 1) = true then 29 else 28
      have hfebruary : monthStart 11 = 337 := rfl
      rw [hfebruary]
      split
      · omega
      · next hnot =>
        have hne : day ≠ 365 := fun heq => hnot (hleap heq)
        omega
  have hday : 1 ≤ (ofMarch year day).day := Nat.le_add_left 1 _
  simp only [isValid, Bool.and_eq_true, decide_eq_true_eq]
  exact ⟨⟨⟨hone, htwelve⟩, hday⟩, hlength⟩

/-- `ofDays` in terms of the era, the year in it and the day of that year. -/
theorem ofDays_eq (days : Int) :
    ∃ (era : Int) (year inYear : Nat),
      days = era * 146097 + (eraYearStart year + inYear : Nat) - 719468 ∧ year ≤ 399 ∧
        inYear ≤ 365 ∧ (inYear = 365 → isLeap (year + era * 400 + 1) = true) ∧
        ofDays days = ofMarch (year + era * 400) inYear := by
  have hday : ∃ day : Nat, (days + 719468) % 146097 = day ∧ day < 146097 :=
    ⟨((days + 719468) % 146097).toNat, by omega, by omega⟩
  obtain ⟨day, hday, hlt⟩ := hday
  obtain ⟨hyear, hstart, hend, hlast⟩ := eraYear_spec hlt
  refine ⟨(days + 719468) / 146097, eraYear day, day - eraYearStart (eraYear day), by omega, hyear,
    by omega, fun hinYear => ?_, ?_⟩
  · obtain ⟨hfour, hhundred⟩ := hlast (by omega)
    exact isLeap_of_four (by omega) (by omega)
  · have hnat : ((days + 719468) % 146097).toNat = day := by omega
    change ofMarch (eraYear ((days + 719468) % 146097).toNat + (days + 719468) / 146097 * 400)
      (((days + 719468) % 146097).toNat - eraYearStart (eraYear ((days + 719468) % 146097).toNat)) = _
    rw [hnat]

@[simp] theorem isValid_ofDays (days : Int) : (ofDays days).isValid = true := by
  obtain ⟨era, year, inYear, -, -, hinYear, hleap, heq⟩ := ofDays_eq days
  rw [heq]
  exact isValid_ofMarch hinYear hleap

theorem toDays_ofMarch {era : Int} {year inYear : Nat} (hyear : year ≤ 399) (h : inYear ≤ 365) :
    (ofMarch (year + era * 400) inYear).toDays =
      era * 146097 + (eraYearStart year + inYear : Nat) - 719468 := by
  obtain ⟨hmonth, hstart, -⟩ := monthFromMarch_spec h
  unfold toDays ofMarch
  generalize monthFromMarch inYear = month at *
  unfold monthStart at *
  unfold calendarMonth eraYearStart
  rcases Nat.lt_or_ge month 10 with hten | hten
  · simp only [if_pos hten, if_neg (show ¬month + 3 ≤ 2 by omega), if_pos (show month + 3 > 2 by omega)]
    omega
  · simp only [if_neg (Nat.not_lt.mpr hten), if_pos (show month - 9 ≤ 2 by omega),
      if_neg (show ¬month - 9 > 2 by omega)]
    omega

/-- `toDays` undoes `ofDays`. -/
@[simp] theorem toDays_ofDays (days : Int) : (ofDays days).toDays = days := by
  obtain ⟨era, year, inYear, hdays, hyear, hinYear, -, heq⟩ := ofDays_eq days
  rw [heq, toDays_ofMarch hyear hinYear, hdays]

theorem monthLength_le (year : Int) (month : Nat) : monthLength year month ≤ 31 := by
  unfold monthLength
  split
  · split <;> decide
  all_goals decide

theorem isValid_le {d : Date} (h : d.isValid = true) : d.month ≤ 12 ∧ d.day ≤ 31 := by
  simp only [isValid, Bool.and_eq_true, decide_eq_true_eq] at h
  obtain ⟨⟨⟨-, hmonth⟩, -⟩, hday⟩ := h
  exact ⟨hmonth, Nat.le_trans hday (monthLength_le _ _)⟩

/-- The years of the days that the calendar reaches. -/
theorem ofDays_year_mem {days : Int} (h : -96465292 ≤ days) (h' : days < 95026237) :
    -262143 ≤ (ofDays days).year ∧ (ofDays days).year ≤ 262142 := by
  obtain ⟨era, year, inYear, hdays, hyear, hinYear, -, heq⟩ := ofDays_eq days
  rw [heq]
  unfold ofMarch calendarMonth monthFromMarch
  unfold eraYearStart at hdays
  have hera : -656 ≤ era ∧ era ≤ 655 := by omega
  have hfirst : era = -656 → 256 ≤ year := by omega
  have hlast : era = 655 → year ≤ 142 ∧ (year = 142 → inYear ≤ 305) := by omega
  simp only
  split <;> split <;> omega

/-- The days of the years 0 to 9999. -/
theorem days_mem_of_year_mem {days : Int} (h : 0 ≤ (ofDays days).year)
    (h' : (ofDays days).year ≤ 9999) : -719528 ≤ days ∧ days < 2932897 := by
  obtain ⟨era, year, inYear, hdays, hyear, hinYear, -, heq⟩ := ofDays_eq days
  rw [heq] at h h'
  unfold ofMarch calendarMonth monthFromMarch at h h'
  unfold eraYearStart at hdays
  simp only at h h'
  have hera : -1 ≤ era ∧ era ≤ 24 := by
    split at h <;> split at h' <;> omega
  have hfirst : era = -1 → year = 399 ∧ 306 ≤ inYear := by
    split at h <;> split at h' <;> omega
  have hlast : era = 24 → year = 399 → inYear ≤ 305 := by
    split at h <;> split at h' <;> omega
  omega

end SessionCache.Time.Date
