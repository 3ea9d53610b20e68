import EventFlow.Time.Instant

/-!
# The calendar counts days

An era of 400 years, from the first of March on, has three centuries and then a fourth that is a day
longer, a century has 24 times four years and then four more, and so on down to the day of a year
(`Date.DayOfEra`). Counted so, the day of an era gives its year, and the day of a year its month; so
`Date.ofDays` always gives a date that there is (`Date.ofParts?_ofDays`), and `Date.toDays` counts
back to where it came from (`Date.toDays_ofDays`). The two counts are those of
`EventFlow.Time.Instant`.
-/

set_option autoImplicit false

namespace EventFlow.Date

/-- A day of an era: the century, the four years in the century, the year in the four years, and the
day in the year. Only the last of four years has a 366th day, and only where the four years are not
the last of a century, or the century is the last of the era. -/
structure DayOfEra where
  century : Int
  cycle : Int
  year : Int
  day : Int
  century_mem : 0 ≤ century ∧ century ≤ 3
  cycle_mem : 0 ≤ cycle ∧ cycle ≤ 24
  year_mem : 0 ≤ year ∧ year ≤ 3
  day_mem : 0 ≤ day ∧ day ≤ 365
  leap : day = 365 → year = 3 ∧ (cycle ≤ 23 ∨ century = 3)

namespace DayOfEra

variable (e : DayOfEra)

/-- The years of the era before the day's. -/
def years : Int := 100 * e.century + 4 * e.cycle + e.year

/-- The days of the era before the day. -/
def days : Int := 36524 * e.century + 1461 * e.cycle + 365 * e.year + e.day

/-- Every number below the length of an era counts the days before one of its days. -/
theorem exists_days_eq {n : Int} (low : 0 ≤ n) (high : n < 146097) :
    ∃ e : DayOfEra, e.days = n := by
  obtain ⟨century, rest, hn, century_mem, rest_mem, last⟩ :
      ∃ century rest : Int, n = 36524 * century + rest ∧ (0 ≤ century ∧ century ≤ 3) ∧
        (0 ≤ rest ∧ rest ≤ 36524) ∧ (rest = 36524 → century = 3) := by
    by_cases h : n = 146096
    · exact ⟨3, 36524, by omega⟩
    · exact ⟨n / 36524, n % 36524, by omega⟩
  obtain ⟨year, day, hrest, year_mem, day_mem, leap⟩ :
      ∃ year day : Int, rest % 1461 = 365 * year + day ∧ (0 ≤ year ∧ year ≤ 3) ∧
        (0 ≤ day ∧ day ≤ 365) ∧ (day = 365 → rest % 1461 = 1460 ∧ year = 3) := by
    by_cases h : rest % 1461 = 1460
    · exact ⟨3, 365, by omega⟩
    · exact ⟨rest % 1461 / 365, rest % 1461 % 365, by omega⟩
  refine ⟨⟨century, rest / 1461, year, day, century_mem, by omega, year_mem, day_mem, ?_⟩, ?_⟩
  · intro hday
    obtain ⟨hrest', hyear⟩ := leap hday
    refine ⟨hyear, ?_⟩
    by_cases h : rest = 36524
    · exact .inr (last h)
    · exact .inl (by omega)
  · show 36524 * century + 1461 * (rest / 1461) + 365 * year + day = n
    omega

theorem days_mem : 0 ≤ e.days ∧ e.days < 146097 := by
  have h1 := e.century_mem
  have h2 := e.cycle_mem
  have h3 := e.year_mem
  have h4 := e.day_mem
  have h5 := e.leap
  unfold days
  omega

/-- The year of an era is found from the day alone: the days that leap years have too many are taken
off before the division. -/
theorem years_eq :
    (e.days - e.days / 1460 + e.days / 36524 - e.days / 146096) / 365 = e.years := by
  have h1 := e.century_mem
  have h2 := e.cycle_mem
  have h3 := e.year_mem
  have h4 := e.day_mem
  have h5 := e.leap
  have days : e.days = 36524 * e.century + 1461 * e.cycle + 365 * e.year + e.day := rfl
  have years : e.years = 100 * e.century + 4 * e.cycle + e.year := rfl
  by_cases last : e.days = 146096
  · rw [last, years]
    omega
  · have centuries : e.days / 36524 = e.century := by omega
    have eras : e.days / 146096 = 0 := by omega
    -- A cycle of four years is a day longer than 1460 days, and a century another 24.
    by_cases late : 1460 ≤ 24 * e.century + e.cycle + 365 * e.year + e.day
    · have cycles : e.days / 1460 = 25 * e.century + e.cycle + 1 := by omega
      rw [centuries, eras, cycles]
      omega
    · have cycles : e.days / 1460 = 25 * e.century + e.cycle := by omega
      rw [centuries, eras, cycles]
      omega

theorem day_eq : e.days - (365 * e.years + e.years / 4 - e.years / 100) = e.day := by
  have h1 := e.century_mem
  have h2 := e.cycle_mem
  have h3 := e.year_mem
  unfold days years
  omega

/-- The month of the day, counted from March. -/
def month : Int := (5 * e.day + 2) / 153

/-- The day of the month, counted from one. -/
def dayOfMonth : Int := e.day - (153 * e.month + 2) / 5 + 1

theorem month_mem : 0 ≤ e.month ∧ e.month ≤ 11 := by
  have h4 := e.day_mem
  unfold month
  omega

theorem dayOfMonth_mem : 1 ≤ e.dayOfMonth ∧ e.dayOfMonth ≤ 31 := by
  have h4 := e.day_mem
  unfold dayOfMonth month
  omega

/-- The date of the day in an era. January and February are the last months of a year that began in
March, so they lie in the next one of the calendar. -/
def date (era : Int) : Date :=
  if e.month < 10 then ⟨era * 400 + e.years, (e.month + 3).toNat, e.dayOfMonth.toNat⟩
  else ⟨era * 400 + e.years + 1, (e.month - 9).toNat, e.dayOfMonth.toNat⟩

theorem years_mem : 0 ≤ e.years ∧ e.years ≤ 399 := by
  have h1 := e.century_mem
  have h2 := e.cycle_mem
  have h3 := e.year_mem
  unfold years
  omega

/-- The year of the calendar in which the day's 29th of February lies has one. -/
theorem isLeap_of_day_eq {era : Int} (h : e.day = 365) :
    isLeap (era * 400 + e.years + 1) = true := by
  obtain ⟨hyear, hcycle⟩ := e.leap h
  have h1 := e.century_mem
  have h2 := e.cycle_mem
  have years : e.years = 100 * e.century + 4 * e.cycle + e.year := rfl
  have fourth : (era * 400 + e.years + 1) % 4 = 0 := by omega
  have century : (era * 400 + e.years + 1) % 100 ≠ 0 ∨ (era * 400 + e.years + 1) % 400 = 0 := by
    omega
  unfold isLeap
  simp only [fourth, decide_true, Bool.true_and, Bool.or_eq_true, decide_eq_true_eq]
  exact century

/-- The days of a month in which a date lies are not fewer than its day. -/
theorem day_date_le (era : Int) :
    (e.date era).day ≤ daysIn (e.date era).year (e.date era).month := by
  have h4 := e.day_mem
  have hmonth := e.month_mem
  have dayOfMonth : e.dayOfMonth = e.day - (153 * e.month + 2) / 5 + 1 := rfl
  have month : e.month = (5 * e.day + 2) / 153 := rfl
  unfold date daysIn
  by_cases february : e.month = 11
  · have second : (e.month - 9).toNat = 2 := by omega
    rw [if_neg (by omega), second, if_pos rfl]
    split
    · show e.dayOfMonth.toNat ≤ 29
      omega
    · next common =>
      have : e.day ≠ 365 := fun h => common (e.isLeap_of_day_eq h)
      show e.dayOfMonth.toNat ≤ 28
      omega
  -- Any other month is as long in every year, and ends where the next one begins.
  · have months : e.month = 0 ∨ e.month = 1 ∨ e.month = 2 ∨ e.month = 3 ∨ e.month = 4 ∨
        e.month = 5 ∨ e.month = 6 ∨ e.month = 7 ∨ e.month = 8 ∨ e.month = 9 ∨
        e.month = 10 := by
      omega
    rcases months with h | h | h | h | h | h | h | h | h | h | h <;>
      rw [h] at month dayOfMonth ⊢ <;> simp <;> omega

end DayOfEra

/-- Every day lies in an era. -/
theorem exists_era (days : Int) :
    ∃ (era : Int) (e : DayOfEra), days + 719468 = era * 146097 + e.days := by
  obtain ⟨e, he⟩ := DayOfEra.exists_days_eq (n := (days + 719468) % 146097) (by omega) (by omega)
  exact ⟨(days + 719468) / 146097, e, by omega⟩

theorem ofDays_eq {days era : Int} {e : DayOfEra} (h : days + 719468 = era * 146097 + e.days) :
    ofDays days = e.date era := by
  have low := e.days_mem.1
  have high := e.days_mem.2
  have eras : (days + 719468).fdiv 146097 = era := by
    rw [Int.fdiv_eq_ediv_of_nonneg _ (by decide)]
    omega
  have rest : days + 719468 - era * 146097 = e.days := by omega
  unfold ofDays
  simp only [eras, rest, e.years_eq, e.day_eq]
  rw [DayOfEra.date, Int.add_comm e.years]
  rfl

/-- Counting the days to the date that lies a number of days after the first gives the number. -/
theorem toDays_ofDays (days : Int) : (ofDays days).toDays = days := by
  obtain ⟨era, e, h⟩ := exists_era days
  have hyears := e.years_mem
  have hmonth := e.month_mem
  have hday := e.dayOfMonth_mem
  have day := e.day_eq
  have dayOfMonth : e.dayOfMonth = e.day - (153 * e.month + 2) / 5 + 1 := rfl
  have eras : (era * 400 + e.years).fdiv 400 = era := by
    rw [Int.fdiv_eq_ediv_of_nonneg _ (by decide)]
    omega
  rw [ofDays_eq h, DayOfEra.date]
  split
  · have late : ¬ (e.month + 3).toNat ≤ 2 := by omega
    have late' : 2 < (e.month + 3).toNat := by omega
    simp only [toDays, late, late', if_true, if_false, eras]
    omega
  · have early : (e.month - 9).toNat ≤ 2 := by omega
    have early' : ¬ 2 < (e.month - 9).toNat := by omega
    simp only [toDays, early, early', if_true, if_false, Int.add_sub_cancel, eras]
    omega

/-- The parts of a date are within their bounds. -/
theorem ofParts?_isSome {year : Int} {month day : Nat} (h : (ofParts? year month day).isSome) :
    years.1 ≤ year ∧ year ≤ years.2 ∧ 1 ≤ month ∧ month ≤ 12 ∧
      1 ≤ day ∧ day ≤ daysIn year month := by
  unfold ofParts? at h
  split at h
  · assumption
  · cases h

theorem daysIn_le (year : Int) (month : Nat) : daysIn year month ≤ 31 := by
  unfold daysIn
  split
  · split <;> decide
  · split <;> decide

/-- The date that lies a number of days after the first is a date, if its year is told. -/
theorem ofParts?_ofDays {days : Int}
    (told : years.1 ≤ (ofDays days).year ∧ (ofDays days).year ≤ years.2) :
    ofParts? (ofDays days).year (ofDays days).month (ofDays days).day = some (ofDays days) := by
  obtain ⟨era, e, h⟩ := exists_era days
  have hmonth := e.month_mem
  have hday := e.dayOfMonth_mem
  have most := e.day_date_le era
  rw [ofDays_eq h] at told ⊢
  have month : 1 ≤ (e.date era).month ∧ (e.date era).month ≤ 12 := by
    unfold DayOfEra.date
    split <;> simp only <;> omega
  have day : 1 ≤ (e.date era).day := by
    unfold DayOfEra.date
    split <;> simp only <;> omega
  rw [ofParts?, if_pos ⟨told.1, told.2, month.1, month.2, day, most⟩]

end EventFlow.Date
