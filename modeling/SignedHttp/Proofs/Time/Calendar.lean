import SignedHttp.Time.Calendar

/-!
# SignedHttp.Proofs.Time.Calendar

The calendar shows every day as a date that exists (`Date.isReal_ofDays`) and that counts back to
that day (`Date.toDays_ofDays`).

`Date.ofDays` takes a number of days apart: into cycles of 400 years, centuries, spans of four
years, years and days (`Date.Parts`). A year that begins in March has 365 days; a 366th is counted
only in the last year of a span, and in the last span of a century only if the century is the last
of its cycle (`Parts.last`). That is the rule of leap years for the year in which the February lies
(`Parts.leap`), and with it both facts are linear arithmetic.
-/

namespace SignedHttp
namespace Date

/-! ## Months -/

/-- The month, counted from March, in which a day lies begins no later than the day and ends after
it. -/
theorem month_of_day {day : Nat} (h : day ≤ 365) :
    monthOfDay day ≤ 11 ∧ monthStart (monthOfDay day) ≤ day ∧
      day < monthStart (monthOfDay day + 1) := by
  unfold monthStart monthOfDay
  omega

/-- The number of a month in its year, from its number counted from March. -/
def monthNumber (month : Nat) : Nat := if month < 10 then month + 3 else month - 9

/-- A month has as many days as lie between its beginning and that of the next. February is the last
one and ends with the year. -/
theorem daysInMonth_monthNumber {year : Int} {month day : Nat} (hmonth : month ≤ 11)
    (hbefore : day < monthStart (month + 1)) (hlast : day ≤ 365)
    (leap : day = 365 → isLeapYear year = true) :
    day - monthStart month + 1 ≤ daysInMonth year (monthNumber month) := by
  by_cases last : month = 11
  · have february : daysInMonth year (monthNumber month) = if isLeapYear year then 29 else 28 := by
      rw [last]
      rfl
    have start : monthStart month = 337 := by
      rw [last]
      rfl
    rw [february, start]
    by_cases h : isLeapYear year = true
    · rw [if_pos h]
      omega
    · have short : day ≠ 365 := mt leap h
      rw [if_neg h]
      omega
  · have other : ¬ monthNumber month = 2 := by
      unfold monthNumber
      split <;> omega
    rw [daysInMonth, if_neg other]
    unfold monthStart monthNumber at *
    simp only [Bool.or_eq_true, decide_eq_true_eq]
    by_cases small : month < 10
    · rw [if_pos small]
      split <;> omega
    · rw [if_neg small]
      split <;> omega

/-! ## The parts of a number of days -/

/-- A number of days since 1 March of year 0, taken apart. -/
structure Parts where
  cycle : Int
  century : Nat
  span : Nat
  rest : Nat
  day : Nat
  century_le : century ≤ 3
  span_le : span ≤ 24
  rest_le : rest ≤ 3
  day_le : day ≤ 365
  /-- The 366th day of a year is the last of its span, and its span is not cut short. -/
  last : day = 365 → rest = 3 ∧ (span = 24 → century = 3)

namespace Parts

variable (p : Parts)

def total : Int :=
  146097 * p.cycle + (36524 * p.century + 1461 * p.span + 365 * p.rest + p.day : Nat)

/-- The year in whose March the days began. -/
def year : Int := 400 * p.cycle + (100 * p.century + 4 * p.span + p.rest : Nat)

def date : Date where
  year := if monthOfDay p.day < 10 then p.year else p.year + 1
  month := monthNumber (monthOfDay p.day)
  day := p.day - monthStart (monthOfDay p.day) + 1

/-- The year after one with 366 days, in which the last of them lies, is a leap year. -/
theorem leap (h : p.day = 365) : isLeapYear (p.year + 1) = true := by
  obtain ⟨hrest, hspan⟩ := p.last h
  have := p.century_le
  have := p.span_le
  have rule : (p.year + 1) % 4 = 0 ∧ ((p.year + 1) % 100 ≠ 0 ∨ (p.year + 1) % 400 = 0) := by
    unfold year
    omega
  simpa [isLeapYear] using rule

theorem isReal_date : p.date.isReal = true := by
  have hday := p.day_le
  obtain ⟨hmonth, -, hbefore⟩ := month_of_day hday
  have leap : p.day = 365 → isLeapYear p.date.year = true := by
    intro h
    have february : monthOfDay p.day = 11 := by
      rw [h]
      rfl
    rw [date, february]
    exact p.leap h
  have fits := daysInMonth_monthNumber hmonth hbefore hday leap
  have number : 1 ≤ monthNumber (monthOfDay p.day) ∧ monthNumber (monthOfDay p.day) ≤ 12 := by
    unfold monthNumber
    split <;> omega
  simp only [isReal, Bool.and_eq_true, decide_eq_true_eq]
  exact ⟨⟨number, Nat.le_add_left ..⟩, fits⟩

/-- Counting days begins anew with March, in the same place as the parts do. -/
theorem toDays_date : p.date.toDays = p.total - epoch := by
  obtain ⟨hmonth, hstart, -⟩ := month_of_day p.day_le
  have march : (if p.date.month ≤ 2 then p.date.year - 1 else p.date.year) = p.year ∧
      (if p.date.month ≤ 2 then p.date.month + 9 else p.date.month - 3) = monthOfDay p.day := by
    by_cases h : monthOfDay p.day < 10
    · have year : p.date.year = p.year := if_pos h
      have month : p.date.month = monthOfDay p.day + 3 := if_pos h
      rw [if_neg (by omega), if_neg (by omega)]
      omega
    · have year : p.date.year = p.year + 1 := if_neg h
      have month : p.date.month = monthOfDay p.day - 9 := if_neg h
      rw [if_pos (by omega), if_pos (by omega)]
      omega
  have hfour : p.year / 4 = 100 * p.cycle + (25 * p.century + p.span : Nat) := by
    have := p.rest_le
    unfold year
    omega
  have hcentury : p.year / 100 = 4 * p.cycle + p.century := by
    have := p.span_le
    have := p.rest_le
    unfold year
    omega
  have hcycle : p.year / 400 = p.cycle := by
    have := p.century_le
    have := p.span_le
    have := p.rest_le
    unfold year
    omega
  have hdays : (p.date.day : Int) = p.day - monthStart (monthOfDay p.day) + 1 := by
    simp only [date]
    omega
  simp only [toDays]
  rw [march.1, march.2, hfour, hcentury, hcycle, hdays]
  unfold year total
  omega

end Parts

/-- Centuries and years are counted off until three are full, so the last takes what is over. -/
theorem exists_parts (n : Int) : ∃ p : Parts, p.total = n + epoch ∧ p.date = ofDays n := by
  obtain ⟨cycle, hcycle⟩ : ∃ c, c = (n + epoch) / 146097 := ⟨_, rfl⟩
  obtain ⟨inCycle, hinCycle⟩ : ∃ d, d = ((n + epoch) % 146097).toNat := ⟨_, rfl⟩
  obtain ⟨century, hcentury⟩ : ∃ c, c = min (inCycle / 36524) 3 := ⟨_, rfl⟩
  obtain ⟨inCentury, hinCentury⟩ : ∃ d, d = inCycle - 36524 * century := ⟨_, rfl⟩
  obtain ⟨span, hspan⟩ : ∃ s, s = inCentury / 1461 := ⟨_, rfl⟩
  obtain ⟨inSpan, hinSpan⟩ : ∃ d, d = inCentury - 1461 * span := ⟨_, rfl⟩
  obtain ⟨rest, hrest⟩ : ∃ r, r = min (inSpan / 365) 3 := ⟨_, rfl⟩
  obtain ⟨day, hday⟩ : ∃ d, d = inSpan - 365 * rest := ⟨_, rfl⟩
  have whole : n + epoch = 146097 * cycle + inCycle ∧ inCycle ≤ 146096 := by omega
  have inCentury_le : inCycle = 36524 * century + inCentury ∧ century ≤ 3 ∧
      inCentury ≤ 36524 ∧ (inCentury = 36524 → century = 3) := by omega
  have inSpan_le : inCentury = 1461 * span + inSpan ∧ span ≤ 24 ∧
      inSpan ≤ 1460 ∧ (inSpan = 1460 → span = 24 → inCentury = 36524) := by omega
  have day_le : inSpan = 365 * rest + day ∧ rest ≤ 3 ∧
      day ≤ 365 ∧ (day = 365 → rest = 3 ∧ inSpan = 1460) := by omega
  refine ⟨⟨cycle, century, span, rest, day, by omega, by omega, by omega, by omega, by omega⟩,
    ?_, ?_⟩
  · simp only [Parts.total]
    omega
  · subst hday hrest hinSpan hspan hinCentury hcentury hinCycle hcycle
    rfl

/-- Every day has a date of the calendar. -/
theorem isReal_ofDays (n : Int) : (ofDays n).isReal = true := by
  obtain ⟨p, -, hdate⟩ := exists_parts n
  rw [← hdate]
  exact p.isReal_date

/-- The date of a day is that of no other day. -/
theorem toDays_ofDays (n : Int) : (ofDays n).toDays = n := by
  obtain ⟨p, htotal, hdate⟩ := exists_parts n
  rw [← hdate, p.toDays_date, htotal]
  omega

end Date
end SignedHttp
