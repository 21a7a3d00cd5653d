/-!
# SignedHttp.Time.Calendar

The Gregorian calendar, extended without end in both directions. Days are counted from 1 January
1970. A year is taken to begin in March, so that a leap day is the last day of its year and the
months have one closed form; 400 such years are one cycle of 146097 days, made of four centuries,
each of spans of four years, and the day that is over after four centuries or four years belongs to
the last of them.
-/

namespace SignedHttp

/-- A day of the calendar, months and days counted from one. -/
structure Date where
  year : Int
  month : Nat
  day : Nat
deriving DecidableEq, Repr

namespace Date

def isLeapYear (year : Int) : Bool := year % 4 = 0 && (year % 100 ≠ 0 || year % 400 = 0)

def daysInMonth (year : Int) (month : Nat) : Nat :=
  if month = 2 then (if isLeapYear year then 29 else 28)
  else if month = 4 || month = 6 || month = 9 || month = 11 then 30
  else 31

def isReal (d : Date) : Bool :=
  1 ≤ d.month && d.month ≤ 12 && 1 ≤ d.day && d.day ≤ daysInMonth d.year d.month

/-- The days from 1 March of year 0 to 1 January 1970. -/
abbrev epoch : Int := 719468

/-- The day of the year, from 0, on which a month begins; months count from March, from 0. -/
def monthStart (month : Nat) : Nat := (153 * month + 2) / 5

/-- The month, counted from March, from 0, in which a day of the year lies. -/
def monthOfDay (day : Nat) : Nat := (5 * day + 2) / 153

/-- The number of days from 1 January 1970. -/
def toDays (d : Date) : Int :=
  let year := if d.month ≤ 2 then d.year - 1 else d.year
  let month := if d.month ≤ 2 then d.month + 9 else d.month - 3
  365 * year + year / 4 - year / 100 + year / 400 + monthStart month + d.day - 1 - epoch

/-- The day so many days after 1 January 1970. -/
def ofDays (n : Int) : Date :=
  let cycle := (n + epoch) / 146097
  let day := ((n + epoch) % 146097).toNat
  let century := min (day / 36524) 3
  let day := day - 36524 * century
  let span := day / 1461
  let day := day - 1461 * span
  let rest := min (day / 365) 3
  let day := day - 365 * rest
  let year : Int := 400 * cycle + (100 * century + 4 * span + rest : Nat)
  let month := monthOfDay day
  { year := if month < 10 then year else year + 1
    month := if month < 10 then month + 3 else month - 9
    day := day - monthStart month + 1 }

/-- The day of the week of a day, from 0 for Monday. -/
def weekday (n : Int) : Nat := ((n + 3) % 7).toNat

def weekdayNames : List String := ["Mon", "Tue", "Wed", "Thu", "Fri", "Sat", "Sun"]

/-- What the full names of the days of the week add to the short ones. -/
def weekdayEndings : List String := ["day", "sday", "nesday", "rsday", "day", "urday", "day"]

def monthNames : List String :=
  ["Jan", "Feb", "Mar", "Apr", "May", "Jun", "Jul", "Aug", "Sep", "Oct", "Nov", "Dec"]

end Date
end SignedHttp
