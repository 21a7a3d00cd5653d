import SignedHttp.Time.Instant

/-!
# SignedHttp.Time.HttpDate

Dates as they stand in the `Date` header: `Tue, 01 Mar 2022 08:12:34 +0000`. The names are the
fixed English ones, the time is that of Greenwich, fractions of a second are dropped, and a leap
second shows as the second before it.
-/

namespace SignedHttp
namespace HttpDate

def two (n : Nat) : List Char := Text.padded 2 n

/-- A year in at least four characters, the sign of an early year among them. -/
def yearText (year : Int) : List Char :=
  if year < 0 then '-' :: Text.padded 3 year.natAbs else Text.padded 4 year.natAbs

/-- A time of day as `08:12:34`. -/
def clockText (t : Instant) : List Char :=
  two t.hour ++ [':'] ++ two t.minute ++ [':'] ++ two t.second

def weekdayName (t : Instant) : List Char :=
  (Date.weekdayNames.getD (Date.weekday t.day) "").toList

/-- The short name of a month, counted from one. -/
def monthName (month : Nat) : List Char := (Date.monthNames.getD (month - 1) "").toList

/-- An instant as the characters of a `Date` header. -/
def chars (t : Instant) : List Char :=
  weekdayName t ++ [',', ' '] ++ two t.date.day ++ [' '] ++ monthName t.date.month ++ [' '] ++
    yearText t.date.year ++ [' '] ++ clockText t ++ [' '] ++ ['+', '0', '0', '0', '0']

def text (t : Instant) : String := String.ofList (chars t)

end HttpDate
end SignedHttp
