import SignedHttp.Time.Instant

/-!
# SignedHttp.Time.Stamp

The fields of a written date and time. `Stamp.instant?` turns them into an instant and rejects what
no clock or calendar shows: a day that is not in its month, a day of the week that is not the
date's, an hour past 23. Second 60 is a leap second, in any minute.
-/

namespace SignedHttp

/-- What a written date and time says. -/
structure Stamp where
  date : Date
  /-- The day of the week, from 0 for Monday, where it is given. -/
  weekday : Option Nat := none
  hour : Nat
  minute : Nat
  second : Nat := 0
  nanos : Nat := 0
  /-- How many minutes the clock is ahead. -/
  ahead : Int := 0
deriving DecidableEq, Repr

namespace Stamp

/-- Whether a clock can show the time of day; 60 is the second of a leap second. -/
def isTime (s : Stamp) : Bool :=
  s.hour ≤ 23 && s.minute ≤ 59 && s.second ≤ 60 && s.nanos < Duration.perSecond

/-- Whether the day of the week, if given, is that of the date. -/
def agrees (s : Stamp) : Bool :=
  match s.weekday with
  | some w => w == Date.weekday s.date.toDays
  | none => true

/-- The instant that a stamp names, if all its fields are possible and it is within the bounds,
as read on the clock and as the instant it stands for. -/
def instant? (s : Stamp) : Option Instant :=
  if s.date.isReal && s.isTime && s.agrees then
    let leap := s.second == 60
    let second := if leap then 59 else s.second
    let secs := s.date.toDays * 86400 + (s.hour * 3600 + s.minute * 60 + second : Nat)
    let nanos := if leap then s.nanos + Duration.perSecond else s.nanos
    (Instant.ofParts? secs nanos).bind (·.west? s.ahead)
  else none

end Stamp
end SignedHttp
