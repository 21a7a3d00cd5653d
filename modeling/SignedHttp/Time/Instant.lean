import SignedHttp.Time.Calendar
import SignedHttp.Time.Duration

/-!
# SignedHttp.Time.Instant

Points in time with leap seconds. An instant is a number of seconds since 1970 and a number of
nanoseconds; the nanoseconds go beyond a second only in a leap second, which is the extension of
the last second of some minute. Instants are ordered by seconds, then nanoseconds, and lie between
two bounds, so moving one can fail (`Instant.add?`), and so can moving a `Clock`.
-/

namespace SignedHttp

/-- A point in time, to the nanosecond. -/
structure Instant where
  secs : Int
  nanos : Nat
  secs_bounds : -8334601228800 ≤ secs ∧ secs ≤ 8210266876799
  nanos_bound : nanos < 1000000000 ∨ (nanos < 2000000000 ∧ secs % 60 = 59)
deriving DecidableEq, Repr

namespace Instant

def ofParts? (secs : Int) (nanos : Nat) : Option Instant :=
  if hs : -8334601228800 ≤ secs ∧ secs ≤ 8210266876799 then
    if hn : nanos < 1000000000 ∨ (nanos < 2000000000 ∧ secs % 60 = 59) then
      some ⟨secs, nanos, hs, hn⟩
    else none
  else none

def isLeap (t : Instant) : Bool := 1000000000 ≤ t.nanos

/-- The earlier or equal instants: fewer seconds, or as many and no more nanoseconds. -/
instance : LE Instant :=
  ⟨fun a b => a.secs < b.secs ∨ (a.secs = b.secs ∧ a.nanos ≤ b.nanos)⟩

instance : LT Instant :=
  ⟨fun a b => a.secs < b.secs ∨ (a.secs = b.secs ∧ a.nanos < b.nanos)⟩

instance (a b : Instant) : Decidable (a ≤ b) :=
  inferInstanceAs (Decidable (a.secs < b.secs ∨ (a.secs = b.secs ∧ a.nanos ≤ b.nanos)))

instance (a b : Instant) : Decidable (a < b) :=
  inferInstanceAs (Decidable (a.secs < b.secs ∨ (a.secs = b.secs ∧ a.nanos < b.nanos)))

def latest (a b : Instant) : Instant := if a ≤ b then b else a

/-- The instant a length of time later, if it is within the bounds. From within a leap second, a
move of less than a second stays there as long as the leap second lasts; any other move leaves it
as if it were the second before. -/
def add? (t : Instant) (d : Duration) : Option Instant :=
  if t.isLeap && d.secs == 0 && t.nanos + d.nanos < 2000000000 then
    ofParts? t.secs (t.nanos + d.nanos)
  else
    let nanos := t.nanos % Duration.perSecond + d.nanos
    ofParts? (t.secs + (d.secs + nanos / Duration.perSecond : Nat)) (nanos % Duration.perSecond)

def secondOfDay (t : Instant) : Nat := (t.secs % 86400).toNat

/-- The day, counted from 1970. -/
def day (t : Instant) : Int := t.secs / 86400

/-- The signed nanoseconds from `b` to `a`. A leap second counts when the later time of day is
past it; which days the instants lie on makes no difference to that. -/
def minus (a b : Instant) : Int :=
  let leap : Int :=
    if b.secondOfDay < a.secondOfDay && b.isLeap then 1
    else if a.secondOfDay < b.secondOfDay && a.isLeap then -1
    else 0
  (a.secs - b.secs + leap) * 1000000000 + ((a.nanos : Int) - (b.nanos : Int))

/-- The time left at `now` until `t`: none once `t` has come. -/
def remaining (t now : Instant) : Duration := ⟨(t.minus now).toNat⟩

/-- The instant that reads as `t` on clocks that are `minutes` ahead. -/
def west? (t : Instant) (minutes : Int) : Option Instant := ofParts? (t.secs - 60 * minutes) t.nanos

def date (t : Instant) : Date := Date.ofDays t.day

def hour (t : Instant) : Nat := t.secondOfDay / 3600

def minute (t : Instant) : Nat := t.secondOfDay / 60 % 60

/-- The second of the minute; a leap second belongs to the second before it. -/
def second (t : Instant) : Nat := t.secondOfDay % 60

end Instant

/-- A clock that moves only when it is told to, and keeps account of the time that was slept
away. -/
structure Clock where
  now : Instant
  slept : Duration := .zero
  /-- How often somebody has slept. It takes centuries until 64 bits cannot hold this. -/
  sleeps : Nat := 0
deriving DecidableEq, Repr

namespace Clock

/-- The clock some time later, unless that is past the last instant. -/
def advance? (c : Clock) (d : Duration) : Option Clock :=
  (c.now.add? d).map fun now => { c with now }

/-- The clock after somebody has slept for some time. -/
def sleep? (c : Clock) (d : Duration) : Option Clock :=
  (c.now.add? d).map fun now => { now, slept := c.slept + d, sleeps := c.sleeps + 1 }

end Clock
end SignedHttp
