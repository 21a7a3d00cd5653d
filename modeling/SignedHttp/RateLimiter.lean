import SignedHttp.Error
import SignedHttp.Number.Shortest

/-!
# SignedHttp.RateLimiter

A ceiling on the rate of requests. The limiter spaces requests evenly: each one reserves the next
free slot, which is now if the limiter has been idle, and otherwise one interval after the slot
before. Time in which nothing was asked for is not saved up.
-/

namespace SignedHttp

/-- A ceiling on the rate of requests. -/
structure RateLimiter where
  interval : Duration
  /-- The first instant that is still free, once a slot has been taken. -/
  nextSlot : Option Instant := none
deriving DecidableEq, Repr

namespace RateLimiter

def ofInterval (interval : Duration) : Except Error RateLimiter :=
  if interval.Schedulable then .ok { interval } else fails .intervalOutOfRange

/-- The interval for a rate above zero, given the quotient of one second and the rate: to the
nearest nanosecond, and below `2 ^ 64` seconds. -/
def intervalOf? : Binary → Option Duration
  | .finite false mantissa exponent =>
    let ns := Binary.inUnits Duration.perSecond mantissa exponent
    if ns < Binary.twoTo 64 * Duration.perSecond then some ⟨ns⟩ else none
  | _ => none

/-- Whether a number is above zero and not infinite. -/
def isRate : Binary → Bool
  | .finite negative mantissa _ => !negative && mantissa != 0
  | _ => false

def ofRate (rate : Float) : Except Stop RateLimiter :=
  if isRate (Binary.ofFloat rate) then
    match intervalOf? (Binary.ofFloat (1.0 / rate)) with
    | some interval => (ofInterval interval).mapError Stop.failed
    | none => .error .overflow
  else .error (.failed { cause := .rateNotPositive (Shortest.text (Binary.ofFloat rate)) })

/-- The slot that a request made at an instant gets. -/
def slotAt (l : RateLimiter) (now : Instant) : Instant :=
  match l.nextSlot with
  | some t => if now < t then t else now
  | none => now

/-- Reserves the next slot. Gives the time to wait for it and the limiter afterwards, unless the
slot after it would be past the last instant. -/
def reserve? (l : RateLimiter) (now : Instant) : Option (Duration × RateLimiter) :=
  let slot := l.slotAt now
  (slot.add? l.interval).map fun next => (slot.remaining now, { l with nextSlot := some next })

end RateLimiter
end SignedHttp
