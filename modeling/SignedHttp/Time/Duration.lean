import SignedHttp.Text.Decimal

/-!
# SignedHttp.Time.Duration

Lengths of time in whole nanoseconds, and the text in which logs show them: the largest of the
units `s`, `ms`, `µs` and `ns` in which the value is at least one, with a decimal fraction where
one is needed.
-/

namespace SignedHttp

/-- A length of time. -/
structure Duration where
  ns : Nat
deriving DecidableEq, Repr

namespace Duration

def zero : Duration := ⟨0⟩

abbrev perSecond : Nat := 1000000000

def ofParts (secs nanos : Nat) : Duration := ⟨secs * perSecond + nanos⟩

def ofSecs (secs : Nat) : Duration := ofParts secs 0

def secs (d : Duration) : Nat := d.ns / perSecond

/-- The nanoseconds beyond the whole seconds. -/
def nanos (d : Duration) : Nat := d.ns % perSecond

def add (a b : Duration) : Duration := ⟨a.ns + b.ns⟩

instance : Add Duration := ⟨add⟩

/-- The longest time that can be scheduled: as many milliseconds as a signed 64-bit word holds. -/
def longest : Duration := ⟨9223372036854775807 * 1000000⟩

def Schedulable (d : Duration) : Prop := d.ns ≤ longest.ns

instance (d : Duration) : Decidable d.Schedulable := inferInstanceAs (Decidable (_ ≤ _))

/-- A number of units, given as a number of the `10 ^ places`-th parts of a unit. -/
def inUnit (places : Nat) (unit : String) (n : Nat) : String :=
  let whole := String.ofList (Text.decimal (n / Text.tenTo places))
  match Text.fraction places (n % Text.tenTo places) with
  | [] => whole ++ unit
  | digits => whole ++ "." ++ String.ofList digits ++ unit

/-- A length of time as logs show it. -/
def text (d : Duration) : String :=
  if perSecond ≤ d.ns then inUnit 9 "s" d.ns
  else if 1000000 ≤ d.ns then inUnit 6 "ms" d.ns
  else if 1000 ≤ d.ns then inUnit 3 "µs" d.ns
  else inUnit 0 "ns" d.ns

end Duration
end SignedHttp
