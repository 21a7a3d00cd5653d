import SignedHttp.Number.Binary
import SignedHttp.Text.Decimal

/-!
# SignedHttp.Number.Shortest

The shortest decimal text of a double. A number `mantissa * 2 ^ exponent` stands for all reals that
are nearer to it than to its neighbours, the middles included when the mantissa is even. For one
digit, two digits and so on, the two multiples of a power of ten next to the number are tried; the
first that lies among those reals gives the digits, the nearer one if both do. The digits are
written out without an exponent.
-/

namespace SignedHttp
namespace Shortest

/-- A positive number and the middles to its neighbours, as numerators of one denominator. -/
structure Span where
  low : Nat
  value : Nat
  high : Nat
  denominator : Nat
  /-- Whether the middles belong to the number. -/
  closed : Bool
deriving Repr

/-- The span of `mantissa * 2 ^ exponent`. Below a power of two the neighbour is half as far. -/
def Span.of (mantissa : Nat) (exponent : Int) : Span :=
  let half := if mantissa = Binary.twoTo 52 ∧ -1074 < exponent then 1 else 2
  let low := 4 * mantissa - half
  let up := Binary.twoTo (exponent - 2).toNat
  ⟨low * up, 4 * mantissa * up, (4 * mantissa + 2) * up, Binary.twoTo (2 - exponent).toNat,
    mantissa % 2 == 0⟩

/-- The numbers `a / b` and `c * 10 ^ k` brought to a common denominator. -/
def aligned (a b c : Nat) (k : Int) : Nat × Nat :=
  (a * Text.tenTo (-k).toNat, c * b * Text.tenTo k.toNat)

/-- Whether `c * 10 ^ k` is read as the number. -/
def Span.holds (s : Span) (c : Nat) (k : Int) : Bool :=
  let (low, x) := aligned s.low s.denominator c k
  let (high, _) := aligned s.high s.denominator c k
  if s.closed then low ≤ x && x ≤ high else low < x && x < high

/-- The whole part of the number divided by `10 ^ k`. -/
def Span.floor (s : Span) (k : Int) : Nat :=
  s.value * Text.tenTo (-k).toNat / (s.denominator * Text.tenTo k.toNat)

/-- The least `k`, from `-330` on, such that the number is below `10 ^ k`. -/
def Span.magnitude (s : Span) : Int :=
  match (List.range 700).find? fun (i : Nat) => s.floor ((i : Int) - 330) == 0 with
  | some i => (i : Int) - 330
  | none => 370

/-- The multiple of `10 ^ k` that is read as the number and is nearest to it, if there is one. -/
def Span.nearest? (s : Span) (k : Int) : Option Nat :=
  let below := s.floor k
  let (value, x) := aligned s.value s.denominator below k
  let (_, y) := aligned s.value s.denominator (below + 1) k
  match s.holds below k, s.holds (below + 1) k with
  | true, true => if value - x < y - value then some below else some (below + 1)
  | true, false => some below
  | false, true => some (below + 1)
  | false, false => none

/-- The shortest digits of the number and the power of ten that they count. -/
def Span.digits (s : Span) : Nat × Int :=
  let places := (List.range 17).map fun (i : Nat) => s.magnitude - 1 - (i : Int)
  match places.findSome? fun k => (s.nearest? k).map fun c => (c, k) with
  | some found => found
  | none => (s.floor (s.magnitude - 17), s.magnitude - 17)

/-- The number `c * 10 ^ k` written out. -/
def positional (c : Nat) (k : Int) : List Char :=
  let digits := Text.decimal c
  if 0 ≤ k then digits ++ List.replicate k.toNat '0'
  else
    let places := (-k).toNat
    let whole := Text.decimal (c / Text.tenTo places)
    match Text.fraction places (c % Text.tenTo places) with
    | [] => whole
    | f => whole ++ '.' :: f

/-- A double in the fewest digits that are read as it. -/
def chars : Binary → List Char
  | .nan => "NaN".toList
  | .infinite negative => (if negative then ['-'] else []) ++ "inf".toList
  | .finite negative mantissa exponent =>
    (if negative then ['-'] else []) ++
      if mantissa = 0 then ['0']
      else
        let (c, k) := (Span.of mantissa exponent).digits
        positional c k

def text (x : Binary) : String := String.ofList (chars x)

end Shortest
end SignedHttp
