/-!
# SignedHttp.Number.Binary

The numbers behind the bits of a double: a sign and a whole number times a power of two, or no
number at all. `Binary.inUnits` turns such a number into a whole number of fractions of one, to the
nearest, a half to the even neighbour.
-/

namespace SignedHttp

/-- What the bits of a double say. -/
inductive Binary
  | nan
  | infinite (negative : Bool)
  /-- The number `mantissa * 2 ^ exponent`, or its opposite. -/
  | finite (negative : Bool) (mantissa : Nat) (exponent : Int)
deriving DecidableEq, Repr

namespace Binary

def twoTo (n : Nat) : Nat := Nat.pow 2 n

/-- Reads the 64 bits of a double. -/
def ofBits (bits : Nat) : Binary :=
  let negative := bits / twoTo 63 % 2 == 1
  let exponent : Nat := bits / twoTo 52 % twoTo 11
  let fraction : Nat := bits % twoTo 52
  if exponent = 2047 then if fraction = 0 then .infinite negative else .nan
  else if exponent = 0 then .finite negative fraction (-1074)
  else .finite negative (fraction + twoTo 52) ((exponent : Int) - 1075)

def ofFloat (x : Float) : Binary := ofBits x.toBits.toNat

/-- A quotient to the nearest whole number, a half to the even neighbour. -/
def roundedQuotient (a b : Nat) : Nat :=
  let q := a / b
  let r := a % b
  if 2 * r < b then q else if b < 2 * r then q + 1 else if q % 2 = 0 then q else q + 1

/-- The number of `1 / units`-th parts in `mantissa * 2 ^ exponent`, to the nearest. -/
def inUnits (units mantissa : Nat) (exponent : Int) : Nat :=
  if 0 ≤ exponent then mantissa * units * twoTo exponent.toNat
  else roundedQuotient (mantissa * units) (twoTo (-exponent).toNat)

end Binary
end SignedHttp
