import SignedHttp.Text.Utf8

/-!
# SignedHttp.Codec.Base64

Base64 with the standard alphabet and padding. `Base64.encode` writes bytes; `Base64.decode?` reads
exactly the texts that it writes: the padding has to be there, and the bits that the last digit
does not need have to be zero.
-/

namespace SignedHttp
namespace Base64

def digit (n : Nat) : Char :=
  Char.ofNat <|
    if n < 26 then 0x41 + n
    else if n < 52 then 0x61 + (n - 26)
    else if n < 62 then 0x30 + (n - 52)
    else if n = 62 then 0x2B
    else 0x2F

/-- The number that a digit stands for. -/
def value? (c : Char) : Option Nat :=
  let n := c.toNat
  if 0x41 ≤ n ∧ n ≤ 0x5A then some (n - 0x41)
  else if 0x61 ≤ n ∧ n ≤ 0x7A then some (n - 0x61 + 26)
  else if 0x30 ≤ n ∧ n ≤ 0x39 then some (n - 0x30 + 52)
  else if n = 0x2B then some 62
  else if n = 0x2F then some 63
  else none

/-- Bytes as digits: four for three bytes, the last group filled up with `=`. -/
def encode : Bytes → List Char
  | [] => []
  | [a] => [digit (a.toNat / 4), digit (a.toNat % 4 * 16), '=', '=']
  | [a, b] =>
    [digit (a.toNat / 4), digit (a.toNat % 4 * 16 + b.toNat / 16), digit (b.toNat % 16 * 4), '=']
  | a :: b :: c :: rest =>
    digit (a.toNat / 4) :: digit (a.toNat % 4 * 16 + b.toNat / 16) ::
      digit (b.toNat % 16 * 4 + c.toNat / 64) :: digit (c.toNat % 64) :: encode rest

def lastOne? (a b : Char) : Option Bytes := do
  let x ← value? a
  let y ← value? b
  if y % 16 = 0 then some [UInt8.ofNat (x * 4 + y / 16)] else none

def lastTwo? (a b c : Char) : Option Bytes := do
  let x ← value? a
  let y ← value? b
  let z ← value? c
  if z % 4 = 0 then some [UInt8.ofNat (x * 4 + y / 16), UInt8.ofNat (y % 16 * 16 + z / 4)] else none

def group? (a b c d : Char) : Option Bytes := do
  let x ← value? a
  let y ← value? b
  let z ← value? c
  let w ← value? d
  some [UInt8.ofNat (x * 4 + y / 16), UInt8.ofNat (y % 16 * 16 + z / 4),
    UInt8.ofNat (z % 4 * 64 + w)]

/-- The bytes that digits stand for. -/
def decode? : List Char → Option Bytes
  | [] => some []
  | [a, b, '=', '='] => lastOne? a b
  | [a, b, c, '='] => lastTwo? a b c
  | a :: b :: c :: d :: rest => do
    let bytes ← group? a b c d
    let more ← decode? rest
    some (bytes ++ more)
  | _ => none

def encodeText (bytes : Bytes) : String := String.ofList (encode bytes)

def decodeText? (s : String) : Option Bytes := decode? s.toList

end Base64
end SignedHttp
