import SignedHttp.Text.Utf8

/-!
# SignedHttp.Text.Percent

Percent-encoding of query names and values. `Percent.encode` keeps the unreserved characters
(ASCII letters and digits, `-`, `.`, `_` and `~`) and writes every byte of any other character as
`%` and two uppercase hexadecimal digits. `Percent.decode` replaces each `%` that two hexadecimal
digits follow by that byte and leaves any other `%` alone; the bytes are then read as UTF-8.
-/

namespace SignedHttp
namespace Percent

/-- The characters that stand for themselves in a query. -/
def isUnreserved (c : Char) : Bool :=
  c.isAlphanum || c == '-' || c == '.' || c == '_' || c == '~'

def hexDigit (n : Nat) : Char := Char.ofNat (if n < 10 then 0x30 + n else 0x37 + n)

def hexValue? (c : Char) : Option Nat :=
  let n := c.toNat
  if 0x30 ≤ n ∧ n ≤ 0x39 then some (n - 0x30)
  else if 0x41 ≤ n ∧ n ≤ 0x46 then some (n - 0x37)
  else if 0x61 ≤ n ∧ n ≤ 0x66 then some (n - 0x57)
  else none

def escape (b : UInt8) : List Char := ['%', hexDigit (b.toNat / 16), hexDigit (b.toNat % 16)]

def encodeChar (c : Char) : List Char :=
  if isUnreserved c then [c] else (String.utf8EncodeChar c).flatMap escape

def encode (s : List Char) : List Char := s.flatMap encodeChar

/-- The bytes that a percent-encoded text stands for. -/
def bytes : List Char → Bytes
  | '%' :: a :: b :: rest =>
    match hexValue? a, hexValue? b with
    | some x, some y => UInt8.ofNat (x * 16 + y) :: bytes rest
    | _, _ => String.utf8EncodeChar '%' ++ bytes (a :: b :: rest)
  | c :: rest => String.utf8EncodeChar c ++ bytes rest
  | [] => []
termination_by s => s.length

/-- The text that a percent-encoded text stands for. -/
def decode (s : List Char) : List Char := Utf8.decode (bytes s)

/-- The text that a form field stands for: a plus sign is a space, then as in `decode`. -/
def decodeForm (s : List Char) : List Char :=
  decode (s.map fun c => if c = '+' then ' ' else c)

end Percent
end SignedHttp
