/-!
# SignedHttp.Text.Utf8

Text as bytes and back. `Utf8.encode` writes a text as UTF-8. `Utf8.decode` reads any bytes: where
they are not well formed, each maximal part that could still have become a character (or, failing
that, a single byte) is read as one replacement character.
-/

namespace SignedHttp

abbrev Bytes := List UInt8

namespace Utf8

def encode (s : List Char) : Bytes := s.flatMap String.utf8EncodeChar

theorem toNat_ofNat {n : Nat} (h : n < 256) : (UInt8.ofNat n).toNat = n := by
  rw [UInt8.toNat_ofNat']
  exact Nat.mod_eq_of_lt h

/-- A character of ASCII is one byte. -/
theorem utf8EncodeChar_of_ascii {c : Char} (h : c.toNat ≤ 0x7F) :
    String.utf8EncodeChar c = [UInt8.ofNat c.toNat] := by
  have value : c.val.toNat = c.toNat := rfl
  unfold String.utf8EncodeChar
  simp only [value]
  rw [if_pos h]

/-- A character beyond ASCII is made of bytes beyond ASCII. -/
theorem high_of_mem_utf8EncodeChar {c : Char} (h : 0x7F < c.toNat) {b : UInt8}
    (hb : b ∈ String.utf8EncodeChar c) : 0x7F < b.toNat := by
  have value : c.val.toNat = c.toNat := rfl
  unfold String.utf8EncodeChar at hb
  simp only [value] at hb
  rw [if_neg (by omega)] at hb
  split at hb
  · simp only [List.mem_cons, List.not_mem_nil, or_false] at hb
    rcases hb with rfl | rfl <;> rw [toNat_ofNat] <;> omega
  split at hb
  · simp only [List.mem_cons, List.not_mem_nil, or_false] at hb
    rcases hb with rfl | rfl | rfl <;> rw [toNat_ofNat] <;> omega
  · simp only [List.mem_cons, List.not_mem_nil, or_false] at hb
    rcases hb with rfl | rfl | rfl | rfl <;> rw [toNat_ofNat] <;> omega

/-- What is read where bytes are no text, U+FFFD. -/
def replacement : Char := Char.ofNat 0xFFFD

/-- A byte that continues a character. -/
def isTail (b : UInt8) : Bool := 0x80 ≤ b && b ≤ 0xBF

/-- The last six bits of a byte, which is what it adds to a character as a tail. -/
def payload (b : UInt8) : Nat := b.toNat % 64

/-- The bytes that may follow the first byte of a character of three bytes. -/
def followsOfThree (lead next : UInt8) : Bool :=
  if lead = 0xE0 then 0xA0 ≤ next && next ≤ 0xBF
  else if lead = 0xED then 0x80 ≤ next && next ≤ 0x9F
  else isTail next

/-- The bytes that may follow the first byte of a character of four bytes. -/
def followsOfFour (lead next : UInt8) : Bool :=
  if lead = 0xF0 then 0x90 ≤ next && next ≤ 0xBF
  else if lead = 0xF4 then 0x80 ≤ next && next ≤ 0x8F
  else isTail next

/-- The character that starts with `lead`, and how many of the following bytes belong to it. -/
def first (lead : UInt8) (rest : Bytes) : Char × Nat :=
  if lead < 0x80 then (Char.ofNat lead.toNat, 0)
  else if 0xC2 ≤ lead && lead ≤ 0xDF then
    match rest with
    | b :: _ =>
      if isTail b then (Char.ofNat (lead.toNat % 32 * 64 + payload b), 1) else (replacement, 0)
    | [] => (replacement, 0)
  else if 0xE0 ≤ lead && lead ≤ 0xEF then
    match rest with
    | b :: more =>
      if followsOfThree lead b then
        match more with
        | c :: _ =>
          if isTail c then
            (Char.ofNat (lead.toNat % 16 * 4096 + payload b * 64 + payload c), 2)
          else (replacement, 1)
        | [] => (replacement, 1)
      else (replacement, 0)
    | [] => (replacement, 0)
  else if 0xF0 ≤ lead && lead ≤ 0xF4 then
    match rest with
    | b :: more =>
      if followsOfFour lead b then
        match more with
        | c :: most =>
          if isTail c then
            match most with
            | d :: _ =>
              if isTail d then
                (Char.ofNat (lead.toNat % 8 * 262144 + payload b * 4096 + payload c * 64 +
                  payload d), 3)
              else (replacement, 2)
            | [] => (replacement, 2)
          else (replacement, 1)
        | [] => (replacement, 1)
      else (replacement, 0)
    | [] => (replacement, 0)
  else (replacement, 0)

def decode : Bytes → List Char
  | [] => []
  | lead :: rest =>
    let (c, n) := first lead rest
    c :: decode (rest.drop n)
termination_by b => b.length
decreasing_by
  rw [List.length_drop, List.length_cons]
  omega

end Utf8
end SignedHttp
