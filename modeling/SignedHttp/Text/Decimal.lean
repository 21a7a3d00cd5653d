/-!
# SignedHttp.Text.Decimal

Natural numbers in decimal digits: plain, padded with zeros to a least width, and read back.
-/

namespace SignedHttp
namespace Text

def decimal (n : Nat) : List Char := Nat.toDigits 10 n

/-- The decimal digits of a number, with zeros in front up to a least width. -/
def padded (width n : Nat) : List Char :=
  List.replicate (width - (decimal n).length) '0' ++ decimal n

def tenTo (n : Nat) : Nat := Nat.pow 10 n

/-- The digits after a decimal point of `n / 10 ^ places`, without trailing zeros. -/
def fraction (places n : Nat) : List Char :=
  ((padded places n).reverse.dropWhile (· == '0')).reverse

def number (digits : List Char) : Nat := Nat.ofDigitChars 10 digits 0

@[simp] theorem number_decimal (n : Nat) : number (decimal n) = n :=
  Nat.ofDigitChars_toDigits (by decide) (by decide)

theorem isDigit_of_mem_decimal {n : Nat} {c : Char} (h : c ∈ decimal n) : c.isDigit = true :=
  Nat.isDigit_of_mem_toDigits (by decide) (by decide) h

theorem isDigit_of_mem_padded {width n : Nat} {c : Char} (h : c ∈ padded width n) :
    c.isDigit = true := by
  rcases List.mem_append.1 h with h | h
  · rw [List.eq_of_mem_replicate h]
    decide
  · exact isDigit_of_mem_decimal h

end Text
end SignedHttp
