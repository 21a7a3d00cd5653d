import SignedHttp.Proofs.Text.Utf8
import SignedHttp.Text.Percent

/-!
# SignedHttp.Proofs.Text.Percent

Percent-encoding loses nothing: any text comes back when it is decoded (`decode_encode`). It is made
of unreserved characters and percent signs only (`of_mem_encode`), and a percent sign stands nowhere
but in front of the two digits of a byte, so decoding goes back character by character.
-/

namespace SignedHttp
namespace Percent

theorem isUnreserved_hexDigit : ∀ n < 16, isUnreserved (hexDigit n) = true := by decide

theorem hexValue?_hexDigit : ∀ n < 16, hexValue? (hexDigit n) = some n := by decide

theorem of_mem_encode {s : List Char} {c : Char} (h : c ∈ encode s) :
    isUnreserved c = true ∨ c = '%' := by
  obtain ⟨d, -, hd⟩ := List.mem_flatMap.1 h
  unfold encodeChar at hd
  by_cases hu : isUnreserved d = true
  · rw [if_pos hu, List.mem_singleton] at hd
    exact .inl (hd ▸ hu)
  · rw [if_neg hu] at hd
    obtain ⟨b, -, hb⟩ := List.mem_flatMap.1 hd
    have byte : b.toNat < 256 := b.toNat_lt
    simp only [escape, List.mem_cons, List.not_mem_nil, or_false] at hb
    rcases hb with rfl | rfl | rfl
    · exact .inr rfl
    · exact .inl (isUnreserved_hexDigit _ (by omega))
    · exact .inl (isUnreserved_hexDigit _ (by omega))

theorem bytes_cons {c : Char} (h : c ≠ '%') (rest : List Char) :
    bytes (c :: rest) = String.utf8EncodeChar c ++ bytes rest := by
  rw [bytes]
  intro a b more heq
  exact absurd heq h

theorem bytes_escape (b : UInt8) (rest : List Char) : bytes (escape b ++ rest) = b :: bytes rest := by
  have byte : b.toNat < 256 := b.toNat_lt
  have high := hexValue?_hexDigit (b.toNat / 16) (by omega)
  have low := hexValue?_hexDigit (b.toNat % 16) (by omega)
  have whole : b.toNat / 16 * 16 + b.toNat % 16 = b.toNat := by omega
  simp [escape, bytes, high, low, whole]

theorem bytes_flatMap_escape (bs : Bytes) (rest : List Char) :
    bytes (bs.flatMap escape ++ rest) = bs ++ bytes rest := by
  induction bs with
  | nil => rfl
  | cons b bs ih =>
    rw [List.flatMap_cons, List.append_assoc, bytes_escape, ih]
    rfl

theorem bytes_encodeChar (c : Char) (rest : List Char) :
    bytes (encodeChar c ++ rest) = String.utf8EncodeChar c ++ bytes rest := by
  unfold encodeChar
  by_cases hu : isUnreserved c = true
  · have plain : c ≠ '%' := by
      rintro rfl
      revert hu
      decide
    rw [if_pos hu]
    exact bytes_cons plain rest
  · rw [if_neg hu]
    exact bytes_flatMap_escape _ rest

theorem bytes_encode (s : List Char) : bytes (encode s) = Utf8.encode s := by
  induction s with
  | nil => simp [encode, bytes, Utf8.encode]
  | cons c s ih =>
    have split : encode (c :: s) = encodeChar c ++ encode s := List.flatMap_cons
    rw [split, bytes_encodeChar, ih, Utf8.encode_cons]

theorem decode_encode (s : List Char) : decode (encode s) = s := by
  rw [decode, bytes_encode, Utf8.decode_encode]

end Percent
end SignedHttp
