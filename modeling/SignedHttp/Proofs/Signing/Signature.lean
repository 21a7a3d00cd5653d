import Mathlib.Tactic.ByContra
import SignedHttp.Signing

/-!
# SignedHttp.Proofs.Signing.Signature

What a signature is: 44 characters in base64 (`Base64.IsSignature`), whatever the key and the text
are. So whether a proof of identity can be sent depends on the name of the account alone
(`legal_authorizationText`).
-/

namespace SignedHttp

namespace Base64

/-- A digit, or what fills up the last group. -/
def IsChar (c : Char) : Prop := c = '=' ∨ (value? c).isSome = true

theorem isChar_digit (n : Nat) : IsChar (digit n) := by
  have small : ∀ n < 64, (value? (digit n)).isSome = true := by decide
  by_cases h : n < 64
  · exact .inr (small n h)
  · have last : digit n = digit 63 := by
      unfold digit
      rw [if_neg (by omega), if_neg (by omega), if_neg (by omega), if_neg (by omega)]
      rfl
    rw [last]
    exact .inr (small 63 (by decide))

theorem isChar_encode : ∀ (bytes : Bytes), ∀ c ∈ encode bytes, IsChar c
  | [], c, h => by simp [encode] at h
  | [a], c, h => by
    simp only [encode, List.mem_cons, List.not_mem_nil, or_false] at h
    rcases h with rfl | rfl | rfl | rfl <;> first | exact isChar_digit _ | exact .inl rfl
  | [a, b], c, h => by
    simp only [encode, List.mem_cons, List.not_mem_nil, or_false] at h
    rcases h with rfl | rfl | rfl | rfl <;> first | exact isChar_digit _ | exact .inl rfl
  | a :: b :: d :: rest, c, h => by
    simp only [encode, List.mem_cons] at h
    rcases h with rfl | rfl | rfl | rfl | h
    all_goals first | exact isChar_digit _ | exact isChar_encode rest c h

theorem length_encode : ∀ bytes : Bytes, (encode bytes).length = 4 * ((bytes.length + 2) / 3)
  | [] => rfl
  | [_] => by simp [encode]
  | [_, _] => by simp [encode]
  | _ :: _ :: _ :: rest => by
    simp only [encode, List.length_cons, length_encode rest]
    omega

/-- A text of 44 characters in base64, which is what 32 bytes are. -/
structure IsSignature (s : String) : Prop where
  length : s.toList.length = 44
  chars : ∀ c ∈ s.toList, IsChar c

theorem isSignature_encodeText {bytes : Bytes} (h : bytes.length = 32) :
    IsSignature (encodeText bytes) := by
  unfold encodeText
  refine ⟨?_, ?_⟩
  · rw [String.toList_ofList, length_encode, h]
  · rw [String.toList_ofList]
    exact isChar_encode bytes

theorem isValueChar_of_isChar {c : Char} (h : IsChar c) : Header.isValueChar c = true := by
  have visible : 0x20 ≤ c.toNat ∧ c.toNat < 0x7F := by
    obtain rfl | h := h
    · decide
    · by_contra outside
      have nothing : value? c = none := by
        unfold value?
        simp only
        repeat rw [if_neg (by omega)]
      rw [nothing] at h
      cases h
  unfold Header.isValueChar
  simp only [Bool.or_eq_true, Bool.and_eq_true, decide_eq_true_eq, bne_iff_ne]
  exact .inr ⟨visible.1, by omega⟩

end Base64

namespace SharedKey

open Header

variable {variant : Variant} {account : String}

theorem isSignature_signature (key : Bytes) (text : String) :
    Base64.IsSignature (signature key text) :=
  Base64.isSignature_encodeText (Hmac.length_sha256 _ _)

/-- Whether a proof of identity can be sent depends on the name of the account alone. -/
theorem legal_authorizationText {s : String} (h : Base64.IsSignature s) :
    (authorizationText variant account s).toList.all isValueChar =
      (variant.word ++ " " ++ account ++ ":").toList.all isValueChar := by
  have signed : s.toList.all isValueChar = true :=
    List.all_eq_true.2 fun c hc => Base64.isValueChar_of_isChar (h.chars c hc)
  unfold authorizationText
  rw [String.toList_append, List.all_append, signed, Bool.and_true]

end SharedKey
end SignedHttp
