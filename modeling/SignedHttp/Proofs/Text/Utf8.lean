import Mathlib.Data.List.Flatten
import SignedHttp.Text.Utf8

/-!
# SignedHttp.Proofs.Text.Utf8

Text that is written as UTF-8 is read back as it was (`decode_encode`). The bytes of a character
determine it, whatever follows them (`first_of_utf8EncodeChar`); there is one case for each number of
bytes. A text begins or ends with another exactly if its bytes do with those of the other
(`encode_prefix_iff`, `encode_suffix_iff`): a character that begins in one place of the bytes begins
there in whatever text they are part of.
-/

namespace SignedHttp
namespace Utf8

/-- A character is no half of a surrogate pair. -/
theorem toNat_bounds (c : Char) : c.toNat < 0xD800 ∨ 0xDFFF < c.toNat ∧ c.toNat < 0x110000 :=
  c.valid

theorem ofNat_eq_self {c : Char} {n : Nat} (h : n = c.toNat) : Char.ofNat n = c := by
  rw [h, Char.ofNat_toNat]

theorem isTail_ofNat {n : Nat} (h : n < 64) : isTail (UInt8.ofNat (n + 128)) = true := by
  have byte := toNat_ofNat (n := n + 128) (by omega)
  simp only [isTail, Bool.and_eq_true, decide_eq_true_eq, UInt8.le_iff_toNat_le, byte,
    UInt8.reduceToNat]
  omega

theorem payload_ofNat {n : Nat} (h : n < 64) : payload (UInt8.ofNat (n + 128)) = n := by
  rw [payload, toNat_ofNat (by omega)]
  omega

/-! ## The characters, by the number of their bytes -/

variable {c : Char}

theorem first_of_one (high : c.toNat ≤ 0x7F) (rest : Bytes) :
    first (UInt8.ofNat c.toNat) rest = (c, 0) := by
  have lead := toNat_ofNat (n := c.toNat) (by omega)
  unfold first
  rw [if_pos (by simp [UInt8.lt_iff_toNat_lt]; omega), lead, Char.ofNat_toNat]

theorem first_of_two (low : 0x7F < c.toNat) (high : c.toNat ≤ 0x7FF) (rest : Bytes) :
    first (UInt8.ofNat (c.toNat / 64 % 32 + 192))
      (UInt8.ofNat (c.toNat % 64 + 128) :: rest) = (c, 1) := by
  have lead := toNat_ofNat (n := c.toNat / 64 % 32 + 192) (by omega)
  have tail : c.toNat % 64 < 64 := by omega
  unfold first
  rw [if_neg (by simp [UInt8.lt_iff_toNat_lt]; omega),
    if_pos (by simp [UInt8.le_iff_toNat_le]; omega)]
  simp only [isTail_ofNat tail, payload_ofNat tail, lead, if_true]
  rw [ofNat_eq_self (c := c) (by omega)]

/-- The second of three bytes rules out what two bytes can say, and the surrogates. -/
theorem followsOfThree_ofNat (low : 0x7FF < c.toNat) (high : c.toNat ≤ 0xFFFF) :
    followsOfThree (UInt8.ofNat (c.toNat / 4096 % 16 + 224))
      (UInt8.ofNat (c.toNat / 64 % 64 + 128)) = true := by
  have lead := toNat_ofNat (n := c.toNat / 4096 % 16 + 224) (by omega)
  have next := toNat_ofNat (n := c.toNat / 64 % 64 + 128) (by omega)
  have bounds := toNat_bounds c
  unfold followsOfThree isTail
  simp only [← UInt8.toNat_inj, UInt8.le_iff_toNat_le, lead, next, UInt8.reduceToNat]
  split
  · simp only [Bool.and_eq_true, decide_eq_true_eq]
    omega
  · split <;> simp only [Bool.and_eq_true, decide_eq_true_eq] <;> omega

theorem first_of_three (low : 0x7FF < c.toNat) (high : c.toNat ≤ 0xFFFF) (rest : Bytes) :
    first (UInt8.ofNat (c.toNat / 4096 % 16 + 224))
      (UInt8.ofNat (c.toNat / 64 % 64 + 128) :: UInt8.ofNat (c.toNat % 64 + 128) :: rest) =
      (c, 2) := by
  have lead := toNat_ofNat (n := c.toNat / 4096 % 16 + 224) (by omega)
  have middle : c.toNat / 64 % 64 < 64 := by omega
  have tail : c.toNat % 64 < 64 := by omega
  unfold first
  rw [if_neg (by simp [UInt8.lt_iff_toNat_lt]; omega),
    if_neg (by simp [UInt8.le_iff_toNat_le]; omega),
    if_pos (by simp [UInt8.le_iff_toNat_le]; omega)]
  simp only [followsOfThree_ofNat low high, isTail_ofNat tail, payload_ofNat tail,
    payload_ofNat middle, lead, if_true]
  rw [ofNat_eq_self (c := c) (by omega)]

/-- The second of four bytes rules out what three bytes can say, and what is beyond all
characters. -/
theorem followsOfFour_ofNat (low : 0xFFFF < c.toNat) :
    followsOfFour (UInt8.ofNat (c.toNat / 262144 % 8 + 240))
      (UInt8.ofNat (c.toNat / 4096 % 64 + 128)) = true := by
  have lead := toNat_ofNat (n := c.toNat / 262144 % 8 + 240) (by omega)
  have next := toNat_ofNat (n := c.toNat / 4096 % 64 + 128) (by omega)
  have bounds := toNat_bounds c
  unfold followsOfFour isTail
  simp only [← UInt8.toNat_inj, UInt8.le_iff_toNat_le, lead, next, UInt8.reduceToNat]
  split
  · simp only [Bool.and_eq_true, decide_eq_true_eq]
    omega
  · split <;> simp only [Bool.and_eq_true, decide_eq_true_eq] <;> omega

theorem first_of_four (low : 0xFFFF < c.toNat) (rest : Bytes) :
    first (UInt8.ofNat (c.toNat / 262144 % 8 + 240))
      (UInt8.ofNat (c.toNat / 4096 % 64 + 128) :: UInt8.ofNat (c.toNat / 64 % 64 + 128) ::
        UInt8.ofNat (c.toNat % 64 + 128) :: rest) = (c, 3) := by
  have bounds := toNat_bounds c
  have lead := toNat_ofNat (n := c.toNat / 262144 % 8 + 240) (by omega)
  have second : c.toNat / 4096 % 64 < 64 := by omega
  have third : c.toNat / 64 % 64 < 64 := by omega
  have tail : c.toNat % 64 < 64 := by omega
  unfold first
  rw [if_neg (by simp [UInt8.lt_iff_toNat_lt]; omega),
    if_neg (by simp [UInt8.le_iff_toNat_le]; omega),
    if_neg (by simp [UInt8.le_iff_toNat_le]; omega),
    if_pos (by simp [UInt8.le_iff_toNat_le]; omega)]
  simp only [followsOfFour_ofNat low, isTail_ofNat third, isTail_ofNat tail, payload_ofNat tail,
    payload_ofNat third, payload_ofNat second, lead, if_true]
  rw [ofNat_eq_self (c := c) (by omega)]

/-! ## Whole texts -/

variable {s t : List Char}

theorem encode_cons (c : Char) (s : List Char) :
    encode (c :: s) = String.utf8EncodeChar c ++ encode s :=
  List.flatMap_cons

theorem first_of_utf8EncodeChar (c : Char) :
    ∃ lead tail, String.utf8EncodeChar c = lead :: tail ∧
      ∀ rest, first lead (tail ++ rest) = (c, tail.length) := by
  have value : c.val.toNat = c.toNat := rfl
  unfold String.utf8EncodeChar
  simp only [value]
  by_cases one : c.toNat ≤ 0x7F
  · rw [if_pos one]
    exact ⟨_, _, rfl, first_of_one one⟩
  by_cases two : c.toNat ≤ 0x7FF
  · rw [if_neg one, if_pos two]
    exact ⟨_, _, rfl, first_of_two (by omega) two⟩
  by_cases three : c.toNat ≤ 0xFFFF
  · rw [if_neg one, if_neg two, if_pos three]
    exact ⟨_, _, rfl, first_of_three (by omega) three⟩
  · rw [if_neg one, if_neg two, if_neg three]
    exact ⟨_, _, rfl, first_of_four (by omega)⟩

theorem decode_utf8EncodeChar (c : Char) (rest : Bytes) :
    decode (String.utf8EncodeChar c ++ rest) = c :: decode rest := by
  obtain ⟨lead, tail, hc, hfirst⟩ := first_of_utf8EncodeChar c
  rw [hc, List.cons_append, decode, hfirst]
  simp

theorem decode_encode_append (s : List Char) (rest : Bytes) :
    decode (encode s ++ rest) = s ++ decode rest := by
  induction s with
  | nil => simp [encode]
  | cons c s ih =>
    rw [encode_cons, List.append_assoc, decode_utf8EncodeChar, ih, List.cons_append]

theorem decode_encode (s : List Char) : decode (encode s) = s := by
  simpa [decode] using decode_encode_append s []

theorem eq_of_encode_eq (h : encode s = encode t) : s = t := by
  rw [← decode_encode s, h, decode_encode t]

theorem encode_append (s t : List Char) : encode (s ++ t) = encode s ++ encode t :=
  List.flatMap_append

/-! ## Parts of a text -/

/-- The bytes that a text begins with tell the characters that it begins with. -/
theorem encode_prefix_iff : encode s <+: encode t ↔ s <+: t := by
  constructor
  · rintro ⟨rest, whole⟩
    refine ⟨decode rest, ?_⟩
    rw [← decode_encode_append, whole, decode_encode]
  · rintro ⟨rest, rfl⟩
    rw [encode_append]
    exact List.prefix_append _ _

/-- A character begins with a byte that no character has in another place. -/
theorem exists_lead (c : Char) :
    ∃ lead tail, String.utf8EncodeChar c = lead :: tail ∧ lead.IsUTF8FirstByte := by
  cases h : String.utf8EncodeChar c with
  | nil =>
    have size := c.utf8Size_pos
    rw [← String.length_utf8EncodeChar, h] at size
    cases size
  | cons lead tail =>
    have first : (lead :: tail)[0].IsUTF8FirstByte := by
      simp only [← h]
      exact UInt8.isUTF8FirstByte_getElem_utf8EncodeChar.2 rfl
    exact ⟨lead, tail, rfl, first⟩

theorem eq_nil_of_lead {front tail : Bytes} {lead : UInt8} (hlead : lead.IsUTF8FirstByte)
    (h : front ++ lead :: tail = String.utf8EncodeChar c) : front = [] := by
  have inside : front.length < (String.utf8EncodeChar c).length := by
    rw [← h, List.length_append, List.length_cons]
    omega
  have here : (String.utf8EncodeChar c)[front.length] = lead := by simp [← h]
  rw [← here, UInt8.isUTF8FirstByte_getElem_utf8EncodeChar] at hlead
  exact List.length_eq_zero_iff.1 hlead

/-- The bytes that a text ends with tell the characters that it ends with. -/
theorem encode_suffix_iff : encode s <:+ encode t ↔ s <:+ t := by
  constructor
  · intro h
    induction t with
    | nil =>
      have none : encode s = encode [] := List.suffix_nil.1 h
      exact eq_of_encode_eq none ▸ List.suffix_rfl
    | cons c t ih =>
      cases s with
      | nil => exact List.nil_suffix
      | cons d s =>
        obtain ⟨lead, tail, hd, hlead⟩ := exists_lead d
        obtain ⟨front, whole⟩ := h
        have split := whole
        rw [encode_cons c] at split
        obtain ⟨more, hc, hs⟩ | ⟨more, -, ht⟩ := List.append_eq_append_iff.1 split
        · cases more with
          | nil =>
            rw [List.nil_append] at hs
            rw [eq_of_encode_eq hs]
            exact List.suffix_cons c t
          | cons x more =>
            -- the end would begin within the first character, but its first byte begins one
            rw [encode_cons, hd, List.cons_append, List.cons_append] at hs
            obtain ⟨rfl, -⟩ := List.cons.inj hs
            rw [eq_nil_of_lead hlead hc.symm, List.nil_append] at whole
            exact eq_of_encode_eq whole ▸ List.suffix_rfl
        · exact (ih ⟨more, ht.symm⟩).trans (List.suffix_cons c t)
  · rintro ⟨front, rfl⟩
    rw [encode_append]
    exact List.suffix_append _ _

/-! ## Sizes -/

theorem length_encode_append (s t : List Char) :
    (encode (s ++ t)).length = (encode s).length + (encode t).length := by
  rw [encode_append, List.length_append]

theorem length_encode_cons (c : Char) (s : List Char) :
    (encode (c :: s)).length = c.utf8Size + (encode s).length := by
  rw [encode_cons, List.length_append, String.length_utf8EncodeChar]

theorem length_encode_reverse (s : List Char) : (encode s.reverse).length = (encode s).length :=
  (s.reverse_perm.flatMap_right String.utf8EncodeChar).length_eq

theorem length_le_length_encode (s : List Char) : s.length ≤ (encode s).length := by
  induction s with
  | nil => simp
  | cons c s ih =>
    have one := c.utf8Size_pos
    rw [length_encode_cons, List.length_cons]
    omega

theorem length_encode_eq_zero_iff {s : List Char} : (encode s).length = 0 ↔ s = [] := by
  constructor
  · intro h
    have none := length_le_length_encode s
    rw [h] at none
    exact List.length_eq_zero_iff.1 (Nat.le_zero.1 none)
  · rintro rfl
    rfl

theorem length_encode_le {s t : List Char} (h : s.Sublist t) :
    (encode s).length ≤ (encode t).length :=
  (h.flatMap String.utf8EncodeChar).length_le

end Utf8
end SignedHttp
