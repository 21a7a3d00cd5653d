import SignedHttp.Http.Header
import SignedHttp.Proofs.Text.Utf8

/-!
# SignedHttp.Proofs.Http.Header

What can be read back from the bytes of a header value. A value has a text exactly if that is made
of visible ASCII and the bytes of the value are those of the text (`Value.text?_eq_some_iff`). So a
text that was made into a value is read back as it was, or not at all (`Value.text?_of_ofText?`).
-/

namespace SignedHttp
namespace Header

/-- A character that can be read back from a header value. -/
def isVisibleChar (c : Char) : Bool := c == '\t' || (0x20 ≤ c.toNat && c.toNat ≤ 0x7E)

theorem isVisibleByte_iff {b : UInt8} :
    isVisibleByte b = true ↔ b.toNat = 0x09 ∨ (0x20 ≤ b.toNat ∧ b.toNat ≤ 0x7E) := by
  simp [isVisibleByte, ← UInt8.toNat_inj, UInt8.le_iff_toNat_le]

theorem isVisibleChar_iff {c : Char} :
    isVisibleChar c = true ↔ c.toNat = 0x09 ∨ (0x20 ≤ c.toNat ∧ c.toNat ≤ 0x7E) := by
  simp [isVisibleChar, eq_tab_iff]

/-! ## One byte and its character -/

/-- The character that a byte of visible ASCII is read as. -/
def charOf (b : UInt8) : Char := Char.ofNat b.toNat

theorem toNat_charOf {b : UInt8} (h : isVisibleByte b = true) : (charOf b).toNat = b.toNat := by
  have bounds := isVisibleByte_iff.1 h
  have valid : b.toNat.isValidChar := .inl (by omega)
  rw [charOf, Char.ofNat, dif_pos valid]
  rfl

theorem utf8EncodeChar_charOf {b : UInt8} (h : isVisibleByte b = true) :
    String.utf8EncodeChar (charOf b) = [b] := by
  have bounds := isVisibleByte_iff.1 h
  rw [Utf8.utf8EncodeChar_of_ascii (by rw [toNat_charOf h]; omega), toNat_charOf h,
    UInt8.ofNat_toNat]

/-- A visible character is one byte, which is visible, and all other characters have a byte that is
not. -/
theorem all_visible_utf8EncodeChar (c : Char) :
    (String.utf8EncodeChar c).all isVisibleByte = isVisibleChar c := by
  by_cases ascii : c.toNat ≤ 0x7F
  · have byte := Utf8.toNat_ofNat (n := c.toNat) (by omega)
    rw [Utf8.utf8EncodeChar_of_ascii ascii, Bool.eq_iff_iff, List.all_cons, List.all_nil,
      Bool.and_true, isVisibleByte_iff, isVisibleChar_iff, byte]
  · have some : String.utf8EncodeChar c ≠ [] := by
      rw [← List.length_pos_iff, String.length_utf8EncodeChar]
      exact c.utf8Size_pos
    obtain ⟨b, hb⟩ := List.exists_mem_of_ne_nil _ some
    have high := Utf8.high_of_mem_utf8EncodeChar (by omega) hb
    have hidden : isVisibleChar c = false := by
      rw [Bool.eq_false_iff, ne_eq, isVisibleChar_iff]
      omega
    rw [hidden, List.all_eq_false]
    refine ⟨b, hb, fun h => ?_⟩
    have bounds := isVisibleByte_iff.1 h
    omega

/-! ## Whole values -/

theorem all_visible_encode (s : List Char) :
    (Utf8.encode s).all isVisibleByte = s.all isVisibleChar := by
  rw [Utf8.encode, List.all_flatMap]
  congr 1
  funext c
  exact all_visible_utf8EncodeChar c

theorem encode_map_charOf {bytes : Bytes} (h : bytes.all isVisibleByte = true) :
    Utf8.encode (bytes.map charOf) = bytes := by
  induction bytes with
  | nil => rfl
  | cons b rest ih =>
    rw [List.all_cons, Bool.and_eq_true] at h
    rw [List.map_cons, Utf8.encode_cons, utf8EncodeChar_charOf h.1, ih h.2]
    rfl

theorem all_map_charOf {bytes : Bytes} (h : bytes.all isVisibleByte = true) :
    (bytes.map charOf).all isVisibleChar = true := by
  rw [← all_visible_encode, encode_map_charOf h, h]

namespace Value

variable {v : Value} {s : String}

theorem text?_eq_some_iff :
    v.text? = some s ↔ v.bytes = Utf8.encode s.toList ∧ s.toList.all isVisibleChar = true := by
  have read : v.text? = if v.bytes.all isVisibleByte then
    some (String.ofList (v.bytes.map charOf)) else none := rfl
  rw [read]
  constructor
  · intro h
    split at h
    · next visible =>
      cases h
      rw [String.toList_ofList, encode_map_charOf visible]
      exact ⟨rfl, all_map_charOf visible⟩
    · cases h
  · rintro ⟨hbytes, visible⟩
    have readable : v.bytes.all isVisibleByte = true := by rw [hbytes, all_visible_encode, visible]
    have same : v.bytes.map charOf = s.toList :=
      Utf8.eq_of_encode_eq ((encode_map_charOf readable).trans hbytes)
    rw [if_pos readable, same, String.ofList_toList]

theorem text?_eq_none_iff : v.text? = none ↔ v.bytes.all isVisibleByte = false := by
  unfold text?
  cases v.bytes.all isVisibleByte <;> simp

/-- What is shown of a value that can be read is its text. -/
theorem content_of_text? (h : v.text? = some s) : v.content = s := by
  rw [content, (text?_eq_some_iff.1 h).1, Utf8.decode_encode, String.ofList_toList]

theorem ofText?_eq_some_iff :
    ofText? s = some v ↔ v.bytes = Utf8.encode s.toList ∧ v.sensitive = false := by
  obtain ⟨bytes, sensitive, legal⟩ := v
  unfold ofText?
  split
  · next h =>
    rw [Option.some.injEq, ofText, Value.mk.injEq]
    exact and_congr eq_comm eq_comm
  · next h =>
    refine ⟨nofun, fun same => absurd ?_ h⟩
    rw [← same.1, legal]

theorem ofText?_eq_none_iff : ofText? s = none ↔ s.toList.all isValueChar = false := by
  unfold ofText?
  rw [← all_encode]
  split
  · next h => simp [h]
  · next h => simpa using h

theorem text?_of_ofText? (h : ofText? s = some v) :
    v.text? = if s.toList.all isVisibleChar then some s else none := by
  have hbytes := (ofText?_eq_some_iff.1 h).1
  split
  · next visible => exact text?_eq_some_iff.2 ⟨hbytes, visible⟩
  · next hidden =>
    rw [text?_eq_none_iff, hbytes, all_visible_encode]
    exact Bool.eq_false_iff.2 hidden

end Value
end Header
end SignedHttp
