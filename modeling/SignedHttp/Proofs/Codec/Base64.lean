import Mathlib.Tactic.SplitIfs
import SignedHttp.Codec.Base64
import SignedHttp.Proofs.Text.Utf8

/-!
# SignedHttp.Proofs.Codec.Base64

Base64 is read exactly as it is written (`Base64.decode?_eq_some_iff`): what is written comes back,
and nothing else is read. A digit and its number determine each other (`value?_digit`, `of_value?`), hence
so do a group and its bytes; the texts follow group by group.
-/

namespace SignedHttp
namespace Base64

variable {c : Char} {n : Nat} {bytes : Bytes} {s : List Char}

/-! ## Digits -/

theorem value?_digit : ∀ n < 64, value? (digit n) = some n := by decide

theorem digit_ne_pad (h : n < 64) : digit n ≠ '=' := by
  have number := value?_digit n h
  intro heq
  rw [heq] at number
  cases number

theorem of_value? (h : value? c = some n) : n < 64 ∧ digit n = c := by
  suffices number : n < 64 ∧ (if n < 26 then 0x41 + n else if n < 52 then 0x61 + (n - 26)
      else if n < 62 then 0x30 + (n - 52) else if n = 62 then 0x2B else 0x2F) = c.toNat by
    rw [digit, number.2, Char.ofNat_toNat]
    exact ⟨number.1, rfl⟩
  unfold value? at h
  dsimp only at h
  split_ifs at h <;> cases h <;> refine ⟨by omega, ?_⟩ <;> split_ifs <;> omega

/-! ## Groups -/

theorem ofNat_eq {b : UInt8} (h : n = b.toNat) : UInt8.ofNat n = b := by
  rw [h, UInt8.ofNat_toNat]

theorem lastOne?_eq_some_iff {x y : Char} : lastOne? x y = some bytes ↔
    ∃ a : UInt8, bytes = [a] ∧ x = digit (a.toNat / 4) ∧ y = digit (a.toNat % 4 * 16) := by
  simp only [lastOne?, Option.bind_eq_bind, Option.bind_eq_some_iff]
  constructor
  · rintro ⟨m, hm, k, hk, h⟩
    obtain ⟨hm64, rfl⟩ := of_value? hm
    obtain ⟨hk64, rfl⟩ := of_value? hk
    split_ifs at h with rest
    cases h
    have first := Utf8.toNat_ofNat (n := m * 4 + k / 16) (by omega)
    refine ⟨_, rfl, ?_, ?_⟩ <;> rw [first] <;> congr 1 <;> omega
  · rintro ⟨a, rfl, rfl, rfl⟩
    have first := a.toNat_lt
    refine ⟨_, value?_digit _ (by omega), _, value?_digit _ (by omega), ?_⟩
    rw [if_pos (by omega), ofNat_eq (b := a) (by omega)]

theorem lastTwo?_eq_some_iff {x y z : Char} : lastTwo? x y z = some bytes ↔
    ∃ a b : UInt8, bytes = [a, b] ∧ x = digit (a.toNat / 4) ∧
      y = digit (a.toNat % 4 * 16 + b.toNat / 16) ∧ z = digit (b.toNat % 16 * 4) := by
  simp only [lastTwo?, Option.bind_eq_bind, Option.bind_eq_some_iff]
  constructor
  · rintro ⟨m, hm, k, hk, l, hl, h⟩
    obtain ⟨hm64, rfl⟩ := of_value? hm
    obtain ⟨hk64, rfl⟩ := of_value? hk
    obtain ⟨hl64, rfl⟩ := of_value? hl
    split_ifs at h with rest
    cases h
    have first := Utf8.toNat_ofNat (n := m * 4 + k / 16) (by omega)
    have second := Utf8.toNat_ofNat (n := k % 16 * 16 + l / 4) (by omega)
    refine ⟨_, _, rfl, ?_, ?_, ?_⟩ <;> simp only [first, second] <;> congr 1 <;> omega
  · rintro ⟨a, b, rfl, rfl, rfl, rfl⟩
    have first := a.toNat_lt
    have second := b.toNat_lt
    refine ⟨_, value?_digit _ (by omega), _, value?_digit _ (by omega), _,
      value?_digit _ (by omega), ?_⟩
    rw [if_pos (by omega), ofNat_eq (b := a) (by omega), ofNat_eq (b := b) (by omega)]

theorem group?_eq_some_iff {x y z w : Char} : group? x y z w = some bytes ↔
    ∃ a b c : UInt8, bytes = [a, b, c] ∧ x = digit (a.toNat / 4) ∧
      y = digit (a.toNat % 4 * 16 + b.toNat / 16) ∧
      z = digit (b.toNat % 16 * 4 + c.toNat / 64) ∧ w = digit (c.toNat % 64) := by
  simp only [group?, Option.bind_eq_bind, Option.bind_eq_some_iff]
  constructor
  · rintro ⟨m, hm, k, hk, l, hl, o, ho, h⟩
    obtain ⟨hm64, rfl⟩ := of_value? hm
    obtain ⟨hk64, rfl⟩ := of_value? hk
    obtain ⟨hl64, rfl⟩ := of_value? hl
    obtain ⟨ho64, rfl⟩ := of_value? ho
    cases h
    have first := Utf8.toNat_ofNat (n := m * 4 + k / 16) (by omega)
    have second := Utf8.toNat_ofNat (n := k % 16 * 16 + l / 4) (by omega)
    have third := Utf8.toNat_ofNat (n := l % 4 * 64 + o) (by omega)
    refine ⟨_, _, _, rfl, ?_, ?_, ?_, ?_⟩ <;> simp only [first, second, third] <;> congr 1 <;> omega
  · rintro ⟨a, b, c, rfl, rfl, rfl, rfl, rfl⟩
    have first := a.toNat_lt
    have second := b.toNat_lt
    have third := c.toNat_lt
    refine ⟨_, value?_digit _ (by omega), _, value?_digit _ (by omega), _,
      value?_digit _ (by omega), _, value?_digit _ (by omega), ?_⟩
    rw [ofNat_eq (b := a) (by omega), ofNat_eq (b := b) (by omega), ofNat_eq (b := c) (by omega)]

/-! ## Texts -/

/-- The fourth character of a group says whether the group is the last one. -/
theorem decode?_cons {x y z w : Char} {rest : List Char} (h : w ≠ '=') :
    decode? (x :: y :: z :: w :: rest) =
      (group? x y z w).bind fun first => (decode? rest).map fun more => first ++ more := by
  rw [decode?.eq_4]
  · cases group? x y z w <;> cases decode? rest <;> rfl
  · simp_all
  · simp_all

theorem decode_encode : ∀ bytes : Bytes, decode? (encode bytes) = some bytes
  | [] => rfl
  | [a] => lastOne?_eq_some_iff.2 ⟨a, rfl, rfl, rfl⟩
  | [a, b] => by
    have first := a.toNat_lt
    have second := b.toNat_lt
    rw [encode, decode?.eq_3]
    · exact lastTwo?_eq_some_iff.2 ⟨a, b, rfl, rfl, rfl, rfl⟩
    · exact digit_ne_pad (by omega)
  | a :: b :: c :: rest => by
    rw [encode, decode?_cons (digit_ne_pad (by omega)),
      group?_eq_some_iff.2 ⟨a, b, c, rfl, rfl, rfl, rfl, rfl⟩, decode_encode rest]
    rfl

theorem encode_of_decode (h : decode? s = some bytes) : encode bytes = s := by
  fun_induction decode? s generalizing bytes with
  | case1 => cases h; rfl
  | case2 x y =>
    obtain ⟨a, rfl, rfl, rfl⟩ := lastOne?_eq_some_iff.1 h
    rfl
  | case3 x y z =>
    obtain ⟨a, b, rfl, rfl, rfl, rfl⟩ := lastTwo?_eq_some_iff.1 h
    rfl
  | case4 x y z w rest _ _ ih =>
    simp only [Option.bind_eq_bind, Option.bind_eq_some_iff] at h
    obtain ⟨first, group, more, tail, h⟩ := h
    cases h
    obtain ⟨a, b, c, rfl, rfl, rfl, rfl, rfl⟩ := group?_eq_some_iff.1 group
    rw [List.cons_append, List.cons_append, List.cons_append, List.nil_append, encode, ih tail]
  | case5 => cases h

theorem decode?_eq_some_iff : decode? s = some bytes ↔ s = encode bytes :=
  ⟨fun h => (encode_of_decode h).symm, fun h => h ▸ decode_encode bytes⟩

/-- The last digit has bits that are not needed, and they are not zero. -/
example : decode? ['a', '2', 'V', '='] = none := by decide

end Base64
end SignedHttp
