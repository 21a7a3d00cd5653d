import SignedHttp.Proofs.Text.Utf8
import SignedHttp.Redact

/-!
# SignedHttp.Proofs.Redact

What redaction leaves of a secret text: its ends, three bytes each, where six bytes or more between
them can be hidden and no character is cut (`Ends`), and nothing of any other text
(`text_discloses`). Bytes are counted, not characters, so of a text of few characters that take many
bytes each the ends are shown (`fourCharacters_shown`); but they are never more than its first three
and its last three characters.

Two texts are shown the same exactly if both are empty, or neither has ends to show, or the ends are
the same (`chars_eq_iff`). Whether a text has ends can be told from its first and its last three
bytes, for the byte at a cut tells whether a character starts there (`exists_ends_iff_bytes`).
-/

namespace SignedHttp
namespace Redact

variable {n : Nat} {s t a m b : List Char}

/-- A text in three parts: ends of three bytes each, and six bytes or more between them. -/
structure Ends (s a m b : List Char) : Prop where
  whole : s = a ++ m ++ b
  front : (Utf8.encode a).length = 3
  middle : 6 ≤ (Utf8.encode m).length
  back : (Utf8.encode b).length = 3

/-! ## Fronts and backs -/

theorem front?_cons (h : 0 < n) (c : Char) (s : List Char) : front? n (c :: s) =
    if c.utf8Size ≤ n then (front? (n - c.utf8Size) s).map (c :: ·) else none := by
  cases n with
  | zero => cases h
  | succ n => rfl

theorem front?_eq_some_iff :
    front? n s = some a ↔ ∃ r, s = a ++ r ∧ (Utf8.encode a).length = n := by
  constructor
  · intro h
    fun_induction front? n s generalizing a with
    | case1 s =>
      cases h
      exact ⟨s, rfl, rfl⟩
    | case2 => cases h
    | case3 n c s fits ih =>
      obtain ⟨a, ha, rfl⟩ := Option.map_eq_some_iff.1 h
      obtain ⟨r, rfl, size⟩ := ih ha
      refine ⟨r, rfl, ?_⟩
      rw [Utf8.length_encode_cons]
      omega
    | case4 => cases h
  · rintro ⟨r, rfl, rfl⟩
    induction a with
    | nil => exact front?.eq_1 r
    | cons c a ih =>
      have pos := c.utf8Size_pos
      rw [List.cons_append, Utf8.length_encode_cons, front?_cons (by omega), if_pos (by omega),
        Nat.add_sub_cancel_left, ih]
      rfl

theorem back?_eq_some_iff :
    back? n s = some b ↔ ∃ r, s = r ++ b ∧ (Utf8.encode b).length = n := by
  simp only [back?, Option.map_eq_some_iff, front?_eq_some_iff]
  constructor
  · rintro ⟨a, ⟨r, whole, size⟩, rfl⟩
    refine ⟨r.reverse, ?_, ?_⟩
    · rw [← List.reverse_append, ← whole, List.reverse_reverse]
    · rw [Utf8.length_encode_reverse, size]
  · rintro ⟨r, rfl, size⟩
    refine ⟨b.reverse, ⟨r.reverse, List.reverse_append, ?_⟩, List.reverse_reverse b⟩
    rw [Utf8.length_encode_reverse, size]

/-- A front of a text is found in as much of it as there are bytes in the front. -/
theorem front?_take {n k : Nat} (h : n ≤ k) (s : List Char) : front? n (s.take k) = front? n s := by
  induction s generalizing n k with
  | nil => rw [List.take_nil]
  | cons c s ih =>
    cases n with
    | zero => simp [front?]
    | succ n =>
      obtain ⟨k, rfl⟩ : ∃ k', k = k' + 1 := ⟨k - 1, by omega⟩
      have pos := c.utf8Size_pos
      rw [List.take_succ_cons, front?, front?, ih (by omega)]

theorem front?_eq {s t : List Char} (h : s.take 3 = t.take 3) : front? 3 s = front? 3 t := by
  rw [← front?_take (Nat.le_refl 3) s, h, front?_take (Nat.le_refl 3)]

/-! ## The parts of a text -/

/-- The ends are found exactly if they leave something between them. -/
theorem exists_ends_iff : (∃ m, Ends s a m b) ↔
    12 ≤ (Utf8.encode s).length ∧ front? 3 s = some a ∧ back? 3 s = some b := by
  simp only [front?_eq_some_iff, back?_eq_some_iff]
  constructor
  · rintro ⟨m, rfl, front, middle, back⟩
    rw [Utf8.length_encode_append, Utf8.length_encode_append]
    exact ⟨by omega, ⟨m ++ b, List.append_assoc a m b, front⟩, ⟨a ++ m, rfl, back⟩⟩
  · rintro ⟨size, ⟨r, rfl, front⟩, ⟨r', whole, back⟩⟩
    rw [Utf8.length_encode_append] at size
    obtain ⟨m, rfl, rfl⟩ | ⟨m, rfl, rfl⟩ := List.append_eq_append_iff.1 whole
    · rw [Utf8.length_encode_append] at size
      exact ⟨m, (List.append_assoc a m b).symm, front, by omega, back⟩
    · -- Ends that touch or overlap would leave room for six bytes only.
      rw [Utf8.length_encode_append] at back
      omega

theorem Ends.ne_nil (h : Ends s a m b) : s ≠ [] := by
  have size := (exists_ends_iff.1 ⟨m, h⟩).1
  intro none
  rw [Utf8.length_encode_eq_zero_iff.2 none] at size
  cases size

/-- The ends are bytes of the text: no character is cut. -/
theorem Ends.bytes (h : Ends s a m b) : Utf8.encode a = (Utf8.encode s).take 3 ∧
    Utf8.encode b = (Utf8.encode s).drop ((Utf8.encode s).length - 3) := by
  have whole : Utf8.encode s = Utf8.encode a ++ Utf8.encode m ++ Utf8.encode b := by
    rw [h.whole, Utf8.encode_append, Utf8.encode_append]
  constructor
  · rw [whole, List.append_assoc, List.take_left' h.front]
  · rw [whole, List.length_append, h.back, Nat.add_sub_cancel, List.drop_left]

theorem Ends.first (h : Ends s a m b) : a <+: s.take 3 := by
  have few := Utf8.length_le_length_encode a
  rw [h.front] at few
  rw [List.prefix_take_iff, h.whole, List.append_assoc]
  exact ⟨List.prefix_append a _, few⟩

theorem Ends.last (h : Ends s a m b) : b <:+ s.drop (s.length - 3) := by
  have few := Utf8.length_le_length_encode b
  have suffix : b <:+ s := h.whole ▸ List.suffix_append (a ++ m) b
  have shorter := suffix.length_le
  rw [h.back] at few
  refine List.suffix_of_suffix_length_le suffix (List.drop_suffix _ s) ?_
  rw [List.length_drop]
  omega

/-! ## What is shown -/

theorem chars_of_ends (h : Ends s a m b) : chars s = a ++ hidden ++ b := by
  obtain ⟨size, front, back⟩ := exists_ends_iff.1 ⟨m, h⟩
  rw [chars, if_neg h.ne_nil, if_neg (by omega), front, back]

theorem chars_of_no_ends (hs : s ≠ []) (h : ¬∃ a m b, Ends s a m b) : chars s = hidden := by
  rw [chars, if_neg hs]
  split
  · rfl
  · rename_i size
    split
    · rename_i a b front back
      exact absurd (exists_ends_iff.2 ⟨by omega, front, back⟩) fun ⟨m, ends⟩ => h ⟨a, m, b, ends⟩
    · rfl

theorem chars_eq_hidden_iff (hs : s ≠ []) : chars s = hidden ↔ ¬∃ a m b, Ends s a m b := by
  refine ⟨?_, chars_of_no_ends hs⟩
  rintro shown ⟨a, m, b, h⟩
  have size := congrArg (fun l => (Utf8.encode l).length) ((chars_of_ends h).symm.trans shown)
  simp only [Utf8.length_encode_append, h.front, h.back] at size
  omega

/-- Texts are shown the same if both are long or neither is, and their ends are the same. -/
theorem chars_eq (size : (Utf8.encode s).length < 12 ↔ (Utf8.encode t).length < 12)
    (start : s.take 3 = t.take 3) (finish : s.reverse.take 3 = t.reverse.take 3) :
    chars s = chars t := by
  have empty : s = [] ↔ t = [] := by
    have taken (l : List Char) : l.take 3 = [] ↔ l = [] := by simp
    rw [← taken s, start, taken]
  simp only [chars, empty, size, back?, front?_eq start, front?_eq finish]

/-- What a text discloses. An empty one says so. Of any other the ends are shown, or nothing if it
does not have such ends; they are its first and its last three bytes, and belong to its first and
its last three characters. Of two texts of twelve characters or more in which these characters are
the same, the same is shown. -/
theorem text_discloses (s : String) :
    (s = "" → text s = "EMPTY") ∧
    (s ≠ "" → (text s = "***" ↔ ¬∃ a m b, Ends s.toList a m b)) ∧
    (∀ a m b, Ends s.toList a m b → text s = String.ofList a ++ "***" ++ String.ofList b ∧
      Utf8.encode a = (Utf8.encode s.toList).take 3 ∧
      Utf8.encode b = (Utf8.encode s.toList).drop ((Utf8.encode s.toList).length - 3) ∧
      a <+: s.toList.take 3 ∧ b <:+ s.toList.drop (s.length - 3)) ∧
    (12 ≤ s.length → ∀ t : String, 12 ≤ t.length → s.toList.take 3 = t.toList.take 3 →
      s.toList.drop (s.length - 3) = t.toList.drop (t.length - 3) → text s = text t) := by
  refine ⟨?_, fun hs => ?_, fun a m b h => ⟨?_, h.bytes.1, h.bytes.2, h.first, ?_⟩,
    fun long t long' start finish => ?_⟩
  · rintro rfl
    rfl
  · have nonempty : s.toList ≠ [] := fun h => hs (String.toList_eq_nil_iff.1 h)
    rw [← chars_eq_hidden_iff nonempty, ← String.ofList_inj]
    exact Iff.rfl
  · rw [text, chars_of_ends h, String.ofList_append, String.ofList_append]
    rfl
  · rw [← String.length_toList]
    exact h.last
  · simp only [← String.length_toList] at long long' finish
    have bytes := Utf8.length_le_length_encode s.toList
    have bytes' := Utf8.length_le_length_encode t.toList
    have finish' : s.toList.reverse.take 3 = t.toList.reverse.take 3 := by
      rw [List.take_reverse, List.take_reverse, finish]
    rw [text, text, chars_eq (by omega) start finish']

/-- Four characters of three bytes each make twelve bytes, and half of them are shown. -/
theorem fourCharacters_shown : "日本語文".length = 4 ∧ text "日本語文" = "日***文" ∧
    text "日本語文" ≠ "***" := by
  decide +kernel

/-! ## Texts that are shown the same -/

variable {m' x y : List Char} {key key' : Bytes}

/-- Texts of which the same is shown: nothing, for two reasons, or the same ends. -/
inductive Alike : List Char → List Char → Prop
  | empty : Alike [] []
  | hidden {s t : List Char} : s ≠ [] → t ≠ [] → (¬∃ a m b, Ends s a m b) →
      (¬∃ a m b, Ends t a m b) → Alike s t
  | ends {s t a m m' b : List Char} : Ends s a m b → Ends t a m' b → Alike s t

/-- Of a text that is long enough, the first and the last bytes tell whether it has ends, and which
they are. -/
theorem exists_ends_iff_bytes : (∃ m, Ends s a m b) ↔ 12 ≤ (Utf8.encode s).length ∧
    Utf8.encode a = (Utf8.encode s).take 3 ∧
    Utf8.encode b = (Utf8.encode s).drop ((Utf8.encode s).length - 3) := by
  constructor
  · rintro ⟨m, h⟩
    exact ⟨(exists_ends_iff.1 ⟨m, h⟩).1, h.bytes⟩
  · rintro ⟨size, start, finish⟩
    obtain ⟨r, front⟩ : a <+: s := Utf8.encode_prefix_iff.1 (start ▸ List.take_prefix 3 _)
    obtain ⟨r', back⟩ : b <:+ s := Utf8.encode_suffix_iff.1 (finish ▸ List.drop_suffix _ _)
    refine exists_ends_iff.2 ⟨size, front?_eq_some_iff.2 ⟨r, front.symm, ?_⟩,
      back?_eq_some_iff.2 ⟨r', back.symm, ?_⟩⟩
    · rw [start, List.length_take]
      omega
    · rw [finish, List.length_drop]
      omega

theorem alike_of_short (hs : s ≠ []) (ht : t ≠ []) (short : (Utf8.encode s).length < 12)
    (short' : (Utf8.encode t).length < 12) : Alike s t := by
  refine .hidden hs ht ?_ ?_
  · rintro ⟨a, m, b, h⟩
    have long := (exists_ends_iff.1 ⟨m, h⟩).1
    omega
  · rintro ⟨a, m, b, h⟩
    have long := (exists_ends_iff.1 ⟨m, h⟩).1
    omega

theorem alike_of_long (long : 12 ≤ (Utf8.encode s).length) (long' : 12 ≤ (Utf8.encode t).length)
    (start : (Utf8.encode s).take 3 = (Utf8.encode t).take 3)
    (finish : (Utf8.encode s).drop ((Utf8.encode s).length - 3) =
      (Utf8.encode t).drop ((Utf8.encode t).length - 3)) : Alike s t := by
  have same (a b : List Char) : (∃ m, Ends s a m b) ↔ ∃ m, Ends t a m b := by
    simp only [exists_ends_iff_bytes, long, long', start, finish]
  by_cases shown : ∃ a m b, Ends s a m b
  · obtain ⟨a, m, b, h⟩ := shown
    obtain ⟨m', h'⟩ := (same a b).1 ⟨m, h⟩
    exact .ends h h'
  · have filled (r : List Char) (h : 12 ≤ (Utf8.encode r).length) : r ≠ [] := by
      rintro rfl
      cases h
    refine .hidden (filled s long) (filled t long') shown ?_
    rintro ⟨a, m, b, h⟩
    obtain ⟨m', h'⟩ := (same a b).2 ⟨m, h⟩
    exact shown ⟨a, m', b, h'⟩

/-- The three ways in which texts are shown take five, three and nine bytes. -/
theorem chars_cases (s : List Char) :
    (s = [] ∧ (Utf8.encode (chars s)).length = 5) ∨
    (s ≠ [] ∧ (¬∃ a m b, Ends s a m b) ∧ chars s = hidden ∧
      (Utf8.encode (chars s)).length = 3) ∨
    ∃ a m b, Ends s a m b ∧ chars s = a ++ hidden ++ b ∧
      (Utf8.encode (chars s)).length = 9 := by
  by_cases empty : s = []
  · rw [empty]
    exact .inl ⟨rfl, rfl⟩
  by_cases ends : ∃ a m b, Ends s a m b
  · obtain ⟨a, m, b, h⟩ := ends
    refine .inr (.inr ⟨a, m, b, h, chars_of_ends h, ?_⟩)
    rw [chars_of_ends h, Utf8.length_encode_append, Utf8.length_encode_append, h.front, h.back]
    rfl
  · refine .inr (.inl ⟨empty, ends, chars_of_no_ends empty ends, ?_⟩)
    rw [chars_of_no_ends empty ends]
    rfl

theorem chars_eq_of_alike (h : Alike s t) : chars s = chars t := by
  cases h with
  | empty => rfl
  | hidden hs ht none none' => rw [chars_of_no_ends hs none, chars_of_no_ends ht none']
  | ends h h' => rw [chars_of_ends h, chars_of_ends h']

/-- How many bytes are shown of a text that a comma follows, by the byte after the first three: the
`T` of `EMPTY`, the comma itself, or a star between the ends. -/
def sizeBy (fourth : Option UInt8) : Nat :=
  if fourth = some 84 then 5 else if fourth = some 44 then 3 else 9

theorem length_encode_chars (s x : List Char) : (Utf8.encode (chars s)).length =
    sizeBy (Utf8.encode (chars s ++ ',' :: x))[3]? := by
  obtain ⟨rfl, size⟩ | ⟨-, -, shown, size⟩ | ⟨a, m, b, h, shown, size⟩ := chars_cases s
  · rw [size]
    rfl
  · rw [size, shown]
    rfl
  · have star : (Utf8.encode (chars s ++ ',' :: x))[3]? = some 42 := by
      rw [shown, List.append_assoc, List.append_assoc, Utf8.encode_append,
        List.getElem?_append_right (Nat.le_of_eq h.front), h.front]
      rfl
    rw [size, star]
    rfl

theorem chars_append_inj (h : chars s ++ ',' :: x = chars t ++ ',' :: y) :
    chars s = chars t ∧ x = y := by
  have size : (Utf8.encode (chars s)).length = (Utf8.encode (chars t)).length := by
    rw [length_encode_chars s x, h, ← length_encode_chars t y]
  have bytes := congrArg Utf8.encode h
  rw [Utf8.encode_append, Utf8.encode_append] at bytes
  have same := Utf8.eq_of_encode_eq (List.append_inj bytes size).1
  rw [same] at h
  exact ⟨same, (List.cons.inj (List.append_cancel_left h)).2⟩

theorem ends_inj {a' b' : List Char} (h : a ++ hidden ++ b = a' ++ hidden ++ b')
    (size : (Utf8.encode a).length = (Utf8.encode a').length) : a = a' ∧ b = b' := by
  have bytes := congrArg Utf8.encode h
  rw [List.append_assoc, List.append_assoc, Utf8.encode_append, Utf8.encode_append a'] at bytes
  have same := Utf8.eq_of_encode_eq (List.append_inj bytes size).1
  rw [same] at h
  exact ⟨same, List.append_cancel_left h⟩

theorem chars_eq_iff : chars s = chars t ↔ Alike s t := by
  refine ⟨fun h => ?_, chars_eq_of_alike⟩
  have same := congrArg (fun l => (Utf8.encode l).length) h
  obtain ⟨rfl, size⟩ | ⟨hs, none, -, size⟩ | ⟨a, m, b, ends, shown, size⟩ := chars_cases s <;>
    obtain ⟨rfl, size'⟩ | ⟨ht, none', -, size'⟩ | ⟨a', m', b', ends', shown', size'⟩ :=
      chars_cases t
  case inl.inl => exact .empty
  case inr.inl.inr.inl => exact .hidden hs ht none none'
  case inr.inr.inr.inr =>
    rw [shown, shown'] at h
    obtain ⟨rfl, rfl⟩ := ends_inj h (by rw [ends.front, ends'.front])
    exact .ends ends ends'
  all_goals
    -- the two are shown in different ways
    omega

/-- Of keys the length is shown. -/
theorem bytes_eq_iff : bytes key = bytes key' ↔ key.length = key'.length := by
  constructor
  · intro h
    by_cases none : key = [] <;> by_cases none' : key' = []
    · rw [none, none']
    · simp [bytes, none, none', ← String.toList_inj] at h
    · simp [bytes, none, none', ← String.toList_inj] at h
    · have digits : Text.decimal key.length = Text.decimal key'.length := by
        simpa [bytes, none, none', ← String.toList_inj] using h
      rw [← Text.number_decimal key.length, digits, Text.number_decimal]
  · intro h
    have empty : key = [] ↔ key' = [] := by
      rw [← List.length_eq_zero_iff, ← List.length_eq_zero_iff, h]
    simp only [bytes, empty, h]

end Redact
end SignedHttp
