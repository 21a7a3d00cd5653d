import SignedHttp.Proofs.Text.Blank
import SignedHttp.Text.Reader

/-!
# SignedHttp.Proofs.Text.Reader

What the readers of `SignedHttp.Text.Reader` take from a text of which the front is known. The
lemmas of a reader say what it takes from a front that a writer has put there, before any rest or
one at which it stops (`Stops`), and where it fails. `Reader.next` passes the rest on to the next
reader.
-/

namespace SignedHttp
namespace Text

/-- Trimming leaves a text alone that neither begins nor ends with a blank. -/
theorem trim_eq_self {front back : List Char} (hfront : Stops isBlank (front ++ back))
    (hne : back ≠ []) (hback : ∀ c ∈ back, isBlank c = false) :
    trim (front ++ back) = front ++ back := by
  have finish : Stops isBlank (front ++ back).reverse := by
    rw [List.reverse_append]
    exact stops_append (by simpa using hne) fun c hc => hback c (List.mem_reverse.1 hc)
  exact trim_of_isTrimmed ⟨hfront, finish⟩

theorem toNat_of_isDigit {c : Char} (h : c.isDigit = true) : 48 ≤ c.toNat ∧ c.toNat ≤ 57 := by
  simpa [Char.isDigit, UInt32.le_iff_toNat_le] using h

theorem isBlank_of_isDigit {c : Char} (h : c.isDigit = true) : isBlank c = false := by
  have bounds := toNat_of_isDigit h
  simp only [isBlank, Bool.or_eq_false_iff, Bool.and_eq_false_iff, decide_eq_false_iff_not,
    beq_eq_false_iff_ne]
  omega

theorem noBlanks {s : List Char} (h : s.all (!isBlank ·) = true) : ∀ c ∈ s, isBlank c = false := by
  intro c hc
  simpa using List.all_eq_true.1 h c hc

/-! ## Padded numbers -/

section Padded

variable {width n : Nat} {rest : List Char}

@[simp] theorem number_padded (width n : Nat) : number (padded width n) = n := by
  rw [number, padded, Nat.ofDigitChars_append, Nat.ofDigitChars_replicate_zero, Nat.mul_zero]
  exact number_decimal n

theorem le_length_padded (width n : Nat) : width ≤ (padded width n).length := by
  rw [padded, List.length_append, List.length_replicate]
  omega

theorem length_padded (hw : 0 < width) (h : n < tenTo width) : (padded width n).length = width := by
  have short : (decimal n).length ≤ width := (Nat.length_toDigits_le_iff (by decide) hw).2 h
  rw [padded, List.length_append, List.length_replicate]
  omega

theorem padded_ne_nil (width n : Nat) : padded width n ≠ [] := by
  have digits : decimal n ≠ [] := Nat.toDigits_ne_nil
  simp [padded, digits]

/-- A number begins with a digit, so no reader of other characters goes into it. -/
theorem stops_padded {p : Char → Bool} (h : ∀ c, c.isDigit = true → p c = false)
    (width n : Nat) (rest : List Char) : Stops p (padded width n ++ rest) :=
  stops_append (padded_ne_nil width n) fun c hc => h c (isDigit_of_mem_padded hc)

theorem padded_append_inj {least n' : Nat} {rest' : List Char} (hstop : Stops Char.isDigit rest)
    (hstop' : Stops Char.isDigit rest') (h : padded width n ++ rest = padded least n' ++ rest') :
    padded width n = padded least n' ∧ n = n' ∧ rest = rest' := by
  obtain ⟨same, later⟩ := append_inj_of_stops (fun _ hc => isDigit_of_mem_padded hc)
    (fun _ hc => isDigit_of_mem_padded hc) hstop hstop' h
  refine ⟨same, ?_, later⟩
  rw [← number_padded width n, same, number_padded]

end Padded

namespace Reader

variable {α β : Type} {r : Reader α} {a : α} {c : Char} {p : Char → Bool} {s rest : List Char}

theorem run_pure (a : α) (s : List Char) : (pure a : Reader α) s = some (a, s) := rfl

theorem run_bind (r : Reader α) (f : α → Reader β) (s : List Char) :
    (r >>= f) s = (r s).bind fun read => f read.1 read.2 := rfl

/-- After a reader that has taken its part, the next one goes on with the rest. -/
theorem next (h : r s = some (a, rest)) (f : α → Reader β) : (r >>= f) s = f a rest := by
  rw [run_bind, h, Option.bind_some]

theorem next_none (h : r s = none) (f : α → Reader β) : (r >>= f) s = none := by
  rw [run_bind, h, Option.bind_none]

theorem char_cons (c : Char) (s : List Char) : char c (c :: s) = some ((), s) := if_pos rfl

theorem charIf_stops (h : Stops p s) : charIf p s = none := by
  cases s with
  | nil => rfl
  | cons d s => exact if_neg (by simp [h d rfl])

theorem char_stops (h : Stops (· == c) s) : char c s = none := by
  cases s with
  | nil => rfl
  | cons d s => exact if_neg (by simpa using h d rfl)

theorem blanks_stops (h : Stops isBlank s) : blanks s = some ((), s) := by
  rw [blanks, trimStart, dropWhile_of_stops h]

theorem blanks_space (h : Stops isBlank s) : blanks (' ' :: s) = some ((), s) := blanks_stops h

theorem blanks1_space (h : Stops isBlank s) : blanks1 (' ' :: s) = some ((), s) := blanks_stops h

theorem blanks1_none (h : Stops isBlank s) : blanks1 s = none := by
  rw [blanks1, next_none (charIf_stops h)]

theorem attempt_some (h : r s = some (a, rest)) : attempt r s = some (some a, rest) := by
  rw [attempt, h]

theorem attempt_none (h : r s = none) : attempt r s = some (none, s) := by
  rw [attempt, h]

/-- Digits are taken up to the first character that is none, or as many as may be. -/
theorem digits_padded {least most width n : Nat} (hw : 0 < width) (h : n < tenTo width)
    (hleast : least ≤ width) (hmost : width ≤ most)
    (hstop : width = most ∨ Stops Char.isDigit rest) :
    digits least most (padded width n ++ rest) = some (n, rest) := by
  have all : ∀ c ∈ padded width n, c.isDigit = true := fun c hc => isDigit_of_mem_padded hc
  have taken : ((padded width n ++ rest).takeWhile Char.isDigit).take most = padded width n := by
    rcases hstop with rfl | hstop
    · rw [List.takeWhile_append_of_pos all, List.take_left' (length_padded hw h)]
    · rw [takeWhile_front all hstop]
      exact List.take_of_length_le (by rw [length_padded hw h]; exact hmost)
  simp only [digits, taken, number_padded, List.drop_left]
  rw [if_pos (by rw [length_padded hw h]; exact hleast)]

theorem numeral_padded {least width n : Nat} (hleast : least ≤ width)
    (hstop : Stops Char.isDigit rest) :
    numeral least (padded width n ++ rest) = some (((padded width n).length, n), rest) := by
  have all : ∀ c ∈ padded width n, c.isDigit = true := fun c hc => isDigit_of_mem_padded hc
  have long : least ≤ (padded width n).length := Nat.le_trans hleast (le_length_padded width n)
  simp only [numeral, run_bind, many, takeWhile_front all hstop,
    dropWhile_front all hstop, Option.bind_some, require, decide_eq_true long, if_true,
    run_pure, number_padded]

theorem anyCase_append (word rest : List Char) : anyCase word (word ++ rest) = some ((), rest) := by
  rw [anyCase, List.take_left, List.drop_left, sameLetters, beq_self_eq_true, if_pos rfl]

/-- A word is not found where the text goes on with another letter. -/
theorem anyCase_cons_none {d : Char} {word : List Char} (h : c.toLower ≠ d.toLower)
    (rest : List Char) : anyCase (d :: word) (c :: rest) = none := by
  rw [anyCase, List.length_cons, List.take_succ_cons, sameLetters, List.map_cons, List.map_cons]
  exact if_neg (by simp [h])

theorem all_eq (h : r s = some (a, [])) : all r s = some a := by
  rw [all, h]

theorem all_none (h : r s = none) : all r s = none := by
  rw [all, h]

/-- A name is found at its place if no name before it has the same letters. -/
theorem oneOf_name {names : List String} {name : String} {i : Nat}
    (hlength : name.toList.length = 3)
    (hi : names.findIdx? (fun other => sameLetters other.toList name.toList) = some i)
    (rest : List Char) : oneOf names (name.toList ++ rest) = some (i, rest) := by
  rw [oneOf, List.take_left' hlength, hi, List.drop_left' hlength]

end Reader
end Text
end SignedHttp
