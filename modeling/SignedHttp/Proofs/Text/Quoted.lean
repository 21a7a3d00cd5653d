import SignedHttp.Text.Quoted
import SignedHttp.Text.Split

/-!
# SignedHttp.Proofs.Text.Quoted

What logs show can be read back. A quoted text tells the text and where it ends, whatever follows it
(`selfDelimiting_quote`): its characters are plain, or a backslash and one more character, or the
number of a character between braces (`quoteChar_cases`), and a plain quote is the end. So do quoted
texts that may be missing, and lists of them, and a record tells what it shows in each of its fields
(`record_value_inj`, `valueOn_cons_inj`).
-/

namespace SignedHttp
namespace Text

variable {α : Type} {c d : Char} {x y : List Char}

/-- Values are written so that they can be told apart, and where they end, whatever follows. -/
def SelfDelimiting (write : α → String) : Prop :=
  ∀ a b x y, (write a).toList ++ x = (write b).toList ++ y → a = b ∧ x = y

theorem SelfDelimiting.eq {write : α → String} (h : SelfDelimiting write) {a b : α}
    (same : write a = write b) : a = b :=
  (h a b [] [] (by rw [same])).1

/-! ## Numbers of characters -/

theorem digitChar_inj : ∀ m < 16, ∀ n < 16, m.digitChar = n.digitChar → m = n := by decide

theorem digitChar_ne_brace : ∀ n < 16, n.digitChar ≠ '\x7d' := by decide

theorem brace_notMem_toDigits (n : Nat) : '\x7d' ∉ Nat.toDigits 16 n := by
  induction n using Nat.strongRecOn with
  | ind n ih =>
    rw [Nat.toDigits_eq_if (by decide)]
    split
    · rename_i small
      simp [(digitChar_ne_brace n small).symm]
    · have last := digitChar_ne_brace (n % 16) (by omega)
      simp [ih (n / 16) (by omega), last.symm]

theorem toDigits_inj {m n : Nat} (h : Nat.toDigits 16 m = Nat.toDigits 16 n) : m = n := by
  induction m using Nat.strongRecOn generalizing n with
  | ind m ih =>
    rw [Nat.toDigits_eq_if (by decide), Nat.toDigits_eq_if (n := n) (by decide)] at h
    by_cases hm : m < 16 <;> by_cases hn : n < 16
    · rw [if_pos hm, if_pos hn] at h
      exact digitChar_inj m hm n hn (List.cons.inj h).1
    · -- one digit against two or more
      simp [hm, hn, List.singleton_eq_append_iff] at h
    · simp [hm, hn, List.append_eq_singleton_iff] at h
    · rw [if_neg hm, if_neg hn] at h
      obtain ⟨front, last⟩ := List.append_inj' h rfl
      have quotient := ih (m / 16) (by omega) front
      have remainder := digitChar_inj (m % 16) (by omega) (n % 16) (by omega) (List.cons.inj last).1
      omega

/-! ## Quoted texts -/

/-- The characters that are written as a backslash and one more character, with the latter. -/
def escapes : List (Char × Char) :=
  [('"', '"'), ('\\', '\\'), ('\t', 't'), ('\n', 'n'), ('\r', 'r'), ('\x00', '0')]

theorem escapes_inj : ∀ p ∈ escapes, ∀ q ∈ escapes, p.2 = q.2 → p.1 = q.1 := by decide

theorem escapes_ne_number : ∀ p ∈ escapes, p.2 ≠ 'u' := by decide

theorem quoteChar_cases (c : Char) :
    (c ≠ '"' ∧ c ≠ '\\' ∧ quoteChar c = [c]) ∨
    (∃ e, (c, e) ∈ escapes ∧ quoteChar c = ['\\', e]) ∨
    quoteChar c = ['\\', 'u', '\x7b'] ++ Nat.toDigits 16 c.toNat ++ ['\x7d'] := by
  by_cases escaped : ∃ e, (c, e) ∈ escapes
  · obtain ⟨e, he⟩ := escaped
    refine .inr (.inl ⟨e, he, ?_⟩)
    simp only [escapes, List.mem_cons, Prod.mk.injEq, List.not_mem_nil, or_false] at he
    obtain ⟨rfl, rfl⟩ | ⟨rfl, rfl⟩ | ⟨rfl, rfl⟩ | ⟨rfl, rfl⟩ | ⟨rfl, rfl⟩ | ⟨rfl, rfl⟩ := he <;> rfl
  · have plain : ∀ p ∈ escapes, c ≠ p.1 := by
      rintro p hp rfl
      exact escaped ⟨p.2, hp⟩
    have quote : c ≠ '"' := plain ('"', '"') (by decide)
    have backslash : c ≠ '\\' := plain ('\\', '\\') (by decide)
    have zero : c.toNat ≠ 0 := by
      intro h
      refine plain ('\x00', '0') (by decide) ?_
      rw [← Char.ofNat_toNat c, h]
    unfold quoteChar
    rw [if_neg quote, if_neg backslash, if_neg (plain ('\t', 't') (by decide)),
      if_neg (plain ('\n', 'n') (by decide)), if_neg (plain ('\r', 'r') (by decide)), if_neg zero]
    split
    · exact .inr (.inr rfl)
    · exact .inl ⟨quote, backslash, rfl⟩

theorem quoteChar_append_inj (h : quoteChar c ++ x = quoteChar d ++ y) : c = d ∧ x = y := by
  obtain ⟨-, hc, plain⟩ | ⟨e, he, short⟩ | long := quoteChar_cases c
  · obtain ⟨-, hd, plain'⟩ | ⟨e', -, short'⟩ | long' := quoteChar_cases d
    · rw [plain, plain'] at h
      exact List.cons.inj h
    · simp [plain, short', hc] at h
    · simp [plain, long', hc] at h
  · obtain ⟨-, hd, plain'⟩ | ⟨e', he', short'⟩ | long' := quoteChar_cases d
    · simp [short, plain', hd.symm] at h
    · simp only [short, short', List.cons_append, List.nil_append, List.cons.injEq, true_and] at h
      exact ⟨escapes_inj _ he _ he' h.1, h.2⟩
    · simp [short, long', escapes_ne_number _ he] at h
  · obtain ⟨-, hd, plain'⟩ | ⟨e', he', short'⟩ | long' := quoteChar_cases d
    · simp [long, plain', hd.symm] at h
    · simp [long, short', (escapes_ne_number _ he').symm] at h
    · simp only [long, long', List.append_assoc, List.cons_append, List.nil_append,
        List.cons.injEq, true_and] at h
      obtain ⟨digits, rest⟩ :=
        append_cons_inj (brace_notMem_toDigits _) (brace_notMem_toDigits _) h
      refine ⟨?_, rest⟩
      rw [← Char.ofNat_toNat c, toDigits_inj digits, Char.ofNat_toNat]

theorem quoteChar_ne_quote (c : Char) (x y : List Char) : quoteChar c ++ x ≠ '"' :: y := by
  intro h
  obtain ⟨hc, -, plain⟩ | ⟨e, -, short⟩ | long := quoteChar_cases c
  · simp [plain, hc] at h
  · simp [short] at h
  · simp [long] at h

/-- The first plain quote is the end. -/
theorem quoteChars_append_inj {s t : List Char}
    (h : s.flatMap quoteChar ++ '"' :: x = t.flatMap quoteChar ++ '"' :: y) : s = t ∧ x = y := by
  induction s generalizing t with
  | nil =>
    cases t with
    | nil => exact ⟨rfl, (List.cons.inj h).2⟩
    | cons d t =>
      rw [List.flatMap_cons, List.append_assoc] at h
      exact absurd h.symm (quoteChar_ne_quote d _ _)
  | cons c s ih =>
    cases t with
    | nil =>
      rw [List.flatMap_cons, List.append_assoc] at h
      exact absurd h (quoteChar_ne_quote c _ _)
    | cons d t =>
      rw [List.flatMap_cons, List.flatMap_cons, List.append_assoc, List.append_assoc] at h
      obtain ⟨rfl, rest⟩ := quoteChar_append_inj h
      obtain ⟨rfl, same⟩ := ih rest
      exact ⟨rfl, same⟩

theorem toList_quote (s : String) :
    (quote s).toList = '"' :: (s.toList.flatMap quoteChar ++ ['"']) := by
  simp [quote]

theorem selfDelimiting_quote : SelfDelimiting quote := by
  intro s t x y h
  simp only [toList_quote, List.cons_append, List.append_assoc, List.nil_append] at h
  obtain ⟨same, rest⟩ := quoteChars_append_inj (List.cons.inj h).2
  exact ⟨String.toList_inj.1 same, rest⟩

/-! ## Values that may be missing, and lists -/

theorem SelfDelimiting.optional {write : α → String} (h : SelfDelimiting write) :
    SelfDelimiting fun a : Option α => optional (a.map write) := by
  intro a b x y same
  cases a with
  | none =>
    cases b with
    | none => exact ⟨rfl, List.append_cancel_left same⟩
    | some b => simp [Text.optional] at same
  | some a =>
    cases b with
    | none => simp [Text.optional] at same
    | some b =>
      simp only [Option.map_some, Text.optional, String.toList_append, List.append_assoc] at same
      obtain ⟨rfl, later⟩ := h a b _ _ (List.append_cancel_left same)
      exact ⟨rfl, List.append_cancel_left later⟩

theorem intercalate_cons (sep s : List Char) (texts : List (List Char)) :
    sep.intercalate (s :: texts) = s ++ texts.flatMap (sep ++ ·) := by
  induction texts generalizing s with
  | nil => simp
  | cons t texts ih => simp [List.intercalate_cons_cons, ih]

/-- Quoted texts, each after a comma. -/
def moreQuotes (items : List String) : List Char :=
  items.flatMap fun s => ',' :: ' ' :: (quote s).toList

/-- The bracket at the end of a list is no comma. -/
theorem moreQuotes_append_inj {items items' : List String}
    (h : moreQuotes items ++ ']' :: x = moreQuotes items' ++ ']' :: y) :
    items = items' ∧ x = y := by
  induction items generalizing items' with
  | nil =>
    cases items' with
    | nil => exact ⟨rfl, (List.cons.inj h).2⟩
    | cons t items' => simp [moreQuotes] at h
  | cons s items ih =>
    cases items' with
    | nil => simp [moreQuotes] at h
    | cons t items' =>
      simp only [moreQuotes, List.flatMap_cons, List.cons_append, List.append_assoc,
        List.cons.injEq, true_and] at h
      obtain ⟨rfl, rest⟩ := selfDelimiting_quote s t _ _ h
      obtain ⟨rfl, same⟩ := ih rest
      exact ⟨rfl, same⟩

theorem toList_brackets_cons (s : String) (items : List String) :
    (brackets ((s :: items).map quote)).toList =
      '[' :: ((quote s).toList ++ (moreQuotes items ++ [']'])) := by
  simp [brackets, moreQuotes, intercalate_cons, List.flatMap_map]

theorem selfDelimiting_quotes :
    SelfDelimiting fun items : List String => brackets (items.map quote) := by
  intro items items' x y h
  cases items with
  | nil =>
    cases items' with
    | nil => exact ⟨rfl, List.append_cancel_left h⟩
    | cons t items' => simp [toList_quote, brackets] at h
  | cons s items =>
    cases items' with
    | nil => simp [toList_quote, brackets] at h
    | cons t items' =>
      simp only [toList_brackets_cons, List.cons_append, List.append_assoc, List.nil_append,
        List.cons.injEq, true_and] at h
      obtain ⟨rfl, more⟩ := selfDelimiting_quote s t _ _ h
      obtain ⟨rfl, same⟩ := moreQuotes_append_inj more
      exact ⟨rfl, same⟩

/-! ## Records -/

variable {name name' k v w : String} {fields fields' : List (String × String)}

/-- What follows the name of a field: its value, the other fields, and the end of the record. -/
def valueOn (v : String) : List (String × String) → List Char
  | [] => v.toList ++ " \x7d".toList
  | (k, w) :: fields => v.toList ++ ',' :: ' ' :: (k.toList ++ ':' :: ' ' :: valueOn w fields)

theorem toList_record (name k v : String) (fields : List (String × String)) :
    (record name ((k, v) :: fields)).toList =
      name.toList ++ ' ' :: '\x7b' :: ' ' :: (k.toList ++ ':' :: ' ' :: valueOn v fields) := by
  have later : v.toList ++ fields.flatMap (fun f => ',' :: ' ' :: (f.1.toList ++ ':' :: ' ' ::
      f.2.toList)) ++ " \x7d".toList = valueOn v fields := by
    induction fields generalizing v with
    | nil => simp [valueOn]
    | cons field fields ih =>
      rw [valueOn, ← ih]
      simp
  rw [← later]
  simp [record, intercalate_cons, List.flatMap_map]

/-- The name of a record ends at the first space. -/
theorem record_name_inj {k' : String} (hname : ' ' ∉ name.toList) (hname' : ' ' ∉ name'.toList)
    (h : record name ((k, v) :: fields) = record name' ((k', w) :: fields')) : name = name' := by
  have chars := congrArg String.toList h
  rw [toList_record, toList_record] at chars
  exact String.toList_inj.1 (append_cons_inj hname hname' chars).1

theorem record_value_inj (h : record name ((k, v) :: fields) = record name ((k, w) :: fields')) :
    valueOn v fields = valueOn w fields' := by
  have chars := congrArg String.toList h
  rw [toList_record, toList_record] at chars
  have inner := List.append_cancel_left chars
  simp only [List.cons.injEq, true_and] at inner
  have values := List.append_cancel_left inner
  simpa only [List.cons.injEq, true_and] using values

/-- Values that can be told apart before a comma are told apart as values of a field. -/
theorem valueOn_cons_inj {value value' : String}
    (hcut : ∀ x y, value.toList ++ ',' :: x = value'.toList ++ ',' :: y →
      value = value' ∧ x = y)
    (h : valueOn value ((k, v) :: fields) = valueOn value' ((k, w) :: fields')) :
    value = value' ∧ valueOn v fields = valueOn w fields' := by
  obtain ⟨same, more⟩ := hcut _ _ h
  simp only [List.cons.injEq, true_and] at more
  have later := List.append_cancel_left more
  simp only [List.cons.injEq, true_and] at later
  exact ⟨same, later⟩

theorem SelfDelimiting.valueOn_cons_inj {write : α → String} (hw : SelfDelimiting write) {a b : α}
    (h : valueOn (write a) ((k, v) :: fields) = valueOn (write b) ((k, w) :: fields')) :
    a = b ∧ valueOn v fields = valueOn w fields' := by
  have hcut : ∀ x y, (write a).toList ++ ',' :: x = (write b).toList ++ ',' :: y →
      write a = write b ∧ x = y := by
    intro x y cut
    obtain ⟨rfl, rest⟩ := hw a b _ _ cut
    exact ⟨rfl, (List.cons.inj rest).2⟩
  obtain ⟨same, later⟩ := Text.valueOn_cons_inj hcut h
  exact ⟨hw.eq same, later⟩

theorem valueOn_nil_inj (h : valueOn v [] = valueOn w []) : v = w :=
  String.toList_inj.1 (List.append_cancel_right h)

end Text
end SignedHttp
