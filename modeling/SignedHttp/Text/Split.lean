/-!
# SignedHttp.Text.Split

Cutting a text at its first separator. `cut?` finds the first occurrence of a character and gives
the text before and after it; together with the separator the two parts are the whole text again
(`cut?_eq_some_iff`), and of no other text (`append_cons_inj`).
-/

namespace SignedHttp
namespace Text

/-- The parts before and after the first `sep`, if there is one. -/
def cut? (sep : Char) : List Char → Option (List Char × List Char)
  | [] => none
  | c :: rest => if c = sep then some ([], rest) else (cut? sep rest).map fun (a, b) => (c :: a, b)

theorem cut?_eq_none_iff {sep : Char} {s : List Char} : cut? sep s = none ↔ sep ∉ s := by
  induction s with
  | nil => simp [cut?]
  | cons c rest ih =>
    by_cases h : c = sep
    · simp [cut?, h]
    · simp [cut?, h, ih, Ne.symm h]

theorem cut?_append {sep : Char} {a : List Char} (h : sep ∉ a) (b : List Char) :
    cut? sep (a ++ sep :: b) = some (a, b) := by
  induction a with
  | nil => simp [cut?]
  | cons c rest ih =>
    simp only [List.mem_cons, not_or] at h
    simp [cut?, Ne.symm h.1, ih h.2]

theorem append_cons_inj {sep : Char} {a b s t : List Char} (ha : sep ∉ a) (hb : sep ∉ b)
    (h : a ++ sep :: s = b ++ sep :: t) : a = b ∧ s = t := by
  have hcut := cut?_append ha s
  rw [h, cut?_append hb] at hcut
  cases hcut
  exact ⟨rfl, rfl⟩

theorem cut?_eq_some_iff {sep : Char} {s a b : List Char} :
    cut? sep s = some (a, b) ↔ s = a ++ sep :: b ∧ sep ∉ a := by
  constructor
  · induction s generalizing a with
    | nil => simp [cut?]
    | cons c rest ih =>
      by_cases hc : c = sep
      · simp only [cut?, hc, if_true, Option.some.injEq, Prod.mk.injEq]
        rintro ⟨rfl, rfl⟩
        simp
      · simp only [cut?, hc, if_false, Option.map_eq_some_iff]
        rintro ⟨⟨a', b'⟩, h, heq⟩
        obtain ⟨rfl, rfl⟩ := Prod.mk.inj heq
        obtain ⟨rfl, hn⟩ := ih h
        exact ⟨rfl, by simp [Ne.symm hc, hn]⟩
  · rintro ⟨rfl, h⟩
    exact cut?_append h b

end Text
end SignedHttp
