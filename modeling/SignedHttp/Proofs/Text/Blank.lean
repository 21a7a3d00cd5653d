import Mathlib.Data.List.TakeWhile
import SignedHttp.Proofs.Text.Stops
import SignedHttp.Text.Blank

/-!
# SignedHttp.Proofs.Text.Blank

What trimming takes off a text: the blanks at its ends, however many (`trim_surround`), and nothing
but blanks (`exists_trim`). A character that is no blank keeps everything on its other side
(`trim_append_cons`).
-/

namespace SignedHttp
namespace Text

/-- A text of nothing but blanks. -/
def AllBlank (s : List Char) : Prop := ∀ c ∈ s, isBlank c = true

instance (s : List Char) : Decidable (AllBlank s) :=
  decidable_of_iff (s.all isBlank = true) List.all_eq_true

/-- A text with no blank at its ends. -/
structure IsTrimmed (s : List Char) : Prop where
  start : Stops isBlank s
  finish : Stops isBlank s.reverse

instance (s : List Char) : Decidable (IsTrimmed s) :=
  decidable_of_iff (s.head?.all (!isBlank ·) = true ∧ s.reverse.head?.all (!isBlank ·) = true)
    ⟨fun h => ⟨stops_iff.2 h.1, stops_iff.2 h.2⟩, fun h => ⟨stops_iff.1 h.start, stops_iff.1 h.finish⟩⟩

variable {s front back : List Char} {c : Char}

theorem allBlank_nil : AllBlank [] := by simp [AllBlank]

theorem AllBlank.notMem (h : AllBlank s) (hc : isBlank c = false) : c ∉ s := fun hmem => by
  rw [h c hmem] at hc
  cases hc

theorem allBlank_append (hfront : AllBlank front) (hback : AllBlank back) :
    AllBlank (front ++ back) := by
  intro c hc
  rcases List.mem_append.1 hc with hc | hc
  · exact hfront c hc
  · exact hback c hc

theorem allBlank_reverse (h : AllBlank s) : AllBlank s.reverse :=
  fun c hc => h c (List.mem_reverse.1 hc)

theorem allBlank_filter (p : Char → Bool) (h : AllBlank s) : AllBlank (s.filter p) :=
  fun c hc => h c (List.mem_filter.1 hc).1

/-! ## One end -/

theorem trimStart_append (h : AllBlank front) (s : List Char) :
    trimStart (front ++ s) = trimStart s :=
  List.dropWhile_append_of_pos h

theorem trimEnd_append (h : AllBlank back) (s : List Char) : trimEnd (s ++ back) = trimEnd s := by
  rw [trimEnd, List.reverse_append, List.dropWhile_append_of_pos (allBlank_reverse h), trimEnd]

theorem trimStart_append_cons (h : isBlank c = false) (front back : List Char) :
    trimStart (front ++ c :: back) = trimStart front ++ c :: back :=
  dropWhile_append_stops (stops_cons h) front

theorem trimEnd_append_cons (h : isBlank c = false) (front back : List Char) :
    trimEnd (front ++ c :: back) = front ++ c :: trimEnd back := by
  have turned : (front ++ c :: back).reverse = back.reverse ++ c :: front.reverse := by simp
  rw [trimEnd, turned, dropWhile_append_stops (stops_cons h), trimEnd]
  simp

theorem exists_trimStart (s : List Char) : ∃ front, AllBlank front ∧ s = front ++ trimStart s :=
  ⟨s.takeWhile isBlank, fun _ hc => List.mem_takeWhile_imp hc,
    List.takeWhile_append_dropWhile.symm⟩

theorem exists_trimEnd (s : List Char) : ∃ back, AllBlank back ∧ s = trimEnd s ++ back := by
  obtain ⟨front, blank, whole⟩ := exists_trimStart s.reverse
  refine ⟨front.reverse, allBlank_reverse blank, ?_⟩
  have turned := congrArg List.reverse whole
  rwa [List.reverse_reverse, List.reverse_append] at turned

/-! ## Both ends -/

theorem exists_trim (s : List Char) :
    ∃ front back, AllBlank front ∧ AllBlank back ∧ s = front ++ trim s ++ back := by
  obtain ⟨front, hfront, start⟩ := exists_trimStart s
  obtain ⟨back, hback, finish⟩ := exists_trimEnd (trimStart s)
  refine ⟨front, back, hfront, hback, ?_⟩
  rw [List.append_assoc, trim, ← finish]
  exact start

theorem trim_eq_nil_iff : trim s = [] ↔ AllBlank s := by
  constructor
  · intro h
    obtain ⟨front, back, hfront, hback, whole⟩ := exists_trim s
    rw [whole, h, List.append_nil]
    exact allBlank_append hfront hback
  · intro h
    rw [← List.append_nil s, trim, trimStart_append h]
    rfl

/-- Blanks around a text do not count. -/
theorem trim_surround (hfront : AllBlank front) (hback : AllBlank back) (s : List Char) :
    trim (front ++ s ++ back) = trim s := by
  by_cases blank : AllBlank s
  · rw [trim_eq_nil_iff.2 blank]
    exact trim_eq_nil_iff.2 (allBlank_append (allBlank_append hfront blank) hback)
  · have some : (s.dropWhile isBlank).isEmpty = false := by
      rw [List.isEmpty_eq_false_iff]
      exact fun none => blank (List.dropWhile_eq_nil_iff.1 none)
    rw [trim, List.append_assoc, trimStart_append hfront, trimStart, List.dropWhile_append, some]
    exact trimEnd_append hback _

theorem trim_trimStart (s : List Char) : trim (trimStart s) = trim s := by
  obtain ⟨front, hfront, whole⟩ := exists_trimStart s
  have same := trim_surround hfront allBlank_nil (trimStart s)
  rwa [List.append_nil, ← whole, eq_comm] at same

theorem trim_trimEnd (s : List Char) : trim (trimEnd s) = trim s := by
  obtain ⟨back, hback, whole⟩ := exists_trimEnd s
  have same := trim_surround allBlank_nil hback (trimEnd s)
  rwa [List.nil_append, ← whole, eq_comm] at same

theorem trim_append_cons (h : isBlank c = false) (front back : List Char) :
    trim (front ++ c :: back) = trimStart front ++ c :: trimEnd back := by
  rw [trim, trimStart_append_cons h, trimEnd_append_cons h]

theorem trim_of_isTrimmed (h : IsTrimmed s) : trim s = s := by
  rw [trim, trimStart, dropWhile_of_stops h.start, trimEnd, dropWhile_of_stops h.finish,
    List.reverse_reverse]

theorem trim_sublist (s : List Char) : (trim s).Sublist s := by
  obtain ⟨front, back, -, -, whole⟩ := exists_trim s
  have inside := (List.sublist_append_right front (trim s)).trans (List.sublist_append_left _ back)
  rwa [← whole] at inside

/-- A character that is no blank is not trimmed off. -/
theorem mem_trim_iff (h : isBlank c = false) : c ∈ trim s ↔ c ∈ s := by
  refine ⟨fun hc => (trim_sublist s).subset hc, fun hc => ?_⟩
  obtain ⟨front, back, hfront, hback, whole⟩ := exists_trim s
  rw [whole, List.mem_append, List.mem_append] at hc
  rcases hc with (hc | hc) | hc
  · exact absurd hc (hfront.notMem h)
  · exact hc
  · exact absurd hc (hback.notMem h)

end Text
end SignedHttp
