import SignedHttp.Proofs.Text.Quoted
import SignedHttp.Proofs.Text.Reader
import SignedHttp.Proofs.Time.Stamp
import SignedHttp.Time.Rfc3339

/-!
# SignedHttp.Proofs.Time.Rfc3339

Instants as logs show them can be told apart (`selfDelimiting_text`), whatever the year and the
fraction, and in leap seconds. Each part of the text is a number that ends at a mark which is no
digit, so the parts can be read off one by one; and the parts are those of one instant only.
-/

namespace SignedHttp
namespace Rfc3339

open Text

variable {t t' : Instant} {x y : List Char}

/-! ## The parts of a text -/

/-- A number does not begin with a sign. -/
theorem padded_append_ne {c : Char} (hc : c.isDigit = false) (width n : Nat) :
    padded width n ++ x ≠ c :: y := by
  intro h
  have digit := stops_padded (p := fun d => !d.isDigit) (by simp) width n x
  rw [h] at digit
  simpa [hc] using digit c rfl

theorem yearText_append_inj {year year' : Int}
    (h : yearText year ++ '-' :: x = yearText year' ++ '-' :: y) : year = year' ∧ x = y := by
  have stop (s : List Char) : Stops Char.isDigit ('-' :: s) := stops_cons rfl
  have sign (n : Int) : (if n < 0 then '-' else '+').isDigit = false := by
    split <;> rfl
  unfold yearText at h
  by_cases civil : 0 ≤ year ∧ year ≤ 9999 <;> by_cases civil' : 0 ≤ year' ∧ year' ≤ 9999
  · rw [if_pos civil, if_pos civil'] at h
    obtain ⟨-, same, later⟩ := padded_append_inj (stop x) (stop y) h
    exact ⟨by omega, (List.cons.inj later).2⟩
  · rw [if_pos civil, if_neg civil'] at h
    exact absurd h (padded_append_ne (sign year') _ _)
  · rw [if_neg civil, if_pos civil'] at h
    exact absurd h.symm (padded_append_ne (sign year) _ _)
  · rw [if_neg civil, if_neg civil'] at h
    obtain ⟨signs, numbers⟩ := List.cons.inj h
    obtain ⟨-, same, later⟩ := padded_append_inj (stop x) (stop y) numbers
    refine ⟨?_, (List.cons.inj later).2⟩
    by_cases before : year < 0 <;> by_cases before' : year' < 0 <;>
      simp [before, before'] at signs
    · omega
    · omega

/-- A fraction is a number of digits that tell in what parts of a second it counts. -/
theorem fractionText_cases {nanos : Nat} (h : nanos < Duration.perSecond) :
    (nanos = 0 ∧ fractionText nanos = []) ∨
    ∃ width n, 0 < width ∧ n < tenTo width ∧ nanos = n * tenTo (9 - width) ∧
      fractionText nanos = '.' :: padded width n := by
  unfold Duration.perSecond at h
  unfold fractionText
  by_cases zero : nanos = 0
  · exact .inl ⟨zero, if_pos zero⟩
  rw [if_neg zero]
  by_cases millis : nanos % 1000000 = 0
  · rw [if_pos millis]
    refine .inr ⟨3, nanos / 1000000, by decide, ?_, ?_, rfl⟩
    · show nanos / 1000000 < 1000
      omega
    · show nanos = nanos / 1000000 * 1000000
      omega
  rw [if_neg millis]
  by_cases micros : nanos % 1000 = 0
  · rw [if_pos micros]
    refine .inr ⟨6, nanos / 1000, by decide, ?_, ?_, rfl⟩
    · show nanos / 1000 < 1000000
      omega
    · show nanos = nanos / 1000 * 1000
      omega
  · rw [if_neg micros]
    exact .inr ⟨9, nanos, by decide, h, (Nat.mul_one nanos).symm, rfl⟩

theorem fractionText_append_inj {m n : Nat} (hm : m < Duration.perSecond)
    (hn : n < Duration.perSecond)
    (h : fractionText m ++ 'Z' :: x = fractionText n ++ 'Z' :: y) : m = n ∧ x = y := by
  obtain ⟨rfl, shown⟩ | ⟨width, a, pos, ha, rfl, shown⟩ := fractionText_cases hm
  · obtain ⟨rfl, -⟩ | ⟨width', b, -, -, rfl, shown'⟩ := fractionText_cases hn
    · exact ⟨rfl, (List.cons.inj (List.append_cancel_left h)).2⟩
    · simp [shown, shown'] at h
  · obtain ⟨rfl, shown'⟩ | ⟨width', b, pos', hb, rfl, shown'⟩ := fractionText_cases hn
    · simp [shown, shown'] at h
    · rw [shown, shown'] at h
      obtain ⟨digits, rfl, later⟩ :=
        padded_append_inj (stops_cons rfl) (stops_cons rfl) (List.cons.inj h).2
      have width_eq : width = width' := by
        rw [← length_padded pos ha, digits, length_padded pos' hb]
      exact ⟨by rw [width_eq], (List.cons.inj later).2⟩

theorem stops_fractionText (nanos : Nat) (x : List Char) :
    Stops Char.isDigit (fractionText nanos ++ 'Z' :: x) := by
  unfold fractionText
  repeat' split
  all_goals exact stops_cons rfl

theorem nanos_lt (t : Instant) : t.nanos % Duration.perSecond < Duration.perSecond :=
  Nat.mod_lt _ (by decide)

/-! ## Whole texts -/

/-- Only a leap second is shown as second 60. -/
theorem second_eq_of_stamp (h : t.stamp.second = t'.stamp.second) :
    t.isLeap = t'.isLeap ∧ t.second = t'.second := by
  have := t.second_le
  have := t'.second_le
  simp only [Instant.stamp] at h
  cases leap : t.isLeap <;> cases leap' : t'.isLeap
  · simp only [leap, leap', Bool.false_eq_true, if_false] at h
    exact ⟨rfl, h⟩
  · simp only [leap, leap', Bool.false_eq_true, if_false, if_true] at h
    omega
  · simp only [leap, leap', Bool.false_eq_true, if_false, if_true] at h
    omega
  · rw [Instant.second_of_isLeap leap, Instant.second_of_isLeap leap']
    exact ⟨rfl, rfl⟩

/-- The parts that are shown are those of one instant. -/
theorem eq_of_parts (hdate : t.date = t'.date) (hhour : t.hour = t'.hour)
    (hminute : t.minute = t'.minute) (hsecond : t.stamp.second = t'.stamp.second)
    (hnanos : t.nanos % Duration.perSecond = t'.nanos % Duration.perSecond) : t = t' := by
  obtain ⟨leap, second⟩ := second_eq_of_stamp hsecond
  have day : t.day = t'.day := by
    rw [← Date.toDays_ofDays t.day, ← Date.toDays_ofDays t'.day]
    exact congrArg Date.toDays hdate
  have secs : t.secs = t'.secs := by
    rw [← t.secs_eq, ← t'.secs_eq, day, hhour, hminute, second]
  have nanos : t.nanos = t'.nanos := by
    have := t.nanos_bound
    have := t'.nanos_bound
    simp only [Instant.isLeap, decide_eq_decide] at leap
    unfold Duration.perSecond at hnanos
    omega
  cases t
  cases t'
  cases secs
  cases nanos
  rfl

theorem chars_eq (t : Instant) : chars t =
    yearText t.date.year ++ '-' :: (padded 2 t.date.month ++ '-' :: (padded 2 t.date.day ++
      'T' :: (padded 2 t.hour ++ ':' :: (padded 2 t.minute ++ ':' :: (padded 2 t.stamp.second ++
        (fractionText (t.nanos % Duration.perSecond) ++ ['Z'])))))) := by
  have second : (if t.isLeap then t.second + 1 else t.second) = t.stamp.second := by
    simp only [Instant.stamp]
    split
    · rename_i leap
      rw [Instant.second_of_isLeap leap]
    · rfl
  simp [chars, second]

theorem selfDelimiting_text : SelfDelimiting text := by
  intro t t' x y h
  simp only [text, String.toList_ofList, chars_eq, List.append_assoc, List.cons_append,
    List.nil_append] at h
  obtain ⟨year, h⟩ := yearText_append_inj h
  obtain ⟨-, month, h⟩ := padded_append_inj (stops_cons rfl) (stops_cons rfl) h
  obtain ⟨-, day, h⟩ := padded_append_inj (stops_cons rfl) (stops_cons rfl) (List.cons.inj h).2
  obtain ⟨-, hour, h⟩ := padded_append_inj (stops_cons rfl) (stops_cons rfl) (List.cons.inj h).2
  obtain ⟨-, minute, h⟩ := padded_append_inj (stops_cons rfl) (stops_cons rfl) (List.cons.inj h).2
  obtain ⟨-, second, h⟩ := padded_append_inj (stops_fractionText _ _) (stops_fractionText _ _)
    (List.cons.inj h).2
  obtain ⟨nanos, same⟩ := fractionText_append_inj (nanos_lt t) (nanos_lt t') h
  have date : t.date = t'.date := by
    calc t.date
      _ = ⟨t.date.year, t.date.month, t.date.day⟩ := rfl
      _ = ⟨t'.date.year, t'.date.month, t'.date.day⟩ := by rw [year, month, day]
  exact ⟨eq_of_parts date hour minute second nanos, same⟩

end Rfc3339
end SignedHttp
