import SignedHttp.Proofs.Time.HttpDate
import SignedHttp.Reading

/-!
# SignedHttp.Proofs.Retry.After

The instant that a `Retry-After` header means (`RetryAfter.resume_spec`).

Two facts decide about numbers. No form of a date reads one (`HttpDate.ofChars?_none`): the readers
want the name of a day, or a blank after the first digits. So a number that is too large for 64 bits
means nothing. And every limit that a delay has to keep lies beyond the range of instants
(`RetryAfter.later?_eq`), so it makes no difference which of them a number exceeds first: it means
the instant so many seconds later or nothing (`RetryAfter.resume?_of_delay`).
-/

namespace SignedHttp

/-! ## Numbers are no dates -/

namespace HttpDate

open Text Text.Reader

variable {c : Char} {s : List Char}

/-- Digits and signs come before all letters. -/
theorem toLower_of_lt (h : c.toNat < 65) : c.toLower = c := by
  unfold Char.toLower
  rw [dif_neg]
  intro upper
  have : 65 ≤ c.toNat := UInt32.le_iff_toNat_le.1 upper.1
  omega

/-- The name of a day of the week begins with a letter. -/
theorem weekday_none (h : c.toNat < 65) (s : List Char) : weekday (c :: s) = none := by
  have letters : ∀ name ∈ Date.weekdayNames, ∃ d more, name.toList.map Char.toLower = d :: more ∧
      97 ≤ d.toNat := by
    intro name hname
    simp only [Date.weekdayNames, List.mem_cons, List.not_mem_nil, or_false] at hname
    rcases hname with rfl | rfl | rfl | rfl | rfl | rfl | rfl <;> exact ⟨_, _, rfl, by decide⟩
  have other : Date.weekdayNames.findIdx? (fun name => sameLetters name.toList ((c :: s).take 3)) =
      none := by
    rw [List.findIdx?_eq_none_iff]
    intro name hname
    obtain ⟨d, more, hd, letter⟩ := letters name hname
    rw [sameLetters, beq_eq_false_iff_ne, hd, List.take_succ_cons, List.map_cons,
      toLower_of_lt h]
    rintro ⟨⟩
    omega
  rw [weekday, oneOf, other]

/-- A text without blanks that does not begin with the name of a day is no date. -/
theorem ofChars?_none (hday : weekday s = none) (hblank : ∀ c ∈ s, isBlank c = false) :
    ofChars? s = none := by
  have noDay : mailWeekday s = some (none, s) := by
    rw [mailWeekday, next (attempt_none hday)]
    rfl
  have hmail : mail s = none := by
    rw [mail, next (blanks_stops (stops_of_forall hblank)), next noDay,
      next (blanks_stops (stops_of_forall hblank))]
    cases hread : digits 1 2 s with
    | none => rw [next_none hread]
    | some read =>
      obtain ⟨day, rest⟩ := read
      -- the rest has no blank either, but one would have to follow the day of the month
      have hrest : ∀ c ∈ rest, isBlank c = false := by
        intro c hc
        simp only [digits] at hread
        split at hread
        · cases hread
          exact hblank c (List.mem_of_mem_drop hc)
        · cases hread
      rw [next hread, next_none (blanks1_none (stops_of_forall hrest))]
  have noFullDay : weekdayInFull s = none := by
    rw [weekdayInFull, next_none hday]
  have hdashed : dashed s = none := by
    rw [dashed, next_none noFullDay]
  have hlisting : listing s = none := by
    rw [listing, next_none hday]
  rw [ofChars?, inForm_none hmail, inForm_none hdashed, inForm_none hlisting, Option.none_or,
    Option.none_or]

end HttpDate

namespace Instant

variable {now : Instant} {secs : Nat}

/-- All instants lie within less than twenty million million seconds. -/
theorem add?_far (h : 20000000000000 ≤ secs) : now.add? (Duration.ofSecs secs) = none := by
  rw [Option.eq_none_iff_forall_ne_some]
  intro t ht
  have moved := reading_add? ht
  have start := now.reading_bounds.1
  have finish := t.reading_bounds.2
  have low := now.secs_bounds.1
  have high := t.secs_bounds.2
  simp only [Duration.ofSecs, Duration.ofParts, Duration.perSecond] at moved
  omega

end Instant

namespace RetryAfter

open Text

variable {text : String} {now : Instant} {secs : Nat} {s : List Char}

theorem delay?_eq_some : delay? s = some secs ↔
    unsigned s ≠ [] ∧ (∀ c ∈ unsigned s, c.isDigit = true) ∧ number (unsigned s) = secs := by
  unfold delay?
  simp [and_assoc]

/-- A sign is all that may stand beside the digits. -/
theorem mem_unsigned {c : Char} (hc : c ∈ s) : c = '+' ∨ c ∈ unsigned s := by
  unfold unsigned
  split
  · exact List.mem_cons.1 hc
  · exact .inr hc

theorem ofChars?_of_delay (h : delay? s = some secs) : HttpDate.ofChars? s = none := by
  obtain ⟨some, digits, -⟩ := delay?_eq_some.1 h
  have early : ∀ c ∈ s, c.toNat < 65 ∧ isBlank c = false := by
    intro c hc
    rcases mem_unsigned hc with rfl | hc
    · decide
    · have := toNat_of_isDigit (digits c hc)
      exact ⟨by omega, isBlank_of_isDigit (digits c hc)⟩
  cases s with
  | nil => exact absurd rfl some
  | cons c s =>
    exact HttpDate.ofChars?_none (HttpDate.weekday_none (early c List.mem_cons_self).1 s)
      fun c hc => (early c hc).2

theorem resume?_of_seconds (h : seconds? (trim text.toList) = some secs) :
    resume? text now = later? secs now := by
  simp only [resume?, h]

theorem resume?_of_no_seconds (h : seconds? (trim text.toList) = none) :
    resume? text now = (HttpDate.ofChars? (trim text.toList)).map (Instant.latest · now) := by
  simp only [resume?, h]

/-- A delay that exceeds one of the limits leads out of the range of instants as well. -/
theorem later?_eq (secs : Nat) (now : Instant) : later? secs now = now.add? (.ofSecs secs) := by
  unfold later?
  split
  · rfl
  · rename_i limits
    have far : 20000000000000 ≤ secs := by
      simp only [Duration.Schedulable, Duration.ofSecs, Duration.ofParts, Duration.perSecond,
        Duration.longest] at limits
      omega
    exact (Instant.add?_far far).symm

/-- A number of seconds means the instant that is so much later, whichever limit it exceeds. -/
theorem resume?_of_delay (h : delay? (trim text.toList) = some secs) :
    resume? text now = now.add? (.ofSecs secs) := by
  by_cases small : secs < 18446744073709551616
  · have read : seconds? (trim text.toList) = some secs := by
      rw [seconds?, h, Option.filter_some_pos (by simpa using small)]
    rw [resume?_of_seconds read, later?_eq]
  · have unread : seconds? (trim text.toList) = none := by
      rw [seconds?, h, Option.filter_some_neg (by simpa using small)]
    rw [resume?_of_no_seconds unread, ofChars?_of_delay h, Option.map_none,
      Instant.add?_far (by omega)]

/-- What is no number of seconds means the date that it names, or the present if that has passed. -/
theorem resume?_of_no_delay (h : delay? (trim text.toList) = none) :
    resume? text now = (HttpDate.ofText? text).map (Instant.latest · now) := by
  have unread : seconds? (trim text.toList) = none := by
    rw [seconds?, h, Option.filter_none]
  rw [resume?_of_no_seconds unread, HttpDate.ofText?]

theorem le_of_resume? {t : Instant} (h : resume? text now = some t) : now ≤ t := by
  cases hd : delay? (trim text.toList) with
  | some secs =>
    rw [resume?_of_delay hd] at h
    exact Instant.le_of_add? h
  | none =>
    rw [resume?_of_no_delay hd] at h
    obtain ⟨d, -, rfl⟩ := Option.map_eq_some_iff.1 h
    exact Instant.le_latest d now

theorem resume?_of_date {d : Instant} (h : HttpDate.ofText? text = some d) :
    resume? text now = some (Instant.latest d now) := by
  cases hd : delay? (trim text.toList) with
  | some secs =>
    rw [HttpDate.ofText?, ofChars?_of_delay hd] at h
    cases h
  | none => rw [resume?_of_no_delay hd, h, Option.map_some]

theorem delay?_of_digits (hne : s ≠ []) (h : ∀ c ∈ s, c.isDigit = true) :
    delay? s = some (number s) := by
  have plain : unsigned s = s := by
    unfold unsigned
    split
    · have := h '+' List.mem_cons_self
      cases this
    · rfl
  rw [delay?_eq_some, plain]
  exact ⟨hne, h, rfl⟩

/-- The instant that a `Retry-After` header means is never before the present. Digits, however many,
mean the instant so many seconds later if there is one, and nothing otherwise. A date means itself
or the present, whichever is later, and so the text of an instant means its whole seconds or the
present. -/
theorem resume_spec (text : String) (now : Instant) :
    (∀ t, resume? text now = some t → now ≤ t) ∧
    (trim text.toList ≠ [] → (∀ c ∈ trim text.toList, c.isDigit = true) → now.isLeap = false →
      ∀ t, resume? text now = some t ↔
        t.secs = now.secs + number (trim text.toList) ∧ t.nanos = now.nanos) ∧
    (∀ d, Reading.httpDate text = .ok d → resume? text now = some (Instant.latest d now)) ∧
    ∀ t : Instant, 0 ≤ t.date.year →
      resume? (HttpDate.text t) now = some (Instant.latest t.whole now) := by
  refine ⟨fun t => le_of_resume?, ?digits, ?date, ?written⟩
  case digits =>
    intro hne digits civil t
    have hn := Instant.nanos_lt civil
    rw [resume?_of_delay (delay?_of_digits hne digits), Instant.add?_of_not_leap civil]
    simp only [Duration.ofSecs, Duration.ofParts, Duration.perSecond]
    omega
  case date =>
    intro d h
    exact resume?_of_date (HttpDate.httpDate_eq_ok.1 h)
  case written =>
    intro t h
    exact resume?_of_date (HttpDate.ofText?_text h)

theorem resume_at_new_year :
    let now : Instant := ⟨1704067200, 5, by decide, by decide⟩
    let soon : Instant := ⟨1704067210, 5, by decide, by decide⟩
    let later : Instant := ⟨1704067230, 0, by decide, by decide⟩
    resume? " 0010 " now = some soon ∧ now ≤ soon ∧
    resume? "18446744073709551617" now = none ∧
    resume? "Sun, 31 Dec 2023 23:59:00 GMT" now = some now ∧
    resume? "Mon, 01 Jan 2024 00:00:30 +0000" now = some later := by
  intro now soon later
  obtain ⟨past, ten, -, -⟩ := resume_spec " 0010 " now
  have hten := (ten (by decide) (List.all_eq_true.1 rfl) rfl soon).2 ⟨by decide, rfl⟩
  obtain ⟨-, huge, -, -⟩ := resume_spec "18446744073709551617" now
  have hhuge : resume? "18446744073709551617" now = none := by
    rw [Option.eq_none_iff_forall_ne_some]
    intro t ht
    have far := ((huge (by decide) (List.all_eq_true.1 rfl) rfl t).1 ht).1
    have number : number (trim "18446744073709551617".toList) = 18446744073709551617 := by
      decide
    have start : now.secs = 1704067200 := rfl
    have := t.secs_bounds.2
    rw [number, start] at far
    omega
  obtain ⟨-, -, date, written⟩ := resume_spec "Sun, 31 Dec 2023 23:59:00 GMT" now
  have hdate := date ⟨1704067140, 0, by decide, by decide⟩
    (HttpDate.httpDate_eq_ok.2 (by decide +kernel))
  have hwritten := written later (by decide)
  have text : HttpDate.text later = "Mon, 01 Jan 2024 00:00:30 +0000" := by decide +kernel
  rw [text] at hwritten
  exact ⟨hten, past soon hten, hhuge, hdate, hwritten⟩

end RetryAfter
end SignedHttp
