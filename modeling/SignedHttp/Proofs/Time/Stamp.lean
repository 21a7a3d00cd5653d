import SignedHttp.Proofs.Time.Calendar
import SignedHttp.Proofs.Time.Order
import SignedHttp.Time.Stamp

/-!
# SignedHttp.Proofs.Time.Stamp

An instant without a fraction of a second (`Instant.IsWhole`) is the one that its date, day of the
week and time of day name (`Instant.instant?_stamp`), in a leap second as well: clocks show it as
second 60.
-/

namespace SignedHttp
namespace Instant

variable {t : Instant}

/-- An instant at which a second begins, which may be a leap second. -/
def IsWhole (t : Instant) : Prop := t.nanos % Duration.perSecond = 0

instance (t : Instant) : Decidable t.IsWhole := inferInstanceAs (Decidable (_ = _))

/-- The beginning of the second in which an instant lies. A leap second counts as part of the second
before it. -/
def whole (t : Instant) : Instant := ⟨t.secs, 0, t.secs_bounds, .inl (by decide)⟩

theorem isWhole_whole (t : Instant) : t.whole.IsWhole := rfl

/-- The fields in which calendars and clocks show an instant. -/
def stamp (t : Instant) : Stamp where
  date := t.date
  weekday := some (Date.weekday t.day)
  hour := t.hour
  minute := t.minute
  second := if t.isLeap then 60 else t.second

theorem hour_le (t : Instant) : t.hour ≤ 23 := by
  unfold hour secondOfDay
  omega

theorem minute_le (t : Instant) : t.minute ≤ 59 := by
  unfold minute
  omega

theorem second_le (t : Instant) : t.second ≤ 59 := by
  unfold second
  omega

theorem second_of_isLeap (h : t.isLeap = true) : t.second = 59 := by
  have leap : 1000000000 ≤ t.nanos := by simpa [isLeap] using h
  have hb := t.nanos_bound
  unfold second secondOfDay
  omega

theorem stamp_second_le (t : Instant) : t.stamp.second ≤ 60 := by
  have := t.second_le
  simp only [stamp]
  split <;> omega

theorem secs_eq (t : Instant) :
    t.day * 86400 + (t.hour * 3600 + t.minute * 60 + t.second : Nat) = t.secs := by
  unfold day hour minute second secondOfDay
  omega

/-- The second that the fields of an instant mean, and what lies beyond it in a leap second. -/
theorem second_of_stamp (h : t.IsWhole) :
    (if t.stamp.second == 60 then 59 else t.stamp.second) = t.second ∧
      (if t.stamp.second == 60 then t.stamp.nanos + Duration.perSecond else t.stamp.nanos) =
        t.nanos := by
  have hb := t.nanos_bound
  unfold IsWhole Duration.perSecond at h
  by_cases leap : t.isLeap = true
  · have sixty : t.stamp.second = 60 := if_pos leap
    have late : 1000000000 ≤ t.nanos := by simpa [isLeap] using leap
    simp only [sixty, beq_self_eq_true, if_true, second_of_isLeap leap, true_and]
    show 0 + 1000000000 = t.nanos
    omega
  · have shown : t.stamp.second = t.second := if_neg leap
    have early : t.nanos < 1000000000 := nanos_lt (by simpa using leap)
    have civil : (t.second == 60) = false := by
      have := t.second_le
      rw [beq_eq_false_iff_ne]
      omega
    simp only [shown, civil, Bool.false_eq_true, if_false, true_and]
    show 0 = t.nanos
    omega

/-- The fields of an instant name that instant. -/
theorem instant?_stamp (h : t.IsWhole) : t.stamp.instant? = some t := by
  obtain ⟨hsecond, hnanos⟩ := second_of_stamp h
  have days : t.stamp.date.toDays = t.day := Date.toDays_ofDays t.day
  have real : t.stamp.date.isReal = true := Date.isReal_ofDays t.day
  have time : t.stamp.isTime = true := by
    have noFraction : t.stamp.nanos < Duration.perSecond := Nat.zero_lt_succ _
    simp only [Stamp.isTime, Bool.and_eq_true, decide_eq_true_eq]
    exact ⟨⟨⟨t.hour_le, t.minute_le⟩, t.stamp_second_le⟩, noFraction⟩
  have agrees : t.stamp.agrees = true := by
    show (Date.weekday t.day == Date.weekday t.stamp.date.toDays) = true
    rw [days, beq_self_eq_true]
  have parts : ofParts? t.secs t.nanos = some t := ofParts?_eq_some.2 ⟨rfl, rfl⟩
  have here : t.west? 0 = some t := by
    rw [west?, Int.mul_zero, Int.sub_zero]
    exact parts
  simp only [Stamp.instant?, real, time, agrees, Bool.and_self, if_true, days, hsecond, hnanos]
  show (ofParts? (t.day * 86400 + (t.hour * 3600 + t.minute * 60 + t.second : Nat)) t.nanos).bind
    (·.west? 0) = some t
  rw [secs_eq, parts, Option.bind_some, here]

end Instant
end SignedHttp
