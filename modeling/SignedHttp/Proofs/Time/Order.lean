import SignedHttp.Time.Instant

/-!
# SignedHttp.Proofs.Time.Order

The order of instants, and what moving an instant and the distance between two of them have to do
with it.

Without leap seconds an instant is a number of nanoseconds (`Instant.value`). Order, differences and
sums are those of the numbers (`le_iff_value`, `minus_eq`, `value_of_add?`), and who sleeps for the
time that remains until an instant wakes up at it (`add?_remaining`).
-/

namespace SignedHttp
namespace Instant

variable {a b c t u : Instant} {d : Duration}

theorem le_def : a ≤ b ↔ a.secs < b.secs ∨ (a.secs = b.secs ∧ a.nanos ≤ b.nanos) := Iff.rfl

theorem lt_def : a < b ↔ a.secs < b.secs ∨ (a.secs = b.secs ∧ a.nanos < b.nanos) := Iff.rfl

theorem le_refl (a : Instant) : a ≤ a := by
  rw [le_def]
  omega

theorem le_trans (h : a ≤ b) (h' : b ≤ c) : a ≤ c := by
  rw [le_def] at *
  omega

theorem le_antisymm (h : a ≤ b) (h' : b ≤ a) : a = b := by
  rw [le_def] at h h'
  cases a
  cases b
  rw [mk.injEq]
  dsimp only at h h'
  omega

theorem not_lt : ¬ a < b ↔ b ≤ a := by
  rw [lt_def, le_def]
  omega

theorem not_le : ¬ a ≤ b ↔ b < a := by
  rw [lt_def, le_def]
  omega

theorem le_of_not_le (h : ¬ a ≤ b) : b ≤ a := by
  rw [le_def] at *
  omega

theorem le_of_lt (h : a < b) : a ≤ b := by
  rw [lt_def] at h
  rw [le_def]
  omega

theorem le_latest (d now : Instant) : now ≤ latest d now := by
  unfold latest
  split
  · exact le_refl now
  · exact le_of_not_le ‹_›

theorem latest_of_le (h : b ≤ a) : a.latest b = a := by
  unfold latest
  split
  · exact le_antisymm h ‹_›
  · rfl

/-! ## Instants as numbers -/

/-- A second of the first day of 1970; after a day the count begins anew. -/
def atSecond (n : Nat) : Instant := ⟨(n % 86400 : Nat), 0, by omega, .inl (by decide)⟩

/-- The nanoseconds since 1970, not counting leap seconds. -/
def value (t : Instant) : Int := t.secs * 1000000000 + t.nanos

theorem nanos_lt (h : t.isLeap = false) : t.nanos < 1000000000 := by
  simpa [isLeap] using h

theorem le_iff_value (ha : a.isLeap = false) (hb : b.isLeap = false) :
    a ≤ b ↔ a.value ≤ b.value := by
  have := nanos_lt ha
  have := nanos_lt hb
  unfold value
  rw [le_def]
  omega

theorem minus_eq (ha : a.isLeap = false) (hb : b.isLeap = false) :
    a.minus b = a.value - b.value := by
  have noLeap : (if b.secondOfDay < a.secondOfDay && b.isLeap then (1 : Int)
      else if a.secondOfDay < b.secondOfDay && a.isLeap then -1 else 0) = 0 := by
    simp [ha, hb]
  unfold minus value
  rw [noLeap]
  simp only [Int.add_zero]
  omega

theorem remaining_ns (ht : t.isLeap = false) (hu : u.isLeap = false) :
    (t.remaining u).ns = (t.value - u.value).toNat := by
  rw [remaining, minus_eq ht hu]

theorem ofParts?_eq_some {secs : Int} {nanos : Nat} :
    ofParts? secs nanos = some t ↔ t.secs = secs ∧ t.nanos = nanos := by
  constructor
  · intro h
    unfold ofParts? at h
    split at h
    · split at h
      · cases h
        exact ⟨rfl, rfl⟩
      · cases h
    · cases h
  · rintro ⟨rfl, rfl⟩
    unfold ofParts?
    rw [dif_pos t.secs_bounds, dif_pos t.nanos_bound]

/-- A move stays within a leap second that it starts in, as long as that lasts. Otherwise it starts
from the second before. -/
theorem add?_eq (t : Instant) (d : Duration) :
    t.add? d = if t.isLeap = true ∧ t.nanos + d.ns < 2000000000 then
        ofParts? t.secs (t.nanos + d.ns)
      else
        ofParts? (t.secs + ((t.nanos % 1000000000 + d.ns) / 1000000000 : Nat))
          ((t.nanos % 1000000000 + d.ns) % 1000000000) := by
  have stays : (t.isLeap && d.ns / 1000000000 == 0 &&
      decide (t.nanos + d.ns % 1000000000 < 2000000000)) = true ↔
        t.isLeap = true ∧ t.nanos + d.ns < 2000000000 := by
    simp only [isLeap, Bool.and_eq_true, decide_eq_true_eq, beq_iff_eq]
    omega
  unfold add? Duration.secs Duration.nanos Duration.perSecond
  by_cases h : t.isLeap = true ∧ t.nanos + d.ns < 2000000000
  · have leap : 1000000000 ≤ t.nanos := by simpa [isLeap] using h.1
    have short : d.ns % 1000000000 = d.ns := Nat.mod_eq_of_lt (by omega)
    rw [if_pos (stays.2 h), if_pos h, short]
  · have secs : d.ns / 1000000000 + (t.nanos % 1000000000 + d.ns % 1000000000) / 1000000000 =
        (t.nanos % 1000000000 + d.ns) / 1000000000 := by omega
    have nanos : (t.nanos % 1000000000 + d.ns % 1000000000) % 1000000000 =
        (t.nanos % 1000000000 + d.ns) % 1000000000 := by omega
    rw [if_neg (mt stays.1 h), if_neg h]
    dsimp only
    rw [secs, nanos]

theorem add?_of_not_leap (ht : t.isLeap = false) :
    t.add? d = some u ↔
      u.secs = t.secs +
        ((d.ns / 1000000000 + (t.nanos + d.ns % 1000000000) / 1000000000 : Nat) : Int) ∧
      u.nanos = (t.nanos + d.ns % 1000000000) % 1000000000 := by
  have hn := nanos_lt ht
  rw [add?_eq, if_neg (by simp [ht]), ofParts?_eq_some, Nat.mod_eq_of_lt hn]
  omega

/-- Time does not run backwards, not even out of a leap second. -/
theorem le_of_add? (h : t.add? d = some u) : t ≤ u := by
  rw [le_def]
  rw [add?_eq] at h
  split at h
  · rw [ofParts?_eq_some] at h
    omega
  · rename_i goes
    rw [ofParts?_eq_some] at h
    have hb := t.nanos_bound
    simp only [isLeap, decide_eq_true_eq] at goes
    omega

theorem value_of_add? (ht : t.isLeap = false) (h : t.add? d = some u) :
    u.value = t.value + d.ns ∧ u.isLeap = false := by
  obtain ⟨hsecs, hnanos⟩ := (add?_of_not_leap ht).1 h
  constructor
  · unfold value
    omega
  · simp only [isLeap, decide_eq_false_iff_not]
    omega

/-- Who sleeps for the time that remains until an instant wakes up at that instant. -/
theorem add?_remaining (ht : t.isLeap = false) (hu : u.isLeap = false) (h : u ≤ t) :
    u.add? (t.remaining u) = some t := by
  have := nanos_lt ht
  have := nanos_lt hu
  have hns : (t.remaining u).ns = t.value - u.value := by
    rw [remaining_ns ht hu]
    have := (le_iff_value hu ht).1 h
    omega
  unfold value at hns
  rw [add?_of_not_leap hu]
  omega

theorem remaining_eq_zero (ht : t.isLeap = false) (hu : u.isLeap = false) :
    t.remaining u = .zero ↔ t ≤ u := by
  have hns := remaining_ns ht hu
  rw [le_iff_value ht hu]
  constructor
  · intro h
    rw [h] at hns
    simp only [Duration.zero] at hns
    omega
  · intro h
    have none : (t.remaining u).ns = 0 := by omega
    rw [Duration.zero, ← none]

theorem le_of_remaining (ht : t.isLeap = false) (hu : u.isLeap = false)
    (h : t.remaining u ≠ .zero) : u ≤ t := by
  rw [ne_eq, remaining_eq_zero ht hu, ← not_lt] at h
  exact le_of_lt (Decidable.not_not.1 h)

end Instant

namespace Clock

variable {c c' : Clock} {d : Duration}

theorem now_of_sleep? (h : c.sleep? d = some c') : c.now.add? d = some c'.now := by
  obtain ⟨t, ht, rfl⟩ := Option.map_eq_some_iff.1 h
  exact ht

theorem now_of_advance? (h : c.advance? d = some c') : c.now.add? d = some c'.now := by
  obtain ⟨t, ht, rfl⟩ := Option.map_eq_some_iff.1 h
  exact ht

end Clock
end SignedHttp
