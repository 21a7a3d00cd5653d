import SignedHttp.Proofs.Time.Order
import SignedHttp.Retry.Throttles

/-!
# SignedHttp.Proofs.Retry.Throttles

What recording, asking and clearing do to the pauses that are known, resource by resource. A pause
that is recorded takes the place of the known one if it ends later (`get?_record_self`), asking for
one drops it if it is over (`pending_cases`), and what concerns one resource makes no difference to
another (`get?_record_of_ne`, `get?_pending_of_ne`).
-/

namespace SignedHttp
namespace Throttles

variable {t : Throttles} {key other : String} {now : Instant} {pause : Throttle}

/-! ## Recording -/

theorem get?_record_of_ne (ne : other ≠ key) : (t.record key pause).get? other = t.get? other := by
  have put : (t.put key pause).get? other = t.get? other := by
    rw [get?_put, if_neg ne]
  unfold record
  cases t.get? key with
  | none => exact put
  | some known =>
    dsimp only
    split
    · rfl
    · exact put

/-- The later of two pauses, the one known before if they end at once. -/
def longer (known : Option Throttle) (pause : Throttle) : Throttle :=
  match known with
  | some known => if pause.resumeAt ≤ known.resumeAt then known else pause
  | none => pause

theorem get?_record_self (t : Throttles) (key : String) (pause : Throttle) :
    (t.record key pause).get? key = some (longer (t.get? key) pause) := by
  have put : (t.put key pause).get? key = some pause := by
    rw [get?_put, if_pos rfl]
  unfold record longer
  cases h : t.get? key with
  | none => exact put
  | some known =>
    dsimp only
    split
    · exact h
    · exact put

theorem get?_record_cases (t : Throttles) (key : String) (pause : Throttle) :
    (t.record key pause).get? key = some pause ∨ (t.record key pause).get? key = t.get? key := by
  rw [get?_record_self]
  unfold longer
  cases t.get? key with
  | none => exact .inl rfl
  | some known =>
    dsimp only
    split
    · exact .inr rfl
    · exact .inl rfl

/-- A recorded pause is known, or one that is at least as long; so is every pause that was. -/
theorem get?_record (t : Throttles) (key : String) (pause : Throttle) :
    ∃ known, (t.record key pause).get? key = some known ∧ pause.resumeAt ≤ known.resumeAt ∧
      ∀ former, t.get? key = some former → former.resumeAt ≤ known.resumeAt := by
  refine ⟨_, get?_record_self t key pause, ?_⟩
  unfold longer
  cases t.get? key with
  | none => exact ⟨Instant.le_refl _, fun former hf => by cases hf⟩
  | some known =>
    dsimp only
    split
    · rename_i hle
      refine ⟨hle, fun former hf => ?_⟩
      cases hf
      exact Instant.le_refl _
    · rename_i hle
      refine ⟨Instant.le_refl _, fun former hf => ?_⟩
      cases hf
      exact Instant.le_of_not_le hle

/-! ## Clearing -/

theorem eq_of_entries {t t' : Throttles} (h : t.entries = t'.entries) : t = t' := by
  cases t
  cases t'
  cases h
  rfl

theorem clear_of_get?_none (unknown : t.get? key = none) : t.clear key = t := by
  refine eq_of_entries (List.filter_eq_self.2 fun e he => ?_)
  exact bne_iff_ne.2 (bne_iff_ne.1 (List.lookup_eq_none_iff.1 unknown e he)).symm

theorem clear_comm (t : Throttles) (key other : String) :
    (t.clear key).clear other = (t.clear other).clear key := by
  refine eq_of_entries ?_
  simp only [clear, others, List.filter_filter, Bool.and_comm]

theorem clear_put_of_ne (ne : other ≠ key) (pause : Throttle) :
    (t.put other pause).clear key = (t.clear key).put other pause := by
  refine eq_of_entries ?_
  have kept : [(other, pause)].filter (fun e => e.1 != key) = [(other, pause)] := by
    simp [ne]
  simp only [clear, put, others, List.filter_append, List.filter_filter, kept, Bool.and_comm]

theorem clear_record_of_ne (ne : other ≠ key) (pause : Throttle) :
    (t.record other pause).clear key = (t.clear key).record other pause := by
  unfold record
  rw [get?_clear, if_neg ne]
  cases t.get? other with
  | none => exact clear_put_of_ne ne pause
  | some known =>
    dsimp only
    split
    · rfl
    · exact clear_put_of_ne ne pause

/-! ## Asking -/

/-- A pause that is pending is a known one that is still running; the others are dropped. -/
theorem pending_cases (t : Throttles) (key : String) (now : Instant) :
    (∃ pause, t.get? key = some pause ∧ now < pause.resumeAt ∧
      t.pending key now = (some pause, t)) ∨
    (∃ pause, t.get? key = some pause ∧ pause.resumeAt ≤ now ∧
      t.pending key now = (none, t.clear key)) ∨
    (t.get? key = none ∧ t.pending key now = (none, t)) := by
  unfold pending
  cases h : t.get? key with
  | none => exact .inr (.inr ⟨rfl, rfl⟩)
  | some pause =>
    dsimp only
    by_cases hlt : now < pause.resumeAt
    · rw [if_pos hlt]
      exact .inl ⟨pause, rfl, hlt, rfl⟩
    · rw [if_neg hlt]
      exact .inr (.inl ⟨pause, rfl, Instant.not_lt.1 hlt, rfl⟩)

theorem pending_clear_of_ne (ne : other ≠ key) :
    (t.clear key).pending other now =
      ((t.pending other now).1, (t.pending other now).2.clear key) := by
  unfold pending
  rw [get?_clear, if_neg ne]
  cases t.get? other with
  | none => rfl
  | some pause =>
    dsimp only
    split
    · rfl
    · rw [clear_comm]

theorem get?_pending_of_ne (ne : other ≠ key) :
    (t.pending other now).2.get? key = t.get? key := by
  obtain ⟨_, -, -, h⟩ | ⟨_, -, -, h⟩ | ⟨-, h⟩ := t.pending_cases other now
  · rw [h]
  · rw [h, get?_clear, if_neg ne.symm]
  · rw [h]

/-- Asking for a pause that is over forgets it. -/
theorem pending_of_over (h : ∀ pause, t.get? key = some pause → pause.resumeAt ≤ now) :
    t.pending key now = (none, t.clear key) := by
  obtain ⟨pause, known, running, -⟩ | ⟨-, -, -, hpending⟩ | ⟨unknown, hpending⟩ :=
    t.pending_cases key now
  · exact absurd (h pause known) fun le => Instant.not_lt.2 le running
  · exact hpending
  · rw [hpending, clear_of_get?_none unknown]

end Throttles
end SignedHttp
