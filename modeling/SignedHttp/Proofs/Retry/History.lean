import Mathlib.Data.List.Induction
import SignedHttp.Proofs.Retry.Throttles
import SignedHttp.Proofs.Run.Trace

/-!
# SignedHttp.Proofs.Retry.History

What is known of a resource after any calls whatsoever (`after_remembers`): of the pauses that were
announced since a call last removed one, the longest, and of several that end at once the first.

* `Removes`: which calls remove the pause of a resource. Whether asking for it does depends on what
  is known at that point, so this is a property of the pauses and the call.
* `LastRemoval`: where the last such call is in a history.
* `Foremost`: which of several pauses counts.

From the last removal on, an announcement leaves the foremost pause so far (`Known.announced`), and
all other calls leave what is known as it is (`get?_apply_of_spared`).
-/

namespace SignedHttp
namespace Throttles

/-- A call that is made about a resource. -/
inductive Op
  | record (key : String) (pause : Throttle)
  | pending (key : String) (now : Instant)
  | clear (key : String)

namespace Op

def key : Op → String
  | record key _ => key
  | pending key _ => key
  | clear key => key

/-- The pause that a call announces for a resource. -/
def announced? (key : String) : Op → Option Throttle
  | record other pause => if other = key then some pause else none
  | pending _ _ | clear _ => none

end Op

/-- The pauses after a call. -/
def apply (t : Throttles) : Op → Throttles
  | .record key pause => t.record key pause
  | .pending key now => (t.pending key now).2
  | .clear key => t.clear key

/-- The pauses after calls that begin with none. -/
def after (ops : List Op) : Throttles := ops.foldl apply empty

theorem after_concat (ops : List Op) (op : Op) : after (ops ++ [op]) = (after ops).apply op := by
  unfold after
  rw [List.foldl_append, List.foldl_cons, List.foldl_nil]

/-- Whether a call removes the pause of a resource: it clears the resource, or asks for a pause
that is over. -/
def Removes (t : Throttles) (key : String) : Op → Prop
  | .record _ _ => False
  | .pending other now =>
    other = key ∧ ∃ pause, t.get? key = some pause ∧ pause.resumeAt ≤ now
  | .clear other => other = key

/-- A history up to the last call that removed the pause of a resource, or none of it if no call
did, and the calls since then. -/
structure LastRemoval (key : String) (before since : List Op) : Prop where
  removes : before = [] ∨ ∃ front op, before = front ++ [op] ∧ (after front).Removes key op
  spares : ∀ front op back, since = front ++ op :: back →
    ¬ (after (before ++ front)).Removes key op

/-- The pauses that calls announce for a resource. -/
def announced (key : String) (ops : List Op) : List Throttle := ops.filterMap (Op.announced? key)

/-- Of several pauses the longest, and the first of those that are as long. -/
def Foremost (pauses : List Throttle) (pause : Throttle) : Prop :=
  ∃ front back, pauses = front ++ pause :: back ∧
    (∀ other ∈ front, other.resumeAt < pause.resumeAt) ∧
    ∀ other ∈ back, other.resumeAt ≤ pause.resumeAt

/-- What is known after several announcements. -/
inductive Known : List Throttle → Option Throttle → Prop
  | nothing : Known [] none
  | foremost {pauses : List Throttle} {pause : Throttle} :
      Foremost pauses pause → Known pauses (some pause)

/-! ## One call -/

variable {t : Throttles} {key : String} {pause : Throttle}

theorem get?_apply_of_ne {op : Op} (ne : op.key ≠ key) : (t.apply op).get? key = t.get? key := by
  cases op with
  | record other pause => exact get?_record_of_ne (Ne.symm ne)
  | pending other now => exact get?_pending_of_ne ne
  | clear other => exact (t.get?_clear other key).trans (if_neg (Ne.symm ne))

theorem get?_apply_of_removes {op : Op} (removes : t.Removes key op) :
    (t.apply op).get? key = none := by
  cases op with
  | record other pause => cases removes
  | pending other now =>
    obtain ⟨rfl, pause, known, hle⟩ := removes
    have ended : t.pending other now = (none, t.clear other) := by
      refine pending_of_over fun former hf => ?_
      rw [known, Option.some.injEq] at hf
      rwa [← hf]
    calc (t.pending other now).2.get? other
      _ = (t.clear other).get? other := by rw [ended]
      _ = none := (t.get?_clear other other).trans (if_pos rfl)
  | clear other =>
    obtain rfl : other = key := removes
    exact (t.get?_clear other other).trans (if_pos rfl)

theorem get?_apply_of_announced {op : Op} (h : op.announced? key = some pause) :
    (t.apply op).get? key = some (longer (t.get? key) pause) := by
  cases op with
  | record other pause =>
    obtain ⟨rfl, hpause⟩ := Option.ite_none_right_eq_some.1 h
    cases hpause
    exact get?_record_self t other pause
  | pending other now => cases h
  | clear other => cases h

theorem get?_apply_of_spared {op : Op} (h : op.announced? key = none)
    (spared : ¬ t.Removes key op) : (t.apply op).get? key = t.get? key := by
  by_cases ne : op.key ≠ key
  · exact get?_apply_of_ne ne
  obtain rfl : op.key = key := Decidable.not_not.1 ne
  cases op with
  | record key pause => simp [Op.announced?, Op.key] at h
  | pending key now =>
    obtain ⟨_, -, -, hpending⟩ | ⟨pause, known, hle, -⟩ | ⟨-, hpending⟩ := t.pending_cases key now
    · exact congrArg (fun asked => asked.2.get? key) hpending
    · exact absurd ⟨rfl, pause, known, hle⟩ spared
    · exact congrArg (fun asked => asked.2.get? key) hpending
  | clear key => exact absurd rfl spared

/-! ## From the last removal on -/

theorem Known.announced {pauses : List Throttle} {known : Option Throttle} (h : Known pauses known)
    (pause : Throttle) : Known (pauses ++ [pause]) (some (longer known pause)) := by
  cases h with
  | nothing => exact .foremost ⟨[], [], rfl, by simp, by simp⟩
  | @foremost _ known foremost =>
    obtain ⟨front, back, rfl, before, later⟩ := foremost
    by_cases hle : pause.resumeAt ≤ known.resumeAt
    · have stays : longer (some known) pause = known := if_pos hle
      rw [stays]
      refine .foremost ⟨front, back ++ [pause], by simp, before, fun other ho => ?_⟩
      rcases List.mem_append.1 ho with ho | ho
      · exact later other ho
      · rwa [List.mem_singleton.1 ho]
    · have replaced : longer (some known) pause = pause := if_neg hle
      have atMost : ∀ other ∈ front ++ known :: back, other.resumeAt ≤ known.resumeAt := by
        intro other ho
        rcases List.mem_append.1 ho with ho | ho
        · exact Instant.le_of_lt (before other ho)
        · rcases List.mem_cons.1 ho with rfl | ho
          · exact Instant.le_refl _
          · exact later other ho
      rw [replaced]
      refine .foremost ⟨front ++ known :: back, [], rfl, fun other ho => ?_, by simp⟩
      exact Instant.not_le.1 fun le => hle (Instant.le_trans le (atMost other ho))

theorem known_after {before since : List Op} (last : LastRemoval key before since) :
    Known (announced key since) ((after (before ++ since)).get? key) := by
  induction since using List.reverseRecOn with
  | nil =>
    have unknown : (after (before ++ [])).get? key = none := by
      rw [List.append_nil]
      rcases last.removes with rfl | ⟨front, op, rfl, removes⟩
      · rfl
      · rw [after_concat]
        exact get?_apply_of_removes removes
    rw [unknown]
    exact .nothing
  | append_singleton since op ih =>
    have known := ih ⟨last.removes, fun front op' back h =>
      last.spares front op' (back ++ [op]) (by rw [h, List.append_assoc, List.cons_append])⟩
    rw [← List.append_assoc, after_concat]
    unfold announced at known ⊢
    rw [List.filterMap_append]
    cases h : op.announced? key with
    | none =>
      rw [get?_apply_of_spared h (last.spares since op [] rfl), List.filterMap_cons_none h,
        List.filterMap_nil, List.append_nil]
      exact known
    | some pause =>
      rw [get?_apply_of_announced h, List.filterMap_cons_some h, List.filterMap_nil]
      exact known.announced pause

theorem exists_lastRemoval (key : String) (ops : List Op) :
    ∃ before since, ops = before ++ since ∧ LastRemoval key before since := by
  induction ops using List.reverseRecOn with
  | nil => exact ⟨[], [], rfl, .inl rfl, by simp⟩
  | append_singleton ops op ih =>
    by_cases removes : (after ops).Removes key op
    · exact ⟨ops ++ [op], [], by simp, .inr ⟨ops, op, rfl, removes⟩, by simp⟩
    · obtain ⟨before, since, rfl, last⟩ := ih
      refine ⟨before, since ++ [op], List.append_assoc .., last.removes, ?_⟩
      intro front op' back h
      rcases Run.split_concat h with ⟨rfl, rfl⟩ | ⟨rest, -, hsince⟩
      · exact removes
      · exact last.spares front op' rest hsince

/-! ## The history of all resources -/

theorem mem_announced {ops : List Op} :
    pause ∈ announced key ops ↔ Op.record key pause ∈ ops := by
  unfold announced
  rw [List.mem_filterMap]
  constructor
  · rintro ⟨op, hop, h⟩
    cases op with
    | record other announced =>
      obtain ⟨rfl, hpause⟩ := Option.ite_none_right_eq_some.1 h
      cases hpause
      exact hop
    | pending other now => cases h
    | clear other => cases h
  · exact fun h => ⟨_, h, if_pos rfl⟩

theorem Known.isSome_iff {pauses : List Throttle} {known : Option Throttle}
    (h : Known pauses known) : known.isSome ↔ ∃ pause, pause ∈ pauses := by
  cases h with
  | nothing => simp
  | @foremost _ known foremost =>
    obtain ⟨front, back, rfl, -⟩ := foremost
    exact iff_of_true rfl ⟨known, by simp⟩

theorem pending_fst (t : Throttles) (key : String) (now : Instant) :
    (t.pending key now).1 = (t.get? key).filter fun pause => now < pause.resumeAt := by
  unfold pending
  cases t.get? key with
  | none => rfl
  | some pause =>
    by_cases running : now < pause.resumeAt
    · simp [Option.filter_some, running]
    · simp [Option.filter_some, running]

/-- The resources with a pause, each of them once. -/
def keys (t : Throttles) : List String := t.entries.map (·.1)

theorem mem_keys : key ∈ t.keys ↔ (t.get? key).isSome := by
  unfold keys get?
  rw [List.lookup_isSome_iff]
  simp

/-- What is known after any calls. Each resource has the foremost of the pauses that were announced
for it since its pause was last removed, and none if there were none; asking gives that pause as
long as it is running; a call makes no difference to the resources it is not about; and as many are
counted as have a pause. -/
theorem after_remembers (ops : List Op) :
    (∀ key, ∃ before since, ops = before ++ since ∧ LastRemoval key before since ∧
      (((after ops).get? key).isSome ↔ ∃ pause, Op.record key pause ∈ since) ∧
      ∀ pause, (after ops).get? key = some pause → Foremost (announced key since) pause) ∧
    (∀ key now, ((after ops).pending key now).1 =
      ((after ops).get? key).filter fun pause => now < pause.resumeAt) ∧
    (∀ op key, op.key ≠ key → ((after ops).apply op).get? key = (after ops).get? key) ∧
    ∃ keys : List String, keys.Nodup ∧ (∀ key, key ∈ keys ↔ ((after ops).get? key).isSome) ∧
      (after ops).size = keys.length := by
  refine ⟨fun key => ?_, pending_fst _, fun op key => get?_apply_of_ne,
    (after ops).keys, (after ops).distinct, fun key => mem_keys, (List.length_map _).symm⟩
  obtain ⟨before, since, rfl, last⟩ := exists_lastRemoval key ops
  have known := known_after last
  refine ⟨before, since, rfl, last, ?_, fun pause h => ?_⟩
  · rw [known.isSome_iff]
    exact exists_congr fun pause => mem_announced
  · rw [h] at known
    generalize announced key since = pauses at known ⊢
    cases known with
    | foremost foremost => exact foremost

/-- A pause that was removed does not count any more, and of two that end at once the first does. -/
example : (after [.record "box" ⟨.atSecond 9, none⟩, .pending "box" (.atSecond 9),
    .record "box" ⟨.atSecond 5, some "5"⟩, .record "box" ⟨.atSecond 5, none⟩]).get? "box" =
      some ⟨.atSecond 5, some "5"⟩ := by decide +kernel

end Throttles
end SignedHttp
