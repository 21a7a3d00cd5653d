import SignedHttp.Time.Instant

/-!
# SignedHttp.Retry.Throttles

The resources that have to be left alone for a while. `Throttles` holds at most one pause for each
resource. Recording a pause never shortens one; asking for the pause that is still running drops one
that has ended.
-/

namespace SignedHttp

/-- A pause that a server has asked for. -/
structure Throttle where
  resumeAt : Instant
  /-- How the server announced the pause. -/
  retryAfter : Option String
deriving DecidableEq, Repr

/-- The pauses, by the resources they are for. -/
structure Throttles where
  entries : List (String × Throttle)
  distinct : (entries.map (·.1)).Nodup
deriving Repr

namespace Throttles

def empty : Throttles := ⟨[], List.Pairwise.nil⟩

/-- The pause of a resource, whether it has ended or not. -/
def get? (t : Throttles) (key : String) : Option Throttle := t.entries.lookup key

/-- The number of resources with a pause. -/
def size (t : Throttles) : Nat := t.entries.length

def isEmpty (t : Throttles) : Bool := t.size == 0

def others (t : Throttles) (key : String) : List (String × Throttle) :=
  t.entries.filter fun e => e.1 != key

theorem nodup_others (t : Throttles) (key : String) : ((t.others key).map (·.1)).Nodup :=
  t.distinct.sublist (List.filter_sublist.map _)

theorem notMem_others (t : Throttles) (key : String) : key ∉ (t.others key).map (·.1) := by
  simp [others]

def clear (t : Throttles) (key : String) : Throttles := ⟨t.others key, t.nodup_others key⟩

def put (t : Throttles) (key : String) (pause : Throttle) : Throttles where
  entries := t.others key ++ [(key, pause)]
  distinct := by
    rw [List.map_append, List.nodup_append]
    refine ⟨t.nodup_others key, by simp, ?_⟩
    rintro a ha b hb rfl
    simp only [List.map_cons, List.map_nil, List.mem_singleton] at hb
    exact t.notMem_others key (hb ▸ ha)

/-- The pauses after one more is announced: it counts if it ends later than the one known so far. -/
def record (t : Throttles) (key : String) (pause : Throttle) : Throttles :=
  match t.get? key with
  | some known => if pause.resumeAt ≤ known.resumeAt then t else t.put key pause
  | none => t.put key pause

/-- The pause of a resource if it is still running at an instant, and the pauses afterwards. -/
def pending (t : Throttles) (key : String) (now : Instant) : Option Throttle × Throttles :=
  match t.get? key with
  | some pause => if now < pause.resumeAt then (some pause, t) else (none, t.clear key)
  | none => (none, t)

theorem lookup_filter_ne {α : Type} (entries : List (String × α)) (key other : String) :
    (entries.filter fun e => e.1 != key).lookup other =
      if other = key then none else entries.lookup other := by
  induction entries with
  | nil => simp
  | cons e rest ih =>
    obtain ⟨k, v⟩ := e
    by_cases hk : k = key
    · subst hk
      by_cases ho : other = k
      · simpa [ho] using ih
      · simp [ho, ih, List.lookup_cons, beq_eq_false_iff_ne.2 ho]
    · by_cases ho : other = k
      · subst ho
        simp [hk]
      · simp [hk, List.lookup_cons, beq_eq_false_iff_ne.2 ho, ih]

theorem get?_clear (t : Throttles) (key other : String) :
    (t.clear key).get? other = if other = key then none else t.get? other :=
  lookup_filter_ne t.entries key other

theorem get?_put (t : Throttles) (key other : String) (pause : Throttle) :
    (t.put key pause).get? other = if other = key then some pause else t.get? other := by
  have h := lookup_filter_ne t.entries key other
  by_cases ho : other = key
  · subst ho
    simp [get?, put, others, List.lookup_append, h]
  · simp [get?, put, others, List.lookup_append, h, ho, List.lookup_cons, beq_eq_false_iff_ne.2 ho]

end Throttles
end SignedHttp
