import Mathlib.Data.List.Chain
import SignedHttp.Proofs.Time.Order
import SignedHttp.RateLimiter

/-!
# SignedHttp.Proofs.RateLimiter.Slots

The slots that a limiter grants to those who ask one after another, whatever their clocks say
(`reserveAll?_granted`). The first slot is at once; from then on a slot is one interval after the
slot before or, if that is past already, at once. So slots are granted in turn, and the time to wait
is what is left until the distance to the slot before is kept.

* `Grant`: a slot with the instant it was asked for and the time to wait.
* `RateLimiter.Grants`: the slot that a limiter grants next; `Grant.Next`: one slot after another.
* `Instant.Apart`: instants without leap seconds that keep a distance. In a chain of them the
  distances add up (`apart_of_isChain`), and a window has room for so many (`countP_window`).
-/

namespace SignedHttp

/-- One instant is at least some time after another, and neither is in a leap second. -/
structure Instant.Apart (d : Duration) (a b : Instant) : Prop where
  earlier : a.isLeap = false
  later : b.isLeap = false
  distance : a.value + d.ns ≤ b.value

/-! ## Instants one interval apart -/

section Spaced

variable {d : Duration} {ts : List Instant} {a b : Instant}

theorem isChain_concat (h : (ts ++ [a]).IsChain (Instant.Apart d)) (hab : a.Apart d b) :
    (ts ++ [a] ++ [b]).IsChain (Instant.Apart d) := by
  refine h.append (.singleton b) fun x hx y hy => ?_
  rw [List.getLast?_concat, Option.mem_some_iff] at hx
  rw [List.head?_cons, Option.mem_some_iff] at hy
  subst hx hy
  exact hab

/-- The last instant may as well be later. -/
theorem isChain_later (h : (ts ++ [a]).IsChain (Instant.Apart d)) (hb : b.isLeap = false)
    (hab : a.value ≤ b.value) : (ts ++ [b]).IsChain (Instant.Apart d) := by
  rw [List.isChain_append] at h ⊢
  refine ⟨h.1, .singleton b, fun x hx y hy => ?_⟩
  rw [List.head?_cons, Option.mem_some_iff] at hy
  subst hy
  have apart := h.2.2 x hx a rfl
  have := apart.distance
  exact ⟨apart.earlier, hb, by omega⟩

theorem apart_of_isChain (h : ts.IsChain (Instant.Apart d)) {i : Nat} (hi : ts[i]? = some a) :
    ∀ k b, ts[i + (k + 1)]? = some b →
      a.isLeap = false ∧ b.isLeap = false ∧ a.value + ((k + 1) * d.ns : Nat) ≤ b.value := by
  have next {n : Nat} {x y : Instant} (hx : ts[n]? = some x) (hy : ts[n + 1]? = some y) :
      x.Apart d y := by
    obtain ⟨hn, rfl⟩ := List.getElem?_eq_some_iff.1 hx
    obtain ⟨hn', rfl⟩ := List.getElem?_eq_some_iff.1 hy
    exact List.isChain_iff_getElem.1 h n hn'
  intro k
  induction k with
  | zero =>
    intro b hb
    have apart := next hi hb
    have := apart.distance
    exact ⟨apart.earlier, apart.later, by omega⟩
  | succ k ih =>
    intro b hb
    obtain ⟨c, hc⟩ : ∃ c, ts[i + (k + 1)]? = some c := by
      obtain ⟨hlen, -⟩ := List.getElem?_eq_some_iff.1 hb
      exact ⟨_, List.getElem?_eq_getElem (by omega)⟩
    obtain ⟨ha, -, hac⟩ := ih c hc
    have apart := next hc hb
    have := apart.distance
    refine ⟨ha, apart.later, ?_⟩
    rw [Nat.succ_mul]
    omega

theorem pairwise_of_isChain (h : ts.IsChain (Instant.Apart d)) :
    ts.Pairwise fun a b : Instant => a.value + d.ns ≤ b.value := by
  rw [List.pairwise_iff_getElem]
  intro i j hi hj hij
  obtain ⟨k, rfl⟩ : ∃ k, j = i + (k + 1) := ⟨j - i - 1, by omega⟩
  obtain ⟨-, -, distance⟩ := apart_of_isChain h (List.getElem?_eq_getElem hi) k _
    (List.getElem?_eq_getElem hj)
  rw [Nat.succ_mul] at distance
  omega

/-- How many instants a window has room for. The first one in it may lie at its start; from then on
each takes one interval of what is left. -/
theorem countP_window (hd : 0 < d.ns)
    (h : ts.Pairwise fun a b : Instant => a.value + d.ns ≤ b.value) (first : Int) (length : Nat) :
    ts.countP (fun t => first ≤ t.value ∧ t.value ≤ first + length) ≤ length / d.ns + 1 := by
  induction ts generalizing first length with
  | nil => exact Nat.zero_le _
  | cons t ts ih =>
    obtain ⟨later, rest⟩ := List.pairwise_cons.1 h
    by_cases hin : first ≤ t.value ∧ t.value ≤ first + length
    · rw [List.countP_cons_of_pos (by simpa using hin)]
      by_cases hroom : t.value + d.ns ≤ first + length
      · -- what is left of the window begins one interval after its first instant
        obtain ⟨left, hleft⟩ : ∃ left : Nat, t.value + d.ns + left = first + length :=
          ⟨(first + length - (t.value + d.ns)).toNat, by omega⟩
        have narrow := ih rest (t.value + d.ns) left
        have same : ts.countP (fun u => first ≤ u.value ∧ u.value ≤ first + length) =
            ts.countP (fun u => t.value + d.ns ≤ u.value ∧ u.value ≤ t.value + d.ns + left) := by
          refine List.countP_congr fun u hu => ?_
          have := later u hu
          simp only [decide_eq_true_eq]
          omega
        have fits : left / d.ns + 1 ≤ length / d.ns := by
          rw [← Nat.add_div_right left hd]
          exact Nat.div_le_div_right (by omega)
        omega
      · have none : ts.countP (fun u => first ≤ u.value ∧ u.value ≤ first + length) = 0 := by
          refine List.countP_eq_zero.2 fun u hu => ?_
          have := later u hu
          simp only [decide_eq_true_eq]
          omega
        rw [none]
        exact Nat.le_add_left _ _
    · rw [List.countP_cons_of_neg (by simpa using hin)]
      exact ih rest first length

end Spaced

namespace RateLimiter

variable {l l' : RateLimiter} {interval wait : Duration} {now : Instant}

/-! ## One slot -/

/-- Either an instant is set that is yet to come, or the slot is at once. -/
theorem slotAt_cases (l : RateLimiter) (now : Instant) :
    (∃ free, l.nextSlot = some free ∧ now < free ∧ l.slotAt now = free) ∨
    (l.slotAt now = now ∧ ∀ free, l.nextSlot = some free → free ≤ now) := by
  unfold slotAt
  cases l.nextSlot with
  | none => exact .inr ⟨rfl, fun free hf => by cases hf⟩
  | some free =>
    dsimp only
    split
    · exact .inl ⟨free, rfl, ‹_›, rfl⟩
    · refine .inr ⟨rfl, fun other ho => ?_⟩
      rw [← Option.some.inj ho]
      exact Instant.not_lt.1 ‹_›

theorem reserve?_eq (l : RateLimiter) (now : Instant) :
    l.reserve? now = ((l.slotAt now).add? l.interval).map fun next =>
      ((l.slotAt now).remaining now, ⟨l.interval, some next⟩) := rfl

theorem reserve?_eq_some (h : l.reserve? now = some (wait, l')) :
    ∃ next, (l.slotAt now).add? l.interval = some next ∧ wait = (l.slotAt now).remaining now ∧
      l' = ⟨l.interval, some next⟩ := by
  rw [reserve?_eq] at h
  obtain ⟨next, hnext, heq⟩ := Option.map_eq_some_iff.1 h
  cases heq
  exact ⟨next, hnext, rfl, rfl⟩

/-- A slot, asked for at an instant by somebody who waits for it. -/
structure Grant where
  now : Instant
  wait : Duration
  slot : Instant
  civil : now.isLeap = false
  reached : now.add? wait = some slot

/-- The slot that comes next: at once, unless an instant is set that is yet to come. -/
def Grants (l : RateLimiter) (g : Grant) : Prop :=
  match l.nextSlot with
  | none => g.slot = g.now ∧ g.wait = .zero
  | some free => g.slot = g.now.latest free ∧ g.wait = free.remaining g.now

/-- One slot after another: one interval later, or at once if that is past. -/
def Grant.Next (interval : Duration) (g g' : Grant) : Prop :=
  ∃ free, g.slot.add? interval = some free ∧
    g'.slot = g'.now.latest free ∧ g'.wait = free.remaining g'.now

theorem Grant.slot_civil (g : Grant) : g.slot.isLeap = false :=
  (Instant.value_of_add? g.civil g.reached).2

theorem Grant.Next.apart {g g' : Grant} (h : g.Next interval g') :
    g.slot.Apart interval g'.slot := by
  obtain ⟨free, hfree, hslot, -⟩ := h
  obtain ⟨hvalue, civil⟩ := Instant.value_of_add? g.slot_civil hfree
  have later : free ≤ g'.slot := by
    rw [hslot]
    exact Instant.le_latest g'.now free
  refine ⟨g.slot_civil, g'.slot_civil, ?_⟩
  rw [← hvalue]
  exact (Instant.le_iff_value civil g'.slot_civil).1 later

/-- A reservation grants the slot that comes next, and one interval later is the one after. -/
theorem exists_grant (hfree : ∀ free, l.nextSlot = some free → free.isLeap = false)
    (hnow : now.isLeap = false) (h : l.reserve? now = some (wait, l')) :
    ∃ g : Grant, g.now = now ∧ g.wait = wait ∧ l.Grants g ∧
      ∃ next, g.slot.add? l.interval = some next ∧ l' = ⟨l.interval, some next⟩ := by
  obtain ⟨next, hnext, rfl, rfl⟩ := reserve?_eq_some h
  unfold Grants
  obtain ⟨free, hset, hlt, slot⟩ | ⟨slot, past⟩ := l.slotAt_cases now
  · have later := Instant.le_of_lt hlt
    rw [slot] at hnext ⊢
    rw [hset]
    exact ⟨⟨now, free.remaining now, free, hnow,
      Instant.add?_remaining (hfree free hset) hnow later⟩, rfl, rfl,
      ⟨(if_pos later).symm, rfl⟩, next, hnext, rfl⟩
  · have atOnce : now.remaining now = .zero :=
      (Instant.remaining_eq_zero hnow hnow).2 (Instant.le_refl now)
    rw [slot] at hnext ⊢
    refine ⟨⟨now, now.remaining now, now, hnow,
      Instant.add?_remaining hnow hnow (Instant.le_refl now)⟩, rfl, rfl, ?_, next, hnext, rfl⟩
    cases hset : l.nextSlot with
    | none => exact ⟨rfl, atOnce⟩
    | some free =>
      have none := (Instant.remaining_eq_zero (hfree free hset) hnow).2 (past free hset)
      exact ⟨(Instant.latest_of_le (past free hset)).symm, atOnce.trans none.symm⟩

/-! ## One slot after another -/

/-- The times to wait of those who ask for a slot at several instants, one after another, unless a
slot would be past the last instant. -/
def reserveAll? (l : RateLimiter) : List Instant → Option (List Duration)
  | [] => some []
  | now :: nows =>
    (l.reserve? now).bind fun reserved =>
      (reserved.2.reserveAll? nows).map fun waits => reserved.1 :: waits

theorem exists_grants {nows : List Instant} {waits : List Duration}
    (hfree : ∀ free, l.nextSlot = some free → free.isLeap = false)
    (hnows : ∀ now ∈ nows, now.isLeap = false) (h : l.reserveAll? nows = some waits) :
    ∃ grants : List Grant, grants.map (·.now) = nows ∧ grants.map (·.wait) = waits ∧
      (∀ g ∈ grants.head?, l.Grants g) ∧ grants.IsChain (Grant.Next l.interval) := by
  induction nows generalizing l waits with
  | nil =>
    cases h
    exact ⟨[], rfl, rfl, by simp, .nil⟩
  | cons now nows ih =>
    obtain ⟨⟨wait, l'⟩, reserved, hrest⟩ := Option.bind_eq_some_iff.1 h
    obtain ⟨waits, hwaits, rfl⟩ := Option.map_eq_some_iff.1 hrest
    obtain ⟨hnow, hrestNows⟩ := List.forall_mem_cons.1 hnows
    obtain ⟨g, rfl, rfl, first, next, hnext, rfl⟩ := exists_grant hfree hnow reserved
    have civil : ∀ free, some next = some free → free.isLeap = false := by
      intro free hf
      rw [← Option.some.inj hf]
      exact (Instant.value_of_add? g.slot_civil hnext).2
    obtain ⟨grants, rfl, rfl, second, chain⟩ := ih civil hrestNows hwaits
    refine ⟨g :: grants, rfl, rfl, ?_, ?_⟩
    · rw [List.head?_cons]
      rintro _ ⟨⟩
      exact first
    · rw [List.isChain_cons]
      exact ⟨fun g' hg' => ⟨next, hnext, second g' hg'⟩, chain⟩

/-- What a limiter that nobody has used yet grants to those who ask at any instants. The first slot
is at once, each other one is the later of the instant it was asked for and one interval after the
slot before, and nobody waits for longer than until then. -/
theorem reserveAll?_granted {nows : List Instant} {waits : List Duration}
    (h : reserveAll? { interval } nows = some waits) (hnows : ∀ now ∈ nows, now.isLeap = false) :
    ∃ grants : List Grant, grants.map (·.now) = nows ∧ grants.map (·.wait) = waits ∧
      (∀ g ∈ grants.head?, g.slot = g.now ∧ g.wait = .zero) ∧
      grants.IsChain (Grant.Next interval) ∧
      ∀ i j g g', grants[i]? = some g → grants[j]? = some g' → i < j →
        (((j - i) * interval.ns : Nat) : Int) ≤ g'.slot.minus g.slot := by
  have unused : ∀ free, (none : Option Instant) = some free → free.isLeap = false := by
    intro free hf
    cases hf
  obtain ⟨grants, rfl, rfl, first, chain⟩ := exists_grants unused hnows h
  refine ⟨grants, rfl, rfl, first, chain, fun i j g g' hi hj hij => ?_⟩
  have spaced : (grants.map (·.slot)).IsChain (Instant.Apart interval) :=
    (List.isChain_map _).2 (chain.imp fun _ _ next => next.apart)
  obtain ⟨k, rfl⟩ : ∃ k, j = i + (k + 1) := ⟨j - i - 1, by omega⟩
  obtain ⟨civil, civil', distance⟩ := apart_of_isChain spaced (a := g.slot) (i := i)
    (by rw [List.getElem?_map, hi]; rfl) k g'.slot (by rw [List.getElem?_map, hj]; rfl)
  rw [Instant.minus_eq civil' civil, Nat.add_sub_cancel_left]
  omega

/-- Instants at which slots are asked for by a clock that goes back, leaps ahead and stands still. -/
def unsteady : List Instant := [.atSecond 5, .atSecond 2, .atSecond 20, .atSecond 20]

theorem unsteady_granted :
    reserveAll? { interval := .ofSecs 2 } unsteady =
      some [.zero, .ofSecs 5, .zero, .ofSecs 2] ∧
    (∀ now ∈ unsteady, now.isLeap = false) ∧
    ∃ grants : List Grant, grants.map (·.now) = unsteady ∧
      grants.map (·.wait) = [.zero, .ofSecs 5, .zero, .ofSecs 2] ∧
      grants.IsChain (Grant.Next (.ofSecs 2)) := by
  have granted : reserveAll? { interval := .ofSecs 2 } unsteady =
      some [.zero, .ofSecs 5, .zero, .ofSecs 2] := by decide +kernel
  have civil : ∀ now ∈ unsteady, now.isLeap = false := by decide
  obtain ⟨grants, hnows, hwaits, -, chain, -⟩ := reserveAll?_granted granted civil
  exact ⟨granted, civil, grants, hnows, hwaits, chain⟩

end RateLimiter
end SignedHttp
