import SignedHttp.Proofs.Executor.Spacing
import SignedHttp.Proofs.Time.Reachable

/-!
# SignedHttp.Proofs.RateLimiter.InRange

When somebody who asks a limiter for a slot gets out of range (`acquire_returns`). Waiting for the
slot never leads there, whichever instants lie in leap seconds. But the limiter works out the slot
after it at once, and that may be past the last instant, so an interval that is accepted can be too
long for the first slot already (`tooFarApart_overflows`).

`Ahead` is the invariant: a slot that is yet to come lies in no leap second, apart from the one that
it is now.
-/

namespace SignedHttp
namespace RateLimiter

open Run

variable {d : Duration} {env : Environment}

/-- The limiter grants a slot after each interval, and the next one bounds what is waited for until
it has come. -/
def Ahead (d : Duration) (env : Environment) : Prop :=
  ∃ nextSlot, env.limiter = some ⟨d, nextSlot⟩ ∧
    ∀ t, nextSlot = some t → env.clock.now < t → t.Bounds env.clock.now

theorem Ahead.moved {time : Duration} {clock : Clock} (h : Ahead d env)
    (hc : env.clock.now.add? time = some clock.now) : Ahead d { env with clock } := by
  obtain ⟨nextSlot, hl, ahead⟩ := h
  refine ⟨nextSlot, hl, fun t ht hlt => ?_⟩
  have later := Instant.le_of_add? hc
  have early : env.clock.now < t :=
    Instant.not_le.1 fun le => Instant.not_lt.2 (Instant.le_trans le later) hlt
  exact (ahead t ht early).later later hlt

theorem keptAside_ahead : Executor.KeptAside (Ahead d) where
  note _ h := h
  clock hc h := h.moved hc
  throttles _ h := h

theorem keptBySigning_ahead : KeptBySigning (Ahead d) where
  note _ _ h := h
  sleep := keptAside_ahead.slept
  cache _ h := h
  supplies _ h := h

theorem Ahead.slot {l : RateLimiter} (h : Ahead d env) (hl : env.limiter = some l) :
    l.interval = d ∧ (l.slotAt env.clock.now).Bounds env.clock.now := by
  obtain ⟨nextSlot, hl', ahead⟩ := h
  rw [hl, Option.some.injEq] at hl'
  subst hl'
  refine ⟨rfl, ?_⟩
  obtain ⟨free, hset, hlt, slot⟩ | ⟨slot, -⟩ := slotAt_cases ⟨d, nextSlot⟩ env.clock.now
  · rw [slot]
    exact ahead free hset hlt
  · rw [slot]
    exact Instant.bounds_self _

/-- The slot after one that bounds what is waited for does so as well. -/
theorem Ahead.reserved {l l' : RateLimiter} {wait : Duration} (h : Ahead d env)
    (hl : env.limiter = some l) (hr : l.reserve? env.clock.now = some (wait, l')) :
    Ahead d { env with limiter := some l' } := by
  obtain ⟨rfl, bounds⟩ := h.slot hl
  obtain ⟨next, hnext, -, rfl⟩ := reserve?_eq_some hr
  refine ⟨some next, rfl, fun t ht _ => ?_⟩
  rw [← Option.some.inj ht]
  exact (Instant.bounds_of_add? hnext).trans bounds

theorem keeps_acquire : Keeps (Ahead d) acquire := by
  intro env h
  have acquired := acquired_acquire env
  generalize acquire env = result at acquired ⊢
  cases acquired with
  | unlimited _ => exact h
  | noSlot _ _ => exact h
  | atOnce hl hr => exact h.reserved hl hr
  | delayed hl hr _ hc => exact keptAside_ahead.slept hc (h.reserved hl hr)
  | beyond hl hr _ => exact h.reserved hl hr

theorem Ahead.enter {c : Common} (shared : c.limiter = true) (seat : Seat) (h : Ahead d env) :
    Ahead d (seat.enter c env) := by
  obtain ⟨nextSlot, hl, ahead⟩ := h
  exact ⟨nextSlot, (seat.enter_limiter env shared).trans hl, ahead⟩

theorem keeps_runAll_ahead {c : Common} (shared : c.limiter = true) (s : Signer)
    (ds : List Deed) : Keeps (Ahead d) (Deed.runAll c s ds) :=
  Deed.keeps_runAll_of keptAside_ahead keptBySigning_ahead keeps_acquire (fun _ _ h => h)
    (fun _ _ _ h => h) (fun _ h => h) (fun seat _ h => h.enter shared seat) ds

/-- Whoever asks for a slot gets it, unless the slot after it is past the last instant. -/
theorem Ahead.acquire {l : RateLimiter} (h : Ahead d env) (hl : env.limiter = some l) :
    match (l.slotAt env.clock.now).add? l.interval with
    | some next =>
      ∃ env', Run.acquire env = .ok () env' ∧ env'.limiter = some ⟨l.interval, some next⟩
    | none => Run.acquire env = .error .overflow env := by
  obtain ⟨-, bounds⟩ := h.slot hl
  have acquired := acquired_acquire env
  generalize Run.acquire env = result at acquired ⊢
  cases acquired with
  | unlimited hl' =>
    rw [hl] at hl'
    cases hl'
  | noSlot hl' hr =>
    obtain rfl := Option.some.inj (hl.symm.trans hl')
    rw [reserve?_eq, Option.map_eq_none_iff] at hr
    rw [hr]
  | atOnce hl' hr =>
    obtain rfl := Option.some.inj (hl.symm.trans hl')
    obtain ⟨next, hnext, -, rfl⟩ := reserve?_eq_some hr
    rw [hnext]
    exact ⟨_, rfl, rfl⟩
  | delayed hl' hr _ _ =>
    obtain rfl := Option.some.inj (hl.symm.trans hl')
    obtain ⟨next, hnext, -, rfl⟩ := reserve?_eq_some hr
    rw [hnext]
    exact ⟨_, rfl, rfl⟩
  | beyond hl' hr hc =>
    -- the slot itself bounds what is waited for, so it can be waited for
    obtain rfl := Option.some.inj (hl.symm.trans hl')
    obtain ⟨next, -, rfl, -⟩ := reserve?_eq_some hr
    have present : ¬ l.slotAt env.clock.now < l.slotAt env.clock.now :=
      Instant.not_lt.2 (Instant.le_refl _)
    obtain ⟨now, hnow, -⟩ := Instant.exists_add?_remaining bounds present
    rw [Clock.sleep?, hnow] at hc
    cases hc

/-- Whatever has been done with a limiter of an accepted interval, by however many: the next one who
asks gets a slot exactly if one interval after that slot is still an instant. -/
theorem acquire_returns {interval : Duration} {l : RateLimiter} {env env' : Environment}
    {c : Common} (shared : c.limiter = true) (s : Signer) (ds : List Deed)
    (accepted : ofInterval interval = .ok l) (limited : env.limiter = some l)
    (used : Deed.runAll c s ds env = .ok () env') :
    ∃ l', env'.limiter = some l' ∧ l'.interval = interval ∧
      match (l'.slotAt env'.clock.now).add? interval with
      | some next =>
        ∃ env'', acquire env' = .ok () env'' ∧ env''.limiter = some ⟨interval, some next⟩
      | none => acquire env' = .error .overflow env' := by
  obtain rfl : l = { interval } := by
    unfold ofInterval at accepted
    split at accepted
    · cases accepted
      rfl
    · cases accepted
  have fresh : Ahead interval env := ⟨none, limited, fun t ht => by cases ht⟩
  have ahead := (keeps_runAll_ahead shared s ds).ok fresh used
  have ⟨nextSlot, hl, _⟩ := ahead
  exact ⟨_, hl, rfl, ahead.acquire hl⟩

/-- A limiter that nobody has used yet, in 1970. -/
def fresh (interval : Duration) : Environment where
  clock := { now := .atSecond 0 }
  limiter := some { interval }

/-- Not quite half of the time that there is after 1970. -/
def halfOfTime : Duration := .ofSecs 4105133438399

def halfWay : Instant := ⟨4105133438399, 0, by omega, .inl (by decide)⟩

/-- The limiter after its first slot. -/
def usedOnce : Environment := { fresh halfOfTime with limiter := some ⟨halfOfTime, some halfWay⟩ }

/-- There is a second slot, since the one after it is in the last second but one. -/
theorem halfOfTime_returns :
    ofInterval halfOfTime = .ok { interval := halfOfTime } ∧
    Deed.runAll { limiter := true } {} [.acquire] (fresh halfOfTime) = .ok () usedOnce ∧
    slotAt ⟨halfOfTime, some halfWay⟩ usedOnce.clock.now = halfWay ∧
    ∃ env, acquire usedOnce = .ok () env := by
  have accepted : ofInterval halfOfTime = .ok { interval := halfOfTime } := rfl
  have used : Deed.runAll { limiter := true } {} [.acquire] (fresh halfOfTime) = .ok () usedOnce :=
    rfl
  have slot : slotAt ⟨halfOfTime, some halfWay⟩ usedOnce.clock.now = halfWay := by
    decide +kernel
  obtain ⟨l, hl, -, returns⟩ := acquire_returns rfl {} [.acquire] accepted rfl used
  obtain rfl : ⟨halfOfTime, some halfWay⟩ = l := Option.some.inj hl
  obtain ⟨next, hnext⟩ : ∃ next, halfWay.add? halfOfTime = some next := ⟨_, rfl⟩
  rw [slot, hnext] at returns
  obtain ⟨env, acquired, -⟩ := returns
  exact ⟨accepted, used, slot, env, acquired⟩

/-- An interval that is accepted, and the first slot of it, which is there at once. The limiter gets
out of range as it works out the second. -/
theorem tooFarApart_overflows :
    ofInterval (.ofSecs 8210266876800) = .ok { interval := .ofSecs 8210266876800 } ∧
    slotAt { interval := .ofSecs 8210266876800 } (.atSecond 0) = .atSecond 0 ∧
    acquire.outcome (fresh (.ofSecs 8210266876800)) = .error .overflow := by
  refine ⟨rfl, rfl, rfl⟩

end RateLimiter
end SignedHttp
