import SignedHttp.Proofs.Executor.Turns
import SignedHttp.Proofs.RateLimiter.Slots

/-!
# SignedHttp.Proofs.Executor.Spacing

The ceiling on the rate (`runAll_spaced`). Whatever executors that share a limiter do as they take
turns, with slots taken that nothing is sent in, the requests that are sent are one interval apart,
so a window of time has room for no more of them than there are intervals in it, and one.

* `Paced`: the invariant between attempts. The requests so far and the next free slot are one
  interval apart, each from the next.
* `Due`: what holds when a slot has come. Now the clock itself has the place of the next slot, so
  that a request may leave, and the limiter is already at the slot after it.

All but two things keep `Paced`: a reservation leads from it to `Due` (`leads_acquire`), and a
departure leads back (`Due.departed`).
-/

namespace SignedHttp

namespace Event

def sentAt? : Event → Option Instant
  | .sent _ _ t => some t
  | .logged _ | .asked _ | .consulted _ _ | .cached _ | .slept _ _ _ | .built _ | .signed _
  | .returned _ _ | .paused _ _ | .cleared _ => none

def sendTimes (es : List Event) : List Instant := es.filterMap sentAt?

theorem sendTimes_concat {e : Event} (es : List Event) (h : e.sentAt? = none) :
    sendTimes (es ++ [e]) = sendTimes es := by
  simp [sendTimes, h]

theorem sendTimes_sent (es : List Event) (key : String) (m : Message) (t : Instant) :
    sendTimes (es ++ [.sent key m t]) = sendTimes es ++ [t] := by
  simp [sendTimes, sentAt?]

end Event

namespace RateLimiter

open Run

variable {d : Duration} {start env : Environment} {ts : List Instant}

/-! ## The slots of the limiter -/

/-- The requests that were sent at `ts` and the first instant that is still free are one interval
apart. -/
inductive Scheduled (d : Duration) : List Instant → Option Instant → Prop where
  | idle : Scheduled d [] none
  | next {ts : List Instant} {t : Instant} :
      t.isLeap = false → (ts ++ [t]).IsChain (Instant.Apart d) → Scheduled d ts (some t)

/-- Whoever asks for a slot gets one that is not in the past and keeps the distance. -/
theorem Scheduled.slotAt {l : RateLimiter} {now : Instant} (h : Scheduled d ts l.nextSlot)
    (hnow : now.isLeap = false) :
    (l.slotAt now).isLeap = false ∧ now ≤ l.slotAt now ∧
      (ts ++ [l.slotAt now]).IsChain (Instant.Apart d) := by
  obtain ⟨free, hset, hlt, slot⟩ | ⟨slot, past⟩ := l.slotAt_cases now
  · rw [hset] at h
    rw [slot]
    cases h with
    | next ht chain => exact ⟨ht, Instant.le_of_lt hlt, chain⟩
  · rw [slot]
    refine ⟨hnow, Instant.le_refl now, ?_⟩
    cases hset : l.nextSlot with
    | none =>
      rw [hset] at h
      cases h with
      | idle => exact .singleton now
    | some t =>
      rw [hset] at h
      cases h with
      | next ht chain =>
        exact isChain_later chain hnow ((Instant.le_iff_value ht hnow).1 (past t hset))

/-! ## The invariant -/

structure Paced (d : Duration) (start env : Environment) : Prop where
  civil : env.clock.now.isLeap = false
  limited : ∃ nextSlot, env.limiter = some ⟨d, nextSlot⟩ ∧
    Since start (fun es => Scheduled d (Event.sendTimes es) nextSlot) env

/-- A slot has come: the requests so far and the present are one interval apart, and so are the
present and the next slot. -/
structure Due (d : Duration) (start env : Environment) : Prop where
  civil : env.clock.now.isLeap = false
  limited : ∃ next, env.limiter = some ⟨d, some next⟩ ∧ env.clock.now.Apart d next
  spaced : Since start
    (fun es => (Event.sendTimes es ++ [env.clock.now]).IsChain (Instant.Apart d)) env

theorem Paced.noted {e : Event} (he : e.sentAt? = none) (h : Paced d start env) :
    Paced d start (env.noted e) where
  civil := h.civil
  limited := by
    obtain ⟨nextSlot, hl, since⟩ := h.limited
    exact ⟨nextSlot, hl, since.noted fun es hes => by rwa [Event.sendTimes_concat es he]⟩

theorem Paced.moved {time : Duration} {clock : Clock} (h : Paced d start env)
    (hc : env.clock.now.add? time = some clock.now) : Paced d start { env with clock } where
  civil := (Instant.value_of_add? h.civil hc).2
  limited := h.limited

theorem keptAside_paced : Executor.KeptAside (Paced d start) where
  note {env e} aside := .noted (by cases e <;> first | rfl | cases aside)
  clock hc h := h.moved hc
  throttles _ h := ⟨h.civil, h.limited⟩

theorem keptBySigning_paced : KeptBySigning (Paced d start) where
  note {env e} _ routine := .noted (by cases e <;> first | rfl | cases routine)
  sleep := keptAside_paced.slept
  cache _ h := ⟨h.civil, h.limited⟩
  supplies _ h := ⟨h.civil, h.limited⟩

theorem Due.logged (h : Due d start env) (line : Log.Line) :
    Due d start (env.noted (.logged line)) where
  civil := h.civil
  limited := h.limited
  spaced := h.spaced.noted fun es hes => by
    rw [Event.sendTimes_concat es rfl]
    exact hes

theorem Due.departed (h : Due d start env) (departure : Executor.Departure)
    (left : List Exchange) : Paced d start (Executor.departed departure left env) where
  civil := h.civil
  limited := by
    obtain ⟨next, hl, apart⟩ := h.limited
    have gone : Since start (fun es => Scheduled d (Event.sendTimes es) (some next))
        (env.noted (.sent departure.key departure.message env.clock.now)) :=
      h.spaced.noted fun es hes => by
        rw [Event.sendTimes_sent]
        exact .next apart.later (isChain_concat hes apart)
    exact ⟨some next, hl, gone⟩

theorem Due.paced (h : Due d start env) : Paced d start env where
  civil := h.civil
  limited := by
    obtain ⟨next, hl, apart⟩ := h.limited
    obtain ⟨es, htrace, hes⟩ := h.spaced
    refine ⟨some next, hl, es, htrace, .next apart.later (isChain_later hes apart.later ?_)⟩
    have := apart.distance
    omega

/-- What a reservation at an instant makes of the schedule: the slot keeps the distance, and the
limiter is one interval further. -/
theorem Paced.slot {l l' : RateLimiter} {wait : Duration} (h : Paced d start env)
    (hl : env.limiter = some l) (hr : l.reserve? env.clock.now = some (wait, l')) :
    ∃ slot next, slot.isLeap = false ∧ env.clock.now ≤ slot ∧
      wait = slot.remaining env.clock.now ∧ l' = ⟨d, some next⟩ ∧ slot.Apart d next ∧
      Since start (fun es => (Event.sendTimes es ++ [slot]).IsChain (Instant.Apart d)) env := by
  obtain ⟨nextSlot, hl', since⟩ := h.limited
  rw [hl, Option.some.injEq] at hl'
  subst hl'
  obtain ⟨next, hnext, hwait, rfl⟩ := reserve?_eq_some hr
  obtain ⟨es, htrace, scheduled⟩ := since
  obtain ⟨hslot, hnow, chain⟩ := Scheduled.slotAt (l := ⟨d, nextSlot⟩) scheduled h.civil
  obtain ⟨hvalue, civil⟩ := Instant.value_of_add? hslot hnext
  have apart : Instant.Apart d (RateLimiter.slotAt ⟨d, nextSlot⟩ env.clock.now) next :=
    ⟨hslot, civil, Int.le_of_eq hvalue.symm⟩
  exact ⟨_, next, hslot, hnow, hwait, rfl, apart, es, htrace, chain⟩

theorem leads_acquire : Leads (Paced d start) acquire (fun _ => Due d start) (Paced d start) := by
  intro env h
  have acquired := acquired_acquire env
  generalize acquire env = result at acquired ⊢
  cases acquired with
  | unlimited none =>
    obtain ⟨nextSlot, hl, -⟩ := h.limited
    rw [none] at hl
    cases hl
  | noSlot _ _ => exact h
  | atOnce hl hr =>
    obtain ⟨slot, next, hslot, hnow, hwait, rfl, apart, since⟩ := h.slot hl hr
    -- the slot is neither in the past nor in the future
    have hle := (Instant.remaining_eq_zero hslot h.civil).1 hwait.symm
    have hle' := (Instant.le_iff_value hslot h.civil).1 hle
    have hge := (Instant.le_iff_value h.civil hslot).1 hnow
    have distance := apart.distance
    obtain ⟨es, htrace, chain⟩ := since
    have apartNow : env.clock.now.Apart d next := ⟨h.civil, apart.later, by omega⟩
    exact ⟨h.civil, ⟨next, rfl, apartNow⟩, es, htrace, isChain_later chain h.civil hle'⟩
  | @delayed l l' wait line clock hl hr _ hc =>
    obtain ⟨slot, next, hslot, hnow, rfl, rfl, apart, es, htrace, chain⟩ := h.slot hl hr
    have moved := Clock.now_of_sleep? hc
    rw [Instant.add?_remaining hslot h.civil hnow, Option.some.injEq] at moved
    subst moved
    have since : Since start (fun es => (Event.sendTimes es ++ [clock.now]).IsChain
        (Instant.Apart d)) { env with limiter := some ⟨d, some next⟩ } := ⟨es, htrace, chain⟩
    have quiet {e : Event} (he : e.sentAt? = none) (es : List Event)
        (chain : (Event.sendTimes es ++ [clock.now]).IsChain (Instant.Apart d)) :
        (Event.sendTimes (es ++ [e]) ++ [clock.now]).IsChain (Instant.Apart d) := by
      rwa [Event.sendTimes_concat es he]
    exact ⟨hslot, ⟨next, rfl, apart⟩, (since.noted (quiet rfl)).woken (quiet rfl)⟩
  | @beyond l l' wait line hl hr _ =>
    -- the slot passes unused, which only makes the distance to the next one larger
    obtain ⟨slot, next, -, -, -, rfl, apart, es, htrace, chain⟩ := h.slot hl hr
    have further : slot.value ≤ next.value := by
      have := apart.distance
      omega
    have reserved : Paced d start { env with limiter := some ⟨d, some next⟩ } :=
      ⟨h.civil, some next, rfl, es, htrace,
        .next apart.later (isChain_later chain apart.later further)⟩
    exact reserved.noted rfl

/-! ## Executors with one limiter -/

theorem Paced.enter {c : Common} (shared : c.limiter = true) (seat : Seat)
    (h : Paced d start env) : Paced d start (seat.enter c env) where
  civil := h.civil
  limited := by
    rw [seat.enter_limiter env shared]
    exact h.limited

theorem Scheduled.isChain {nextSlot : Option Instant} (h : Scheduled d ts nextSlot) :
    ts.IsChain (Instant.Apart d) := by
  cases h with
  | idle => exact .nil
  | next _ chain => exact chain.left_of_append

end RateLimiter

namespace Deed

open Run RateLimiter

variable {c : Common} {s : Signer} {d : Duration} {start : Environment}

theorem keeps_runAll_paced (shared : c.limiter = true) (ds : List Deed) :
    Keeps (Paced d start) (runAll c s ds) :=
  keeps_runAll_of keptAside_paced keptBySigning_paced leads_acquire
    (fun _ line h => h.logged line) (fun departure left _ h => h.departed departure left)
    (fun _ h => h.paced) (fun seat _ h => h.enter shared seat) ds

theorem runAll_spaced (shared : c.limiter = true) (s : Signer) (ds : List Deed)
    (env : Environment) {l : RateLimiter} (hlimiter : env.limiter = some l)
    (hnow : env.clock.now.isLeap = false) (hnext : ∀ t, l.nextSlot = some t → t.isLeap = false) :
    (∀ i j tᵢ tⱼ, (Event.sendTimes ((runAll c s ds).events env))[i]? = some tᵢ →
      (Event.sendTimes ((runAll c s ds).events env))[j]? = some tⱼ → i < j →
      (((j - i) * l.interval.ns : Nat) : Int) ≤ tⱼ.minus tᵢ) ∧
    (0 < l.interval.ns → ∀ (first : Int) (length : Nat),
      (Event.sendTimes ((runAll c s ds).events env)).countP
        (fun t => first ≤ t.value ∧ t.value ≤ first + length) ≤ length / l.interval.ns + 1) := by
  have scheduled : Scheduled l.interval [] l.nextSlot := by
    obtain ⟨interval, nextSlot⟩ := l
    cases nextSlot with
    | none => exact .idle
    | some t => exact .next (hnext t rfl) (.singleton t)
  have paced : Paced l.interval env ((runAll c s ds).leaves env) :=
    (keeps_runAll_paced shared ds).leaves ⟨hnow, l.nextSlot, hlimiter, [], by simp, scheduled⟩
  obtain ⟨nextSlot, -, es, htrace, hes⟩ := paced.limited
  have chain := hes.isChain
  rw [events_eq htrace]
  refine ⟨fun i j tᵢ tⱼ hi hj hij => ?_, fun hd => countP_window hd (pairwise_of_isChain chain)⟩
  obtain ⟨k, rfl⟩ : ∃ k, j = i + (k + 1) := ⟨j - i - 1, by omega⟩
  obtain ⟨civil, civil', distance⟩ := apart_of_isChain chain hi k tⱼ hj
  rw [Instant.minus_eq civil' civil, Nat.add_sub_cancel_left]
  omega

/-- An execution that is told once to come back, a slot for nothing, a request that cannot be built,
and an execution by somebody else. -/
def interrupted : List Deed :=
  [.execute (fun _ => .ok Executor.bare) (.atSecond 60), .acquire,
    .execute (fun _ => .error { cause := .timeoutOutOfRange }) (.atSecond 60),
    .handOver {
      signer := { scheme := .bearer }
      transport := some [{ reply := .ok ⟨⟨200⟩, {}, []⟩ }] },
    .execute (fun _ => .ok Executor.bare) (.atSecond 60)]

def everyTwoSeconds : Environment where
  clock := { now := .atSecond 0 }
  limiter := some { interval := .ofSecs 2 }
  transport := some
    [{ reply := .ok Executor.inOneSecond }, { reply := .ok ⟨⟨200⟩, {}, []⟩ }]

theorem interrupted_spaced :
    Event.sendTimes
        ((runAll { limiter := true } { scheme := .bearer } interrupted).events everyTwoSeconds) =
      [.atSecond 0, .atSecond 2, .atSecond 6] ∧
    ∀ (first : Int) (length : Nat),
      (Event.sendTimes
        ((runAll { limiter := true } { scheme := .bearer } interrupted).events
          everyTwoSeconds)).countP
        (fun t => first ≤ t.value ∧ t.value ≤ first + length) ≤ length / 2000000000 + 1 :=
  ⟨by decide +kernel,
    (runAll_spaced rfl _ interrupted everyTwoSeconds rfl rfl (by simp)).2 (by decide)⟩

end Deed
end SignedHttp
