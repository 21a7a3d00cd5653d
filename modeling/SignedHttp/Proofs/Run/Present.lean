import SignedHttp.Proofs.Signer.Frame
import SignedHttp.Proofs.Time.Order

/-!
# SignedHttp.Proofs.Run.Present

When things happen. Whatever moves the clock of a run leaves an event that shows the new time
(`Event.instant?`), so the instant at which an event happened can be told from the events before it
(`Event.present`). `Run.Passes env es env'` says that `es` happens between two environments and that
the clock shows it; time does not run backwards, and no leap second begins.

`stable_spends` carries this through signing and through waiting for the limiter.
-/

namespace SignedHttp

/-- The time that an event shows. -/
def Event.instant? : Event → Option Instant
  | .slept _ _ t | .sent _ _ t | .returned _ t => some t
  | .logged _ | .asked _ | .consulted _ _ | .cached _ | .built _ | .signed _ | .paused _ _
  | .cleared _ => none

/-- The instant at the end of some events. -/
def Event.present (start : Instant) : List Event → Instant
  | [] => start
  | e :: es => present (e.instant?.getD start) es

namespace Event

variable {start : Instant}

@[simp] theorem present_nil : present start [] = start := rfl

@[simp] theorem present_append (es es' : List Event) :
    present start (es ++ es') = present (present start es) es' := by
  induction es generalizing start with
  | nil => rfl
  | cons e es ih => exact ih

theorem present_singleton (e : Event) : present start [e] = e.instant?.getD start := rfl

@[simp] theorem present_lines (lines : List Log.Line) :
    present start (lines.map .logged) = start := by
  induction lines with
  | nil => rfl
  | cons line lines ih => exact ih

theorem instant?_of_isRoutine {e : Event} (slept : ∀ wait d t, e ≠ .slept wait d t)
    (routine : e.isRoutine = true) : e.instant? = none := by
  cases e <;> first | rfl | exact absurd rfl (slept _ _ _) | cases routine

end Event

namespace Run

variable {env env' env'' : Environment} {es es' : List Event}

/-! ## From one environment to another -/

/-- Between two environments `es` happens, and the clock of the second one shows it. -/
structure Passes (env : Environment) (es : List Event) (env' : Environment) : Prop where
  trace : env'.trace = env.trace ++ es
  now : env'.clock.now = Event.present env.clock.now es
  later : env.clock.now ≤ env'.clock.now
  civil : env.clock.now.isLeap = false → env'.clock.now.isLeap = false

namespace Passes

/-- Events that happen while the clock stands still. -/
theorem still (trace : env'.trace = env.trace ++ es) (clock : env'.clock = env.clock)
    (now : Event.present env.clock.now es = env.clock.now) : Passes env es env' where
  trace := trace
  now := by rw [clock, now]
  later := by
    rw [clock]
    exact Instant.le_refl _
  civil h := by rwa [clock]

theorem refl (env : Environment) : Passes env [] env := still (by simp) rfl rfl

theorem trans (h : Passes env es env') (h' : Passes env' es' env'') :
    Passes env (es ++ es') env'' where
  trace := by rw [h'.trace, h.trace, List.append_assoc]
  now := by rw [h'.now, h.now, Event.present_append]
  later := Instant.le_trans h.later h'.later
  civil hnow := h'.civil (h.civil hnow)

/-- An event that happens when the clock has moved on. -/
theorem moved {d : Duration} {e : Event} (trace : env'.trace = env.trace ++ [e])
    (shown : e.instant? = some env'.clock.now) (h : env.clock.now.add? d = some env'.clock.now) :
    Passes env [e] env' where
  trace := trace
  now := by
    rw [Event.present_singleton, shown]
    rfl
  later := Instant.le_of_add? h
  civil hnow := (Instant.value_of_add? hnow h).2

theorem noted {e : Event} (h : e.instant? = none) : Passes env [e] (env.noted e) :=
  still (env.noted_trace e) rfl (by rw [Event.present_singleton, h]; rfl)

theorem logged (line : Log.Line) : Passes env [.logged line] (env.noted (.logged line)) :=
  noted rfl

theorem woken {wait : Wait} {d : Duration} {clock : Clock} (h : env.clock.sleep? d = some clock) :
    Passes env [.slept wait d clock.now] (env.woken wait d clock) :=
  moved (env.woken_trace wait d clock) rfl (Clock.now_of_sleep? h)

theorem log {lines : List Log.Line} {env env' : Environment}
    (h : Run.log lines env = .ok () env') : Passes env (lines.map .logged) env' := by
  induction lines generalizing env with
  | nil =>
    cases h
    exact refl _
  | cons line lines ih =>
    obtain ⟨⟨⟩, mid, hnote, hrest⟩ := bind_eq_ok h
    cases hnote
    exact (logged line).trans (ih hrest)

end Passes

/-! ## Computations with events of their own -/

/-- Since the start some events have happened of which `K` holds, and the clock shows it. -/
def Spends (start : Environment) (K : List Event → Prop) (env : Environment) : Prop :=
  ∃ es, Passes start es env ∧ K es

theorem Spends.extend {start : Environment} {K : List Event → Prop} {e : Event}
    (h : Spends start K env) (step : Passes env [e] env') (hK : ∀ es, K es → K (es ++ [e])) :
    Spends start K env' := by
  obtain ⟨es, passes, hes⟩ := h
  exact ⟨es ++ [e], passes.trans step, hK es hes⟩

theorem Spends.same {start : Environment} {K : List Event → Prop} (h : Spends start K env)
    (trace : env'.trace = env.trace) (clock : env'.clock = env.clock) : Spends start K env' := by
  obtain ⟨es, passes, hes⟩ := h
  have same : Passes env [] env' := .still (by simp [trace]) clock rfl
  exact ⟨es, by simpa using passes.trans same, hes⟩

theorem stable_spends {start : Environment} {K : List Event → Prop}
    (h : ∀ es e, e.isRoutine = true → K es → K (es ++ [e])) : Stable (Spends start K) where
  note slept routine hs :=
    hs.extend (.noted (Event.instant?_of_isRoutine slept routine)) fun es => h es _ routine
  sleep routine hsleep hs := hs.extend (.woken hsleep) fun es => h es _ routine
  cache _ hs := hs.same rfl rfl
  supplies _ hs := hs.same rfl rfl
  limiter _ hs := hs.same rfl rfl

/-- Nothing but routine has happened. -/
def IsRoutine (es : List Event) : Prop := ∀ e ∈ es, e.isRoutine = true

theorem stable_routine (start : Environment) : Stable (Spends start IsRoutine) :=
  stable_spends fun es e routine h e' he' => by
    rcases List.mem_append.1 he' with he' | he'
    · exact h e' he'
    · rw [List.mem_singleton.1 he']
      exact routine

theorem spends_refl (env : Environment) : Spends env IsRoutine env :=
  ⟨[], .refl env, by simp [IsRoutine]⟩

/-- How long a request that is signed at one instant waits for the limiter, and when it is sent. -/
inductive Delay (signed : Instant) : List Event → Instant → Prop where
  | none : Delay signed [] signed
  | slot {line : Log.Line} {d : Duration} {t : Instant} :
      d ≠ .zero → signed.add? d = some t → Delay signed [.logged line, .slept .slot d t] t

theorem Delay.le {signed t : Instant} (h : Delay signed es t) : signed ≤ t := by
  cases h with
  | none => exact Instant.le_refl _
  | slot _ moved => exact Instant.le_of_add? moved

theorem acquire_eq_ok (h : acquire env = .ok () env') :
    ∃ es, Passes env es env' ∧ Delay env.clock.now es env'.clock.now := by
  have acquired := acquired_acquire env
  rw [h] at acquired
  have reserved (limiter : RateLimiter) : Passes env [] { env with limiter := some limiter } :=
    .still (by simp [Environment.trace]) rfl rfl
  cases acquired with
  | unlimited _ => exact ⟨[], .refl env, .none⟩
  | @atOnce _ limiter' _ _ => exact ⟨[], reserved limiter', .none⟩
  | @delayed _ limiter' _ line _ _ _ hw hc =>
    have logged := (reserved limiter').trans (.logged line)
    exact ⟨_, logged.trans (.woken hc), .slot hw (Clock.now_of_sleep? hc)⟩

end Run
end SignedHttp
