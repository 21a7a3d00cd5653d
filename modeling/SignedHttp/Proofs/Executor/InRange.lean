import SignedHttp.Proofs.Executor.Progress
import SignedHttp.Proofs.Signer.Prompt
import SignedHttp.Proofs.Time.Reachable

/-!
# SignedHttp.Proofs.Executor.InRange

No answer of a server can lead an execution out of range (`execute_inRange`), however far away the
instants are that it names. A pause is waited out only if it ends by the deadline, and the deadline
bounds what is waited for (`Instant.Bounds`), all the time; a delay or a timeout that leads out of
range is turned down before anything is done with it.

`OnTime` is what every part of an attempt keeps, provided that nothing else takes time: there is no
rate limiter, no supply of credentials sleeps and the transport answers at once. Between attempts
there is one number that answers do drive up, that of the attempt. It gets out of range exactly
where attempt 2³² - 1 is throttled (`Counted`), which takes as many exchanges.
-/

namespace SignedHttp

/-- The clock is one that can be reached, there is no rate limiter, and no supply takes its time. -/
structure Environment.Prompt (env : Environment) : Prop where
  clock : env.clock.Reachable
  limiter : env.limiter = none
  supplies : env.supplies.Prompt

theorem Environment.Prompt.congr {env env' : Environment} (h : env.Prompt)
    (clock : env'.clock = env.clock) (limiter : env'.limiter = env.limiter)
    (supplies : env'.supplies = env.supplies) : env'.Prompt := by
  refine ⟨?_, ?_, ?_⟩
  · rw [clock]
    exact h.clock
  · rw [limiter]
    exact h.limiter
  · rw [supplies]
    exact h.supplies

namespace Executor

open Run

/-- What holds throughout a run, none of whose attempts has a number beyond a bound. -/
structure OnTime (start : Environment) (deadline : Instant) (bound : Nat) (env : Environment) :
    Prop where
  prompt : env.Prompt
  deadline : deadline.Bounds env.clock.now
  attempts : Since start (fun es => ∀ n, Event.built n ∈ es → n ≤ bound) env

variable {start env : Environment} {bound : Nat} {s : Signer} {build : Build} {deadline : Instant}

namespace OnTime

theorem noted (h : OnTime start deadline bound env) {e : Event} (he : ∀ n, e = .built n → n ≤ bound) :
    OnTime start deadline bound (env.noted e) := by
  refine ⟨h.prompt.congr rfl rfl rfl, h.deadline, h.attempts.noted fun es known n hmem => ?_⟩
  rcases List.mem_append.1 hmem with hmem | hmem
  · exact known n hmem
  · exact he n (List.mem_singleton.1 hmem).symm

theorem logged (h : OnTime start deadline bound env) (line : Log.Line) :
    OnTime start deadline bound (env.noted (.logged line)) :=
  h.noted nofun

theorem woken (h : OnTime start deadline bound env) {wait : Wait} {d : Duration} {clock : Clock}
    (hc : env.clock.sleep? d = some clock) (hd : deadline.Bounds clock.now) :
    OnTime start deadline bound (env.woken wait d clock) := by
  have moved : OnTime start deadline bound { env with clock } :=
    ⟨⟨h.prompt.clock.sleep hc, h.prompt.limiter, h.prompt.supplies⟩, hd, h.attempts⟩
  exact moved.noted nofun

theorem paused (h : OnTime start deadline bound env) (throttles : Throttles) :
    OnTime start deadline bound { env with throttles } :=
  ⟨h.prompt.congr rfl rfl rfl, h.deadline, h.attempts⟩

end OnTime

/-- A run in which no instant and no length of time gets out of range: the clock that it leaves can
be reached, and what that has slept fits into 64 bits of seconds. Its attempts are not more than
there are exchanges, and one. As long as they can be counted in 32 bits the run does not end because
a number is out of range; if it ever does, the last attempt that has a number was made. -/
structure InRange (x : Run Response) (env : Environment) : Prop where
  ends : (env.transport.getD []).length < UInt32.size - 1 → x.outcome env ≠ .error .overflow
  exhausted : x.outcome env = .error .overflow → Event.built (UInt32.size - 1) ∈ x.events env
  clock : (x.leaves env).clock.Reachable
  slept : (x.leaves env).clock.slept.secs < 2 ^ 64
  attempts : ∀ n, Event.built n ∈ x.events env → n ≤ (env.transport.getD []).length + 1

theorem InRange.congr {x y : Run Response} (h : x env = y env) (hy : InRange y env) :
    InRange x env := by
  have outcome : x.outcome env = y.outcome env := congrArg ending h
  have leaves : x.leaves env = y.leaves env := congrArg final h
  have events : x.events env = y.events env := by rw [Run.events, Run.events, leaves]
  refine ⟨?_, ?_, ?_, ?_, ?_⟩
  · rw [outcome]
    exact hy.ends
  · rw [outcome, events]
    exact hy.exhausted
  · rw [leaves]
    exact hy.clock
  · rw [leaves]
    exact hy.slept
  · rw [events]
    exact hy.attempts

end Executor
end SignedHttp
