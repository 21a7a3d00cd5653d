import SignedHttp.Http.Message
import SignedHttp.Provider
import SignedHttp.RateLimiter
import SignedHttp.Retry.Throttles
import SignedHttp.Time.Instant

/-!
# SignedHttp.Run

Computations that authenticate and send requests. They work on an `Environment`: the clock, the
cached credential, the supplies of credentials, the rate limiter, the pauses that servers have asked
for, and the transport, whose answers are known in advance. What they do is written down in order,
event by event. A computation that ends early leaves the environment as it was at that moment.
-/

namespace SignedHttp

/-- What happens to one request on the transport: some time goes by, then an answer arrives or the
exchange fails. -/
structure Exchange where
  takes : Duration := .zero
  reply : Except Error.Cause Response

/-- What somebody sleeps for. -/
inductive Wait
  /-- The caller asked for it. -/
  | pastime
  /-- A supply of credentials takes its time. -/
  | refresh
  /-- The next slot of the rate limiter is not there yet. -/
  | slot
  /-- A server has asked for a pause. -/
  | pause (pause : Throttle)
deriving DecidableEq, Repr

/-- Something that happens while requests are authenticated and sent. -/
inductive Event
  | logged (line : Log.Line)
  /-- The source of credentials is asked, with the credential to be replaced. -/
  | asked (previous : Option Credential)
  /-- A part of the source that has no parts itself is asked. -/
  | consulted (leaf : Provider) (previous : Option Credential)
  /-- An answer of the source is put into the cache. -/
  | cached (answer : Option Credential)
  | slept (wait : Wait) (time : Duration) (wake : Instant)
  | built (attempt : Nat)
  | signed (credential : Option Credential)
  /-- A request for a resource is handed to the transport. -/
  | sent (key : String) (message : Message) (time : Instant)
  /-- The transport gives the server's answer or fails. -/
  | returned (reply : Except Error.Cause Response) (time : Instant)
  | paused (key : String) (pause : Throttle)
  | cleared (key : String)

/-- What authenticating and sending requests depends on, and what it changes. -/
structure Environment where
  clock : Clock
  cache : Option Credential := none
  supplies : Supplies := []
  limiter : Option RateLimiter := none
  throttles : Throttles := .empty
  /-- The exchanges to come, or nothing if there is no transport. -/
  transport : Option (List Exchange) := none
  /-- What has happened so far, in order. -/
  history : Array Event := #[]

/-- A computation that authenticates and sends requests. -/
abbrev Run := EStateM Stop Environment

namespace Run

def fail {α : Type} (e : Error) : Run α := throw (.failed e)

def lift {α : Type} : Except Error α → Run α
  | .ok a => pure a
  | .error e => fail e

def note (e : Event) : Run Unit := modify fun env => { env with history := env.history.push e }

def log : List Log.Line → Run Unit
  | [] => pure ()
  | line :: rest => do
    note (.logged line)
    log rest

def now : Run Instant := do
  let env ← get
  pure env.clock.now

/-- Lets time go by without anybody sleeping. -/
def advance (d : Duration) : Run Unit := do
  let env ← get
  match env.clock.advance? d with
  | some clock => set { env with clock }
  | none => throw .overflow

def sleep (wait : Wait) (d : Duration) : Run Unit := do
  let env ← get
  match env.clock.sleep? d with
  | some clock =>
    set { env with clock }
    note (.slept wait d clock.now)
  | none => throw .overflow

/-- Waits for the next slot of the rate limiter, if there is one. -/
def acquire : Run Unit := do
  let env ← get
  match env.limiter with
  | none => pure ()
  | some limiter =>
    match limiter.reserve? env.clock.now with
    | none => throw .overflow
    | some (wait, limiter) =>
      set { env with limiter := some limiter }
      if wait ≠ .zero then
        log [Log.debug ("rate limiter delays request for " ++ wait.text)]
        sleep .slot wait

def record (key : String) (pause : Throttle) : Run Unit := do
  modify fun env => { env with throttles := env.throttles.record key pause }
  note (.paused key pause)

def clear (key : String) : Run Unit := do
  modify fun env => { env with throttles := env.throttles.clear key }
  note (.cleared key)

/-- The pause of a resource that is still running at an instant. -/
def pending (key : String) (now : Instant) : Run (Option Throttle) := do
  let env ← get
  let (pause, throttles) := env.throttles.pending key now
  set { env with throttles }
  pure pause

end Run
end SignedHttp
