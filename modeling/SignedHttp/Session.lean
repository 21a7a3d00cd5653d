import SignedHttp.Executor
import SignedHttp.Request.Draft

/-!
# SignedHttp.Session

Sessions of several executors that sign with one cache. Two executors share one set of pauses and
the common rate limiter; a third one has pauses of its own, and a limiter of its own if it is given
one. Another set of pauses belongs to no executor. `Session.start` sets a session up,
`Session.perform` carries out one action and `Session.performAll` a list of them, up to the first
one that leaves the range of instants.
-/

namespace SignedHttp

/-- Which executors act. -/
inductive Desk
  /-- The two executors that share their pauses. -/
  | shared
  /-- The executor that has its own. -/
  | separate
deriving DecidableEq, Repr

/-- A limit on the rate of requests, before it is checked. -/
inductive RatePlan
  | interval (interval : Duration)
  | rate (rate : Float)

def RatePlan.build : RatePlan → Except Stop RateLimiter
  | interval d => (RateLimiter.ofInterval d).mapError Stop.failed
  | rate x => RateLimiter.ofRate x

structure SessionPlan where
  start : Instant
  secrets : Secrets := []
  provider : Provider.Plan := .chain []
  scheme : Scheme := .standard
  rate : Option RatePlan := none
  /-- The interval of the limiter of the separate executor. -/
  ownInterval : Option Duration := none
  transport : Option (List Exchange) := some []

/-- A session. The limiter and the pauses of the environment are those of the shared executors. -/
structure Session where
  signer : Signer
  env : Environment
  /-- The limiter of the separate executor, where it has its own. -/
  ownLimiter : Option RateLimiter := none
  /-- The pauses of the separate executor. -/
  separate : Throttles := .empty
  /-- The pauses of no executor. -/
  loose : Throttles := .empty

inductive Limit
  | deadline (t : Instant)
  | timeout (d : Duration)
deriving DecidableEq, Repr

/-- Something that is done in a session. An action on pauses is on those of a desk, or on those of
no executor where none is named. -/
inductive Action
  | advance (time : Duration)
  | sleep (time : Duration)
  | secret (name : String)
  /-- Asks the source of credentials past the cache. -/
  | provide (previous : Option Credential.Given)
  | credential
  /-- Asks for the credential so many times at once. -/
  | credentials (callers : Nat)
  | sign (order : Order)
  | acquire (times : Nat)
  | record (desk : Option Desk) (key : String) (pause : Throttle)
  | pending (desk : Option Desk) (key : String) (time : Option Instant)
  | clear (desk : Option Desk) (key : String)
  | size (desk : Option Desk)
  | execute (desk : Desk) (orders : List Order) (limit : Limit)

/-- From which desk an action is done. What makes no difference is done from the shared one. -/
def Action.desk : Action → Option Desk
  | record desk _ _ | pending desk _ _ | clear desk _ | size desk => desk
  | execute desk _ _ => some desk
  | _ => some .shared

inductive Value
  | nothing
  | text (text : Option String)
  | credential (credential : Option Credential)
  | credentials (answers : List (Except Error (Option Credential)))
  | request (request : Request)
  | count (entries : Nat)
  | pause (pause : Option Throttle) (entries : Nat)
  | size (entries : Nat) (isEmpty : Bool)
  | response (response : Response)

namespace Run

/-- The result of a computation, an error being a result too. -/
def tried {α : Type} (x : Run α) : Run (Except Error α) := fun env =>
  match x env with
  | .ok a env => .ok (.ok a) env
  | .error (.failed e) env => .ok (.error e) env
  | .error .overflow env => .error .overflow env

def times {α : Type} (x : Run α) : Nat → Run (List α)
  | 0 => pure []
  | n + 1 => do
    let a ← x
    let rest ← times x n
    pure (a :: rest)

end Run

namespace Session

def buildLimiter : Option RatePlan → Except Stop (Option RateLimiter)
  | none => .ok none
  | some plan => plan.build.map some

def ofParts (p : SessionPlan) (provider : Provider) (supplies : Supplies)
    (limiter ownLimiter : Option RateLimiter) : Session where
  signer := { secrets := p.secrets, provider, scheme := p.scheme }
  env := { clock := { now := p.start }, supplies, limiter, transport := p.transport }
  ownLimiter

/-- Sets a session up: first the source of credentials, then the limiters. -/
def start (p : SessionPlan) : Except Stop Session :=
  match p.provider.build [] with
  | .error e => .error (.failed e)
  | .ok (provider, supplies) => do
    let limiter ← buildLimiter p.rate
    let ownLimiter ← buildLimiter (p.ownInterval.map .interval)
    .ok (ofParts p provider supplies limiter ownLimiter)

/-- The environment as it is seen from a desk, or by no executor. -/
def seenFrom (s : Session) : Option Desk → Environment
  | none => { s.env with throttles := s.loose }
  | some .shared => s.env
  | some .separate =>
    { s.env with limiter := s.ownLimiter.or s.env.limiter, throttles := s.separate }

/-- The session after the environment, as it was seen, has been left in a state. -/
def left (s : Session) (desk : Option Desk) (env : Environment) : Session :=
  match desk with
  | none => { s with env := { env with throttles := s.env.throttles }, loose := env.throttles }
  | some .shared => { s with env }
  | some .separate =>
    { s with
      env := {
        env with
        limiter := if s.ownLimiter.isSome then s.env.limiter else env.limiter
        throttles := s.env.throttles }
      ownLimiter := if s.ownLimiter.isSome then env.limiter else none
      separate := env.throttles }

def run {α : Type} (s : Session) (desk : Option Desk) (x : Run α) : Except Stop α × Session :=
  match x (s.seenFrom desk) with
  | .ok a env => (.ok a, s.left desk env)
  | .error e env => (.error e, s.left desk env)

def entries : Run Nat := do
  let env ← get
  pure env.throttles.size

/-- The pause of a resource that is still running at an instant, or else now. -/
def pendingAt (key : String) (time : Option Instant) : Run (Option Throttle) := do
  let now ← Run.now
  Run.pending key (time.getD now)

def provide (signer : Signer) (previous : Option Credential.Given) : Run (Option Credential) := do
  match previous with
  | none => signer.ask none
  | some given =>
    let credential ← Provider.decode given
    signer.ask (some credential)

def signOrder (signer : Signer) (order : Order) : Run Request := do
  let r ← Run.lift order.build
  signer.sign r

def executeOrders (signer : Signer) (orders : List Order) : Limit → Run Response
  | .deadline t => Executor.execute signer (Order.builds orders) t
  | .timeout d => Executor.executeWithin signer (Order.builds orders) d

def act (signer : Signer) : Action → Run Value
  | .advance d => do
    Run.advance d
    pure .nothing
  | .sleep d => do
    Run.sleep .pastime d
    pure .nothing
  | .secret name => pure (.text (signer.secrets.get? name))
  | .provide previous => .credential <$> provide signer previous
  | .credential => .credential <$> signer.credential
  | .credentials n => .credentials <$> Run.times (Run.tried signer.credential) n
  | .sign order => .request <$> signOrder signer order
  | .acquire n => do
    let _ ← Run.times Run.acquire n
    pure .nothing
  | .record _ key pause => do
    Run.record key pause
    .count <$> entries
  | .pending _ key time => do
    let pause ← pendingAt key time
    .pause pause <$> entries
  | .clear _ key => do
    Run.clear key
    .count <$> entries
  | .size _ => do
    let n ← entries
    pure (.size n (n == 0))
  | .execute _ orders limit => .response <$> executeOrders signer orders limit

def perform (s : Session) (a : Action) : Except Stop Value × Session :=
  s.run a.desk (act s.signer a)

/-- What is known after an action: its result, the clock, and what happened meanwhile. -/
structure Report where
  result : Except Stop Value
  clock : Clock
  events : List Event

def step (s : Session) (a : Action) : Report × Session :=
  let (result, s') := s.perform a
  (⟨result, s'.env.clock, s'.env.history.toList.drop s.env.history.size⟩, s')

/-- Carries out actions one after another; one that leaves the range of instants is the last. -/
def performAll (s : Session) : List Action → List Report
  | [] => []
  | a :: rest =>
    let (report, s') := s.step a
    match report.result with
    | .error .overflow => [report]
    | _ => report :: performAll s' rest

end Session

def Event.messages (events : List Event) : List Message :=
  events.filterMap fun
    | .sent _ message _ => some message
    | _ => none

def Event.questions (events : List Event) : List (Option Credential) :=
  events.filterMap fun
    | .asked previous => some previous
    | _ => none

def Event.lines (events : List Event) : List Log.Line :=
  events.filterMap fun
    | .logged line => some line
    | _ => none

end SignedHttp
