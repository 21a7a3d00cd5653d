import SignedHttp.Reading
import SignedHttp.Signer

/-!
# SignedHttp.Executor

Executing requests. Every attempt builds a request, waits out the pause that its resource may still
be in, signs the request, waits for the rate limiter and sends it. An answer that says to come back
later starts another attempt once the announced pause is over, unless the pause outlasts the
deadline; any other answer, and any failure, ends the run. The attempts use up the exchanges of the
transport one by one, so there are never more of them than there are exchanges, and one; they are
counted in 32 bits, and the run leaves the range of numbers when the next one does not fit.
-/

namespace SignedHttp
namespace Executor

/-- How the request of each attempt is built; attempts count from one. -/
abbrev Build := Nat → Except Error Request

/-- A request that is ready to be sent, and the resource that it is for. -/
structure Departure where
  key : String
  message : Message

/-- Waits until a pause is over, or fails if it outlasts the deadline. The pause is that of a
resource or a request, which the label names. -/
def waitOut (label : String) (pause : Throttle) (deadline : Instant) : Run Unit := do
  if deadline < pause.resumeAt then
    Run.log [Log.warn (label ++ " throttled until " ++ HttpDate.text pause.resumeAt ++
      ", beyond deadline " ++ HttpDate.text deadline)]
    Run.fail {
      cause := .pausedBeyond label pause.resumeAt deadline
      uri := some label
      retryAfter := pause.retryAfter }
  else
    let now ← Run.now
    let wait := pause.resumeAt.remaining now
    if wait ≠ .zero then
      Run.log [Log.debug (label ++ " throttled, retrying in " ++ wait.text)]
      Run.sleep (.pause pause) wait

/-- Waits until the pause that a resource is still in is over, or fails if it outlasts the
deadline. -/
def heed (key : String) (deadline : Instant) : Run Unit := do
  let now ← Run.now
  match ← Run.pending key now with
  | some pause => waitOut key pause deadline
  | none => pure ()

/-- Makes the message of a signed request. -/
def load (attempt : Nat) (r : Request) : Run Message := do
  let uri ← Run.lift r.uri
  Run.log [Log.debug ("sending attempt " ++ String.ofList (Text.decimal attempt) ++ ": " ++
    r.method.text ++ " " ++ uri)]
  Run.lift r.message

/-- Does everything for an attempt that comes before sending. -/
def prepare (s : Signer) (build : Build) (deadline : Instant) (attempt : Nat) : Run Departure := do
  Run.note (.built attempt)
  let r ← Run.lift (build attempt)
  heed r.resourceKey deadline
  let signed ← s.sign r
  Run.acquire
  let message ← load attempt signed
  pure ⟨r.resourceKey, message⟩

def unanswered {α : Type} (d : Departure) (cause : Error.Cause) : Run α :=
  Run.fail {
    cause := .sendFailed d.message.uri
    uri := some d.message.uri
    source := some cause }

/-- Hands a request to the transport, which has some exchanges left after this one. -/
def depart (d : Departure) (left : List Exchange) : Run Unit := do
  let now ← Run.now
  Run.note (.sent d.key d.message now)
  modify fun env => { env with transport := some left }

def send (d : Departure) (exchange : Exchange) (left : List Exchange) : Run Response := do
  depart d left
  Run.advance exchange.takes
  let now ← Run.now
  Run.note (.returned exchange.reply now)
  match exchange.reply with
  | .error cause => unanswered d cause
  | .ok r => pure r

/-- The text of the header that says when to call again, if it can be read. -/
def retryAfter? (r : Response) : Option String :=
  (r.headers.first? Header.retryAfter).bind Header.Value.text?

/-- What an answer that says to come back later leads to: the pause it announces is waited out. -/
def comeBack (d : Departure) (deadline : Instant) (attempt : Nat) (r : Response) : Run Unit := do
  let text := retryAfter? r
  let now ← Run.now
  match text.bind (RetryAfter.resume? · now) with
  | none =>
    Run.log [Log.warn ("attempt " ++ String.ofList (Text.decimal attempt) ++ " to " ++
      d.message.uri ++ " throttled without usable Retry-After: " ++
      Text.optional (text.map Text.quote))]
    Run.fail {
      cause := .pausedWithoutEnd d.message.uri
      uri := some d.message.uri
      retryAfter := text }
  | some resumeAt =>
    Run.record d.key ⟨resumeAt, text⟩
    waitOut d.message.uri ⟨resumeAt, text⟩ deadline

/-- What an answer leads to: the run ends with it, or nothing says that there is to be another
attempt. -/
def conclude (d : Departure) (deadline : Instant) (attempt : Nat) (r : Response) :
    Run (Option Response) := do
  if r.status.isSuccess then
    Run.clear d.key
    pure (some r)
  else if r.status = Status.tooManyRequests then
    comeBack d deadline attempt r
    pure none
  else
    Run.clear d.key
    Run.fail { cause := .answered r.status r.headers, uri := some d.message.uri }

/-- The number of the attempt after one. -/
def following (attempt : Nat) : Run Nat :=
  if attempt + 1 < UInt32.size then pure (attempt + 1) else throw .overflow

/-- The attempts from a given one on, with the exchanges that the transport has left. -/
def attempts (s : Signer) (build : Build) (deadline : Instant) :
    List Exchange → Nat → Run Response
  | [], attempt => do
    let d ← prepare s build deadline attempt
    send d { reply := .error .noResponseLeft } []
  | exchange :: left, attempt => do
    let d ← prepare s build deadline attempt
    let r ← send d exchange left
    match ← conclude d deadline attempt r with
    | some r => pure r
    | none =>
      let next ← following attempt
      attempts s build deadline left next

/-- Executes a request until a deadline. -/
def execute (s : Signer) (build : Build) (deadline : Instant) : Run Response := do
  let env ← get
  match env.transport with
  | some exchanges => attempts s build deadline exchanges 1
  | none =>
    let d ← prepare s build deadline 1
    unanswered d .notConnected

/-- Executes a request for some time from now. -/
def executeWithin (s : Signer) (build : Build) (timeout : Duration) : Run Response := do
  if timeout.Schedulable then
    let now ← Run.now
    match now.add? timeout with
    | some deadline => execute s build deadline
    | none => Run.fail { cause := .deadlineOutOfRange }
  else Run.fail { cause := .timeoutOutOfRange }

end Executor
end SignedHttp
