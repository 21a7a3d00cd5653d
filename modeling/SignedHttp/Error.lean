import SignedHttp.Http.Header
import SignedHttp.Http.Status
import SignedHttp.Http.Uri
import SignedHttp.Scheme
import SignedHttp.Time.HttpDate

/-!
# SignedHttp.Error

Everything that can go wrong, by its cause. A cause belongs to one of seven kinds (`Cause.kind`) and
can be told in words (`Cause.message`). An `Error` adds to its cause what is known of the request
that failed, and the cause beneath it when the failure of something else is the reason. `Stop` is
the reason why a computation ends early: an error, or a number that leaves its range.
-/

namespace SignedHttp
namespace Error

/-- The kinds of errors, by what the caller can do about them. -/
inductive Kind
  | authentication
  | throttled
  | httpStatus
  | transport
  | requestInvalid
  | configInvalid
  | unexpected
deriving DecidableEq, Repr

def Kind.words : Kind → String
  | .authentication => "authentication failed"
  | .throttled => "throttled"
  | .httpStatus => "unexpected http status"
  | .transport => "transport failure"
  | .requestInvalid => "invalid request"
  | .configInvalid => "invalid configuration"
  | .unexpected => "unexpected error"

/-- What went wrong. -/
inductive Cause
  | emptyAccountName
  | accountKeyNotBase64 (account : String)
  | emptyAccountKey (account : String)
  | credentialRequired (scheme : Scheme)
  | credentialUnfit (scheme : Scheme) (kind : Credential.Kind)
  | notBase64
  | notHttpDate (text : String)
  | notTimestamp (text : String)
  | badMethod
  | badHeaderName
  | badHeaderValue
  | unreadableHeader
  | badUri (fault : Uri.Fault)
  /-- An address does not say which host to ask. -/
  | noAuthority
  /-- A field of a connection string has no `=`. -/
  | fieldWithoutValue (field : String)
  /-- A rate is not above zero; `rate` is its text. -/
  | rateNotPositive (rate : String)
  | intervalOutOfRange
  | timeoutOutOfRange
  | deadlineOutOfRange
  /-- A pause of `label` outlasts the deadline. -/
  | pausedBeyond (label : String) (resumeAt deadline : Instant)
  /-- The server throttles without saying for how long. -/
  | pausedWithoutEnd (uri : String)
  /-- The server answers with a status that is neither success nor throttling. -/
  | answered (status : Status) (headers : Headers)
  /-- A request did not reach the server, or its answer did not come back. -/
  | sendFailed (uri : String)
  /-- There is no connection to send anything over. -/
  | notConnected
  /-- The transport has nothing left to answer with. -/
  | noResponseLeft
  /-- A value could not be written as text. -/
  | notFormatted
  /-- A failure that was reported by someone else. -/
  | reported (kind : Kind) (message : String)
deriving DecidableEq, Repr

namespace Cause

def kind : Cause → Kind
  | .emptyAccountName | .accountKeyNotBase64 _ | .emptyAccountKey _ => .authentication
  | .credentialRequired _ | .credentialUnfit _ _ => .authentication
  | .notBase64 | .notHttpDate _ | .notTimestamp _ | .noResponseLeft | .notFormatted => .unexpected
  | .badMethod | .badHeaderName | .badHeaderValue | .unreadableHeader => .requestInvalid
  | .badUri _ | .noAuthority => .requestInvalid
  | .fieldWithoutValue _ | .rateNotPositive _ | .intervalOutOfRange => .configInvalid
  | .timeoutOutOfRange | .deadlineOutOfRange => .configInvalid
  | .pausedBeyond _ _ _ | .pausedWithoutEnd _ => .throttled
  | .answered _ _ => .httpStatus
  | .sendFailed _ | .notConnected => .transport
  | .reported kind _ => kind

/-- A status and, if it has one, its reason phrase. -/
def statusWords (s : Status) : String :=
  let code := String.ofList (Text.decimal s.code)
  match s.reason? with
  | some reason => code ++ " " ++ reason
  | none => code

def message : Cause → String
  | .emptyAccountName => "account name of shared key is empty"
  | .accountKeyNotBase64 account => "account key of " ++ account ++ " is not valid base64"
  | .emptyAccountKey account => "account key of " ++ account ++ " is empty"
  | .credentialRequired scheme => "credential is required by " ++ scheme.name ++ " scheme"
  | .credentialUnfit scheme kind => scheme.name ++ " scheme can't sign with " ++ kind.words
  | .notBase64 => "base64 decode failed"
  | .notHttpDate text => "invalid http date: " ++ text
  | .notTimestamp text => "invalid rfc3339 time: " ++ text
  | .badMethod => "invalid HTTP method"
  | .badHeaderName => "invalid HTTP header name"
  | .badHeaderValue => "failed to parse header value"
  | .unreadableHeader => "failed to convert header to a str"
  | .badUri fault => fault.message
  | .noAuthority => "request without authority is invalid for execution"
  | .fieldWithoutValue field => "invalid connection string, expected '=' in field: " ++ field
  | .rateNotPositive rate =>
    "rate limit must be a positive number of permits per second, got " ++ rate
  | .intervalOutOfRange => "rate limit interval is out of range"
  | .timeoutOutOfRange => "execution timeout is out of range"
  | .deadlineOutOfRange => "execution deadline is out of range"
  | .pausedBeyond label resumeAt deadline =>
    "request to " ++ label ++ " throttled until " ++ HttpDate.text resumeAt ++
      ", which exceeds the deadline " ++ HttpDate.text deadline
  | .pausedWithoutEnd uri => "request to " ++ uri ++ " throttled without usable Retry-After"
  | .answered status _ => "server responded with " ++ statusWords status
  | .sendFailed uri => "failed to send request to " ++ uri
  | .notConnected => "HTTP sending not supported: no HTTP client configured"
  | .noResponseLeft => "no scripted response left"
  | .notFormatted => "an error occurred when formatting an argument"
  | .reported _ words => words

end Cause
end Error

/-- A failure, with what is known about it. -/
structure Error where
  cause : Error.Cause
  /-- The address of the request that failed. -/
  uri : Option String := none
  /-- When the server asked to be called again, in its own words. -/
  retryAfter : Option String := none
  /-- The cause beneath this one. -/
  source : Option Error.Cause := none
deriving DecidableEq, Repr

namespace Error

def kind (e : Error) : Kind := e.cause.kind

def message (e : Error) : String := e.cause.message

def status? (e : Error) : Option Status :=
  match e.cause with
  | .answered s _ => some s
  | _ => none

def headers? (e : Error) : Option Headers :=
  match e.cause with
  | .answered _ h => some h
  | _ => none

/-- The reason phrase of the answer, if there was one and its status has one. -/
def reason? (e : Error) : Option String := e.status?.bind Status.reason?

/-- Whether a credential is at fault. -/
def isAuthentication (e : Error) : Bool := e.kind == .authentication

/-- Whether the server asks to be called less often. -/
def isThrottled (e : Error) : Bool := e.kind == .throttled

end Error

/-- Why a computation ends early. -/
inductive Stop
  | failed (error : Error)
  /-- An instant or the number of an attempt would be out of range. -/
  | overflow
deriving DecidableEq, Repr

/-- Fails for a cause about which nothing more is known. -/
def fails {α : Type} (cause : Error.Cause) : Except Error α := .error { cause }

end SignedHttp
