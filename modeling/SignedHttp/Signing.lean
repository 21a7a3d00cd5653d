import SignedHttp.Http.DateHeader
import SignedHttp.SharedKey

/-!
# SignedHttp.Signing

Authenticating a request. A shared key stamps the request with the time, signs its canonical text
and sets the `Authorization` header; a bearer token is set as that header; a query token is appended
to the query. Signing can fail after the stamp, so the outcome holds the request as it is left
either way.
-/

namespace SignedHttp

/-- Whether signing worked, and the request as it is afterwards. -/
structure Signing where
  result : Except Error Unit
  request : Request

namespace Scheme

def unfit (s : Scheme) (credential : Option Credential) : Error.Cause :=
  match credential with
  | none => .credentialRequired s
  | some c => .credentialUnfit s c.kind

/-- The request with the time of signing as its date. -/
def stamped (r : Request) (now : Instant) : Request :=
  { r with headers := r.headers.set Header.date (HttpDate.value now) }

/-- The request with a proof of identity, which is marked sensitive. -/
def authorized (r : Request) (proof : String) : Except Error Request :=
  match Header.Value.ofText? proof with
  | some value => .ok { r with headers := r.headers.set Header.authorization value.secret }
  | none => fails .badHeaderValue

/-- A request that a key has signed; the request carries its date already. -/
def signedWith (variant : SharedKey.Variant) (account : String) (key : Bytes) (r : Request) :
    Except Error Request := do
  let text ← SharedKey.canonical r variant account
  authorized r (SharedKey.authorizationText variant account (SharedKey.signature key text))

/-- The outcome of a step that leaves the request alone unless it works. -/
def outcome (r : Request) (result : Except Error Request) : Signing :=
  match result with
  | .ok r' => ⟨.ok (), r'⟩
  | .error e => ⟨.error e, r⟩

def sign (s : Scheme) (now : Instant) (credential : Option Credential) (r : Request) : Signing :=
  match s.variant? with
  | some variant =>
    match credential with
    | some (.sharedKey account key) =>
      outcome (stamped r now) (signedWith variant account key (stamped r now))
    | _ => ⟨fails (s.unfit credential), r⟩
  | none =>
    match s, credential with
    | .bearer, none => ⟨.ok (), r⟩
    | .bearer, some (.bearerToken token _ _ _) => outcome r (authorized r ("Bearer " ++ token))
    | .sas, some (.sasToken token _) => ⟨.ok (), r.appendRawQuery token⟩
    | _, _ => ⟨fails (s.unfit credential), r⟩

def signLog (s : Scheme) (now : Instant) (credential : Option Credential) (r : Request) :
    List Log.Line :=
  match s.variant?, credential with
  | some variant, some (.sharedKey account _) =>
    SharedKey.canonicalLog (stamped r now) variant account
  | none, none =>
    if s = .bearer then [Log.debug "no bearer token available, request is sent anonymously"] else []
  | _, _ => []

end Scheme
end SignedHttp
