import SignedHttp.Codec.Base64
import SignedHttp.Error
import SignedHttp.Redact
import SignedHttp.Request.Query
import SignedHttp.Text.Quoted
import SignedHttp.Time.Rfc3339

/-!
# SignedHttp.Credential

What a request is authenticated with: the key of an account, a token that is appended to the query,
or a token that is sent as it is. Tokens may expire. A query token says when itself, in its `se`
parameter; if that is no timestamp the token is taken to last, and the log says so.

`Credential.Given` is a credential as it comes in, before it is checked and decoded.
-/

namespace SignedHttp

/-- What a request is authenticated with. -/
inductive Credential
  | sharedKey (account : String) (key : Bytes)
  | sasToken (token : String) (expiresAt : Option Instant)
  | bearerToken (token : String) (expiresAt : Option Instant) (scope : Option String)
      (claims : List (String × String))
deriving DecidableEq, Repr

namespace Credential

def kind : Credential → Kind
  | sharedKey _ _ => .sharedKey
  | sasToken _ _ => .sasToken
  | bearerToken _ _ _ _ => .bearerToken

/-- The instant from which a credential is no longer valid, if there is one. -/
def expiresAt : Credential → Option Instant
  | sharedKey _ _ => none
  | sasToken _ at? => at?
  | bearerToken _ at? _ _ => at?

/-- Whether a credential has something to show at all. -/
def isFilled : Credential → Bool
  | sharedKey account key => !account.isEmpty && !key.isEmpty
  | sasToken token _ => !token.isEmpty
  | bearerToken token _ _ _ => !token.isEmpty

/-- Whether an instant comes before an expiry; without one it does. -/
def precedes (now : Instant) (expiry : Option Instant) : Bool :=
  match expiry with
  | some t => now < t
  | none => true

/-- Whether a credential can be used at an instant. -/
def isValid (c : Credential) (now : Instant) : Bool := c.isFilled && precedes now c.expiresAt

/-- Whether there is a credential and it can be used at an instant. -/
def usable (c : Option Credential) (now : Instant) : Bool :=
  match c with
  | some c => c.isValid now
  | none => false

/-- The key of an account, given in base64. -/
def ofSharedKey (account key : String) : Except Error Credential :=
  if account.isEmpty then fails .emptyAccountName
  else
    match Base64.decode? (Text.trim key.toList) with
    | none => .error { cause := .accountKeyNotBase64 account, source := some .notBase64 }
    | some [] => fails (.emptyAccountKey account)
    | some bytes => .ok (sharedKey account bytes)

/-- A query token without blanks around it and question marks before it. -/
def tokenOf (text : String) : String :=
  String.ofList ((Text.trim text.toList).dropWhile (· == '?'))

/-- The name and value of each field of a form, decoded. -/
def formFields (s : List Char) : List (List Char × List Char) :=
  ((s.splitOn '&').filter fun piece => !piece.isEmpty).map fun piece =>
    match Text.cut? '=' piece with
    | some (name, value) => (Percent.decodeForm name, Percent.decodeForm value)
    | none => (Percent.decodeForm piece, [])

/-- The text in which a query token says when it expires. -/
def expiryText? (token : String) : Option String :=
  ((formFields token.toList).lookup ['s', 'e']).map String.ofList

/-- A query token. -/
def ofSasToken (text : String) : Credential :=
  let token := tokenOf text
  sasToken token ((expiryText? token).bind Rfc3339.ofText?)

/-- What the log says about a query token: nothing, unless its expiry cannot be read. -/
def sasTokenLog (text : String) : List Log.Line :=
  match expiryText? (tokenOf text) with
  | none => []
  | some expiry =>
    match Rfc3339.ofText? expiry with
    | some _ => []
    | none =>
      [Log.debug ("ignore sas token expiry that is not rfc3339: " ++
        Error.Cause.message (.notTimestamp expiry))]

/-- A token that is sent as it is. -/
def ofBearerToken (token : String) (expiresAt : Option Instant) : Credential :=
  bearerToken token expiresAt none []

/-- An instant that may be missing, as logs show it. -/
def instantText (t : Option Instant) : String := Text.optional (t.map Rfc3339.text)

/-- A credential as logs show it, its secrets redacted. -/
def text : Credential → String
  | sharedKey account key =>
    Text.record "Credential::SharedKey"
      [("account_name", Text.quote account), ("account_key", Redact.bytes key)]
  | sasToken token expiresAt =>
    Text.record "Credential::SasToken"
      [("token", Redact.text token), ("expires_at", instantText expiresAt)]
  | bearerToken token expiresAt scope claims =>
    Text.record "Credential::BearerToken"
      [("access_token", Redact.text token), ("expires_at", instantText expiresAt),
        ("scope", Text.optional (scope.map Text.quote)),
        ("claims", Text.brackets (claims.map fun (name, _) => Text.quote name))]

/-- A credential as it comes in. -/
inductive Given
  | sharedKey (account key : String)
  /-- A query token, perhaps with a question mark. -/
  | sasToken (text : String)
  | bearerToken (token : String) (expiresAt : Option Instant)
  /-- A credential that needs no checks. -/
  | ready (credential : Credential)
deriving DecidableEq, Repr

def Given.credential : Given → Except Error Credential
  | sharedKey account key => ofSharedKey account key
  | sasToken text => .ok (ofSasToken text)
  | bearerToken token expiresAt => .ok (ofBearerToken token expiresAt)
  | ready credential => .ok credential

/-- What the log says about a credential that was given. -/
def Given.log : Given → List Log.Line
  | sasToken text => sasTokenLog text
  | sharedKey _ _ | bearerToken _ _ | ready _ => []

end Credential
end SignedHttp
