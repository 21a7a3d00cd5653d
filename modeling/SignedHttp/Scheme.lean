/-!
# SignedHttp.Scheme

The ways to prove to the server who is asking, and the kinds of credentials they need. The schemes
with a shared key sign a canonical text of the request in one of three variants; the other two put
a token into the request.
-/

namespace SignedHttp

/-- A way to authenticate a request. -/
inductive Scheme
  | bearer
  | sharedKey
  | sharedKeyLite
  | sharedKeyQueue
  | sas
deriving DecidableEq, Repr

def Scheme.name : Scheme → String
  | .bearer => "Bearer"
  | .sharedKey => "SharedKey"
  | .sharedKeyLite => "SharedKeyLite"
  | .sharedKeyQueue => "SharedKeyQueue"
  | .sas => "Sas"

/-- The scheme that is used unless another is asked for. -/
def Scheme.standard : Scheme := .sharedKey

/-- What a credential consists of. -/
inductive Credential.Kind
  | sharedKey
  | sasToken
  | bearerToken
deriving DecidableEq, Repr

def Credential.Kind.words : Credential.Kind → String
  | .sharedKey => "shared key"
  | .sasToken => "sas token"
  | .bearerToken => "bearer token"

/-- A form of the text that a shared key signs. -/
inductive SharedKey.Variant
  | full
  | lite
  | queue
deriving DecidableEq, Repr

/-- The word for a variant in the `Authorization` header. -/
def SharedKey.Variant.word : SharedKey.Variant → String
  | .full => "SharedKey"
  | .lite | .queue => "SharedKeyLite"

/-- The variant that a scheme signs with, if it signs at all. -/
def Scheme.variant? : Scheme → Option SharedKey.Variant
  | .sharedKey => some .full
  | .sharedKeyLite => some .lite
  | .sharedKeyQueue => some .queue
  | .bearer | .sas => none

end SignedHttp
