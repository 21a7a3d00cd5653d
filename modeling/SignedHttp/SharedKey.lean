import SignedHttp.Credential
import SignedHttp.Digest
import SignedHttp.Request
import SignedHttp.Text.Lowercase

/-!
# SignedHttp.SharedKey

The canonical text of a request that a shared key signs: the method, the values of certain headers,
every `x-ms-` header, and the resource with its query parameters. Parameters are decoded, names are
taken in lowercase, and names and the values of each name are put in ascending order, so the text
does not depend on the order in which the request lists them.
-/

namespace SignedHttp
namespace SharedKey

open Header

/-- The headers whose values are signed, in order. -/
def Variant.signedHeaders : Variant → List Name
  | .full =>
    [contentEncoding, contentLanguage, contentLength, contentMd5, contentType, date,
      ifModifiedSince, ifMatch, ifNoneMatch, ifUnmodifiedSince, range]
  | .lite | .queue => [contentMd5, contentType, date]

/-- The type of the body, where no header gives it. -/
def bodyType? (r : Request) : Option String :=
  if r.headers.contains contentType then none else r.body.bind (·.contentType)

/-- What is signed for a header: its first value, or nothing. The type of the body stands in for a
missing type, and the full variant takes the type `0` for nothing. -/
def signedValue (r : Request) (variant : Variant) (name : Name) : Except Error String := do
  let value ← r.headerText name
  if name = contentType then
    match bodyType? r with
    | some type => .ok type
    | none => .ok (if variant = .full ∧ value = "0" then "" else value)
  else .ok value

def lines (texts : List String) : List Char := texts.flatMap fun s => s.toList ++ ['\n']

/-- The `x-ms-` headers, one to a line. -/
def headerLines (r : Request) : Except Error (List Char) := do
  let headers ← r.headersStartingWith "x-ms-"
  .ok (lines (headers.map fun (name, value) => name ++ ":" ++ value))

/-- The query parameters by lowercase name, names and values in ascending order and each once. -/
def parameters (q : Query) : List (String × List String) :=
  Ascending.groups (q.decoded.map fun (name, value) => (Text.map Text.lower name, value))

/-- A query parameter with its values on a line of its own. -/
def parameterChars (p : String × List String) : List Char :=
  '\n' :: p.1.toList ++ ':' :: (",".intercalate p.2).toList

def resourceChars (r : Request) (account : String) : List Char :=
  '/' :: account.toList ++ r.path.toList ++ (parameters r.query).flatMap parameterChars

/-- The text of a request that the key of an account signs. -/
def canonical (r : Request) (variant : Variant) (account : String) : Except Error String := do
  let values ← variant.signedHeaders.mapM (signedValue r variant)
  let headers ← headerLines r
  .ok (String.ofList
    (lines [r.method.text] ++ lines values ++ headers ++ resourceChars r account))

def canonicalLog (r : Request) (variant : Variant) (account : String) : List Log.Line :=
  match canonical r variant account with
  | .ok text => [Log.debug ("string to sign: " ++ text)]
  | .error _ => []

def signature (key : Bytes) (text : String) : String :=
  Base64.encodeText (Hmac.sha256 key (Utf8.encode text.toList))

def authorizationText (variant : Variant) (account signature : String) : String :=
  variant.word ++ " " ++ account ++ ":" ++ signature

end SharedKey
end SignedHttp
