import SignedHttp.Error
import SignedHttp.Http.Message
import SignedHttp.Request.Query

/-!
# SignedHttp.Request

Requests before they are sent. A request is built from a method and an address, gets header fields,
query parameters and a body, is signed, and becomes a message (`Request.message`). The path and the
query are kept in the form in which they are sent, so that nothing between signing and sending
changes them.
-/

namespace SignedHttp

/-- What a request carries. -/
structure Body where
  content : Bytes
  contentType : Option String := none
deriving DecidableEq, Repr

/-- A request to one resource. -/
structure Request where
  method : Method
  scheme : String
  authority : String
  /-- The path as it is sent; whether it can be sent is checked when it is. -/
  path : String
  query : Query := []
  headers : Headers := {}
  body : Option Body := none
  timeout : Option Duration := none
deriving DecidableEq, Repr

namespace Request

/-- A bare request to an address, which has to name a host. The scheme is `https` unless the
address gives one. -/
def ofUri (method : Method) (uri : Uri) : Except Error Request :=
  match uri.authority with
  | none => fails .noAuthority
  | some authority =>
    .ok {
      method
      scheme := String.ofList (uri.scheme.getD "https".toList)
      authority := String.ofList authority
      path := String.ofList uri.target.path
      query := (uri.target.query.map Query.ofRaw).getD [] }

def new (method : Method) (uri : String) : Except Error Request :=
  match Uri.ofText uri with
  | .error fault => fails (.badUri fault)
  | .ok uri => ofUri method uri

/-- A request taken from the parts of a message. -/
def ofParts (method : Method) (uri : String) (headers : Headers) : Except Error Request := do
  let r ← new method uri
  .ok { r with headers }

/-- The request that a message was, as far as it can be told from its method, address and
headers. -/
def ofMessage (m : Message) : Except Error Request := do
  let r ← ofUri m.method m.address
  .ok { r with headers := m.headers }

def withBody (r : Request) (body : Body) : Request := { r with body := some body }

def withTimeout (r : Request) (timeout : Duration) : Request := { r with timeout := some timeout }

def field (name value : String) : Except Error (Header.Name × Header.Value) :=
  match Header.Name.ofText? name with
  | none => fails .badHeaderName
  | some name =>
    match Header.Value.ofText? value with
    | none => fails .badHeaderValue
    | some value => .ok (name, value)

/-- The request with one value of a header, in place of all it has. -/
def setHeader (r : Request) (name value : String) : Except Error Request := do
  let (name, value) ← field name value
  .ok { r with headers := r.headers.set name value }

def addHeader (r : Request) (name value : String) : Except Error Request := do
  let (name, value) ← field name value
  .ok { r with headers := r.headers.add name value }

/-- The last value of a header, if there is one that can be read as text. -/
def header? (r : Request) (name : String) : Option String := do
  let name ← Header.Name.ofText? name
  let value ← r.headers.last? name
  value.text?

/-- The first value of a header as text, empty if there is none. -/
def headerText (r : Request) (name : Header.Name) : Except Error String :=
  match r.headers.first? name with
  | none => .ok ""
  | some value =>
    match value.text? with
    | some s => .ok s
    | none => fails .unreadableHeader

/-- The values of a header as one text, with commas between them. -/
def joined (values : List Header.Value) : Except Error String :=
  match values.mapM Header.Value.text? with
  | some texts => .ok (",".intercalate texts)
  | none => fails .unreadableHeader

/-- The headers whose names start with a text, in ascending order, each with its values as one
text; headers for which that text is empty are left out. -/
def headersStartingWith (r : Request) (start : String) : Except Error (List (String × String)) := do
  let found := r.headers.byName.filter fun (name, _) => start.toList.isPrefixOf name.toList
  let texts ← found.mapM fun (name, values) => do
    let text ← joined values
    pure (name, text)
  .ok (texts.filter fun (_, text) => !text.isEmpty)

/-- The request with one more query parameter, which gets encoded. -/
def pushQuery (r : Request) (name value : String) : Request :=
  { r with query := r.query ++ [Query.encoded name value] }

/-- The request with more query parameters, already encoded. -/
def appendRawQuery (r : Request) (raw : String) : Request :=
  { r with query := r.query ++ Query.ofRaw raw.toList }

/-- What follows the authority in the address of a request. -/
def targetChars (r : Request) : List Char :=
  if r.query.isEmpty then r.path.toList else r.path.toList ++ '?' :: r.query.chars

def originChars (r : Request) : List Char :=
  r.scheme.toList ++ "://".toList ++ r.authority.toList

/-- The address of a request, if its path and query can be part of one. -/
def address (r : Request) : Except Error Uri :=
  match Target.ofChars r.targetChars with
  | .error fault => fails (.badUri fault)
  | .ok target =>
    .ok { scheme := some r.scheme.toList, authority := some r.authority.toList, target }

def uri (r : Request) : Except Error String := r.address.map Uri.text

/-- What identifies the resource that a request is for: its address without the query. -/
def resourceKey (r : Request) : String := String.ofList (r.originChars ++ r.path.toList)

/-- The headers of a request, with the type of the body filled in where it is missing. -/
def sentHeaders (r : Request) : Except Error Headers :=
  match r.body.bind (·.contentType) with
  | none => .ok r.headers
  | some type =>
    if r.headers.contains Header.contentType then .ok r.headers
    else
      match Header.Value.ofText? type with
      | some value => .ok (r.headers.set Header.contentType value)
      | none => fails .badHeaderValue

def message (r : Request) : Except Error Message := do
  let address ← r.address
  let headers ← r.sentHeaders
  .ok {
    method := r.method
    address
    headers
    body := (r.body.map (·.content)).getD []
    timeout := r.timeout }

end Request
end SignedHttp
