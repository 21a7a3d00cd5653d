import SignedHttp.Credential

/-!
# SignedHttp.ConnectionString

Connection strings: fields `key=value` separated by semicolons. Line feeds are dropped, blanks
around fields, keys and values do not count, empty fields are skipped, and of several fields with
one key the last counts. A connection string may carry a query token or the name and key of an
account; one for development storage has a name and a key of its own.
-/

namespace SignedHttp

/-- The fields of a connection string, in the order in which they are written. -/
structure ConnectionString where
  fields : List (String × String)
deriving DecidableEq, Repr

namespace ConnectionString

/-- The fields of a text, blank ones left out. -/
def pieces (s : List Char) : List (List Char) :=
  let fields := (((Text.trim s).filter (· != '\n')).splitOn ';').map Text.trim
  fields.filter fun field => !field.isEmpty

def field (piece : List Char) : Except Error (String × String) :=
  match Text.cut? '=' piece with
  | some (key, value) =>
    .ok (String.ofList (Text.trim key), String.ofList (Text.trim value))
  | none => fails (.fieldWithoutValue (String.ofList piece))

/-- The connection string that a text is. -/
def ofText (s : String) : Except Error ConnectionString := do
  let fields ← (pieces s.toList).mapM field
  .ok ⟨fields⟩

def get? (c : ConnectionString) (key : String) : Option String := c.fields.reverse.lookup key

/-- Whether the storage emulator is meant. -/
def isDevelopment (c : ConnectionString) : Bool := c.get? "UseDevelopmentStorage" == some "true"

def developmentAccount : String := "devstoreaccount1"

def developmentKey : String :=
  "Eby8vdM02xNOcqFlqUwJPLlmEtlCDXJ1OUzFT50uSRZ6IFsuFq2UVErCz4I6tq/K1SZFPTOtr/KBHBeksoGMGw=="

/-- The value of a key, or another one for development storage. -/
def getOr (c : ConnectionString) (key development : String) : Option String :=
  match c.get? key with
  | some v => some v
  | none => if c.isDevelopment then some development else none

def accountName (c : ConnectionString) : Option String := c.getOr "AccountName" developmentAccount

/-- The key of the account, in base64. -/
def accountKey (c : ConnectionString) : Option String := c.getOr "AccountKey" developmentKey

def sasToken (c : ConnectionString) : Option String := c.get? "SharedAccessSignature"

/-- What a connection string has to authenticate with; a query token comes first. -/
def given? (c : ConnectionString) : Option Credential.Given :=
  match c.sasToken with
  | some token => some (.sasToken token)
  | none =>
    match c.accountName, c.accountKey with
    | some name, some key => some (.sharedKey name key)
    | _, _ => none

def credential (c : ConnectionString) : Except Error (Option Credential) :=
  match c.given? with
  | some given => given.credential.map some
  | none => .ok none

/-- What the log says about the credential of a connection string. -/
def credentialLog (c : ConnectionString) : List Log.Line :=
  match c.given? with
  | some given => given.log
  | none => []

/-- A connection string as logs show it: the account and the keys, but no value. -/
def text (c : ConnectionString) : String :=
  Text.record "ConnectionString"
    [("account_name", Text.optional (c.accountName.map Text.quote)),
      ("keys", Text.brackets ((Ascending.ofList (c.fields.map (·.1))).map Text.quote))]

end ConnectionString
end SignedHttp
