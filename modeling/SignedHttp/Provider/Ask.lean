import SignedHttp.Run

/-!
# SignedHttp.Provider.Ask

Asking a source for a credential. Having none is no error. Of several sources each is asked in turn
until one has a credential or fails.
-/

namespace SignedHttp

/-- The named secrets, each with its value. -/
abbrev Secrets := List (String × String)

namespace Secrets

def get? (s : Secrets) (name : String) : Option String := s.lookup name

/-- The name of the account, under its older or its newer name. -/
def accountName (s : Secrets) : Option String :=
  (s.get? "AZBLOB_ACCOUNT_NAME").or (s.get? "AZURE_STORAGE_ACCOUNT_NAME")

def accountKey (s : Secrets) : Option String :=
  (s.get? "AZBLOB_ACCOUNT_KEY").or (s.get? "AZURE_STORAGE_ACCOUNT_KEY")

def sasToken (s : Secrets) : Option String := s.get? "AZURE_STORAGE_SAS_TOKEN"

def bearerToken (s : Secrets) : Option String := s.get? "AZURE_STORAGE_BEARER_TOKEN"

def connectionString (s : Secrets) : Option String := s.get? "AZURE_STORAGE_CONNECTION_STRING"

/-- The credential among the secrets and what the log says of it: the key of an account, which needs
the account's name, comes first, then a query token, then a token that is sent as it is. -/
def given? (s : Secrets) : Option (String × Credential.Given) :=
  match s.accountName, s.accountKey with
  | some name, some key =>
    some ("loaded shared key of " ++ name ++ " from secret store", .sharedKey name key)
  | _, _ =>
    match s.sasToken with
    | some token => some ("loaded sas token from secret store", .sasToken token)
    | none =>
      s.bearerToken.map fun token =>
        ("loaded bearer token from secret store", .bearerToken token none)

end Secrets

namespace Provider

/-- Decodes a credential, and logs what there is to say about it. -/
def decode (given : Credential.Given) : Run Credential := do
  Run.log given.log
  Run.lift given.credential

def askSecrets (secrets : Secrets) : Run (Option Credential) := do
  match secrets.given? with
  | none => pure none
  | some (remark, given) =>
    Run.log [Log.debug remark]
    let credential ← decode given
    pure (some credential)

def askString (c : ConnectionString) : Run (Option Credential) := do
  match c.given? with
  | none => pure none
  | some given =>
    let credential ← decode given
    Run.log [Log.debug ("loaded credential from connection string: " ++ c.text)]
    pure (some credential)

def askSecretString (secrets : Secrets) : Run (Option Credential) := do
  match secrets.connectionString with
  | none => pure none
  | some s =>
    let c ← Run.lift (ConnectionString.ofText s)
    askString c

/-- Takes what a supply does next; one that is used up has nothing. -/
def takeRefresh (supply : Nat) : Run Refresh := do
  let env ← get
  match env.supplies[supply]? with
  | some (next :: rest) =>
    set { env with supplies := env.supplies.set supply rest }
    pure next
  | _ => pure { answer := .ok none }

def askSupply (supply : Nat) : Run (Option Credential) := do
  let next ← takeRefresh supply
  match next.sleep with
  | some d => Run.sleep .refresh d
  | none => pure ()
  match next.answer with
  | .ok credential => pure credential
  | .error cause => Run.fail { cause }

mutual

/-- Asks a source for a credential, given the one that is to be replaced. -/
def ask (secrets : Secrets) (previous : Option Credential) : Provider → Run (Option Credential)
  | fixed c => do
    Run.note (.consulted (fixed c) previous)
    pure (some c)
  | .secrets => do
    Run.note (.consulted .secrets previous)
    askSecrets secrets
  | connectionString given => do
    Run.note (.consulted (connectionString given) previous)
    match given with
    | some c => askString c
    | none => askSecretString secrets
  | refresh supply => do
    Run.note (.consulted (refresh supply) previous)
    askSupply supply
  | chain providers => askFirst secrets previous providers
  | standard providers => askFirst secrets previous providers

/-- Asks sources in turn until one has a credential. -/
def askFirst (secrets : Secrets) (previous : Option Credential) :
    List Provider → Run (Option Credential)
  | [] => pure none
  | p :: ps => do
    Run.log [Log.debug ("trying credential provider: " ++ p.text)]
    match ← ask secrets previous p with
    | some c =>
      Run.log [Log.debug ("loaded credential from provider: " ++ p.text)]
      pure (some c)
    | none => askFirst secrets previous ps

end

end Provider
end SignedHttp
