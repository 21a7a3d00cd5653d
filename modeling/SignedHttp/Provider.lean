import SignedHttp.ConnectionString

/-!
# SignedHttp.Provider

Sources of credentials. A source is a fixed credential, the named secrets, a connection string, a
supply that is asked for a fresh credential each time, or several sources that are tried in order.
The standard source tries a connection string, then the named secrets; other sources can be put in
front of it.

A source is put together from a `Provider.Plan`. That checks the credentials that are fixed in it
and numbers its supplies.
-/

namespace SignedHttp

/-- Where credentials come from. -/
inductive Provider
  | fixed (credential : Credential)
  | secrets
  /-- A connection string that is given, or else the one among the secrets. -/
  | connectionString (given : Option ConnectionString)
  /-- A supply of fresh credentials, by its number. -/
  | refresh (supply : Nat)
  /-- The first of several sources that has a credential. -/
  | chain (providers : List Provider)
  /-- The standard source, or one made from it. -/
  | standard (providers : List Provider)
deriving Repr

/-- What a supply does when it is asked: it may take some time, then it fails or answers. -/
structure Refresh where
  sleep : Option Duration := none
  answer : Except Error.Cause (Option Credential)

/-- What the supplies of a source are going to do, each in order. -/
abbrev Supplies := List (List Refresh)

namespace Provider

/-- The standard source. -/
def default : Provider := standard [connectionString none, secrets]

/-- A source that is tried before those of the standard source. Anything else is left as it is. -/
def pushFront (front : Provider) : Provider → Provider
  | standard providers => standard [front, chain providers]
  | other => other

/-- Several sources that are tried in order, as logs show them. -/
def chainText (items : List String) : String :=
  Text.record "ProvideCredentialChain" [("providers", Text.brackets items)]

mutual

def text : Provider → String
  | fixed c => Text.record "StaticCredentialProvider" [("credential", c.text)]
  | secrets => Text.record "SecretCredentialProvider" []
  | connectionString given =>
    Text.record "ConnectionStringCredentialProvider"
      [("connection_string", Text.optional (given.map (·.text)))]
  | refresh _ => "RefreshCredentialProvider \x7b .. \x7d"
  | chain providers => chainText (texts providers)
  | standard providers =>
    Text.record "DefaultCredentialProvider" [("chain", chainText (texts providers))]

def texts : List Provider → List String
  | [] => []
  | p :: ps => text p :: texts ps

end

/-- An answer of a supply before its credential is checked and decoded. A failure takes the place of
the credential, which is checked all the same. -/
structure RefreshPlan where
  sleep : Option Duration := none
  credential : Option Credential.Given := none
  failure : Option Error.Cause := none

/-- How a source is put together. -/
inductive Plan
  | fixed (credential : Credential.Given)
  | secrets
  | connectionString (given : Option String)
  | refresh (script : List RefreshPlan)
  | chain (providers : List Plan)
  /-- The standard source with others in front of it, the last one tried first. -/
  | standard (fronts : List Plan)

def RefreshPlan.decoded (p : RefreshPlan) : Except Error (Option Credential) :=
  match p.credential with
  | none => .ok none
  | some given => given.credential.map some

def RefreshPlan.build (p : RefreshPlan) : Except Error Refresh := do
  let credential ← p.decoded
  match p.failure with
  | some cause => .ok ⟨p.sleep, .error cause⟩
  | none => .ok ⟨p.sleep, .ok credential⟩

mutual

/-- Puts a source together. Its supplies are numbered from the end of those there are, and added to
them. -/
def Plan.build (known : Supplies) : Plan → Except Error (Provider × Supplies)
  | .fixed given => do
    let credential ← given.credential
    .ok (.fixed credential, known)
  | .secrets => .ok (.secrets, known)
  | .connectionString none => .ok (.connectionString none, known)
  | .connectionString (some s) => do
    let parsed ← ConnectionString.ofText s
    .ok (.connectionString (some parsed), known)
  | .refresh script => do
    let answers ← script.mapM RefreshPlan.build
    .ok (.refresh known.length, known ++ [answers])
  | .chain plans => do
    let (providers, known) ← Plan.buildAll known plans
    .ok (.chain providers, known)
  | .standard fronts => do
    let (providers, known) ← Plan.buildAll known fronts
    .ok (providers.foldl (fun base front => pushFront front base) default, known)

def Plan.buildAll (known : Supplies) : List Plan → Except Error (List Provider × Supplies)
  | [] => .ok ([], known)
  | p :: ps => do
    let (first, known) ← p.build known
    let (rest, known) ← Plan.buildAll known ps
    .ok (first :: rest, known)

end

end Provider
end SignedHttp
