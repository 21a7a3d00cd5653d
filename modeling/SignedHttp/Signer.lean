import SignedHttp.Provider.Ask
import SignedHttp.Signing

/-!
# SignedHttp.Signer

Signing with a cached credential. The cache holds the last answer of the source. While that is a
credential that can be used it is used; otherwise the source is asked, is told what the cache holds,
and its answer replaces that, even when it is no credential or one that has expired. A source that
fails leaves the cache alone.
-/

namespace SignedHttp

/-- How requests are signed: where credentials come from and what is done with them. -/
structure Signer where
  secrets : Secrets := []
  provider : Provider := .chain []
  scheme : Scheme := .standard

namespace Signer

def ask (s : Signer) (previous : Option Credential) : Run (Option Credential) := do
  Run.note (.asked previous)
  s.provider.ask s.secrets previous

/-- Asks the source of credentials and keeps its answer. -/
def refresh (s : Signer) : Run (Option Credential) := do
  Run.log [Log.debug "credential is absent or expired, asking provider for a fresh one"]
  let env ← get
  let fresh ← s.ask env.cache
  modify fun env => { env with cache := fresh }
  Run.note (.cached fresh)
  pure fresh

def credential (s : Signer) : Run (Option Credential) := do
  let env ← get
  if Credential.usable env.cache env.clock.now then pure env.cache else s.refresh

def sign (s : Signer) (r : Request) : Run Request := do
  let credential ← s.credential
  let now ← Run.now
  Run.log (s.scheme.signLog now credential r)
  let signing := s.scheme.sign now credential r
  match signing.result with
  | .ok () =>
    Run.note (.signed credential)
    pure signing.request
  | .error e => Run.fail e

end Signer
end SignedHttp
