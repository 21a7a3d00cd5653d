import SignedHttp.Proofs.ConnectionString.Layout
import SignedHttp.Proofs.Credential.AccountKey
import SignedHttp.Proofs.Credential.Shown
import SignedHttp.Proofs.Executor.Aftermath
import SignedHttp.Proofs.Executor.Bound
import SignedHttp.Proofs.Executor.Cache
import SignedHttp.Proofs.Executor.Disclosure
import SignedHttp.Proofs.Executor.Expiry
import SignedHttp.Proofs.Executor.Fading
import SignedHttp.Proofs.Executor.InRange
import SignedHttp.Proofs.Executor.Resigning
import SignedHttp.Proofs.Executor.Secrecy
import SignedHttp.Proofs.Provider.Flattening
import SignedHttp.Proofs.RateLimiter.InRange
import SignedHttp.Proofs.Retry.History
import SignedHttp.Proofs.Session
import SignedHttp.Proofs.Signer.SingleFlight
import SignedHttp.Proofs.Signing.Complete
import SignedHttp.Proofs.Signing.Endorsement
import SignedHttp.Proofs.Signing.Expiry
import SignedHttp.Proofs.Signing.Unambiguous
import SignedHttp.Proofs.Signing.Verbatim
import SignedHttp.Reading
