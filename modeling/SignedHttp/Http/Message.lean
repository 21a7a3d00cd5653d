import SignedHttp.Http.Header
import SignedHttp.Http.Status
import SignedHttp.Http.Uri
import SignedHttp.Time.Duration

/-!
# SignedHttp.Http.Message

What goes over the wire: a request with all its parts fixed, and the answer to it.
-/

namespace SignedHttp

/-- A request as it is handed to the transport. -/
structure Message where
  method : Method
  address : Uri
  headers : Headers
  body : Bytes
  timeout : Option Duration
deriving DecidableEq, Repr

def Message.uri (m : Message) : String := m.address.text

/-- The answer of a server. -/
structure Response where
  status : Status
  headers : Headers
  body : Bytes
deriving DecidableEq, Repr

end SignedHttp
