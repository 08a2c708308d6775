import ChangeDesk.Http.Url
import ChangeDesk.Json.Document

/-!
# Faults of an edit

What can go wrong between a change on the desk and the server that holds it. A fault has causes,
from the outermost to the innermost; the message is the wording of the outermost.
-/

namespace ChangeDesk

/-- Why a request got no response. -/
inductive TransportFault where
  | badUrl (fault : Http.UrlFault)
  | badHeader
  | unreachable (url : String)
  | closedEarly (url : String)
deriving DecidableEq, Repr

/-- The causes of a missing response, from the outermost. -/
def TransportFault.causes : TransportFault → List String
  | .badUrl (.otherScheme text) =>
    [s!"builder error for url ({text})", (Http.UrlFault.otherScheme text).message]
  | .badUrl fault => ["builder error", fault.message]
  | .badHeader => ["builder error", "failed to parse header value"]
  | .unreachable url =>
    [s!"error sending request for url ({url})", "client error (Connect)", "tcp connect error",
      "Network is unreachable (os error 101)"]
  | .closedEarly url =>
    [s!"error sending request for url ({url})", "client error (SendRequest)",
      "connection closed before message completed"]

/-- What can go wrong with an edit. -/
inductive RemoteFault where
  | tooManyAssignees (count : Nat)
  | unaddressable
  | noChangeNumber
  | refused (status : Nat) (body : String)
  | transport (fault : TransportFault)
  | unwritable (fault : Json.Fault)
  | undecodable (fault : Json.Fault)
deriving DecidableEq, Repr

namespace RemoteFault

/-- The causes of a fault, from the outermost. -/
def causes : RemoteFault → List String
  | .tooManyAssignees count => [s!"assignee takes at most one account, got {count}"]
  | .unaddressable => ["account has no id, email or username to address it by"]
  | .noChangeNumber => ["change has no number"]
  | .refused status body => [s!"remote returned {status}: {body}"]
  | .transport fault => ("http error: " ++ fault.causes.headD "") :: fault.causes
  | .unwritable fault => [s!"serialization error: {fault.message}", fault.message]
  | .undecodable fault =>
    ["core error: " ++ Json.Document.message fault, Json.Document.message fault, fault.message]

/-- The wording of a fault. -/
def message (f : RemoteFault) : String := f.causes.headD ""

end RemoteFault

end ChangeDesk
