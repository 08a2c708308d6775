import ChangeDesk.Change
import ChangeDesk.ServerConfig

/-!
# Trust in a push

What to tell about the push certificate of the current revision, where the server expects signed
pushes. Only a key that the server calls trusted earns trust.
-/

namespace ChangeDesk

/-- The kinds of verdict on a push. -/
inductive Trust where
  | help
  | trusted
  | invalid
deriving DecidableEq, Repr

namespace Trust

/-- The style class of a verdict. -/
def name : Trust → String
  | .help => "help"
  | .trusted => "trusted"
  | .invalid => "invalid"

/-- The icon of a verdict. -/
def icon : Trust → String
  | .help => "gr-icons:help"
  | .trusted => "gr-icons:check"
  | .invalid => "gr-icons:close"

end Trust

/-- A verdict on a push and its explanation. -/
structure Verdict where
  message : String
  trust : Trust
deriving DecidableEq, Repr

namespace Verdict

/-- The verdict on a certificate, or on there being none. -/
def ofCertificate : Option Certificate → Verdict
  | none => ⟨"This patch set was created without a push certificate", .help⟩
  | some c =>
    if c.key.status = some .trusted then
      ⟨"Push certificate is valid and key is trusted", .trusted⟩
    else
      ⟨"Push certificate is invalid:\n" ++ "\n".intercalate c.key.problems, .invalid⟩

/-- The members of a verdict in a document. -/
def toValue (v : Verdict) : Json.Value :=
  .object [("message", .text v.message), ("icon", .text v.trust.icon),
    ("class", .text v.trust.name)]

end Verdict

/-- The verdict on the push of the current revision. -/
def Change.verdict? (c : Change) (config : ServerConfig) : Option Verdict :=
  if config.signedPush then
    c.currentRevision?.map fun r => .ofCertificate r.certificate
  else none

end ChangeDesk
