import ChangeDesk.Json.Record

/-!
# Server configuration

The part of a server's self-description that decides what is shown of a change.
-/

namespace ChangeDesk

/-- What the server says about receiving pushes. -/
structure ReceiveConfig where
  enableSignedPush : Option Bool
deriving DecidableEq, Repr, Inhabited

/-- The members of the settings for pushes in a document. -/
def ReceiveConfig.record : Json.Record ReceiveConfig where
  name := "ReceiveInfo"
  blank := ⟨none⟩
  fields :=
    [.optional "enable_signed_push" Json.Codec.boolean ReceiveConfig.enableSignedPush
        fun v c => { c with enableSignedPush := v }]

/-- What the server says about itself. -/
structure HostConfig where
  primaryWebLink : Option String
deriving DecidableEq, Repr, Inhabited

/-- The members of the settings of the host in a document. -/
def HostConfig.record : Json.Record HostConfig where
  name := "GerritInfo"
  blank := ⟨none⟩
  fields :=
    [.optional "primary_weblink_name" Json.Codec.text HostConfig.primaryWebLink
        fun v c => { c with primaryWebLink := v }]

/-- What the server says about changes. -/
structure ReviewConfig where
  enableAssignee : Option Bool
deriving DecidableEq, Repr, Inhabited

/-- The members of the settings for changes in a document. -/
def ReviewConfig.record : Json.Record ReviewConfig where
  name := "ChangeConfigInfo"
  blank := ⟨none⟩
  fields :=
    [.optional "enable_assignee" Json.Codec.boolean ReviewConfig.enableAssignee
        fun v c => { c with enableAssignee := v }]

/-- The configuration of a server. -/
structure ServerConfig where
  receive : Option ReceiveConfig
  host : Option HostConfig
  review : Option ReviewConfig
deriving DecidableEq, Repr, Inhabited

namespace ServerConfig

/-- The configuration of a server that says nothing. -/
def blank : ServerConfig := ⟨none, none, none⟩

/-- Whether pushes are expected to be signed. -/
def signedPush (c : ServerConfig) : Bool :=
  (c.receive.bind ReceiveConfig.enableSignedPush).getD false

/-- The name of the primary link, if one is configured. -/
def primaryWebLink? (c : ServerConfig) : Option String := c.host.bind HostConfig.primaryWebLink

/-- Whether changes have assignees. -/
def assigneeEnabled (c : ServerConfig) : Bool :=
  (c.review.bind ReviewConfig.enableAssignee).getD false

/-- The members of a configuration in a document. -/
def record : Json.Record ServerConfig where
  name := "ServerConfig"
  blank := blank
  fields :=
    [.optional "receive" ReceiveConfig.record.codec ServerConfig.receive
        fun v c => { c with receive := v },
     .optional "gerrit" HostConfig.record.codec ServerConfig.host
        fun v c => { c with host := v },
     .optional "change" ReviewConfig.record.codec ServerConfig.review
        fun v c => { c with review := v }]

def codec : Json.Codec ServerConfig := record.codec

end ServerConfig

end ChangeDesk
