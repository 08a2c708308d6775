import ChangeDesk.Http.Message
import ChangeDesk.Remote.Call
import ChangeDesk.Text.Base64

/-!
# The client of a review server

Each call to the server is one request. Calls with credentials go to a part of the server of their
own. A response without a value stands for what was sent; a response that is no success is the
server's refusal.
-/

namespace ChangeDesk.Http

/-- What a client identifies itself by. -/
inductive Credentials where
  | basic (username password : String)
  | bearer (token : String)
deriving DecidableEq, Repr

/-- The header that carries the credentials. -/
def Credentials.header : Credentials → String
  | .basic username password =>
    "Basic " ++ String.ofList (Text.base64 (username ++ ":" ++ password).toUTF8.toList)
  | .bearer token => "Bearer " ++ token

/-- A client of the server at an address. -/
structure Client where
  base : String
  credentials : Option Credentials
deriving DecidableEq, Repr

namespace Client

/-- The client of a server; slashes at the end of its address do not count. -/
def ofAddress (address : String) (credentials : Option Credentials) : Client :=
  ⟨String.ofList (address.toList.reverse.dropWhile (· == '/')).reverse, credentials⟩

/-- The address of a place on the server. -/
def endpoint (c : Client) (place : String) : String :=
  c.base ++ (if c.credentials.isSome then "/a" else "") ++ place

/-- The place of a part of a change. -/
def changePlace (n : ChangeNumber) (part : String) : String := s!"/changes/{n.text}{part}"

/-- What is asked for along with a change, so that everything can be derived from it. -/
def detailOptions : List String :=
  ["ALL_REVISIONS", "ALL_COMMITS", "WEB_LINKS", "PUSH_CERTIFICATES", "CHANGE_ACTIONS",
    "SUBMIT_REQUIREMENTS"]

/-- A request to a place on the server. -/
def request (c : Client) (method : Method) (place : String) (body : Option Json.Value) : Request :=
  ⟨method, c.endpoint place, [], c.credentials.map Credentials.header, body.map Json.Value.toText⟩

/-- The request of a call. Only an account that cannot be addressed has none. -/
def requestOf (c : Client) : Call → Except RemoteFault Request
  | .getConfig => .ok (c.request .get "/config/server/info" none)
  | .getChange n =>
    .ok { c.request .get (changePlace n "/detail") none with
      query := detailOptions.map fun o => ("o", o) }
  | .getAssignee n => .ok (c.request .get (changePlace n "/assignee") none)
  | .setAssignee n account =>
    match account.reference? with
    | none => .error .unaddressable
    | some reference =>
      .ok (c.request .put (changePlace n "/assignee")
        (some (.object [("assignee", .text reference)])))
  | .clearAssignee n => .ok (c.request .delete (changePlace n "/assignee") none)
  | .setTopic n topic =>
    match topic.filter fun t => t != "" with
    | some t => .ok (c.request .put (changePlace n "/topic") (some (.object [("topic", .text t)])))
    | none => .ok (c.request .delete (changePlace n "/topic") none)
  | .editHashtags n edit =>
    .ok (c.request .post (changePlace n "/hashtags") (some (HashtagEdit.codec.write edit)))

/-- The value in a response, if it carries one. -/
def readResponse {α : Type} (codec : Json.Codec α) (r : Response) :
    Except RemoteFault (Option α) :=
  if r.status = 204 then .ok none
  else if r.status < 200 ∨ 300 ≤ r.status then .error (.refused r.status (Text.trimmed r.body))
  else if Text.allBlank r.body then .ok none
  else
    match Json.Document.decode codec r.body with
    | .ok a => .ok (some a)
    | .error f => .error (.undecodable f)

/-- A value that a response must carry. -/
def required {α : Type} (what : String) : Option α → Except RemoteFault α
  | some a => .ok a
  | none => .error (.refused 204 s!"empty response for {what}")

/-- The answer to a call in a response to its request. -/
def readAnswer : (c : Call) → Response → Except RemoteFault c.Answer
  | .getConfig, r => do required "server info" (← readResponse ServerConfig.codec r)
  | .getChange _, r => do required "change" (← readResponse Change.codec r)
  | .getAssignee _, r => readResponse Account.codec r
  | .setAssignee _ account, r => do
    let stored ← readResponse Account.codec r
    return stored.getD account
  | .clearAssignee _, r => do
    let _ ← readResponse Account.codec r
    return ()
  | .setTopic _ _, r => do
    let stored ← readResponse Json.Codec.text r
    return stored.getD ""
  | .editHashtags _ _, r => do
    let stored ← readResponse Json.Codec.text.list r
    return stored.getD []

/-- Why a request cannot be sent, if it cannot; else the address that it asks. -/
def addressOf (r : Request) : Except TransportFault Url :=
  match r.address with
  | .error f => .error (.badUrl f)
  | .ok u => if r.authorization.all Request.isHeaderText then .ok u else .error .badHeader

/-- The answer to a call, for which at most one request is sent. -/
def answer (c : Client) (call : Call) : Wire (Except RemoteFault call.Answer) :=
  match c.requestOf call with
  | .error f => return .error f
  | .ok r =>
    match addressOf r with
    | .error f => return .error (.transport f)
    | .ok u => do
      match ← (Dialogue.question r : Wire (Except Outage Response)) with
      | .ok response => return readAnswer call response
      | .error .unreachable => return .error (.transport (.unreachable u.text))
      | .error .closedEarly => return .error (.transport (.closedEarly u.text))

/-- A computation that calls the server, carried out by requests. -/
def run {α : Type} (c : Client) (d : Remote α) : Wire α := d.interpret c.answer

end Client

end ChangeDesk.Http
