import ChangeDesk.Dialogue
import ChangeDesk.Http.Url

/-!
# Requests and responses

What is sent to a web server and what it sends back. A request names an address, to which query
parameters are added; a response is its status and the text of its body. There may be no response
at all.
-/

namespace ChangeDesk.Http

/-- What a request asks for. -/
inductive Method where
  | get
  | put
  | post
  | delete
deriving DecidableEq, Repr

def Method.name : Method → String
  | .get => "GET"
  | .put => "PUT"
  | .post => "POST"
  | .delete => "DELETE"

/-- A request. The body, where there is one, is a document. -/
structure Request where
  method : Method
  url : String
  query : List (String × String)
  authorization : Option String
  body : Option String
deriving DecidableEq, Repr

/-- The kind of document that is asked for and sent. -/
def mediaType : String := "application/json"

namespace Request

/-- Query parameters behind those that an address has already. The names and values are plain
words, which need no encoding. -/
def addQuery (u : Url) (pairs : List (String × String)) : Url :=
  if pairs.isEmpty then u
  else
    let added := "&".intercalate (pairs.map fun p => p.1 ++ "=" ++ p.2)
    match u.query with
    | none => { u with query := some added.toList }
    | some [] => { u with query := some added.toList }
    | some q => { u with query := some (q ++ '&' :: added.toList) }

/-- The address that is asked. -/
def address (r : Request) : Except UrlFault Url :=
  (fun u => addQuery u r.query) <$> Url.read r.url

/-- Whether a text may stand in a header: it has no controls but tabs. -/
def isHeaderText (s : String) : Bool :=
  s.toList.all fun c => (0x20 ≤ c.toNat && c.toNat != 0x7f) || c == '\t'

end Request

/-- A response. -/
structure Response where
  status : Nat
  body : String
deriving DecidableEq, Repr

/-- Why there is no response. -/
inductive Outage where
  | unreachable
  | closedEarly
deriving DecidableEq, Repr

/-- A computation that sends requests. -/
abbrev Wire (α : Type) : Type := Dialogue Request (fun _ => Except Outage Response) α

end ChangeDesk.Http
