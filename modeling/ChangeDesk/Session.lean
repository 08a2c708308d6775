import ChangeDesk.Assigner
import ChangeDesk.Feed
import ChangeDesk.View.Metadata

/-!
# Sessions

A change on the desk, edited against the server that holds it. An edit that the server confirms is
written into the change and told to those who follow the session; an edit that fails changes
nothing.
-/

namespace ChangeDesk

/-- An edit that the server has confirmed. -/
inductive SessionEvent where
  | assignee (account : Option Account)
  | topic (stored : String)
  | hashtags (stored : List String)
deriving DecidableEq, Repr

/-- A change that is viewed and edited. -/
structure Session where
  change : Change
  config : ServerConfig
  assigner : Assigner
  feed : Feed SessionEvent

namespace Session

/-- The session of a change that was loaded. -/
def start (change : Change) (config : ServerConfig) : Session :=
  ⟨change, config, (Assigner.start config.assigneeEnabled).reload change, .empty⟩

/-- Loads the configuration of the server and then the change. -/
def load (n : ChangeNumber) : Remote (Except RemoteFault Session) := do
  match ← Remote.call .getConfig with
  | .error f => return .error f
  | .ok config =>
    match ← Remote.call (.getChange n) with
    | .error f => return .error f
    | .ok change => return .ok (start change config)

/-- The assignee that the viewer sees. -/
def assigneeView (s : Session) : List Account := s.assigner.view

/-- Takes a change that was loaded anew. -/
def replaceChange (s : Session) (change : Change) : Session :=
  { s with assigner := s.assigner.reload change, change := change }

/-- What is shown of the change. -/
def metadata (s : Session) (view : ViewOptions) : Metadata := .ofChange s.change s.config view

/-- Tells an event to those who follow the session. -/
def tell (s : Session) (e : SessionEvent) : Session := { s with feed := s.feed.send e }

/-- Edits the assignee. The result says whether the server was called. -/
def editAssignee (s : Session) (desired : List Account) :
    Remote (Except RemoteFault Bool × Session) :=
  match s.assigner.edit s.change desired with
  | (.error f, assigner) => return (.error f, { s with assigner := assigner })
  | (.ok none, assigner) => return (.ok false, { s with assigner := assigner })
  | (.ok (some call), assigner) => do
    let outcome ← call.issue
    let (result, assigner, change) := assigner.conclude call outcome s.change
    let s := { s with assigner := assigner, change := change }
    match result with
    | .error f => return (.error f, s)
    | .ok () => return (.ok true, s.tell (.assignee change.assignee))

/-- Sets the topic, or removes it. The result is the topic that the server stored. -/
def setTopic (s : Session) (topic : Option String) :
    Remote (Except RemoteFault String × Session) :=
  match s.change.number with
  | none => return (.error .noChangeNumber, s)
  | some n => do
    match ← Remote.call (.setTopic n topic) with
    | .error f => return (.error f, s)
    | .ok stored =>
      let s := { s with change := { s.change with topic := some stored } }
      return (.ok stored, s.tell (.topic stored))

/-- Edits the hashtags. The result is the list that the server stored. -/
def editHashtags (s : Session) (edit : HashtagEdit) :
    Remote (Except RemoteFault (List String) × Session) :=
  match s.change.number with
  | none => return (.error .noChangeNumber, s)
  | some n => do
    match ← Remote.call (.editHashtags n edit) with
    | .error f => return (.error f, s)
    | .ok stored =>
      let s := { s with change := { s.change with hashtags := some stored } }
      return (.ok stored, s.tell (.hashtags stored))

/-- Adds a hashtag. -/
def addHashtag (s : Session) (tag : String) :
    Remote (Except RemoteFault (List String) × Session) := s.editHashtags ⟨[tag], []⟩

/-- Removes a hashtag. -/
def removeHashtag (s : Session) (tag : String) :
    Remote (Except RemoteFault (List String) × Session) := s.editHashtags ⟨[], [tag]⟩

end Session

end ChangeDesk
