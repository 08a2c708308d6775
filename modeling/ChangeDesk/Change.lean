import ChangeDesk.Label
import ChangeDesk.Revision

/-!
# Changes

A change under review, as a server's document tells of it: its state, its revisions, one of which
is current, its labels, and what may be done with it.
-/

namespace ChangeDesk

/-- Whether a change is under review, merged or given up. -/
inductive ChangeStatus where
  | new
  | merged
  | abandoned
deriving DecidableEq, Repr, Inhabited

namespace ChangeStatus

def name : ChangeStatus → String
  | .new => "NEW"
  | .merged => "MERGED"
  | .abandoned => "ABANDONED"

/-- The status in a text for people. -/
def title : ChangeStatus → String
  | .new => "New"
  | .merged => "Merged"
  | .abandoned => "Abandoned"

def codec : Json.Codec ChangeStatus := .enumeration ⟨[.new, .merged, .abandoned], name, none⟩

end ChangeStatus

/-- How a change is submitted. -/
inductive SubmitType where
  | mergeIfNecessary
  | fastForwardOnly
  | rebaseIfNecessary
  | rebaseAlways
  | mergeAlways
  | cherryPick
  | inherit
deriving DecidableEq, Repr, Inhabited

namespace SubmitType

def name : SubmitType → String
  | .mergeIfNecessary => "MERGE_IF_NECESSARY"
  | .fastForwardOnly => "FAST_FORWARD_ONLY"
  | .rebaseIfNecessary => "REBASE_IF_NECESSARY"
  | .rebaseAlways => "REBASE_ALWAYS"
  | .mergeAlways => "MERGE_ALWAYS"
  | .cherryPick => "CHERRY_PICK"
  | .inherit => "INHERIT"

/-- The type in a text for people. -/
def title : SubmitType → String
  | .mergeIfNecessary => "Merge if Necessary"
  | .fastForwardOnly => "Fast Forward Only"
  | .rebaseIfNecessary => "Rebase if Necessary"
  | .rebaseAlways => "Rebase Always"
  | .mergeAlways => "Merge Always"
  | .cherryPick => "Cherry Pick"
  | .inherit => "Inherit"

def codec : Json.Codec SubmitType :=
  .enumeration ⟨[.mergeIfNecessary, .fastForwardOnly, .rebaseIfNecessary, .rebaseAlways,
    .mergeAlways, .cherryPick, .inherit], name, none⟩

end SubmitType

/-- What the server allows of one action on a change. -/
structure Action where
  enabled : Option Bool
  label : Option String
  title : Option String
  method : Option String
deriving DecidableEq, Repr, Inhabited

namespace Action

/-- The members of an action in a document. -/
def record : Json.Record Action where
  name := "ActionInfo"
  blank := ⟨none, none, none, none⟩
  fields :=
    [.optional "enabled" Json.Codec.boolean Action.enabled fun v a => { a with enabled := v },
     .optional "label" Json.Codec.text Action.label fun v a => { a with label := v },
     .optional "title" Json.Codec.text Action.title fun v a => { a with title := v },
     .optional "method" Json.Codec.text Action.method fun v a => { a with method := v }]

def codec : Json.Codec Action := record.codec

end Action

/-- A requirement that a change has to meet before it can be submitted. -/
structure Requirement where
  status : String
  fallbackText : String
  kind : Option String
deriving DecidableEq, Repr, Inhabited

namespace Requirement

/-- The members of a requirement in a document. -/
def record : Json.Record Requirement where
  name := "SubmitRequirement"
  blank := ⟨"", "", none⟩
  fields :=
    [.plain "status" Json.Codec.text Requirement.status fun v r => { r with status := v },
     .plain "fallback_text" Json.Codec.text Requirement.fallbackText
        fun v r => { r with fallbackText := v },
     .optional "type" Json.Codec.text Requirement.kind fun v r => { r with kind := v }]

def codec : Json.Codec Requirement := record.codec

end Requirement

/-- A change under review. -/
structure Change where
  number : Option ChangeNumber
  changeId : Option String
  project : Option String
  branch : Option String
  status : ChangeStatus
  owner : Account
  revisions : Dict Revision
  currentId : Option RevisionId
  labels : Dict Label
  actions : Dict Action
  topic : Option String
  hashtags : Option (List String)
  assignee : Option Account
  workInProgress : Bool
  mergeable : Bool
  submitType : Option SubmitType
  requirements : List Requirement
  cherryPickOf : Option ChangeNumber
  cherryPickOfPatchSet : Option UInt32
deriving DecidableEq

namespace Change

/-- The change of which nothing is known. -/
def blank : Change where
  number := none
  changeId := none
  project := none
  branch := none
  status := .new
  owner := .blank
  revisions := .empty
  currentId := none
  labels := .empty
  actions := .empty
  topic := none
  hashtags := none
  assignee := none
  workInProgress := false
  mergeable := false
  submitType := none
  requirements := []
  cherryPickOf := none
  cherryPickOfPatchSet := none

instance : Inhabited Change := ⟨blank⟩

/-- The revision with a key. -/
def revision? (c : Change) (id : RevisionId) : Option Revision := c.revisions.get? id.text

/-- The revision that the change points at, if it has it. -/
def currentRevision? (c : Change) : Option Revision := c.currentId.bind c.revision?

/-- The commit of the current revision. -/
def currentCommit? (c : Change) : Option Commit := c.currentRevision?.bind Revision.commit

/-- Whether the server says that an action is enabled; one it does not mention is not. -/
def actionEnabled (c : Change) (name : String) : Bool :=
  ((c.actions.get? name).bind Action.enabled).getD false

/-- Whether the change is still under review. -/
def isOpen (c : Change) : Bool := c.status == .new

/-- The members of a change in a document. -/
def record : Json.Record Change where
  name := "Change"
  blank := blank
  fields :=
    [.optional "_number" ChangeNumber.codec Change.number fun v c => { c with number := v },
     .optional "change_id" Json.Codec.text Change.changeId fun v c => { c with changeId := v },
     .optional "project" Json.Codec.text Change.project fun v c => { c with project := v },
     .optional "branch" Json.Codec.text Change.branch fun v c => { c with branch := v },
     .plain "status" ChangeStatus.codec Change.status fun v c => { c with status := v },
     .plain "owner" Account.codec Change.owner fun v c => { c with owner := v },
     .plain "revisions" Revision.codec.dict Change.revisions
        fun v c => { c with revisions := v },
     .optional "current_revision" RevisionId.codec Change.currentId
        fun v c => { c with currentId := v },
     .plain "labels" Label.codec.dict Change.labels fun v c => { c with labels := v },
     .plain "actions" Action.codec.dict Change.actions fun v c => { c with actions := v },
     .optional "topic" Json.Codec.text Change.topic fun v c => { c with topic := v },
     .optional "hashtags" Json.Codec.text.list Change.hashtags
        fun v c => { c with hashtags := v },
     .optional "assignee" Account.codec Change.assignee fun v c => { c with assignee := v },
     .plain "work_in_progress" Json.Codec.boolean Change.workInProgress
        fun v c => { c with workInProgress := v },
     .plain "mergeable" Json.Codec.boolean Change.mergeable
        fun v c => { c with mergeable := v },
     .optional "submit_type" SubmitType.codec Change.submitType
        fun v c => { c with submitType := v },
     .plain "requirements" Requirement.codec.list Change.requirements
        fun v c => { c with requirements := v },
     .optional "cherry_pick_of_change" ChangeNumber.codec Change.cherryPickOf
        fun v c => { c with cherryPickOf := v },
     .optional "cherry_pick_of_patch_set" Json.Codec.uint32 Change.cherryPickOfPatchSet
        fun v c => { c with cherryPickOfPatchSet := v }]

def codec : Json.Codec Change := record.codec

end Change

end ChangeDesk
