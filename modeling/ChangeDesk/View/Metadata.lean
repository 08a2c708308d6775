import ChangeDesk.View.Display
import ChangeDesk.View.Editable
import ChangeDesk.View.Links
import ChangeDesk.View.Parents
import ChangeDesk.View.Role
import ChangeDesk.View.Trust

/-!
# Metadata

Everything that is derived from one state of a change for display, in one record.
-/

namespace ChangeDesk

/-- What the viewer adds to a change: whether it may be edited at all, whether its parents are
current, and whether its topic is being edited. -/
structure ViewOptions where
  mutable : Bool
  parentIsCurrent : Bool
  settingTopic : Bool
deriving DecidableEq, Repr, Inhabited

/-- What is shown of a change. -/
structure Metadata where
  uploader : Option Account
  author : Option Account
  committer : Option Account
  verdict : Option Verdict
  parents : List Parent
  parentsLabel : String
  parentsClass : String
  webLinks : Option (List WebLink)
  topicReadOnly : Bool
  hashtagsReadOnly : Bool
  assigneeReadOnly : Bool
  assigneeEnabled : Bool
  strategy : Option String
  showsRequirements : Bool
  showsAddTopic : Bool
  showsTopicChip : Bool
  showsCherryPick : Bool
deriving DecidableEq, Repr

namespace Metadata

/-- What is shown of a change whose commit has the links that a source gives. -/
def ofSource (source : LinkSource) (c : Change) (config : ServerConfig) (view : ViewOptions) :
    Metadata :=
  let parents := shownParents (some c) none
  { uploader := c.nonOwner? .uploader
    author := c.nonOwner? .author
    committer := c.nonOwner? .committer
    verdict := c.verdict? config
    parents := parents
    parentsLabel := ChangeDesk.parentsLabel parents
    parentsClass := ChangeDesk.parentsClass parents view.parentIsCurrent
    webLinks := sourcedLinks? source c.currentCommit? config
    topicReadOnly := c.readOnly view.mutable .topic
    hashtagsReadOnly := c.readOnly view.mutable .hashtags
    assigneeReadOnly := c.readOnly view.mutable .assignee
    assigneeEnabled := config.assigneeEnabled
    strategy := c.shownStrategy?
    showsRequirements := c.showsRequirements
    showsAddTopic := ChangeDesk.showsAddTopic (some c) view.settingTopic
    showsTopicChip := ChangeDesk.showsTopicChip (some c) view.settingTopic
    showsCherryPick := ChangeDesk.showsCherryPick (some c) }

/-- What is shown of a change with the links that the server attached to its commit. -/
def ofChange (c : Change) (config : ServerConfig) (view : ViewOptions) : Metadata :=
  ofSource Commit.webLinks c config view

/-- A value, or null where there is none. -/
def orNull {α : Type} (write : α → Json.Value) : Option α → Json.Value
  | none => .null
  | some a => write a

/-- The metadata as an object; what is absent is null. -/
def toValue (m : Metadata) : Json.Value :=
  .object
    [("uploader", orNull Account.codec.write m.uploader),
     ("author", orNull Account.codec.write m.author),
     ("committer", orNull Account.codec.write m.committer),
     ("push_certificate", orNull Verdict.toValue m.verdict),
     ("parents", Parent.codec.list.write m.parents),
     ("parents_label", .text m.parentsLabel),
     ("parent_list_class", .text m.parentsClass),
     ("web_links", orNull WebLink.codec.list.write m.webLinks),
     ("topic_read_only", .bool m.topicReadOnly),
     ("hashtag_read_only", .bool m.hashtagsReadOnly),
     ("assignee_read_only", .bool m.assigneeReadOnly),
     ("assignee_enabled", .bool m.assigneeEnabled),
     ("strategy", orNull .text m.strategy),
     ("show_requirements", .bool m.showsRequirements),
     ("show_add_topic", .bool m.showsAddTopic),
     ("show_topic_chip", .bool m.showsTopicChip),
     ("show_cherry_pick_of", .bool m.showsCherryPick)]

end Metadata

end ChangeDesk
