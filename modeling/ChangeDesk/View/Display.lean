import ChangeDesk.Change

/-!
# What is shown

Small decisions about the parts of the page: the submit strategy, the requirements, the topic and
the change that this one was picked from.
-/

namespace ChangeDesk

namespace Change

/-- Closed changes have no submit strategy. -/
def hidesStrategy (c : Change) : Bool := !c.isOpen

/-- The submit strategy in words. -/
def strategyLabel? (c : Change) : Option String := c.submitType.map SubmitType.title

/-- The submit strategy, where it is shown. -/
def shownStrategy? (c : Change) : Option String :=
  if c.hidesStrategy then none else c.strategyLabel?

/-- An open change shows its requirements if it is still worked on, or has labels or requirements
to tell of. -/
def showsRequirements (c : Change) : Bool :=
  c.isOpen && (c.workInProgress || !c.labels.isEmpty || !c.requirements.isEmpty)

/-- The topic, if it is not empty. -/
def shownTopic? (c : Change) : Option String := c.topic.filter fun t => t != ""

/-- Whether the change was picked from another. -/
def wasPicked (c : Change) : Bool := c.cherryPickOf.isSome

end Change

/-- Whether there is a change and it has a topic. -/
def hasTopic (change : Option Change) : Bool := (change.bind Change.shownTopic?).isSome

/-- Whether to offer to add a topic. -/
def showsAddTopic (change : Option Change) (settingTopic : Bool) : Bool :=
  !hasTopic change && !settingTopic

/-- Whether to show the topic. -/
def showsTopicChip (change : Option Change) (settingTopic : Bool) : Bool :=
  hasTopic change && !settingTopic

/-- Whether to tell which change this one was picked from. -/
def showsCherryPick (change : Option Change) : Bool :=
  (change.map Change.wasPicked).getD false

end ChangeDesk
