import ChangeDesk.Change

/-!
# Editable fields

The fields that a viewer may edit in place, each guarded by an action of its own name.
-/

namespace ChangeDesk

/-- A field that may be edited in place. -/
inductive EditableField where
  | topic
  | hashtags
  | assignee
deriving DecidableEq, Repr

namespace EditableField

def all : List EditableField := [.topic, .hashtags, .assignee]

/-- The name of the action that guards the field. -/
def action : EditableField → String
  | .topic => "topic"
  | .hashtags => "hashtags"
  | .assignee => "assignee"

end EditableField

/-- A field is read-only unless the viewer may edit at all and the server enables its action. -/
def Change.readOnly (c : Change) (mutable : Bool) (field : EditableField) : Bool :=
  !(mutable && c.actionEnabled field.action)

end ChangeDesk
