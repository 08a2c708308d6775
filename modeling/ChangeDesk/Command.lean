import ChangeDesk.Profile
import ChangeDesk.View.Metadata

/-!
# Commands

What can be asked on the command line: to show a change, to edit one on its server, and to keep
the profiles of servers.
-/

namespace ChangeDesk

/-- Where a change is taken from. A snapshot is a file with its document; what is shown of it may
depend on a configuration in another file. -/
inductive ChangeSource where
  | snapshot (path : String) (config : Option String)
  | server (number : ChangeNumber) (profile : String)
deriving DecidableEq, Repr

/-- An edit of one field of a change. Nothing in place of an account or a topic removes it. -/
inductive FieldEdit where
  | assignee (reference : Option String)
  | topic (topic : Option String)
  | hashtag (tag : String) (remove : Bool)
deriving DecidableEq, Repr

/-- The field that is edited. -/
def FieldEdit.field : FieldEdit → EditableField
  | .assignee _ => .assignee
  | .topic _ => .topic
  | .hashtag _ _ => .hashtags

/-- A command on the stored profiles. -/
inductive ProfileCommand where
  | set (name : String) (profile : Profile)
  | describe (name : String)
  | list
deriving DecidableEq, Repr

/-- A command. -/
inductive Command where
  | view (source : ChangeSource) (options : ViewOptions) (asDocument : Bool)
  | edit (number : ChangeNumber) (edit : FieldEdit) (profile : String)
  | profiles (command : ProfileCommand)
deriving DecidableEq, Repr

end ChangeDesk
