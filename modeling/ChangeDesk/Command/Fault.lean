import ChangeDesk.Command
import ChangeDesk.Remote.Fault

/-!
# Faults of commands

Why a command fails, and how that is reported: the outermost cause first, and under it, one line
each, what caused it.
-/

namespace ChangeDesk

/-- Why a file cannot be read as text. -/
inductive FileFault where
  | missing
  | isDirectory
  | notText
  | other (message : String)
deriving DecidableEq, Repr

/-- The wording of a fault. -/
def FileFault.message : FileFault → String
  | .missing => "No such file or directory (os error 2)"
  | .isDirectory => "Is a directory (os error 21)"
  | .notText => "stream did not contain valid UTF-8"
  | .other message => message

/-- Why a command fails. -/
inductive CommandFault where
  | emptyHashtag
  | noSuchServer (profile : String)
  | noSuchProfile (name : String)
  | assigneesDisabled
  | readOnly (field : EditableField) (number : ChangeNumber)
  | unreadableFile (path : String) (fault : FileFault)
  | undecodableFile (path : String) (fault : Json.Fault)
  | unreadableProfiles (fault : FileFault)
  | invalidProfiles
  | remote (fault : RemoteFault)
deriving DecidableEq, Repr

/-- What is said of a field that cannot be edited. -/
def EditableField.readOnlyMessage (n : ChangeNumber) : EditableField → String
  | .topic => s!"topic of change {n.text} is read-only"
  | .hashtags => s!"hashtags of change {n.text} are read-only"
  | .assignee => s!"assignee of change {n.text} is read-only"

namespace CommandFault

/-- The causes of a fault, from the outermost. -/
def causes : CommandFault → List String
  | .emptyHashtag => ["hashtag must not be empty"]
  | .noSuchServer profile => [s!"no profile named '{profile}' (use `revmeta profile set` first)"]
  | .noSuchProfile name => [s!"profile '{name}' not found"]
  | .assigneesDisabled => ["the server has assignees disabled"]
  | .readOnly field number => [field.readOnlyMessage number]
  | .unreadableFile path fault => [s!"reading {path}", fault.message]
  | .undecodableFile path fault =>
    [s!"parsing {path}", Json.Document.message fault, fault.message]
  | .unreadableProfiles fault => [fault.message]
  | .invalidProfiles => ["the profiles are no valid configuration text"]
  | .remote fault => fault.causes

/-- The report of causes. -/
def report (causes : List String) : String :=
  "error: " ++ "\n  caused by: ".intercalate causes

/-- The report of a fault. -/
def text (f : CommandFault) : String := report f.causes

end CommandFault

end ChangeDesk
