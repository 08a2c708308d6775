import ChangeDesk.Change
import ChangeDesk.Dialogue
import ChangeDesk.Remote.Fault
import ChangeDesk.ServerConfig

/-!
# Calls to the server

The questions that the server is asked about a change, and what it answers to each.
-/

namespace ChangeDesk

/-- Hashtags to add and to remove. -/
structure HashtagEdit where
  add : List String
  remove : List String
deriving DecidableEq, Repr, Inhabited

namespace HashtagEdit

/-- The members of an edit in a document; empty lists are left out. -/
def record : Json.Record HashtagEdit where
  name := "HashtagsInput"
  blank := ⟨[], []⟩
  fields :=
    [.nonempty "add" Json.Codec.text HashtagEdit.add fun v e => { e with add := v },
     .nonempty "remove" Json.Codec.text HashtagEdit.remove fun v e => { e with remove := v }]

def codec : Json.Codec HashtagEdit := record.codec

end HashtagEdit

/-- A question to the server. -/
inductive Call where
  | getConfig
  | getChange (n : ChangeNumber)
  | getAssignee (n : ChangeNumber)
  | setAssignee (n : ChangeNumber) (account : Account)
  | clearAssignee (n : ChangeNumber)
  | setTopic (n : ChangeNumber) (topic : Option String)
  | editHashtags (n : ChangeNumber) (edit : HashtagEdit)
deriving DecidableEq, Repr

/-- What a question is answered with: for a topic and hashtags, those that are now stored. -/
def Call.Answer : Call → Type
  | .getConfig => ServerConfig
  | .getChange _ => Change
  | .getAssignee _ => Option Account
  | .setAssignee _ _ => Account
  | .clearAssignee _ => Unit
  | .setTopic _ _ => String
  | .editHashtags _ _ => List String

/-- A computation that calls the server; every call may fail. -/
abbrev Remote (α : Type) : Type := Dialogue Call (fun c => Except RemoteFault c.Answer) α

/-- Makes one call. -/
def Remote.call (c : Call) : Remote (Except RemoteFault c.Answer) := Dialogue.question c

end ChangeDesk
