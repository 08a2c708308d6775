import ChangeDesk.Command.Fault
import ChangeDesk.Session
import ChangeDesk.View.Report

/-!
# Carrying out commands

What a command prints, and what becomes of the profiles. A command finds its files and the stored
profiles as they are when it begins; the servers are asked one request at a time. A command that
fails prints nothing and stores nothing.
-/

namespace ChangeDesk

/-- What a command finds: the text of the stored profiles, where there is one, and the texts of
files. -/
structure Surroundings where
  profiles : Except FileFault (Option String)
  file : String → Except FileFault String

/-- What a command leaves: lines of output, and the profiles' new text if it is to be stored. -/
structure Outcome where
  lines : List String
  stored : Option String
deriving DecidableEq, Repr

namespace Outcome

/-- The outcome of a command that only prints. -/
def printed (lines : List String) : Outcome := ⟨lines, none⟩

/-- The output as one text. -/
def text (o : Outcome) : String := String.join (o.lines.map (· ++ "\n"))

end Outcome

/-- The files that a command may read. -/
def Command.paths : Command → List String
  | .view (.snapshot path config) _ _ => path :: config.toList
  | _ => []

namespace Surroundings

/-- The stored profiles. -/
def storedProfiles (s : Surroundings) : Except CommandFault Profiles :=
  match s.profiles with
  | .error f => .error (.unreadableProfiles f)
  | .ok text =>
    match Profiles.ofText? text with
    | some ps => .ok ps
    | none => .error .invalidProfiles

theorem storedProfiles_of_read {s : Surroundings} {text : Option String} {ps : Profiles}
    (stored : s.profiles = .ok text) (reads : Profiles.ofText? text = some ps) :
    s.storedProfiles = .ok ps := by
  simp only [storedProfiles, stored, reads]

/-- The client of a profile. -/
def client (s : Surroundings) (profile : String) : Except CommandFault Http.Client := do
  match (← s.storedProfiles).get? profile with
  | some p => return p.client
  | none => .error (.noSuchServer profile)

/-- The document in a file. -/
def document {α : Type} (s : Surroundings) (codec : Json.Codec α) (path : String) :
    Except CommandFault α :=
  match s.file path with
  | .error f => .error (.unreadableFile path f)
  | .ok text =>
    match Json.Document.decode codec text with
    | .ok a => .ok a
    | .error f => .error (.undecodableFile path f)

end Surroundings

/-- A change that a client has loaded. -/
def Http.Client.openSession (c : Http.Client) (n : ChangeNumber) :
    Http.Wire (Except CommandFault Session) := do
  return (← c.run (Session.load n)).mapError .remote

namespace ChangeSource

/-- The change and the configuration of its server. -/
def load (s : Surroundings) :
    ChangeSource → Http.Wire (Except CommandFault (Change × ServerConfig))
  | .snapshot path config =>
    return do
      let change ← s.document Change.codec path
      match config with
      | none => return (change, .blank)
      | some configPath => return (change, ← s.document ServerConfig.codec configPath)
  | .server n profile =>
    match s.client profile with
    | .error f => return .error f
    | .ok client => do
      return (fun session => (session.change, session.config)) <$> (← client.openSession n)

end ChangeSource

namespace FieldEdit

/-- The edit as it is sent, or why it cannot be: a hashtag is trimmed, and one must remain. -/
def normal : FieldEdit → Except CommandFault FieldEdit
  | .hashtag tag remove =>
    let tag := Text.trimmed tag
    if tag = "" then .error .emptyHashtag else .ok (.hashtag tag remove)
  | edit => .ok edit

/-- Why the server does not allow an edit, if it does not. -/
def refusal? (edit : FieldEdit) (n : ChangeNumber) (s : Session) : Option CommandFault :=
  if edit.field = .assignee ∧ !s.config.assigneeEnabled then some .assigneesDisabled
  else if s.change.readOnly true edit.field then some (.readOnly edit.field n)
  else none

/-- What is said of an edit of the assignee. -/
def assigneeMessage (n : ChangeNumber) (issued : Bool) (assignee : Option Account) : String :=
  if issued then
    match assignee with
    | some a => s!"Assigned change {n.text} to {a.displayName}"
    | none => s!"Removed assignee from change {n.text}"
  else "Assignee unchanged"

/-- What is said of an edit of the topic. -/
def topicMessage (n : ChangeNumber) (stored : String) : String :=
  if stored = "" then s!"Removed topic from change {n.text}"
  else s!"Topic of change {n.text} is now '{stored}'"

/-- What is said of an edit of the hashtags. -/
def hashtagsMessage (n : ChangeNumber) (stored : List String) : String :=
  s!"Hashtags of change {n.text}: " ++ ", ".intercalate stored

/-- Edits a field; the result is what to say of it. -/
def apply (n : ChangeNumber) (s : Session) : FieldEdit → Remote (Except RemoteFault String)
  | .assignee reference => do
    let (result, s) ← s.editAssignee (reference.map Account.ofReference).toList
    return (assigneeMessage n · s.change.assignee) <$> result
  | .topic t => do
    let (result, _) ← s.setTopic t
    return topicMessage n <$> result
  | .hashtag tag remove => do
    let (result, _) ← if remove then s.removeHashtag tag else s.addHashtag tag
    return hashtagsMessage n <$> result

end FieldEdit

/-- Carries out a command on the stored profiles. -/
def ProfileCommand.run (ps : Profiles) : ProfileCommand → Except CommandFault Outcome
  | .set name p => .ok ⟨[s!"Saved profile '{name}'"], some (ps.set name p).toText⟩
  | .describe name =>
    match ps.get? name with
    | some p => .ok (.printed (p.lines name))
    | none => .error (.noSuchProfile name)
  | .list =>
    if ps.isEmpty then .ok (.printed ["No profiles configured"])
    else .ok (.printed (ps.entries.map fun e => e.1 ++ "\t" ++ e.2.baseUrl))

namespace Command

/-- The document or the report that shows a change. -/
def viewText (options : ViewOptions) (asDocument : Bool) (change : Change)
    (config : ServerConfig) : String :=
  let shown := Metadata.ofChange change config options
  if asDocument then shown.toValue.toLines else Report.text change shown

/-- Edits a field of a change on its server, if the server allows it. -/
def runEdit (s : Surroundings) (n : ChangeNumber) (edit : FieldEdit) (profile : String) :
    Http.Wire (Except CommandFault Outcome) :=
  match edit.normal, s.client profile with
  | .error f, _ => return .error f
  | .ok _, .error f => return .error f
  | .ok edit, .ok client => do
    match ← client.openSession n with
    | .error f => return .error f
    | .ok session =>
      match edit.refusal? n session with
      | some f => return .error f
      | none =>
        match ← client.run (edit.apply n session) with
        | .error f => return .error (.remote f)
        | .ok line => return .ok (.printed [line])

/-- Carries out a command. -/
def run (s : Surroundings) : Command → Http.Wire (Except CommandFault Outcome)
  | .view source options asDocument => do
    match ← source.load s with
    | .error f => return .error f
    | .ok (change, config) => return .ok (.printed [viewText options asDocument change config])
  | .edit n change profile => runEdit s n change profile
  | .profiles command => return do command.run (← s.storedProfiles)

end Command

/-- How the program ends: its exit code, what it prints, what it reports, and the profiles' new text
if it is to be stored. -/
structure Ending where
  code : UInt32
  output : String
  report : String
  stored : Option String
deriving DecidableEq, Repr

namespace Ending

/-- The end of words that are no command. -/
def misused (message : String) : Ending := ⟨2, "", message ++ "\n", none⟩

/-- The end of a command. -/
def ofResult : Except CommandFault Outcome → Ending
  | .ok outcome => ⟨0, outcome.text, "", outcome.stored⟩
  | .error fault => ⟨1, "", fault.text ++ "\n", none⟩

end Ending

end ChangeDesk
