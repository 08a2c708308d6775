import ChangeDesk.Command
import ChangeDesk.Command.Parameter

/-!
# Command lines

The command that a command line stands for. Faults of single words come first, then parameters
that exclude each other, then parameters that are missing.
-/

namespace ChangeDesk

open Parameters (exclusive required)

/-! ## The parameters of each command -/

/-- The arguments of the command that shows a change. -/
structure ShowArguments where
  snapshot : Option String
  config : Option String
  remote : Option UInt64
  profile : Option String
  mutable : Bool
  parentIsCurrent : Bool
  json : Bool
deriving DecidableEq, Repr, Inhabited

namespace ShowArguments

def parameters : Parameters ShowArguments where
  options :=
    [.path "config" config fun v a => { a with config := some v },
     .number "remote" remote fun v a => { a with remote := some v },
     .text "profile" profile fun v a => { a with profile := some v },
     .switch "mutable" «mutable» fun a => { a with mutable := true },
     .switch "parent-is-current" parentIsCurrent fun a => { a with parentIsCurrent := true },
     .switch "json" json fun a => { a with json := true }]
  positions := [.path "SNAPSHOT" snapshot fun v a => { a with snapshot := some v }]

/-- The change comes either from a snapshot or from a server. -/
def source (a : ShowArguments) : Except UsageFault ChangeSource := do
  exclusive a.remote.isSome (a.snapshot.isSome || a.config.isSome)
  match a.remote with
  | some n => return .server ⟨n⟩ (a.profile.getD Profile.defaultName)
  | none => return .snapshot (← required a.snapshot) a.config

def command (a : ShowArguments) : Except UsageFault Command := do
  return .view (← a.source) ⟨a.mutable, a.parentIsCurrent, false⟩ a.json

end ShowArguments

/-- The arguments of the commands that edit a field: the field's new value, or a switch that
removes what there is. -/
structure EditArguments where
  number : Option UInt64
  value : Option String
  removes : Bool
  profile : Option String
deriving DecidableEq, Repr, Inhabited

namespace EditArguments

/-- The parameters that all edits have. -/
def changeNumber : Parameter EditArguments :=
  .number "NUMBER" number fun v a => { a with number := some v }

@[inherit_doc changeNumber]
def profileName : Parameter EditArguments :=
  .text "profile" profile fun v a => { a with profile := some v }

/-- The new value, by a name. -/
def newValue (name : String) : Parameter EditArguments :=
  .text name value fun v a => { a with value := some v }

/-- The switch that removes, by a name. -/
def removal (name : String) : Parameter EditArguments :=
  .switch name removes fun a => { a with removes := true }

def assigneeParameters : Parameters EditArguments :=
  ⟨[newValue "account", removal "clear", profileName], [changeNumber]⟩

def topicParameters : Parameters EditArguments :=
  ⟨[removal "clear", profileName], [changeNumber, newValue "TOPIC"]⟩

def hashtagParameters : Parameters EditArguments :=
  ⟨[removal "remove", profileName], [changeNumber, newValue "TAG"]⟩

/-- The command of an edit. -/
def command (a : EditArguments) (edit : FieldEdit) : Except UsageFault Command := do
  return .edit ⟨← required a.number⟩ edit (a.profile.getD Profile.defaultName)

/-- The value that a field gets, or none where what there is shall be removed. -/
def newValueOrNone (a : EditArguments) : Except UsageFault (Option String) := do
  exclusive a.removes a.value.isSome
  if a.removes then return none else return some (← required a.value)

def assigneeCommand (a : EditArguments) : Except UsageFault Command := do
  a.command (.assignee (← a.newValueOrNone))

def topicCommand (a : EditArguments) : Except UsageFault Command := do
  a.command (.topic (← a.newValueOrNone))

def hashtagCommand (a : EditArguments) : Except UsageFault Command := do
  a.command (.hashtag (← required a.value) a.removes)

end EditArguments

/-- The arguments of the commands on profiles. -/
structure ProfileArguments where
  baseUrl : Option String
  profile : Option String
  username : Option String
  httpPassword : Option String
  token : Option String
deriving DecidableEq, Repr, Inhabited

namespace ProfileArguments

/-- The name of the profile. -/
def profileName : Parameter ProfileArguments :=
  .text "profile" profile fun v a => { a with profile := some v }

def setParameters : Parameters ProfileArguments where
  options :=
    [profileName,
     .text "username" username fun v a => { a with username := some v },
     .text "http-password" httpPassword fun v a => { a with httpPassword := some v },
     .text "token" token fun v a => { a with token := some v }]
  positions := [.text "BASE_URL" baseUrl fun v a => { a with baseUrl := some v }]

def showParameters : Parameters ProfileArguments := ⟨[profileName], []⟩

def listParameters : Parameters ProfileArguments := ⟨[], []⟩

/-- The profile that is meant. -/
def name (a : ProfileArguments) : String := a.profile.getD Profile.defaultName

/-- A password needs a user name. -/
def setCommand (a : ProfileArguments) : Except UsageFault Command := do
  let baseUrl ← required a.baseUrl
  if a.httpPassword.isSome then let _ ← required a.username
  return .profiles (.set a.name ⟨baseUrl, a.username, a.httpPassword, a.token⟩)

end ProfileArguments

/-! ## Subcommands -/

namespace Command

/-- The names of the commands below one that is made of others. -/
def subcommands : List String → List String
  | [] => ["show", "assignee", "topic", "hashtag", "profile", "help"]
  | ["profile"] => ["set", "show", "list", "help"]
  | _ => []

/-- The outcome of asking for help on a command. -/
def help (path : List String) : List String → UsageFault
  | [] => .helpAsked
  | w :: ws =>
    if (subcommands path).contains w then help (path ++ [w]) ws else .unknownSubcommand

/-- Splits off the name of a command below another. -/
def choose (path : List String) : List String → Except UsageFault (String × List String)
  | [] => .error .noSubcommand
  | w :: ws =>
    if w = "help" then .error (help path ws)
    else if (subcommands path).contains w then .ok (w, ws)
    else
      match Word.ofText w with
      | .dashes =>
        match ws with
        | [] => .error .noSubcommand
        | v :: _ =>
          .error (if (subcommands path).contains v then .unknownArgument else .unknownSubcommand)
      | .option name value =>
        if name ≠ "help" ∧ (name ≠ "version" ∨ path ≠ []) then .error .unknownArgument
        else if value.isSome then .error .surplusValue
        else .error (if name = "help" then .helpAsked else .versionAsked)
      | .letters c =>
        .error (if c = 'h' then .helpAsked
          else if c = 'V' ∧ path = [] then .versionAsked else .unknownArgument)
      | .plain => .error .unknownSubcommand

/-- The command on profiles in the words behind its name. -/
def ofProfileWords (words : List String) : Except UsageFault Command := do
  match ← choose ["profile"] words with
  | ("set", ws) => (← ProfileArguments.setParameters.read default ws).setCommand
  | ("show", ws) =>
    return .profiles (.describe (← ProfileArguments.showParameters.read default ws).name)
  | ("list", ws) =>
    let _ ← ProfileArguments.listParameters.read default ws
    return .profiles .list
  | _ => .error .unknownSubcommand

/-- The command that words stand for. -/
def ofWords (words : List String) : Except UsageFault Command := do
  match ← choose [] words with
  | ("show", ws) => (← ShowArguments.parameters.read default ws).command
  | ("assignee", ws) => (← EditArguments.assigneeParameters.read default ws).assigneeCommand
  | ("topic", ws) => (← EditArguments.topicParameters.read default ws).topicCommand
  | ("hashtag", ws) => (← EditArguments.hashtagParameters.read default ws).hashtagCommand
  | ("profile", ws) => ofProfileWords ws
  | _ => .error .unknownSubcommand

end Command

end ChangeDesk
