import ChangeDesk.View.Metadata

/-!
# The report on a change

The metadata of a change as lines for people: first the change and its owner, then one line for
each fact that is present, then the parents and the links as indented lists.
-/

namespace ChangeDesk.Report

/-- Whether a field may be edited, in words. -/
def access (readOnly : Bool) : String := if readOnly then "read-only" else "editable"

/-- The line of a person, if there is one. -/
def personLine (label : String) (account : Option Account) : List String :=
  account.toList.map fun a => label ++ a.displayName

/-- The first line: the change and its status. -/
def heading (c : Change) : String :=
  match c.number with
  | some n => s!"Change {n.text} ({c.status.title})"
  | none => s!"Change ({c.status.title})"

/-- The line of the assignee, where changes have one. -/
def assigneeLine (c : Change) (m : Metadata) : List String :=
  if m.assigneeEnabled then
    let name := (c.assignee.map Account.displayName).getD "none"
    [s!"Assignee:   {name} [{access m.assigneeReadOnly}]"]
  else []

/-- The line of the topic. -/
def topicLine (c : Change) (m : Metadata) : String :=
  let topic := c.shownTopic?.getD "none"
  s!"Topic:      {topic} [{access m.topicReadOnly}]"

/-- The line of the hashtags. -/
def hashtagsLine (c : Change) (m : Metadata) : String :=
  let tags := match c.hashtags.getD [] with
    | [] => "none"
    | tags => ", ".intercalate tags
  s!"Hashtags:   {tags} [{access m.hashtagsReadOnly}]"

/-- The line of the change that this one was picked from. -/
def cherryPickLine (c : Change) (m : Metadata) : List String :=
  if m.showsCherryPick then
    let patchSet := match c.cherryPickOfPatchSet with
      | some p => s!",{p.toNat}"
      | none => ""
    c.cherryPickOf.toList.map fun n => s!"Cherry-pick of: {n.text}{patchSet}"
  else []

/-- The text with a space for every line feed. -/
def onOneLine (s : String) : String :=
  String.ofList (s.toList.map fun c => if c = '\n' then ' ' else c)

/-- The line of the push certificate. -/
def certificateLine (m : Metadata) : List String :=
  m.verdict.toList.map fun v => s!"Push cert:  [{v.trust.name}] {onOneLine v.message}"

/-- The lines of the parents: commits abbreviated to seven characters. -/
def parentLines (m : Metadata) : List String :=
  match m.parents with
  | [] => []
  | parents =>
    s!"{m.parentsLabel}:" ::
      parents.map fun p => s!"  {String.ofList (p.commit.toList.take 7)} {p.subject}"

/-- The lines of the links. -/
def linkLines (m : Metadata) : List String :=
  match m.webLinks with
  | none => []
  | some links => "Links:" :: links.map fun l => s!"  {l.name}: {l.url}"

/-- All lines, in order. -/
def lines (c : Change) (m : Metadata) : List String :=
  [heading c, s!"Owner:      {c.owner.displayName}"] ++
    personLine "Uploader:   " m.uploader ++
    personLine "Author:     " m.author ++
    personLine "Committer:  " m.committer ++
    assigneeLine c m ++
    (m.strategy.toList.map fun s => s!"Strategy:   {s}") ++
    [topicLine c m, hashtagsLine c m] ++
    cherryPickLine c m ++
    certificateLine m ++
    parentLines m ++
    linkLines m ++
    (if m.showsRequirements then ["Submit requirements apply"] else [])

/-- The report as one text, without a line feed at its end. -/
def text (c : Change) (m : Metadata) : String := "\n".intercalate (lines c m)

end ChangeDesk.Report
