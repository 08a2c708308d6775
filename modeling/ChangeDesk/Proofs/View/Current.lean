import ChangeDesk.Proofs.Session.Edits

/-!
# What the metadata depends on

The metadata of a change is made of its current revision and a handful of facts that open and close
parts of the page. Changes that agree on these are shown alike, however much they differ elsewhere:
in their other revisions, in the key of the current one, in their assignee or their hashtags.

Main statement: what is shown depends on these facts only (`Metadata.ofSource_current`).
-/

namespace ChangeDesk

/-- The facts of two changes that what is shown of them depends on. -/
structure Change.Alike (c c' : Change) : Prop where
  status : c.status = c'.status
  owner : c.owner = c'.owner
  topic : c.topic.getD "" = "" ↔ c'.topic.getD "" = ""
  actions : ∀ field : EditableField, c.actionEnabled field.action = c'.actionEnabled field.action
  workInProgress : c.workInProgress = c'.workInProgress
  submitType : c.submitType = c'.submitType
  labels : c.labels.isEmpty = c'.labels.isEmpty
  requirements : c.requirements.isEmpty = c'.requirements.isEmpty
  picked : c.cherryPickOf.isSome = c'.cherryPickOf.isSome
  current : c.currentRevision? = c'.currentRevision?

namespace Change

variable {c c' : Change}

/-! ### Facts -/

theorem shownTopic?_isSome (c : Change) :
    c.shownTopic?.isSome = !decide (c.topic.getD "" = "") := by
  unfold shownTopic?
  cases c.topic with
  | none => rfl
  | some t =>
    by_cases ht : t = ""
    · simp [ht]
    · simp [ht]

namespace Alike

theorem isOpen (h : c.Alike c') : c.isOpen = c'.isOpen := by
  rw [Change.isOpen, Change.isOpen, h.status]

theorem currentCommit? (h : c.Alike c') : c.currentCommit? = c'.currentCommit? := by
  rw [Change.currentCommit?, Change.currentCommit?, h.current]

theorem nonOwner? (h : c.Alike c') (role : Role) : c.nonOwner? role = c'.nonOwner? role := by
  rw [Change.nonOwner?, Change.nonOwner?, h.current, h.owner]

theorem verdict? (h : c.Alike c') (config : ServerConfig) :
    c.verdict? config = c'.verdict? config := by
  rw [Change.verdict?, Change.verdict?, h.current]

theorem shownParents (h : c.Alike c') (selected : Option Revision) :
    ChangeDesk.shownParents (some c) selected = ChangeDesk.shownParents (some c') selected := by
  have hcurrent : (some c).bind Change.currentRevision? = (some c').bind Change.currentRevision? :=
    h.current
  rw [ChangeDesk.shownParents, ChangeDesk.shownParents, hcurrent]

theorem readOnly (h : c.Alike c') (mutable : Bool) (field : EditableField) :
    c.readOnly mutable field = c'.readOnly mutable field := by
  rw [Change.readOnly, Change.readOnly, h.actions field]

theorem shownStrategy? (h : c.Alike c') : c.shownStrategy? = c'.shownStrategy? := by
  have hstrategy : c.strategyLabel? = c'.strategyLabel? := by
    rw [strategyLabel?, strategyLabel?, h.submitType]
  rw [Change.shownStrategy?, Change.shownStrategy?, hidesStrategy, hidesStrategy, h.isOpen,
    hstrategy]

theorem showsRequirements (h : c.Alike c') : c.showsRequirements = c'.showsRequirements := by
  rw [Change.showsRequirements, Change.showsRequirements, h.isOpen, h.workInProgress, h.labels,
    h.requirements]

theorem hasTopic (h : c.Alike c') :
    ChangeDesk.hasTopic (some c) = ChangeDesk.hasTopic (some c') := by
  show c.shownTopic?.isSome = c'.shownTopic?.isSome
  rw [shownTopic?_isSome, shownTopic?_isSome, decide_eq_decide.2 h.topic]

theorem showsCherryPick (h : c.Alike c') :
    ChangeDesk.showsCherryPick (some c) = ChangeDesk.showsCherryPick (some c') := h.picked

/-- What is shown of two changes that agree on these facts is the same. -/
theorem metadata (h : c.Alike c') (source : LinkSource) (config : ServerConfig)
    (view : ViewOptions) :
    Metadata.ofSource source c config view = Metadata.ofSource source c' config view := by
  simp only [Metadata.ofSource, ChangeDesk.showsAddTopic, ChangeDesk.showsTopicChip, h.nonOwner?,
    h.verdict?, h.shownParents, h.currentCommit?, h.readOnly, h.shownStrategy?,
    h.showsRequirements, h.hasTopic, h.showsCherryPick]

end Alike

/-! ### Changes that are shown alike -/

theorem alike_of_dangling {id : RevisionId} (hid : c.currentId = some id)
    (hmissing : c.revision? id = none) : c.Alike { c with currentId := none } := by
  have hcurrent : c.currentRevision? = none := by
    rw [currentRevision?, hid, Option.bind_some, hmissing]
  exact ⟨rfl, rfl, .rfl, fun _ => rfl, rfl, rfl, rfl, rfl, rfl, hcurrent⟩

theorem alike_of_revisions {revisions : Dict Revision}
    (h : ∀ id, c.currentId = some id → revisions.get? id.text = c.revisions.get? id.text) :
    { c with revisions := revisions }.Alike c := by
  have hcurrent : { c with revisions := revisions }.currentRevision? = c.currentRevision? := by
    show c.currentId.bind (fun id => revisions.get? id.text) = c.currentId.bind c.revision?
    cases hid : c.currentId with
    | none => rfl
    | some id => exact h id hid
  exact ⟨rfl, rfl, .rfl, fun _ => rfl, rfl, rfl, rfl, rfl, rfl, hcurrent⟩

theorem alike_of_assignee (c : Change) (account : Option Account) (tags : Option (List String)) :
    { c with assignee := account, hashtags := tags }.Alike c :=
  ⟨rfl, rfl, .rfl, fun _ => rfl, rfl, rfl, rfl, rfl, rfl, rfl⟩

end Change

/-- An edit of a session that is not of the topic writes the assignee or the hashtags, if
anything. -/
theorem Session.Performed.writes {s s' : Session} {edit : SessionEdit}
    {talk : List Remote.Exchange} {result : Except RemoteFault EditReply}
    (h : s.Performed edit talk result s') (hedit : ∀ wanted, edit ≠ .topic wanted) :
    s'.config = s.config ∧ ∃ account tags,
      s'.change = { s.change with assignee := account, hashtags := tags } := by
  cases h with
  | refused why => exact ⟨rfl, _, _, rfl⟩
  | ignored one off => exact ⟨rfl, _, _, rfl⟩
  | agreed one on numbered same => exact ⟨rfl, _, _, rfl⟩
  | failed fault numbered needed => exact ⟨rfl, _, _, rfl⟩
  | confirmed numbered needed confirms =>
    cases confirms with
    | topic wanted stored => exact absurd rfl (hedit wanted)
    | _ => exact ⟨rfl, _, _, rfl⟩

namespace Metadata

/-- What is shown of a change depends on its current revision and a few facts only: of two changes
that agree on these the same is shown. So a key of a revision that is not there counts like none,
the other revisions may be replaced, dropped or added to at will, the assignee and the hashtags do
not matter, and no edit of them in a session, whatever the server answers, changes what is shown. -/
theorem ofSource_current (source : LinkSource) (config : ServerConfig) (view : ViewOptions) :
    (∀ c c' : Change, c.Alike c' → ofSource source c config view = ofSource source c' config view) ∧
    (∀ (c : Change) (id : RevisionId), c.currentId = some id → c.revision? id = none →
      ofSource source c config view = ofSource source { c with currentId := none } config view) ∧
    (∀ (c : Change) (revisions : Dict Revision),
      (∀ id, c.currentId = some id → revisions.get? id.text = c.revisions.get? id.text) →
      ofSource source { c with revisions := revisions } config view =
        ofSource source c config view) ∧
    (∀ (c : Change) (account : Option Account) (tags : Option (List String)),
      ofSource source { c with assignee := account, hashtags := tags } config view =
        ofSource source c config view) ∧
    (∀ (s : Session) (edit : SessionEdit) (answers : Remote.Answers),
      (∀ wanted, edit ≠ .topic wanted) →
      let s' := ((s.perform edit).converse answers).2.2
      s'.config = s.config ∧
        ofSource source s'.change config view = ofSource source s.change config view) := by
  refine ⟨?_, ?_, ?_, ?_, ?_⟩
  · intro c c' h
    exact h.metadata source config view
  · intro c id hid hmissing
    exact (Change.alike_of_dangling hid hmissing).metadata source config view
  · intro c revisions h
    exact (Change.alike_of_revisions h).metadata source config view
  · intro c account tags
    exact (c.alike_of_assignee account tags).metadata source config view
  · intro s edit answers hedit s'
    have hp := Session.performed_of_held (Dialogue.held_converse answers (s.perform edit))
    obtain ⟨hconfig, account, tags, hchange⟩ := hp.writes hedit
    have halike : s'.change.Alike s.change := by
      rw [hchange]
      exact s.change.alike_of_assignee account tags
    exact ⟨hconfig, halike.metadata source config view⟩

/-- The same revision under two keys, beside another in one change, and with another topic and
another assignee. -/
theorem ofSource_current_renamed :
    let commit : Commit := ⟨none, some (.withEmail "a@b"), none, some [⟨"p", ""⟩], "", none, []⟩
    let revision : Revision := ⟨2, none, some commit, none, none⟩
    let c : Change := { Change.blank with
      revisions := .ofList [("one", ⟨1, none, none, none, none⟩), ("two", revision)]
      currentId := some ⟨"two"⟩, topic := some "t", assignee := some .blank }
    let c' : Change := { Change.blank with
      revisions := .ofList [("2", revision)]
      currentId := some ⟨"2"⟩, topic := some "other" }
    c ≠ c' ∧ c.Alike c' ∧
      ∀ config view,
        ofSource Commit.webLinks c config view = ofSource Commit.webLinks c' config view := by
  intro commit revision c c'
  have halike : c.Alike c' :=
    ⟨rfl, rfl, by decide, fun _ => rfl, rfl, rfl, rfl, rfl, rfl, by decide⟩
  refine ⟨?_, halike, ?_⟩
  · intro h
    exact absurd (congrArg Change.topic h) (by decide)
  · intro config view
    exact (ofSource_current Commit.webLinks config view).1 c c' halike

end Metadata

end ChangeDesk
