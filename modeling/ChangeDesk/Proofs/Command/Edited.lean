import ChangeDesk.Command.Run
import ChangeDesk.Proofs.Http.Answer
import ChangeDesk.Proofs.Session.Edits

/-!
# Edits of a loaded change

Two documents are fetched before a change is edited, the configuration of the server and the change
itself. They say whether the server allows the edit; only then is there a third request.

Main statements: how both documents are fetched (`Http.Client.fetched_of_held`), and the ways an
edit can end once they are there (`FieldEdit.edited_of_held`).
-/

namespace ChangeDesk

/-! ### The documents of a change -/

namespace Http.Client

/-- The request for the configuration of the server. -/
def infoRequest (c : Client) : Request := c.request .get "/config/server/info" none

/-- The request for a change in all its detail. -/
def detailRequest (c : Client) (n : ChangeNumber) : Request :=
  { c.request .get (changePlace n "/detail") none with
    query := detailOptions.map fun o => ("o", o) }

/-- Both documents were asked for, and came back in responses that carry them. -/
structure Fetched (c : Client) (n : ChangeNumber) (talk : List Exchange) (config : ServerConfig)
    (change : Change) : Prop where
  requests : talk.map Exchange.request = [c.infoRequest, c.detailRequest n]
  replies : ∃ r₁ r₂, talk.map Exchange.reply = [.ok r₁, .ok r₂] ∧
    r₁.Yields ServerConfig.codec config ∧ r₂.Yields Change.codec change

variable {c : Client} {n : ChangeNumber} {talk : List Exchange}

theorem Fetched.length_eq {config : ServerConfig} {change : Change}
    (h : c.Fetched n talk config change) : talk.length = 2 := by
  have hlength := congrArg List.length h.requests
  rwa [List.length_map] at hlength

theorem Fetched.unique {config config' : ServerConfig} {change change' : Change}
    (h : c.Fetched n talk config change) (h' : c.Fetched n talk config' change') :
    config = config' ∧ change = change' := by
  obtain ⟨r₁, r₂, hreplies, hinfo, hdetail⟩ := h.replies
  obtain ⟨r₁', r₂', hreplies', hinfo', hdetail'⟩ := h'.replies
  rw [hreplies] at hreplies'
  cases hreplies'
  exact ⟨hinfo.unique hinfo', hdetail.unique hdetail'⟩

theorem get_of_mem_requests {r : Request} (h : r ∈ [c.infoRequest, c.detailRequest n]) :
    r.method = .get := by
  simp only [List.mem_cons, List.not_mem_nil, or_false] at h
  rcases h with rfl | rfl <;> rfl

theorem Fetched.get_of_mem {config : ServerConfig} {change : Change} {exchange : Exchange}
    (h : c.Fetched n talk config change) (hmem : exchange ∈ talk) :
    exchange.request.method = .get := by
  have hrequest := List.mem_map_of_mem hmem (f := Exchange.request)
  rw [h.requests] at hrequest
  exact get_of_mem_requests hrequest

theorem not_fetched_of_length (h : talk.length ≠ 2) (config : ServerConfig) (change : Change) :
    ¬ c.Fetched n talk config change := fun hf => h hf.length_eq

/-- Opening a session fetches both documents, or fails for want of one of them. -/
theorem fetched_of_held {result : Except CommandFault Session}
    (h : (c.openSession n).Held talk result) :
    (∃ fault, result = .error fault ∧
      talk.map Exchange.request <+: [c.infoRequest, c.detailRequest n] ∧
      ∀ config change, ¬ c.Fetched n talk config change) ∨
    (∃ config change, c.Fetched n talk config change ∧ result = .ok (.start change config)) := by
  obtain ⟨loaded, hload, rfl⟩ := Dialogue.held_bind_pure h
  obtain ⟨inner, hinner, hcarried⟩ := Dialogue.held_interpret c.answer hload
  cases Session.loaded_of_held hinner with
  | noConfig fault =>
    left
    refine ⟨_, rfl, ?_⟩
    -- there is one exchange at most, so not both documents came back
    cases answered_of_held hcarried.of_single with
    | unsent => exact ⟨List.nil_prefix, not_fetched_of_length (by simp)⟩
    | lost asked =>
      obtain rfl := Except.ok.inj asked
      exact ⟨⟨[c.detailRequest n], rfl⟩, not_fetched_of_length (by simp)⟩
    | received asked reads =>
      obtain rfl := Except.ok.inj asked
      exact ⟨⟨[c.detailRequest n], rfl⟩, not_fetched_of_length (by simp)⟩
  | noChange config fault =>
    left
    refine ⟨_, rfl, ?_⟩
    obtain ⟨first, second, hfirst, hsecond, rfl⟩ := hcarried.of_cons
    obtain ⟨r, response, rfl, hasked, -⟩ := (answered_of_held hfirst).of_ok
    obtain rfl := Except.ok.inj hasked
    cases answered_of_held hsecond.of_single with
    | unsent => exact ⟨⟨[c.detailRequest n], rfl⟩, not_fetched_of_length (by simp)⟩
    | lost asked =>
      obtain rfl := Except.ok.inj asked
      refine ⟨List.prefix_refl _, ?_⟩
      rintro config' change ⟨-, r₁, r₂, ⟨⟩, -⟩
    | received asked reads =>
      -- both requests got a response, but the second does not carry a change
      obtain rfl := Except.ok.inj asked
      refine ⟨List.prefix_refl _, ?_⟩
      rintro config' change ⟨-, r₁, r₂, ⟨⟩, -, hdetail⟩
      rw [readAnswer_change.2 hdetail] at reads
      cases reads
  | loaded config change =>
    right
    obtain ⟨first, second, hfirst, hsecond, rfl⟩ := hcarried.of_cons
    obtain ⟨r₁, response₁, rfl, hinfo, hconfig⟩ := (answered_of_held hfirst).of_ok
    obtain ⟨r₂, response₂, rfl, hdetail, hchange⟩ := (answered_of_held hsecond.of_single).of_ok
    obtain rfl := Except.ok.inj hinfo
    obtain rfl := Except.ok.inj hdetail
    exact ⟨config, change, ⟨rfl, response₁, response₂, rfl, readAnswer_config.1 hconfig,
      readAnswer_change.1 hchange⟩, rfl⟩

end Http.Client

/-! ### What the server allows -/

/-- The server allows the edit of a field of a change: the change has a number, the action that
guards the field is enabled, and for the assignee, changes have one. -/
structure Allows (config : ServerConfig) (change : Change) (field : EditableField) : Prop where
  numbered : change.number.isSome
  enabled : ∃ action, change.actions.get? field.action = some action ∧ action.enabled = some true
  assignees : field = .assignee → config.assigneeEnabled = true

theorem actionEnabled_iff {c : Change} {name : String} :
    c.actionEnabled name = true ↔
      ∃ action, c.actions.get? name = some action ∧ action.enabled = some true := by
  unfold Change.actionEnabled
  cases c.actions.get? name with
  | none => simp
  | some action =>
    cases henabled : action.enabled with
    | none => simp [henabled]
    | some enabled => simp [henabled]

/-- A response to an edit of a field is read: it carries nothing, or what is stored now. -/
def EditableField.Reads (r : Http.Response) : EditableField → Prop
  | .assignee => ∃ stored, Http.Client.readResponse Account.codec r = .ok stored
  | .topic => ∃ stored, Http.Client.readResponse Json.Codec.text r = .ok stored
  | .hashtags => ∃ stored, Http.Client.readResponse Json.Codec.text.list r = .ok stored

namespace FieldEdit

/-- The edit as one of the session. -/
def toSession : FieldEdit → SessionEdit
  | .assignee reference => .assignee (reference.map Account.ofReference).toList
  | .topic wanted => .topic wanted
  | .hashtag tag remove => if remove then .removeHashtag tag else .addHashtag tag

/-- The edit asks for what the change has already. Topics and hashtags are not compared. -/
def Stands (c : Change) : FieldEdit → Prop
  | .assignee reference => sameTarget (reference.map Account.ofReference) c.assignee = true
  | _ => False

variable {edit : FieldEdit} {n : ChangeNumber} {s : Session}

theorem refusal?_none (h : edit.refusal? n s = none) :
    (∃ action, s.change.actions.get? edit.field.action = some action ∧
      action.enabled = some true) ∧
    (edit.field = .assignee → s.config.assigneeEnabled = true) := by
  unfold refusal? at h
  split at h
  · cases h
  rename_i hassignees
  split at h
  · cases h
  rename_i hwritable
  constructor
  · rw [← actionEnabled_iff]
    simpa [Change.readOnly] using hwritable
  · intro hfield
    simpa [hfield] using hassignees

theorem refusal?_some {fault : CommandFault} (h : edit.refusal? n s = some fault) :
    ¬ Allows s.config s.change edit.field := by
  intro hallows
  unfold refusal? at h
  split at h
  · rename_i hdisabled
    have hon := hallows.assignees hdisabled.1
    simp [hon] at hdisabled
  · split at h
    · rename_i hreadOnly
      have henabled := actionEnabled_iff.2 hallows.enabled
      simp [Change.readOnly, henabled] at hreadOnly
    · cases h

end FieldEdit

/-- What is said of an edit that left the change as `c`. -/
def EditReply.line (n : ChangeNumber) (c : Change) : EditReply → String
  | .assignee called => FieldEdit.assigneeMessage n called c.assignee
  | .topic stored => FieldEdit.topicMessage n stored
  | .hashtags stored => FieldEdit.hashtagsMessage n stored

namespace FieldEdit

variable {edit : FieldEdit} {n : ChangeNumber} {s : Session}

/-- An edit from the command line is one of the session, with a line that says what came of it. -/
theorem performed_of_apply {talk : List Remote.Exchange} {result : Except RemoteFault String}
    (h : (edit.apply n s).Held talk result) :
    ∃ outcome s', s.Performed edit.toSession talk outcome s' ∧
      result = outcome.map (EditReply.line n s'.change) := by
  cases edit with
  | assignee reference =>
    obtain ⟨⟨r, s'⟩, hedit, rfl⟩ := Dialogue.held_bind_pure h
    refine ⟨_, s', Session.performed_assignee hedit, ?_⟩
    cases r <;> rfl
  | topic wanted =>
    obtain ⟨⟨r, s'⟩, hedit, rfl⟩ := Dialogue.held_bind_pure h
    refine ⟨_, s', Session.performed_topic hedit, ?_⟩
    cases r <;> rfl
  | hashtag tag remove =>
    cases remove with
    | true =>
      obtain ⟨⟨r, s'⟩, hedit, rfl⟩ := Dialogue.held_bind_pure h
      refine ⟨_, s', Session.performed_removeHashtag hedit, ?_⟩
      cases r <;> rfl
    | false =>
      obtain ⟨⟨r, s'⟩, hedit, rfl⟩ := Dialogue.held_bind_pure h
      refine ⟨_, s', Session.performed_addHashtag hedit, ?_⟩
      cases r <;> rfl

/-! ### The request of an edit -/

theorem requestOf_edit {client : Http.Client} {e : SessionEdit} {k : ChangeNumber}
    {w : Http.Request} (h : client.requestOf (e.call k) = .ok w) : w.method ≠ .get := by
  cases e with
  | assignee desired =>
    cases hd : desired.head? with
    | none =>
      rw [SessionEdit.call, hd] at h
      obtain rfl := Except.ok.inj h
      nofun
    | some account =>
      rw [SessionEdit.call, hd, Option.elim_some, Http.Client.requestOf] at h
      split at h
      · cases h
      · obtain rfl := Except.ok.inj h
        nofun
  | topic wanted =>
    rw [SessionEdit.call, Http.Client.requestOf] at h
    split at h
    · obtain rfl := Except.ok.inj h
      nofun
    · obtain rfl := Except.ok.inj h
      nofun
  | addHashtag tag =>
    obtain rfl := Except.ok.inj h
    nofun
  | removeHashtag tag =>
    obtain rfl := Except.ok.inj h
    nofun

theorem exists_map_ok {ε α β : Type} {x : Except ε α} {f : α → β} :
    (∃ b, (x >>= fun a => pure (f a)) = .ok b) ↔ ∃ a, x = .ok a := by
  cases x with
  | error e => exact ⟨nofun, nofun⟩
  | ok a => exact ⟨fun _ => ⟨a, rfl⟩, fun _ => ⟨f a, rfl⟩⟩

theorem reads_iff {k : ChangeNumber} {r : Http.Response} :
    edit.field.Reads r ↔ ∃ a, Http.Client.readAnswer (edit.toSession.call k) r = .ok a := by
  cases edit with
  | assignee reference =>
    cases reference with
    | none => exact exists_map_ok.symm
    | some text => exact exists_map_ok.symm
  | topic wanted => exact exists_map_ok.symm
  | hashtag tag remove =>
    cases remove with
    | true => exact exists_map_ok.symm
    | false => exact exists_map_ok.symm

/-! ### Edits of a loaded change -/

/-- All ways an edit can end once the change is loaded: the server does not allow it, its request
cannot be made, the change has what is asked for, the request fails, or its response is read. -/
inductive Edited (client : Http.Client) (config : ServerConfig) (change : Change)
    (edit : FieldEdit) : List Http.Exchange → Except CommandFault Outcome → Prop where
  | denied (fault : CommandFault) (why : ¬ Allows config change edit.field) :
    Edited client config change edit [] (.error fault)
  | unsent (fault : CommandFault) (allowed : Allows config change edit.field)
    (differs : ¬ edit.Stands change) : Edited client config change edit [] (.error fault)
  | unchanged (line : String) (allowed : Allows config change edit.field)
    (stands : edit.Stands change) :
    Edited client config change edit [] (.ok (.printed [line]))
  | failed {k : ChangeNumber} {w : Http.Request} {reply : Except Http.Outage Http.Response}
    (fault : CommandFault) (allowed : Allows config change edit.field)
    (differs : ¬ edit.Stands change) (numbered : change.number = some k)
    (asked : client.requestOf (edit.toSession.call k) = .ok w)
    (unread : ∀ response, reply = .ok response → ¬ edit.field.Reads response) :
    Edited client config change edit [⟨w, reply⟩] (.error fault)
  | done {k : ChangeNumber} {w : Http.Request} {response : Http.Response} (line : String)
    (allowed : Allows config change edit.field) (differs : ¬ edit.Stands change)
    (numbered : change.number = some k)
    (asked : client.requestOf (edit.toSession.call k) = .ok w)
    (reads : edit.field.Reads response) :
    Edited client config change edit [⟨w, .ok response⟩] (.ok (.printed [line]))

variable {client : Http.Client} {config : ServerConfig} {change : Change}

theorem not_stands_of_needs (h : (Session.start change config).Needs edit.toSession) :
    ¬ edit.Stands change := by
  cases edit with
  | assignee reference =>
    intro hstands
    have hother := h.2.2
    rw [Option.head?_toList] at hother
    exact Bool.false_ne_true (hother.symm.trans hstands)
  | _ => exact not_false

theorem toSession_assignee {desired : List Account} (h : edit.toSession = .assignee desired) :
    ∃ reference, edit = .assignee reference ∧
      desired = (reference.map Account.ofReference).toList := by
  cases edit with
  | assignee reference =>
    cases h
    exact ⟨reference, rfl, rfl⟩
  | topic wanted => cases h
  | hashtag tag remove => cases remove <;> cases h

/-- An edit from the command line is not refused by the session of a change with a number. -/
theorem not_refused {fault : RemoteFault} (hn : change.number.isSome) :
    ¬ (Session.start change config).Refuses edit.toSession fault := by
  generalize hsession : edit.toSession = e
  intro h
  cases h with
  | tooMany desired many =>
    obtain ⟨reference, -, rfl⟩ := toSession_assignee hsession
    have hone : (reference.map Account.ofReference).toList.length ≤ 1 := Option.length_toList_le
    omega
  | unnumbered _ missing taken =>
    have hmissing : change.number = none := missing
    rw [hmissing] at hn
    cases hn

/-- What a command makes of the result of an edit. -/
def outcome : Except RemoteFault String → Except CommandFault Outcome
  | .error fault => .error (.remote fault)
  | .ok line => .ok (.printed [line])

theorem edited_of_held {talk : List Http.Exchange} {result : Except RemoteFault String}
    (hopen : edit.refusal? n (.start change config) = none)
    (h : (client.run (edit.apply n (.start change config))).Held talk result) :
    Edited client config change edit talk (outcome result) := by
  obtain ⟨henabled, hassignees⟩ := refusal?_none hopen
  have hallows : ∀ k, change.number = some k → Allows config change edit.field := fun k hk =>
    ⟨Option.isSome_iff_exists.2 ⟨k, hk⟩, henabled, hassignees⟩
  obtain ⟨inner, hinner, hcarried⟩ := Dialogue.held_interpret client.answer h
  obtain ⟨performed, s', hp, rfl⟩ := performed_of_apply hinner
  -- the session edit has to be a variable for the cases to be those of a session
  generalize hsession : edit.toSession = e at hp
  cases hp with
  | refused why =>
    subst hsession
    rw [hcarried.eq_nil]
    exact .denied _ fun hallowed => not_refused hallowed.numbered why
  | ignored one off =>
    -- the command has refused before what a session would ignore
    obtain ⟨reference, rfl, -⟩ := toSession_assignee hsession
    have hon : config.assigneeEnabled = true := hassignees rfl
    have hoff : config.assigneeEnabled = false := off
    rw [hon] at hoff
    cases hoff
  | agreed one on numbered same =>
    obtain ⟨reference, rfl, rfl⟩ := toSession_assignee hsession
    rw [Option.head?_toList] at same
    rw [hcarried.eq_nil]
    exact .unchanged _ (hallows _ numbered) same
  | @failed _ k fault numbered needed =>
    subst hsession
    have hallowed := hallows k numbered
    have hdiffers := not_stands_of_needs needed
    cases Http.Client.answered_of_held hcarried.of_single with
    | unsent => exact .unsent _ hallowed hdiffers
    | lost asked => exact .failed _ hallowed hdiffers numbered asked nofun
    | received asked reads =>
      refine .failed _ hallowed hdiffers numbered asked ?_
      rintro _ ⟨⟩ hreads
      obtain ⟨a, ha⟩ := reads_iff.1 hreads
      rw [reads] at ha
      cases ha
  | @confirmed _ k _ _ _ numbered needed confirms =>
    subst hsession
    obtain ⟨a, rfl⟩ := confirms.call_eq
    obtain ⟨w, response, rfl, asked, hanswer⟩ :=
      (Http.Client.answered_of_held hcarried.of_single).of_ok
    exact .done _ (hallows k numbered) (not_stands_of_needs needed) numbered asked
      (reads_iff.2 ⟨a, hanswer⟩)

namespace Edited

variable {talk : List Http.Exchange} {result : Except CommandFault Outcome}

/-- There is one request at most, and only where the server allows the edit and it asks for anything
new. -/
theorem request (h : edit.Edited client config change talk result) :
    talk = [] ∨ ∃ exchange : Http.Exchange, talk = [exchange] ∧ exchange.request.method ≠ .get ∧
      Allows config change edit.field ∧ ¬ edit.Stands change := by
  cases h with
  | denied fault why => exact .inl rfl
  | unsent fault allowed differs => exact .inl rfl
  | unchanged line allowed stands => exact .inl rfl
  | failed fault allowed differs numbered asked unread =>
    exact .inr ⟨_, rfl, requestOf_edit asked, allowed, differs⟩
  | done line allowed differs numbered asked reads =>
    exact .inr ⟨_, rfl, requestOf_edit asked, allowed, differs⟩

theorem ok_iff (h : edit.Edited client config change talk result) :
    (∃ o, result = .ok o) ↔
      (∃ exchange ∈ talk, ∃ response, exchange.reply = .ok response ∧ edit.field.Reads response) ∨
      (Allows config change edit.field ∧ edit.Stands change) := by
  cases h with
  | denied fault why => simp [why]
  | unsent fault allowed differs => simp [differs]
  | unchanged line allowed stands => simp [allowed, stands]
  | @failed _ w reply fault allowed differs numbered asked unread =>
    have hread : ∀ response, ¬ (reply = .ok response ∧ edit.field.Reads response) :=
      fun response ⟨hreply, hreads⟩ => unread response hreply hreads
    simp [differs, Http.Exchange.reply, hread]
  | done line allowed differs numbered asked reads =>
    simp [Http.Exchange.reply, reads]

end Edited

end FieldEdit

end ChangeDesk
