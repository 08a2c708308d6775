import ChangeDesk.Proofs.Command.Gate
import ChangeDesk.Proofs.Text.Identifier

/-!
# Where edits from the command line go

A command is given the number of a change. It loads the change by that number and names it in what
it prints, but its edit goes to the number that the loaded document carries, and the two numbers
are never compared. If the server sends another change than it was asked for, that other change is
edited, and the command reports the edit of the first.

Main statement: where the request of an edit goes and what is printed (`Command.edit_path`).
-/

namespace ChangeDesk

namespace Http.Client

variable {c : Client} {k n : ChangeNumber}

theorem endpoint_inj {place place' : String} :
    c.endpoint place = c.endpoint place' ↔ place = place' := by
  rw [endpoint, endpoint, String.append_right_inj]

theorem changePlace_inj {part : String} : changePlace k part = changePlace n part ↔ k = n := by
  show "/changes/" ++ k.text ++ part = "/changes/" ++ n.text ++ part ↔ k = n
  rw [String.append_left_inj, String.append_right_inj, ChangeNumber.text_inj]

/-- The address of an edit: the field of a change has the name of the action that guards it. -/
def editUrl (c : Client) (n : ChangeNumber) (field : EditableField) : String :=
  c.endpoint (changePlace n ("/" ++ field.action))

theorem editUrl_inj {field : EditableField} : c.editUrl k field = c.editUrl n field ↔ k = n := by
  rw [editUrl, editUrl, endpoint_inj, changePlace_inj]

end Http.Client

namespace FieldEdit

variable {edit : FieldEdit} {client : Http.Client} {n k : ChangeNumber} {w : Http.Request}

theorem url_of_requestOf (h : client.requestOf (edit.toSession.call k) = .ok w) :
    w.url = client.editUrl k edit.field := by
  cases edit with
  | assignee reference =>
    cases reference with
    | none =>
      obtain rfl := Except.ok.inj h
      rfl
    | some text =>
      -- an account has a request only if it can be addressed
      simp only [toSession, Option.map_some, Option.toList_some, SessionEdit.call,
        List.head?_cons, Option.elim_some, Http.Client.requestOf] at h
      split at h
      · cases h
      · obtain rfl := Except.ok.inj h
        rfl
  | topic wanted =>
    rw [toSession, SessionEdit.call, Http.Client.requestOf] at h
    split at h
    · obtain rfl := Except.ok.inj h
      rfl
    · obtain rfl := Except.ok.inj h
      rfl
  | hashtag tag remove =>
    cases remove with
    | true =>
      obtain rfl := Except.ok.inj h
      rfl
    | false =>
      obtain rfl := Except.ok.inj h
      rfl

/-- Whatever request an edit made is that of its call, for the number in the loaded change. -/
theorem Edited.asked {config : ServerConfig} {change : Change} {talk : List Http.Exchange}
    {result : Except CommandFault Outcome} {exchange : Http.Exchange}
    (h : edit.Edited client config change talk result) (mem : exchange ∈ talk) :
    talk = [exchange] ∧ ∃ k, change.number = some k ∧
      client.requestOf (edit.toSession.call k) = .ok exchange.request := by
  cases h with
  | denied fault why => cases mem
  | unsent fault allowed differs => cases mem
  | unchanged line allowed stands => cases mem
  | failed fault allowed differs numbered asked unread =>
    obtain rfl := List.mem_singleton.1 mem
    exact ⟨rfl, _, numbered, asked⟩
  | done line allowed differs numbered asked reads =>
    obtain rfl := List.mem_singleton.1 mem
    exact ⟨rfl, _, numbered, asked⟩

theorem Edited.path {config : ServerConfig} {change : Change} {talk : List Http.Exchange}
    {result : Except CommandFault Outcome} {exchange : Http.Exchange}
    (h : edit.Edited client config change talk result) (mem : exchange ∈ talk) :
    talk = [exchange] ∧
      ∃ k, change.number = some k ∧ exchange.request.url = client.editUrl k edit.field := by
  obtain ⟨htalk, k, numbered, asked⟩ := h.asked mem
  exact ⟨htalk, k, numbered, url_of_requestOf asked⟩

/-- An edit that asked the server and succeeded tells of change `n`, whatever was loaded. -/
theorem said_of_held {s : Session} {talk : List Http.Exchange} {line : String}
    {exchange : Http.Exchange} (h : (client.run (edit.apply n s)).Held talk (.ok line))
    (mem : exchange ∈ talk) :
    ∃ reply c, reply ≠ .assignee false ∧ line = EditReply.line n c reply := by
  obtain ⟨inner, hinner, hcarried⟩ := Dialogue.held_interpret client.answer h
  obtain ⟨outcome, s', hperformed, hline⟩ := performed_of_apply hinner
  cases outcome with
  | error fault => cases hline
  | ok reply =>
    refine ⟨reply, s'.change, ?_, Except.ok.inj hline⟩
    rintro rfl
    -- the reply that nothing was called for belongs to edits without a call
    have hnone : inner = [] := by
      generalize edit.toSession = e at hperformed
      cases hperformed with
      | ignored one off => rfl
      | agreed one on numbered same => rfl
      | confirmed numbered needed confirms => cases confirms
    subst hnone
    rw [hcarried.eq_nil] at mem
    cases mem

end FieldEdit

namespace Command

variable {s : Surroundings} {n : ChangeNumber} {edit : FieldEdit} {profile : String}
  {talk : List Http.Exchange} {exchange : Http.Exchange}

theorem Course.path {result : Except CommandFault Outcome}
    (h : Course s n edit profile talk result) (mem : exchange ∈ talk)
    (mutates : exchange.request.method ≠ .get) :
    ∃ client before config change k, s.client profile = .ok client ∧
      client.Fetched n before config change ∧ talk = before ++ [exchange] ∧
      change.number = some k ∧ exchange.request.url = client.editUrl k edit.field := by
  obtain ⟨client, sent, config, change, before, after, ready, normal, fetched, rest, rfl, hmem⟩ :=
    h.edited_of_mem mem mutates
  obtain ⟨rfl, k, hnumber, hurl⟩ := rest.path hmem
  rw [FieldEdit.field_of_normal normal] at hurl
  exact ⟨client, before, config, change, k, ready, fetched, rfl, hnumber, hurl⟩

/-- A command that asked for an edit and succeeded printed what came of the edit of the loaded
change. -/
theorem applied_of_held {o : Outcome} (h : (runEdit s n edit profile).Held talk (.ok o))
    (mem : exchange ∈ talk) (mutates : exchange.request.method ≠ .get) :
    ∃ (client : Http.Client) (sent : FieldEdit) (loaded : Session) (asked : List Http.Exchange)
      (line : String),
      edit.normal = .ok sent ∧ (client.run (sent.apply n loaded)).Held asked (.ok line) ∧
      exchange ∈ asked ∧ o = .printed [line] := by
  unfold runEdit at h
  split at h
  · obtain ⟨-, ⟨⟩⟩ := Dialogue.held_pure.1 h
  · obtain ⟨-, ⟨⟩⟩ := Dialogue.held_pure.1 h
  · rename_i sent client normal ready
    obtain ⟨opened, before, after, hopened, hrest, rfl⟩ := Dialogue.held_bind.1 h
    obtain ⟨fault, rfl, -⟩ | ⟨config, change, hfetched, rfl⟩ :=
      Http.Client.fetched_of_held hopened
    · obtain ⟨-, ⟨⟩⟩ := Dialogue.held_pure.1 hrest
    · have hmem : exchange ∈ after := by
        obtain hbefore | hafter := List.mem_append.1 mem
        · exact absurd (hfetched.get_of_mem hbefore) mutates
        · exact hafter
      dsimp only at hrest
      split at hrest
      · obtain ⟨-, ⟨⟩⟩ := Dialogue.held_pure.1 hrest
      · obtain ⟨applied, asked, rest, happlied, hend, rfl⟩ := Dialogue.held_bind.1 hrest
        cases applied with
        | error fault => obtain ⟨-, ⟨⟩⟩ := Dialogue.held_pure.1 hend
        | ok line =>
          obtain ⟨rfl, ho⟩ := Dialogue.held_pure.1 hend
          rw [List.append_nil] at hmem
          exact ⟨client, sent, _, asked, line, normal, happlied, hmem, Except.ok.inj ho⟩

theorem said_of_held {o : Outcome} (h : (runEdit s n edit profile).Held talk (.ok o))
    (mem : exchange ∈ talk) (mutates : exchange.request.method ≠ .get) :
    ∃ reply c, reply ≠ .assignee false ∧ o = .printed [EditReply.line n c reply] := by
  obtain ⟨client, sent, loaded, asked, line, -, happlied, hmem, rfl⟩ :=
    applied_of_held h mem mutates
  obtain ⟨reply, c, hreply, rfl⟩ := FieldEdit.said_of_held happlied hmem
  exact ⟨reply, c, hreply, rfl⟩

/-- Where edits from the command line go. Whatever the stored profiles are and whatever the server
replies, a request that edits comes right after the change was fetched as change `n`, and goes to
the number in the document that came back: to change `n` exactly if that is the number there. The
command, if it succeeds, tells of change `n` in either case. -/
theorem edit_path (s : Surroundings) (n : ChangeNumber) (edit : FieldEdit) (profile : String)
    (replies : Http.Replies) :
    let outcome := (run s (.edit n edit profile)).converse replies
    let talk : List Http.Exchange := outcome.1
    ∀ exchange ∈ talk, exchange.request.method ≠ .get →
      (∃ client before config change k, s.client profile = .ok client ∧
        client.Fetched n before config change ∧ talk = before ++ [exchange] ∧
        change.number = some k ∧ exchange.request.url = client.editUrl k edit.field ∧
        (exchange.request.url = client.editUrl n edit.field ↔ k = n)) ∧
      ∀ o, outcome.2 = .ok o →
        ∃ reply c, reply ≠ .assignee false ∧ o = .printed [EditReply.line n c reply] := by
  intro outcome talk exchange mem mutates
  have hheld : (runEdit s n edit profile).Held talk outcome.2 :=
    Dialogue.held_converse replies (runEdit s n edit profile)
  constructor
  · obtain ⟨client, before, config, change, k, ready, fetched, htalk, hnumber, hurl⟩ :=
      (course_of_held hheld).path mem mutates
    refine ⟨client, before, config, change, k, ready, fetched, htalk, hnumber, hurl, ?_⟩
    rw [hurl, Http.Client.editUrl_inj]
  · intro o ho
    rw [ho] at hheld
    exact said_of_held hheld mem mutates

/-- The server is asked for change 42 and sends it. -/
theorem edit_path_straight :
    let s : Surroundings :=
      ⟨.ok (some "[profiles.default]\nbase_url = \"https://r\"\n"), fun _ => .error .missing⟩
    let replies : Http.Replies := fun i _ => .ok ⟨200, match i with
      | 0 => "\x7b\x7d"
      | 1 => "\x7b\"_number\":42,\"actions\":\x7b\"topic\":\x7b\"enabled\":true\x7d\x7d\x7d"
      | _ => "\"x\""⟩
    let talk : List Http.Exchange :=
      ((run s (.edit ⟨42⟩ (.topic (some "x")) "default")).converse replies).1
    ∃ exchange ∈ talk, exchange.request.method ≠ .get ∧
      exchange.request.url = "https://r/changes/42/topic" ∧
      ∃ client before config change k, s.client "default" = .ok client ∧
        client.Fetched ⟨42⟩ before config change ∧ talk = before ++ [exchange] ∧
        change.number = some k ∧ exchange.request.url = client.editUrl k .topic ∧
        (exchange.request.url = client.editUrl ⟨42⟩ .topic ↔ k = ⟨42⟩) := by
  intro s replies talk
  have hlast : talk[2]?.map (fun e => (e.request.method, e.request.url)) =
      some (.put, "https://r/changes/42/topic") := by
    decide +kernel
  obtain ⟨exchange, hget, heq⟩ := Option.map_eq_some_iff.1 hlast
  obtain ⟨hput, hurl⟩ := Prod.mk.inj heq
  have hmem : exchange ∈ talk := List.mem_of_getElem? hget
  have hmethod : exchange.request.method ≠ .get := by
    rw [hput]
    nofun
  exact ⟨exchange, hmem, hmethod, hurl, (edit_path s ⟨42⟩ _ _ replies exchange hmem hmethod).1⟩

/-- The server is asked for change 42 and sends change 7. -/
theorem edit_path_astray :
    let s : Surroundings :=
      ⟨.ok (some "[profiles.default]\nbase_url = \"https://r\"\n"), fun _ => .error .missing⟩
    let replies : Http.Replies := fun i _ => .ok ⟨200, match i with
      | 0 => "\x7b\x7d"
      | 1 => "\x7b\"_number\":7,\"actions\":\x7b\"topic\":\x7b\"enabled\":true\x7d\x7d\x7d"
      | _ => "\"x\""⟩
    let outcome := (run s (.edit ⟨42⟩ (.topic (some "x")) "default")).converse replies
    outcome.1.map (fun e => (e.1.method, e.1.url)) =
        [(.get, "https://r/config/server/info"), (.get, "https://r/changes/42/detail"),
          (.put, "https://r/changes/7/topic")] ∧
      Ending.ofResult outcome.2 = ⟨0, "Topic of change 42 is now 'x'\n", "", none⟩ ∧
      Http.Client.editUrl ⟨"https://r", none⟩ ⟨42⟩ .topic = "https://r/changes/42/topic" := by
  decide +kernel

end Command

end ChangeDesk
