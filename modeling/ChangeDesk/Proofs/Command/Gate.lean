import ChangeDesk.Proofs.Command.Edited

/-!
# The gate of edits from the command line

An edit from the command line is at most three requests: one for the configuration of the server,
one for the change, and one that edits it. The last is made only if both documents were read and
the server allows the edit of that field.

Main statement: the gate that every edit passes (`Command.edit_gated`).
-/

namespace ChangeDesk

namespace FieldEdit

variable {edit : FieldEdit} {change : Change}

/-! ### Edits as they are sent -/

theorem field_of_normal {sent : FieldEdit} (h : edit.normal = .ok sent) :
    sent.field = edit.field := by
  cases edit with
  | hashtag tag remove =>
    simp only [normal] at h
    split at h
    · cases h
    · cases h
      rfl
  | _ =>
    cases h
    rfl

theorem stands_of_normal {sent : FieldEdit} (h : edit.normal = .ok sent) :
    sent.Stands change ↔ edit.Stands change := by
  cases edit with
  | hashtag tag remove =>
    simp only [normal] at h
    split at h
    · cases h
    · cases h
      rfl
  | _ =>
    cases h
    rfl

theorem normal_blank {tag : String} (h : Text.trimmed tag = "") (remove : Bool) :
    (hashtag tag remove).normal = .error .emptyHashtag := by
  simp only [normal, h, if_true]

end FieldEdit

namespace Ending

theorem code_ofResult (result : Except CommandFault Outcome) :
    (ofResult result).code = 0 ↔ ∃ o, result = .ok o := by
  cases result with
  | error fault => exact ⟨nofun, nofun⟩
  | ok o => exact ⟨fun _ => ⟨o, rfl⟩, fun _ => rfl⟩

theorem output_of_code (result : Except CommandFault Outcome) :
    (ofResult result).code ≠ 0 → (ofResult result).output = "" := by
  intro h
  cases result with
  | error fault => rfl
  | ok o => exact absurd rfl h

end Ending

namespace Command

variable {s : Surroundings} {n : ChangeNumber} {edit : FieldEdit} {profile : String}

/-- All ways an edit from the command line can end: there is nothing to send or nowhere to send it,
the change cannot be loaded, or it is loaded and edited. -/
inductive Course (s : Surroundings) (n : ChangeNumber) (edit : FieldEdit) (profile : String) :
    List Http.Exchange → Except CommandFault Outcome → Prop where
  | unready (fault : CommandFault)
    (why : edit.normal = .error fault ∨ s.client profile = .error fault) :
    Course s n edit profile [] (.error fault)
  | unloaded {client : Http.Client} {sent : FieldEdit} {talk : List Http.Exchange}
    (fault : CommandFault) (ready : s.client profile = .ok client)
    (normal : edit.normal = .ok sent)
    (requests : talk.map Http.Exchange.request <+: [client.infoRequest, client.detailRequest n])
    (lacking : ∀ config change, ¬ client.Fetched n talk config change) :
    Course s n edit profile talk (.error fault)
  | edited {client : Http.Client} {sent : FieldEdit} {config : ServerConfig} {change : Change}
    {before after : List Http.Exchange} {result : Except CommandFault Outcome}
    (ready : s.client profile = .ok client) (normal : edit.normal = .ok sent)
    (fetched : client.Fetched n before config change)
    (rest : sent.Edited client config change after result) :
    Course s n edit profile (before ++ after) result

theorem course_of_held {talk : List Http.Exchange} {result : Except CommandFault Outcome}
    (h : (runEdit s n edit profile).Held talk result) : Course s n edit profile talk result := by
  unfold runEdit at h
  cases hnormal : edit.normal with
  | error fault =>
    rw [hnormal] at h
    obtain ⟨rfl, rfl⟩ := Dialogue.held_pure.1 h
    exact .unready fault (.inl hnormal)
  | ok sent =>
    cases hclient : s.client profile with
    | error fault =>
      rw [hnormal, hclient] at h
      obtain ⟨rfl, rfl⟩ := Dialogue.held_pure.1 h
      exact .unready fault (.inr hclient)
    | ok client =>
      rw [hnormal, hclient] at h
      obtain ⟨opened, before, after, hopened, hrest, rfl⟩ := Dialogue.held_bind.1 h
      obtain ⟨fault, rfl, hrequests, hlacking⟩ | ⟨config, change, hfetched, rfl⟩ :=
        Http.Client.fetched_of_held hopened
      · obtain ⟨rfl, rfl⟩ := Dialogue.held_pure.1 hrest
        rw [List.append_nil]
        exact .unloaded fault hclient hnormal hrequests hlacking
      · refine .edited hclient hnormal hfetched ?_
        dsimp only at hrest
        cases hrefusal : sent.refusal? n (.start change config) with
        | some fault =>
          rw [hrefusal] at hrest
          obtain ⟨rfl, rfl⟩ := Dialogue.held_pure.1 hrest
          exact .denied fault (FieldEdit.refusal?_some hrefusal)
        | none =>
          rw [hrefusal] at hrest
          obtain ⟨applied, before', after', happlied, hend, rfl⟩ := Dialogue.held_bind.1 hrest
          have hedited := FieldEdit.edited_of_held hrefusal happlied
          cases applied with
          | error fault =>
            obtain ⟨rfl, rfl⟩ := Dialogue.held_pure.1 hend
            rw [List.append_nil]
            exact hedited
          | ok line =>
            obtain ⟨rfl, rfl⟩ := Dialogue.held_pure.1 hend
            rw [List.append_nil]
            exact hedited

namespace Course

variable {talk : List Http.Exchange} {result : Except CommandFault Outcome} {client : Http.Client}
  {exchange : Http.Exchange}

theorem requests (h : Course s n edit profile talk result) (ready : s.client profile = .ok client) :
    ∃ w, w.method ≠ .get ∧
      talk.map Http.Exchange.request <+: [client.infoRequest, client.detailRequest n, w] := by
  -- stands for the third request wherever an edit ends before it
  let w := client.request .put "" none
  have hw : w.method ≠ .get := nofun
  have hreads : [client.infoRequest, client.detailRequest n] <+:
      [client.infoRequest, client.detailRequest n, w] := ⟨[w], rfl⟩
  cases h with
  | unready fault why => exact ⟨w, hw, List.nil_prefix⟩
  | unloaded fault ready' normal requests lacking =>
    obtain rfl := Except.ok.inj (ready.symm.trans ready')
    exact ⟨w, hw, requests.trans hreads⟩
  | edited ready' normal fetched rest =>
    obtain rfl := Except.ok.inj (ready.symm.trans ready')
    rw [List.map_append, fetched.requests]
    obtain rfl | ⟨exchange, rfl, hmethod, -⟩ := rest.request
    · exact ⟨w, hw, hreads⟩
    · exact ⟨exchange.request, hmethod, List.prefix_refl _⟩

theorem silent (h : Course s n edit profile talk result)
    (why : (∃ fault, edit.normal = .error fault) ∨ ∃ fault, s.client profile = .error fault) :
    talk = [] := by
  cases h with
  | unready fault _ => rfl
  | unloaded fault ready normal requests lacking =>
    rw [ready, normal] at why
    obtain ⟨fault, ⟨⟩⟩ | ⟨fault, ⟨⟩⟩ := why
  | edited ready normal fetched rest =>
    rw [ready, normal] at why
    obtain ⟨fault, ⟨⟩⟩ | ⟨fault, ⟨⟩⟩ := why

/-- A request that edits was made by the edit of a loaded change. -/
theorem edited_of_mem (h : Course s n edit profile talk result) (mem : exchange ∈ talk)
    (mutates : exchange.request.method ≠ .get) :
    ∃ client sent config change before after, s.client profile = .ok client ∧
      edit.normal = .ok sent ∧ client.Fetched n before config change ∧
      sent.Edited client config change after result ∧ talk = before ++ after ∧
      exchange ∈ after := by
  cases h with
  | unready fault why => cases mem
  | unloaded fault ready normal requests lacking =>
    have hrequest := requests.subset (List.mem_map_of_mem mem)
    exact absurd (Http.Client.get_of_mem_requests hrequest) mutates
  | edited ready normal fetched rest =>
    obtain hbefore | hafter := List.mem_append.1 mem
    · exact absurd (fetched.get_of_mem hbefore) mutates
    · exact ⟨_, _, _, _, _, _, ready, normal, fetched, rest, rfl, hafter⟩

theorem gate (h : Course s n edit profile talk result) (mem : exchange ∈ talk)
    (mutates : exchange.request.method ≠ .get) :
    ∃ client before config change, s.client profile = .ok client ∧
      client.Fetched n before config change ∧ talk = before ++ [exchange] ∧
      Allows config change edit.field ∧ ¬ edit.Stands change := by
  obtain ⟨client, sent, config, change, before, after, ready, normal, fetched, rest, rfl, hmem⟩ :=
    h.edited_of_mem mem mutates
  obtain rfl | ⟨only, rfl, -, hallowed, hdiffers⟩ := rest.request
  · cases hmem
  · obtain rfl := List.mem_singleton.1 hmem
    rw [FieldEdit.field_of_normal normal] at hallowed
    rw [FieldEdit.stands_of_normal normal] at hdiffers
    exact ⟨client, before, config, change, ready, fetched, rfl, hallowed, hdiffers⟩

/-- An edit succeeds if the response to its request is read, or if it needs none. -/
theorem ok_iff (h : Course s n edit profile talk result) :
    (∃ o, result = .ok o) ↔
      (∃ exchange ∈ talk, exchange.request.method ≠ .get ∧
        ∃ response, exchange.reply = .ok response ∧ edit.field.Reads response) ∨
      (∃ client config change, s.client profile = .ok client ∧
        client.Fetched n talk config change ∧ Allows config change edit.field ∧
        edit.Stands change) := by
  cases h with
  | unready fault why =>
    have hnone : ∀ (client : Http.Client) (config : ServerConfig) (change : Change),
        ¬ client.Fetched n [] config change := fun _ =>
      Http.Client.not_fetched_of_length (by simp)
    simp [hnone]
  | unloaded fault ready normal requests lacking =>
    constructor
    · rintro ⟨o, ⟨⟩⟩
    · rintro (⟨exchange, hmem, hmethod, -⟩ | ⟨client, config, change, ready', fetched, -⟩)
      -- until the change is loaded nothing but questions is asked
      · have hrequest := requests.subset (List.mem_map_of_mem hmem)
        exact absurd (Http.Client.get_of_mem_requests hrequest) hmethod
      · obtain rfl := Except.ok.inj (ready.symm.trans ready')
        exact absurd fetched (lacking config change)
  | edited ready normal fetched rest =>
    have hfield := FieldEdit.field_of_normal normal
    rw [rest.ok_iff, hfield, FieldEdit.stands_of_normal normal]
    constructor
    · rintro (⟨exchange, hmem, hreply⟩ | ⟨hallowed, hstands⟩)
      · left
        obtain rfl | ⟨only, rfl, hmethod, -⟩ := rest.request
        · cases hmem
        · obtain rfl := List.mem_singleton.1 hmem
          exact ⟨exchange, List.mem_append_right _ hmem, hmethod, hreply⟩
      · right
        obtain rfl | ⟨only, rfl, -, -, hdiffers⟩ := rest.request
        · rw [List.append_nil]
          exact ⟨_, _, _, ready, fetched, hallowed, hstands⟩
        · rw [FieldEdit.stands_of_normal normal] at hdiffers
          exact absurd hstands hdiffers
    · rintro (⟨exchange, hmem, hmethod, hreply⟩ | ⟨client, config, change, ready', hfetched, hend⟩)
      · obtain hmem | hmem := List.mem_append.1 hmem
        · exact absurd (fetched.get_of_mem hmem) hmethod
        · exact .inl ⟨exchange, hmem, hreply⟩
      · obtain rfl := Except.ok.inj (ready.symm.trans ready')
        obtain rfl | ⟨only, rfl, -⟩ := rest.request
        · rw [List.append_nil] at hfetched
          obtain ⟨rfl, rfl⟩ := fetched.unique hfetched
          exact .inr hend
        -- with a third exchange the talk is too long to be that of the two documents
        · have hlength := hfetched.length_eq
          rw [List.length_append, fetched.length_eq] at hlength
          cases hlength

end Course

/-- The gate of edits from the command line. Whatever the stored profiles are and whatever the server
replies, the requests of an edit are the first of three: for the configuration, for the change, and
one that edits it. The last is made only once both documents were read, for a change that has a
number, whose action for the very field is enabled, and in the case of the assignee, where the server
has assignees and another than the present one is asked for. A hashtag that is blank, and a profile
that does not name a server, lead to no request. The command ends with 0 exactly if the response to
the edit was read, or the assignee is the one asked for; if it does not, nothing is printed. -/
theorem edit_gated (s : Surroundings) (n : ChangeNumber) (edit : FieldEdit) (profile : String)
    (replies : Http.Replies) :
    let outcome := (run s (.edit n edit profile)).converse replies
    let talk : List Http.Exchange := outcome.1
    let ending := Ending.ofResult outcome.2
    (∀ client, s.client profile = .ok client → ∃ w, w.method ≠ .get ∧
      talk.map Http.Exchange.request <+: [client.infoRequest, client.detailRequest n, w]) ∧
    (∀ fault, s.client profile = .error fault → talk = []) ∧
    (∀ tag remove, edit = .hashtag tag remove → Text.trimmed tag = "" → talk = []) ∧
    (∀ exchange ∈ talk, exchange.request.method ≠ .get →
      ∃ client before config change, s.client profile = .ok client ∧
        client.Fetched n before config change ∧ talk = before ++ [exchange] ∧
        Allows config change edit.field ∧ ¬ edit.Stands change) ∧
    (ending.code = 0 ↔
      (∃ exchange ∈ talk, exchange.request.method ≠ .get ∧
        ∃ response, exchange.reply = .ok response ∧ edit.field.Reads response) ∨
      (∃ client config change, s.client profile = .ok client ∧
        client.Fetched n talk config change ∧ Allows config change edit.field ∧
        edit.Stands change)) ∧
    (ending.code ≠ 0 → ending.output = "") := by
  intro outcome talk ending
  have hc : Course s n edit profile talk outcome.2 :=
    course_of_held (Dialogue.held_converse replies (runEdit s n edit profile))
  refine ⟨fun client ready => hc.requests ready, ?_, ?_, ?_, ?_, ?_⟩
  · intro fault hclient
    exact hc.silent (.inr ⟨fault, hclient⟩)
  · rintro tag remove rfl hblank
    exact hc.silent (.inl ⟨_, FieldEdit.normal_blank hblank remove⟩)
  · intro exchange hmem hmethod
    exact hc.gate hmem hmethod
  · rw [← hc.ok_iff]
    exact Ending.code_ofResult outcome.2
  · exact Ending.output_of_code outcome.2

end Command

end ChangeDesk
