import ChangeDesk.Proofs.Http.Answer
import ChangeDesk.Proofs.Session.Edits

/-!
# Edits of a session over HTTP

An edit of a session that is carried out by a client is one request at most. What becomes of the
session is decided by the response: a success that carries nothing stands for what was sent, one
that carries a document tells what was stored, and anything else leaves the session as it was.

Main statements: what an edit makes of a response, by its status and its body (`Session.Replied`),
and that it does so whatever the session, the edit and the response (`Session.perform_reply`).
-/

namespace ChangeDesk

namespace Http

namespace Response

def Success (r : Response) : Prop := 200 ≤ r.status ∧ r.status < 300

/-- There is no content, or nothing but blanks. -/
def Void (r : Response) : Prop := r.status = 204 ∨ Text.allBlank r.body = true

end Response

namespace Client

variable {c : Client} {call : Call} {talk : List Exchange}

section

variable {α : Type} (codec : Json.Codec α) {r : Response}

theorem readResponse_refused (h : ¬ r.Success) :
    readResponse codec r = .error (.refused r.status (Text.trimmed r.body)) := by
  have hcontent : r.status ≠ 204 := by
    unfold Response.Success at h
    omega
  have hrange : r.status < 200 ∨ 300 ≤ r.status := by
    unfold Response.Success at h
    omega
  rw [readResponse, if_neg hcontent, if_pos hrange]

theorem readResponse_void (h : r.Success) (hvoid : r.Void) : readResponse codec r = .ok none := by
  have hrange : ¬ (r.status < 200 ∨ 300 ≤ r.status) := by
    unfold Response.Success at h
    omega
  rw [readResponse, if_neg hrange]
  by_cases hcontent : r.status = 204
  · rw [if_pos hcontent]
  · rw [if_neg hcontent, if_pos (hvoid.resolve_left hcontent)]

theorem readResponse_document (h : r.Success) (hcarries : ¬ r.Void) {a : α}
    (hdecode : Json.Document.decode codec r.body = .ok a) :
    readResponse codec r = .ok (some a) := by
  have hcontent : r.status ≠ 204 := fun h204 => hcarries (.inl h204)
  have hbody : Text.allBlank r.body = false :=
    Bool.eq_false_iff.2 fun hblank => hcarries (.inr hblank)
  exact readResponse_some.2 ⟨hcontent, h, hbody, hdecode⟩

theorem readResponse_undecodable (h : r.Success) (hcarries : ¬ r.Void) {fault : Json.Fault}
    (hdecode : Json.Document.decode codec r.body = .error fault) :
    readResponse codec r = .error (.undecodable fault) := by
  have hrange : ¬ (r.status < 200 ∨ 300 ≤ r.status) := by
    unfold Response.Success at h
    omega
  have hcontent : r.status ≠ 204 := fun h204 => hcarries (.inl h204)
  have hbody : ¬ Text.allBlank r.body = true := fun hblank => hcarries (.inr hblank)
  simp only [readResponse, hcontent, hrange, hbody, hdecode, if_false, Bool.false_eq_true]

end

theorem response_of_ok {replies : Replies} {a : call.Answer}
    (h : ((c.answer call).converse replies).2 = .ok a) :
    ∃ w r, ((c.answer call).converse replies).1 = [⟨w, .ok r⟩] ∧ readAnswer call r = .ok a := by
  have hanswered := answered_of_held (Dialogue.held_converse replies (c.answer call))
  rw [h] at hanswered
  obtain ⟨w, r, htalk, -, hreads⟩ := hanswered.of_ok
  exact ⟨w, r, htalk, hreads⟩

/-- A call whose request can be sent is that request. -/
theorem request_of_held {w : Request} {u : Url} {answer : Except RemoteFault call.Answer}
    (asked : c.requestOf call = .ok w) (sent : addressOf w = .ok u)
    (h : (c.answer call).Held talk answer) : talk.map Exchange.request = [w] := by
  unfold Client.answer at h
  rw [asked] at h
  dsimp only at h
  rw [sent] at h
  obtain ⟨reply, before, after, hquestion, hend, rfl⟩ := Dialogue.held_bind.1 h
  obtain rfl := Dialogue.held_question.1 hquestion
  have hafter : after = [] := by
    cases reply with
    | ok response => exact (Dialogue.held_pure.1 hend).1
    | error outage => cases outage <;> exact (Dialogue.held_pure.1 hend).1
  rw [hafter]
  rfl

end Client

end Http

/-! ### What an edit is answered with -/

namespace SessionEdit

/-- What the server stores for an edit. -/
def Stored : SessionEdit → Type
  | .assignee _ => Account
  | .topic _ => String
  | .addHashtag _ => List String
  | .removeHashtag _ => List String

def codec : (edit : SessionEdit) → Json.Codec edit.Stored
  | .assignee _ => Account.codec
  | .topic _ => Json.Codec.text
  | .addHashtag _ => Json.Codec.text.list
  | .removeHashtag _ => Json.Codec.text.list

/-- The event of an edit whose response carries what was stored, or nothing. An assignee is told as
it was asked for. -/
def told : (edit : SessionEdit) → Option edit.Stored → SessionEvent
  | .assignee desired, _ => .assignee desired.head?
  | .topic _, stored => .topic (Option.getD stored "")
  | .addHashtag _, stored => .hashtags (Option.getD stored [])
  | .removeHashtag _, stored => .hashtags (Option.getD stored [])

end SessionEdit

/-- The reply of an edit that an event tells of. -/
def SessionEvent.reply : SessionEvent → EditReply
  | .assignee _ => .assignee true
  | .topic stored => .topic stored
  | .hashtags stored => .hashtags stored

theorem Confirms.reply_eq {n : ChangeNumber} {edit : SessionEdit} {exchange : Remote.Exchange}
    {reply : EditReply} {event : SessionEvent} (h : Confirms n edit exchange reply event) :
    reply = event.reply := by
  cases h <;> rfl

/-- The answer to the call of an edit is made of what the response carries, and it is with that that
it confirms the edit. -/
theorem SessionEdit.answer_of_response (n : ChangeNumber) (edit : SessionEdit) :
    ∃ answer : Option edit.Stored → (edit.call n).Answer,
      (∀ r, Http.Client.readAnswer (edit.call n) r =
        answer <$> Http.Client.readResponse edit.codec r) ∧
      ∀ v reply event, Confirms n edit ⟨edit.call n, .ok (answer v)⟩ reply event →
        event = edit.told v := by
  cases edit with
  | assignee desired =>
    cases desired with
    | nil =>
      refine ⟨fun _ => (), fun r => bind_pure_comp .., ?_⟩
      intro v reply event h
      cases h
      rfl
    | cons account others =>
      refine ⟨fun stored => stored.getD account, fun r => bind_pure_comp .., ?_⟩
      intro v reply event h
      cases h
      rfl
  | topic wanted =>
    refine ⟨fun stored => stored.getD "", fun r => bind_pure_comp .., ?_⟩
    intro v reply event h
    cases h
    rfl
  | addHashtag tag =>
    refine ⟨fun stored => stored.getD [], fun r => bind_pure_comp .., ?_⟩
    intro v reply event h
    cases h
    rfl
  | removeHashtag tag =>
    refine ⟨fun stored => stored.getD [], fun r => bind_pure_comp .., ?_⟩
    intro v reply event h
    cases h
    rfl

/-! ### Edits carried out by a client -/

namespace Session

variable {s s' : Session} {edit : SessionEdit} {c : Http.Client}
  {result : Except RemoteFault EditReply}

/-- An edit that is needed calls the server. -/
theorem Performed.called {talk : List Remote.Exchange} (hp : s.Performed edit talk result s')
    {n : ChangeNumber} (hn : s.change.number = some n) (needed : s.Needs edit) :
    ∃ answer, talk = [⟨edit.call n, answer⟩] := by
  cases hp with
  | refused why => exact absurd needed (why.not_needs hn)
  | ignored one off =>
    have hon := needed.2.1
    rw [off] at hon
    cases hon
  | agreed one on numbered same =>
    have hother := needed.2.2
    rw [same] at hother
    cases hother
  | failed fault numbered _ =>
    obtain rfl := Option.some.inj (hn.symm.trans numbered)
    exact ⟨_, rfl⟩
  | confirmed numbered _ confirms =>
    obtain rfl := Option.some.inj (hn.symm.trans numbered)
    obtain ⟨answer, rfl⟩ := confirms.call_eq
    exact ⟨_, rfl⟩

theorem request_of_needed {talk : List Http.Exchange} {n : ChangeNumber} {w : Http.Request}
    {u : Http.Url} (h : (c.run (s.perform edit)).Held talk (result, s'))
    (hn : s.change.number = some n) (needed : s.Needs edit)
    (asked : c.requestOf (edit.call n) = .ok w) (sent : Http.Client.addressOf w = .ok u) :
    talk.map Http.Exchange.request = [w] := by
  obtain ⟨inner, hinner, hcarried⟩ := Dialogue.held_interpret c.answer h
  obtain ⟨answer, rfl⟩ := (performed_of_held hinner).called hn needed
  exact Http.Client.request_of_held asked sent hcarried.of_single

/-- The edit is done: the change has the field that the event tells, and the event was sent. -/
structure Done (s : Session) (event : SessionEvent) (result : Except RemoteFault EditReply)
    (s' : Session) : Prop where
  result : result = .ok event.reply
  change : s'.change = event.write s.change
  config : s'.config = s.config
  feed : s'.feed = s.feed.send event

/-- An edit that is answered by a response is done with what that carries, or fails as it cannot be
read. -/
theorem taken_of_held {talk : List Http.Exchange} {w : Http.Request} {r : Http.Response}
    (h : (c.run (s.perform edit)).Held talk (result, s')) (hmem : ⟨w, .ok r⟩ ∈ talk) :
    talk = [⟨w, .ok r⟩] ∧
      ((∃ v, Http.Client.readResponse edit.codec r = .ok v ∧ s.Done (edit.told v) result s') ∨
        (∃ fault, Http.Client.readResponse edit.codec r = .error fault ∧ result = .error fault ∧
          Untouched s s')) := by
  obtain ⟨inner, hinner, hcarried⟩ := Dialogue.held_interpret c.answer h
  have hp : s.Performed edit inner result s' := performed_of_held hinner
  cases hp with
  | refused why =>
    rw [hcarried.eq_nil] at hmem
    cases hmem
  | ignored one off =>
    rw [hcarried.eq_nil] at hmem
    cases hmem
  | agreed one on numbered same =>
    rw [hcarried.eq_nil] at hmem
    cases hmem
  | @failed _ n fault numbered needed =>
    obtain ⟨answer, hanswer, -⟩ := edit.answer_of_response n
    cases Http.Client.answered_of_held hcarried.of_single with
    | unsent => cases hmem
    | lost asked => simp at hmem
    | received asked reads =>
      cases List.mem_singleton.1 hmem
      refine ⟨rfl, .inr ⟨fault, ?_, rfl, rfl, rfl, rfl⟩⟩
      rw [hanswer] at reads
      cases hread : Http.Client.readResponse edit.codec r with
      | ok v =>
        rw [hread] at reads
        cases reads
      | error other =>
        rw [hread] at reads
        cases reads
        rfl
  | @confirmed _ n _ _ _ numbered needed confirms =>
    obtain ⟨a, rfl⟩ := confirms.call_eq
    obtain ⟨answer, hanswer, htold⟩ := edit.answer_of_response n
    obtain ⟨w', r', rfl, asked, reads⟩ :=
      (Http.Client.answered_of_held hcarried.of_single).of_ok
    cases List.mem_singleton.1 hmem
    refine ⟨rfl, .inl ?_⟩
    rw [hanswer] at reads
    cases hread : Http.Client.readResponse edit.codec r with
    | ok v =>
      rw [hread] at reads
      obtain rfl := Except.ok.inj reads
      obtain rfl := htold v _ _ confirms
      exact ⟨v, rfl, ⟨congrArg _ confirms.reply_eq, rfl, rfl, rfl⟩⟩
    | error fault =>
      rw [hread] at reads
      cases reads

/-- What an edit makes of a response: it is done with the document that a success carries, and where
it carries nothing, with what stands for that; it fails as a body that is no such document, or as
the server's refusal. -/
structure Replied (s : Session) (edit : SessionEdit) (r : Http.Response)
    (result : Except RemoteFault EditReply) (s' : Session) : Prop where
  void : r.Success → r.Void → s.Done (edit.told none) result s'
  decoded : r.Success → ¬ r.Void → ∀ a, Json.Document.decode edit.codec r.body = .ok a →
    s.Done (edit.told (some a)) result s'
  undecodable : r.Success → ¬ r.Void → ∀ fault,
    Json.Document.decode edit.codec r.body = .error fault →
      result = .error (.undecodable fault) ∧ Untouched s s'
  refused : ¬ r.Success →
    result = .error (.refused r.status (Text.trimmed r.body)) ∧ Untouched s s'

theorem replied_of_taken {r : Http.Response}
    (h : (∃ v, Http.Client.readResponse edit.codec r = .ok v ∧ s.Done (edit.told v) result s') ∨
      (∃ fault, Http.Client.readResponse edit.codec r = .error fault ∧ result = .error fault ∧
        Untouched s s')) :
    s.Replied edit r result s' := by
  have hdone : ∀ v, Http.Client.readResponse edit.codec r = .ok v →
      s.Done (edit.told v) result s' := by
    intro v hv
    obtain ⟨v', hv', hdone⟩ | ⟨fault, hfault, -⟩ := h
    · cases hv.symm.trans hv'
      exact hdone
    · cases hv.symm.trans hfault
  have hfailed : ∀ fault, Http.Client.readResponse edit.codec r = .error fault →
      result = .error fault ∧ Untouched s s' := by
    intro fault hf
    obtain ⟨v, hv, -⟩ | ⟨fault', hf', hfailed⟩ := h
    · cases hf.symm.trans hv
    · cases hf.symm.trans hf'
      exact hfailed
  constructor
  · intro hs hv
    exact hdone none (Http.Client.readResponse_void _ hs hv)
  · intro hs hv a ha
    exact hdone (some a) (Http.Client.readResponse_document _ hs hv ha)
  · intro hs hv fault hf
    exact hfailed _ (Http.Client.readResponse_undecodable _ hs hv hf)
  · intro hs
    exact hfailed _ (Http.Client.readResponse_refused _ hs)

theorem Replied.ok_iff {r : Http.Response} (h : s.Replied edit r result s') :
    (∃ reply, result = .ok reply) ↔
      r.Success ∧ (r.Void ∨ ∃ a, Json.Document.decode edit.codec r.body = .ok a) := by
  constructor
  · rintro ⟨reply, rfl⟩
    by_cases hs : r.Success
    · refine ⟨hs, ?_⟩
      by_cases hv : r.Void
      · exact .inl hv
      · cases hdecode : Json.Document.decode edit.codec r.body with
        | ok a => exact .inr ⟨a, rfl⟩
        | error fault => cases (h.undecodable hs hv fault hdecode).1
    · cases (h.refused hs).1
  · rintro ⟨hs, hcarried⟩
    by_cases hv : r.Void
    · exact ⟨_, (h.void hs hv).result⟩
    · obtain ⟨a, ha⟩ := hcarried.resolve_left hv
      exact ⟨_, (h.decoded hs hv a ha).result⟩

/-- What an edit makes of every response. An edit that is needed, and whose request can be sent, is
that one request. It succeeds exactly if the response is a success that carries nothing, or whose
body is a document of the kind that the server stores. It is then done: with what was stored, or
where the response carries nothing, with an empty topic, no hashtags, or the assignee that was asked
for. Any other response fails the edit and leaves the session as it was. The documents of a change
and of a server have no such stand-in. -/
theorem perform_reply (c : Http.Client) (s : Session) (edit : SessionEdit)
    (replies : Http.Replies) :
    let outcome := (c.run (s.perform edit)).converse replies
    let talk : List Http.Exchange := outcome.1
    let result := outcome.2.1
    let s' := outcome.2.2
    (∀ n w u, s.change.number = some n → s.Needs edit → c.requestOf (edit.call n) = .ok w →
      Http.Client.addressOf w = .ok u → talk.map Http.Exchange.request = [w]) ∧
    (∀ w r, ⟨w, .ok r⟩ ∈ talk → talk = [⟨w, .ok r⟩] ∧
      ((∃ reply, result = .ok reply) ↔
        r.Success ∧ (r.Void ∨ ∃ a, Json.Document.decode edit.codec r.body = .ok a)) ∧
      s.Replied edit r result s') ∧
    (∀ n change, ((c.answer (.getChange n)).converse replies).2 = .ok change →
      ∃ w r, ((c.answer (.getChange n)).converse replies).1 = [⟨w, .ok r⟩] ∧
        r.Yields Change.codec change) ∧
    (∀ config, ((c.answer .getConfig).converse replies).2 = .ok config →
      ∃ w r, ((c.answer .getConfig).converse replies).1 = [⟨w, .ok r⟩] ∧
        r.Yields ServerConfig.codec config) := by
  intro outcome talk result s'
  have hheld : (c.run (s.perform edit)).Held talk (result, s') := Dialogue.held_converse replies _
  refine ⟨?_, ?_, ?_, ?_⟩
  · intro n w u hn needed asked sent
    exact request_of_needed hheld hn needed asked sent
  · intro w r hmem
    obtain ⟨hone, htaken⟩ := taken_of_held hheld hmem
    have hreplied : s.Replied edit r result s' := replied_of_taken htaken
    exact ⟨hone, hreplied.ok_iff, hreplied⟩
  · intro n change hchange
    obtain ⟨w, r, htalk, hreads⟩ := Http.Client.response_of_ok hchange
    exact ⟨w, r, htalk, Http.Client.readAnswer_change.1 hreads⟩
  · intro config hconfig
    obtain ⟨w, r, htalk, hreads⟩ := Http.Client.response_of_ok hconfig
    exact ⟨w, r, htalk, Http.Client.readAnswer_config.1 hreads⟩

end Session

end ChangeDesk
