import ChangeDesk.Http.Client
import ChangeDesk.Proofs.Conversation

/-!
# Calls as requests

A call to the server is at most one request, and a call that has an answer was exactly one, whose
response was read.

Main statements: what a response has to be to carry a document (`Client.readResponse_some`), and the
ways a call can come out (`Client.answered_of_held`).
-/

namespace ChangeDesk.Http

/-- A request and what came back. -/
abbrev Exchange : Type := Dialogue.Exchange Request fun _ => Except Outage Response

def Exchange.request (e : Exchange) : Request := e.1

def Exchange.reply (e : Exchange) : Except Outage Response := e.2

/-- What comes back to requests, which may depend on how many were sent before. -/
abbrev Replies : Type := Nat → Request → Except Outage Response

variable {α : Type}

/-- A response carries a document: it is a success with a body, and the body is that document. -/
structure Response.Yields (r : Response) (codec : Json.Codec α) (a : α) : Prop where
  content : r.status ≠ 204
  success : 200 ≤ r.status ∧ r.status < 300
  body : Text.allBlank r.body = false
  decodes : Json.Document.decode codec r.body = .ok a

theorem Response.Yields.unique {r : Response} {codec : Json.Codec α} {a b : α}
    (h : r.Yields codec a) (h' : r.Yields codec b) : a = b :=
  Except.ok.inj (h.decodes.symm.trans h'.decodes)

namespace Client

/-! ### Responses -/

theorem readResponse_some {codec : Json.Codec α} {r : Response} {a : α} :
    readResponse codec r = .ok (some a) ↔ r.Yields codec a := by
  constructor
  · intro h
    unfold readResponse at h
    split at h
    · cases h
    rename_i hcontent
    split at h
    · cases h
    rename_i hrange
    split at h
    · cases h
    rename_i hbody
    split at h
    · rename_i b hdecode
      cases h
      exact ⟨hcontent, by omega, Bool.eq_false_iff.2 hbody, hdecode⟩
    · cases h
  · intro h
    have hrange : ¬ (r.status < 200 ∨ 300 ≤ r.status) := by
      have hsuccess := h.success
      omega
    simp only [readResponse, h.content, hrange, h.body, h.decodes, if_false, Bool.false_eq_true]

theorem required_ok {what : String} {v : Option α} {a : α} :
    required what v = .ok a ↔ v = some a := by
  cases v with
  | none => exact ⟨nofun, nofun⟩
  | some b =>
    show Except.ok b = .ok a ↔ some b = some a
    rw [Except.ok.injEq, Option.some.injEq]

theorem required_readResponse {codec : Json.Codec α} {what : String} {r : Response} {a : α} :
    (readResponse codec r >>= required what) = .ok a ↔ r.Yields codec a := by
  rw [← readResponse_some]
  cases readResponse codec r with
  | error f => exact ⟨nofun, nofun⟩
  | ok v =>
    show required what v = .ok a ↔ Except.ok v = .ok (some a)
    rw [required_ok, Except.ok.injEq]

theorem readAnswer_config {r : Response} {config : ServerConfig} :
    readAnswer .getConfig r = .ok config ↔ r.Yields ServerConfig.codec config :=
  required_readResponse

theorem readAnswer_change {n : ChangeNumber} {r : Response} {change : Change} :
    readAnswer (.getChange n) r = .ok change ↔ r.Yields Change.codec change :=
  required_readResponse

/-! ### Calls -/

/-- All ways a call can come out: nothing could be sent, nothing came back, or the response was
read. -/
inductive Answered (c : Client) (call : Call) :
    List Exchange → Except RemoteFault call.Answer → Prop where
  | unsent (fault : RemoteFault) : Answered c call [] (.error fault)
  | lost {r : Request} (asked : c.requestOf call = .ok r) (outage : Outage) (fault : RemoteFault) :
    Answered c call [⟨r, .error outage⟩] (.error fault)
  | received {r : Request} {response : Response} {answer : Except RemoteFault call.Answer}
    (asked : c.requestOf call = .ok r) (reads : readAnswer call response = answer) :
    Answered c call [⟨r, .ok response⟩] answer

variable {c : Client} {call : Call} {talk : List Exchange}

theorem answered_of_held {answer : Except RemoteFault call.Answer}
    (h : (c.answer call).Held talk answer) : Answered c call talk answer := by
  unfold Client.answer at h
  split at h
  · obtain ⟨rfl, rfl⟩ := Dialogue.held_pure.1 h
    exact .unsent _
  · rename_i r hasked
    split at h
    · obtain ⟨rfl, rfl⟩ := Dialogue.held_pure.1 h
      exact .unsent _
    · obtain ⟨reply, before, after, hquestion, hend, rfl⟩ := Dialogue.held_bind.1 h
      obtain rfl := Dialogue.held_question.1 hquestion
      cases reply with
      | ok response =>
        obtain ⟨rfl, hanswer⟩ := Dialogue.held_pure.1 hend
        exact .received hasked hanswer.symm
      | error outage =>
        cases outage with
        | unreachable =>
          obtain ⟨rfl, rfl⟩ := Dialogue.held_pure.1 hend
          exact .lost hasked _ _
        | closedEarly =>
          obtain ⟨rfl, rfl⟩ := Dialogue.held_pure.1 hend
          exact .lost hasked _ _

/-- A call that has an answer was one request. -/
theorem Answered.of_ok {a : call.Answer} (h : Answered c call talk (.ok a)) :
    ∃ r response, talk = [⟨r, .ok response⟩] ∧ c.requestOf call = .ok r ∧
      readAnswer call response = .ok a := by
  cases h with
  | received asked reads => exact ⟨_, _, rfl, asked, reads⟩

end Client

end ChangeDesk.Http
