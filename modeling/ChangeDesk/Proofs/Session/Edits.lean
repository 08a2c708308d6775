import ChangeDesk.Proofs.Assigner.Moves
import ChangeDesk.Proofs.Conversation
import ChangeDesk.Session

/-!
# Loads and edits of a session

The four edits of a session as one kind of data, and every way one of them can end: it is refused
before the server is called, it turns out to need no call, the one call fails, or the server
confirms it. Statements about sessions are built from this case distinction and do not open the
operations again.

Main statements: the ways a load and an edit can end (`Session.loaded_of_held`,
`Session.performed_of_held`), and that an edit is done in full or not at all
(`Session.perform_atomic`).
-/

namespace ChangeDesk

/-- An edit that a viewer asks for. -/
inductive SessionEdit where
  | assignee (desired : List Account)
  | topic (wanted : Option String)
  | addHashtag (tag : String)
  | removeHashtag (tag : String)
deriving DecidableEq, Repr

/-- What an edit reports that succeeded: whether the server was called, or what it stored. -/
inductive EditReply where
  | assignee (called : Bool)
  | topic (stored : String)
  | hashtags (stored : List String)
deriving DecidableEq, Repr

abbrev Remote.Exchange : Type := Dialogue.Exchange Call fun c => Except RemoteFault c.Answer

/-- The outcomes of calls, which may depend on what was called before. -/
abbrev Remote.Answers : Type := Nat → (c : Call) → Except RemoteFault c.Answer

/-- The call that an edit of change `n` needs. -/
def SessionEdit.call (n : ChangeNumber) : SessionEdit → Call
  | .assignee desired => desired.head?.elim (.clearAssignee n) (.setAssignee n)
  | .topic wanted => .setTopic n wanted
  | .addHashtag tag => .editHashtags n ⟨[tag], []⟩
  | .removeHashtag tag => .editHashtags n ⟨[], [tag]⟩

/-- Writes what an event tells into a change. -/
def SessionEvent.write : SessionEvent → Change → Change
  | .assignee account, c => { c with assignee := account }
  | .topic stored, c => { c with topic := some stored }
  | .hashtags stored, c => { c with hashtags := some stored }

/-- The server confirms an edit of change `n`: the exchange, the reply and the event. The event tells
the account of the edit itself, or what the server has stored. -/
inductive Confirms (n : ChangeNumber) :
    SessionEdit → Remote.Exchange → EditReply → SessionEvent → Prop where
  | assigned (account answer : Account) :
    Confirms n (.assignee [account]) ⟨.setAssignee n account, .ok answer⟩ (.assignee true)
      (.assignee (some account))
  | cleared : Confirms n (.assignee []) ⟨.clearAssignee n, .ok ()⟩ (.assignee true) (.assignee none)
  | topic (wanted : Option String) (stored : String) :
    Confirms n (.topic wanted) ⟨.setTopic n wanted, .ok stored⟩ (.topic stored) (.topic stored)
  | added (tag : String) (stored : List String) :
    Confirms n (.addHashtag tag) ⟨.editHashtags n ⟨[tag], []⟩, .ok stored⟩ (.hashtags stored)
      (.hashtags stored)
  | removed (tag : String) (stored : List String) :
    Confirms n (.removeHashtag tag) ⟨.editHashtags n ⟨[], [tag]⟩, .ok stored⟩ (.hashtags stored)
      (.hashtags stored)

theorem Confirms.call_eq {n : ChangeNumber} {edit : SessionEdit} {exchange : Remote.Exchange}
    {reply : EditReply} {event : SessionEvent} (h : Confirms n edit exchange reply event) :
    ∃ answer, exchange = ⟨edit.call n, .ok answer⟩ := by
  cases h <;> exact ⟨_, rfl⟩

namespace Assigner

/-- The assigner once the call for an edit has its outcome, written into `c` or not. -/
def settle (a : Assigner) (c : Change) : Assigner :=
  { a with state := .settled, view := c.assignee.toList, issued := a.issued + 1 }

theorem complete_issued (a : Assigner) (view : List Account) (n : ChangeNumber)
    (target : Option Account) (outcome : Except RemoteFault Unit) (c : Change) :
    complete { a with
        view := view, issued := a.issued + 1, state := .pending (a.issued + 1) target }
      ⟨a.issued + 1, n, target⟩ outcome c =
    match outcome with
    | .ok () => (a.settle { c with assignee := target }, { c with assignee := target })
    | .error _ => (a.settle c, c) := by
  cases outcome with
  | ok done => simp only [complete, settle, if_true]
  | error fault => simp only [complete, settle, if_true]

end Assigner

namespace Session

def report {α : Type} (reply : α → EditReply) (d : Remote (Except RemoteFault α × Session)) :
    Remote (Except RemoteFault EditReply × Session) := do
  let (result, s) ← d
  return (result.map reply, s)

/-- Carries an edit out. -/
def perform (s : Session) : SessionEdit → Remote (Except RemoteFault EditReply × Session)
  | .assignee desired => report .assignee (s.editAssignee desired)
  | .topic wanted => report .topic (s.setTopic wanted)
  | .addHashtag tag => report .hashtags (s.addHashtag tag)
  | .removeHashtag tag => report .hashtags (s.removeHashtag tag)

/-- An edit is refused without asking the server. Where assignees are off, an edit of the assignee
is not even held against the number of the change. -/
inductive Refuses (s : Session) : SessionEdit → RemoteFault → Prop where
  | tooMany (desired : List Account) (many : 1 < desired.length) :
    Refuses s (.assignee desired) (.tooManyAssignees desired.length)
  | unnumbered (edit : SessionEdit) (missing : s.change.number = none)
    (taken : ∀ desired, edit = .assignee desired →
      desired.length ≤ 1 ∧ s.assigner.enabled = true) :
    Refuses s edit .noChangeNumber

/-- The server has to be called for an edit if the change has a number: an assignee has to be allowed
and another than stands, a topic and hashtags are not compared. -/
def Needs (s : Session) : SessionEdit → Prop
  | .assignee desired =>
    desired.length ≤ 1 ∧ s.assigner.enabled = true ∧
      sameTarget desired.head? (s.assigner.standing s.change) = false
  | _ => True

/-- The session when a call for an edit has its outcome and the change is `c`. -/
def conclude (s : Session) (edit : SessionEdit) (c : Change) : Session :=
  { s with
    change := c
    assigner := match edit with
      | .assignee _ => s.assigner.settle c
      | _ => s.assigner }

/-- All ways an edit can end. -/
inductive Performed (s : Session) :
    SessionEdit → List Remote.Exchange → Except RemoteFault EditReply → Session → Prop where
  | refused {edit : SessionEdit} {fault : RemoteFault} (why : s.Refuses edit fault) :
    Performed s edit [] (.error fault) s
  | ignored {desired : List Account} (one : desired.length ≤ 1)
    (off : s.assigner.enabled = false) :
    Performed s (.assignee desired) [] (.ok (.assignee false)) s
  | agreed {desired : List Account} {n : ChangeNumber} (one : desired.length ≤ 1)
    (on : s.assigner.enabled = true) (numbered : s.change.number = some n)
    (same : sameTarget desired.head? (s.assigner.standing s.change) = true) :
    Performed s (.assignee desired) [] (.ok (.assignee false))
      { s with assigner := { s.assigner with view := desired.head?.toList } }
  | failed {edit : SessionEdit} {n : ChangeNumber} (fault : RemoteFault)
    (numbered : s.change.number = some n) (needed : s.Needs edit) :
    Performed s edit [⟨edit.call n, .error fault⟩] (.error fault) (s.conclude edit s.change)
  | confirmed {edit : SessionEdit} {n : ChangeNumber} {exchange : Remote.Exchange}
    {reply : EditReply} {event : SessionEvent} (numbered : s.change.number = some n)
    (needed : s.Needs edit) (confirms : Confirms n edit exchange reply event) :
    Performed s edit [exchange] (.ok reply)
      ((s.conclude edit (event.write s.change)).tell event)

variable {s s' : Session} {talk : List Remote.Exchange}

/-! ### Calls and loads -/

theorem held_call {c : Call} {answer : Except RemoteFault c.Answer} :
    (Remote.call c).Held talk answer ↔ talk = [⟨c, answer⟩] := Dialogue.held_question

theorem held_return {α : Type} {result r : Except RemoteFault α} {s₀ : Session} :
    (pure (r, s₀) : Remote (Except RemoteFault α × Session)).Held talk (result, s') ↔
      talk = [] ∧ result = r ∧ s' = s₀ := by
  rw [Dialogue.held_pure, Prod.mk.injEq]

/-- All ways the load of change `n` can end. -/
inductive Loaded (n : ChangeNumber) :
    List Remote.Exchange → Except RemoteFault Session → Prop where
  | noConfig (fault : RemoteFault) : Loaded n [⟨.getConfig, .error fault⟩] (.error fault)
  | noChange (config : ServerConfig) (fault : RemoteFault) :
    Loaded n [⟨.getConfig, .ok config⟩, ⟨.getChange n, .error fault⟩] (.error fault)
  | loaded (config : ServerConfig) (change : Change) :
    Loaded n [⟨.getConfig, .ok config⟩, ⟨.getChange n, .ok change⟩] (.ok (start change config))

theorem loaded_of_held {n : ChangeNumber} {talk : List Remote.Exchange}
    {result : Except RemoteFault Session} (h : (load n).Held talk result) :
    Loaded n talk result := by
  obtain ⟨config, before, after, hconfig, hrest, rfl⟩ := Dialogue.held_bind.1 h
  obtain rfl := held_call.1 hconfig
  cases config with
  | error fault =>
    obtain ⟨rfl, rfl⟩ := Dialogue.held_pure.1 hrest
    exact .noConfig fault
  | ok config =>
    obtain ⟨change, before, after, hchange, hend, rfl⟩ := Dialogue.held_bind.1 hrest
    obtain rfl := held_call.1 hchange
    cases change with
    | error fault =>
      obtain ⟨rfl, rfl⟩ := Dialogue.held_pure.1 hend
      exact .noChange config fault
    | ok change =>
      obtain ⟨rfl, rfl⟩ := Dialogue.held_pure.1 hend
      exact .loaded config change

/-! ### Edits -/

theorem held_issue_error {call : AssignCall} {fault : RemoteFault}
    (h : call.issue.Held talk (.error fault)) :
    talk = [⟨call.target.elim (.clearAssignee call.change) (.setAssignee call.change),
      .error fault⟩] := by
  obtain ⟨seq, n, target⟩ := call
  cases target with
  | none => exact held_call.1 h
  | some account =>
    obtain ⟨answer, hcall, hanswer⟩ := Dialogue.held_bind_pure h
    obtain rfl := held_call.1 hcall
    cases answer with
    | error other =>
      cases hanswer
      rfl
    | ok stored => cases hanswer

theorem held_issue_ok {seq : Nat} {n : ChangeNumber} {desired : List Account}
    (one : desired.length ≤ 1) (h : (AssignCall.mk seq n desired.head?).issue.Held talk (.ok ())) :
    ∃ exchange, talk = [exchange] ∧
      Confirms n (.assignee desired) exchange (.assignee true) (.assignee desired.head?) := by
  match desired, one with
  | [], _ => exact ⟨_, held_call.1 h, .cleared⟩
  | [account], _ =>
    obtain ⟨answer, hcall, hanswer⟩ := Dialogue.held_bind_pure h
    obtain rfl := held_call.1 hcall
    cases answer with
    | error fault => cases hanswer
    | ok stored => exact ⟨_, rfl, .assigned account stored⟩

theorem performed_assignee {desired : List Account} {result : Except RemoteFault Bool}
    (h : (s.editAssignee desired).Held talk (result, s')) :
    Performed s (.assignee desired) talk (result.map .assignee) s' := by
  unfold editAssignee at h
  -- the checks in the order in which an edit meets them: too many, off, no number, the same
  by_cases hmany : 1 < desired.length
  · rw [Assigner.edit_of_many _ _ _ hmany] at h
    obtain ⟨rfl, rfl, rfl⟩ := held_return.1 h
    exact .refused (.tooMany desired hmany)
  have hone : desired.length ≤ 1 := by omega
  cases hon : s.assigner.enabled with
  | false =>
    rw [Assigner.edit_of_off _ _ _ hone hon] at h
    obtain ⟨rfl, rfl, rfl⟩ := held_return.1 h
    exact .ignored hone hon
  | true =>
    cases hn : s.change.number with
    | none =>
      rw [Assigner.edit_of_unnumbered _ _ _ hone hon hn] at h
      obtain ⟨rfl, rfl, rfl⟩ := held_return.1 h
      refine .refused (.unnumbered _ hn ?_)
      rintro _ ⟨⟩
      exact ⟨hone, hon⟩
    | some n =>
      rw [Assigner.edit_of_numbered _ _ _ n hon hone hn] at h
      cases hsame : sameTarget desired.head? (s.assigner.standing s.change) with
      | true =>
        rw [hsame, if_pos rfl] at h
        obtain ⟨rfl, rfl, rfl⟩ := held_return.1 h
        exact .agreed hone hon hn hsame
      | false =>
        rw [hsame, if_neg Bool.false_ne_true] at h
        obtain ⟨outcome, before, after, hissue, hend, rfl⟩ := Dialogue.held_bind.1 h
        have hneeded : s.Needs (.assignee desired) := ⟨hone, hon, hsame⟩
        cases outcome with
        | error fault =>
          simp only [Assigner.conclude, Assigner.complete_issued] at hend
          obtain ⟨rfl, rfl, rfl⟩ := held_return.1 hend
          obtain rfl := held_issue_error hissue
          exact .failed fault hn hneeded
        | ok done =>
          simp only [Assigner.conclude, Assigner.complete_issued] at hend
          obtain ⟨rfl, rfl, rfl⟩ := held_return.1 hend
          obtain ⟨exchange, rfl, hconfirms⟩ := held_issue_ok hone hissue
          exact .confirmed hn hneeded hconfirms

theorem performed_topic {wanted : Option String} {result : Except RemoteFault String}
    (h : (s.setTopic wanted).Held talk (result, s')) :
    Performed s (.topic wanted) talk (result.map .topic) s' := by
  have hneeded : s.Needs (.topic wanted) := trivial
  unfold setTopic at h
  cases hn : s.change.number with
  | none =>
    rw [hn] at h
    obtain ⟨rfl, rfl, rfl⟩ := held_return.1 h
    exact .refused (.unnumbered _ hn (by rintro _ ⟨⟩))
  | some n =>
    rw [hn] at h
    obtain ⟨answer, before, after, hcall, hend, rfl⟩ := Dialogue.held_bind.1 h
    obtain rfl := held_call.1 hcall
    cases answer with
    | error fault =>
      obtain ⟨rfl, rfl, rfl⟩ := held_return.1 hend
      exact .failed fault hn hneeded
    | ok stored =>
      obtain ⟨rfl, rfl, rfl⟩ := held_return.1 hend
      exact .confirmed hn hneeded (.topic wanted stored)

theorem performed_hashtags {edit : SessionEdit} {tags : HashtagEdit}
    {result : Except RemoteFault (List String)} (hkind : ∀ desired, edit ≠ .assignee desired)
    (hcalls : ∀ n, edit.call n = .editHashtags n tags)
    (hconfirms : ∀ n stored, Confirms n edit ⟨.editHashtags n tags, .ok stored⟩ (.hashtags stored)
      (.hashtags stored))
    (h : (s.editHashtags tags).Held talk (result, s')) :
    Performed s edit talk (result.map .hashtags) s' := by
  -- adding and removing differ in what is called only; neither is compared with what stands
  have hneeded : s.Needs edit := by
    cases edit with
    | assignee desired => exact absurd rfl (hkind desired)
    | _ => trivial
  have hconclude : ∀ c, s.conclude edit c = { s with change := c } := by
    intro c
    cases edit with
    | assignee desired => exact absurd rfl (hkind desired)
    | _ => rfl
  unfold editHashtags at h
  cases hn : s.change.number with
  | none =>
    rw [hn] at h
    obtain ⟨rfl, rfl, rfl⟩ := held_return.1 h
    exact .refused (.unnumbered edit hn fun desired he => absurd he (hkind desired))
  | some n =>
    rw [hn] at h
    obtain ⟨answer, before, after, hcall, hend, rfl⟩ := Dialogue.held_bind.1 h
    obtain rfl := held_call.1 hcall
    cases answer with
    | error fault =>
      obtain ⟨rfl, rfl, rfl⟩ := held_return.1 hend
      have hfailed := Performed.failed fault hn hneeded
      rw [hcalls, hconclude] at hfailed
      exact hfailed
    | ok stored =>
      obtain ⟨rfl, rfl, rfl⟩ := held_return.1 hend
      have hconfirmed := Performed.confirmed hn hneeded (hconfirms n stored)
      rw [hconclude] at hconfirmed
      exact hconfirmed

theorem performed_addHashtag {tag : String} {result : Except RemoteFault (List String)}
    (h : (s.addHashtag tag).Held talk (result, s')) :
    Performed s (.addHashtag tag) talk (result.map .hashtags) s' :=
  performed_hashtags (by rintro _ ⟨⟩) (fun _ => rfl) (fun _ => .added tag) h

theorem performed_removeHashtag {tag : String} {result : Except RemoteFault (List String)}
    (h : (s.removeHashtag tag).Held talk (result, s')) :
    Performed s (.removeHashtag tag) talk (result.map .hashtags) s' :=
  performed_hashtags (by rintro _ ⟨⟩) (fun _ => rfl) (fun _ => .removed tag) h

theorem held_report {α : Type} {reply : α → EditReply}
    {d : Remote (Except RemoteFault α × Session)} {result : Except RemoteFault EditReply}
    (h : (report reply d).Held talk (result, s')) :
    ∃ r, d.Held talk (r, s') ∧ result = r.map reply := by
  obtain ⟨⟨r, s''⟩, hd, hend⟩ := Dialogue.held_bind_pure h
  cases hend
  exact ⟨r, hd, rfl⟩

theorem performed_of_held {edit : SessionEdit} {result : Except RemoteFault EditReply}
    (h : (s.perform edit).Held talk (result, s')) : Performed s edit talk result s' := by
  cases edit with
  | assignee desired =>
    obtain ⟨r, hr, rfl⟩ := held_report h
    exact performed_assignee hr
  | topic wanted =>
    obtain ⟨r, hr, rfl⟩ := held_report h
    exact performed_topic hr
  | addHashtag tag =>
    obtain ⟨r, hr, rfl⟩ := held_report h
    exact performed_addHashtag hr
  | removeHashtag tag =>
    obtain ⟨r, hr, rfl⟩ := held_report h
    exact performed_removeHashtag hr

/-- The change, the configuration and the feed of a session are as they were. -/
def Untouched (s s' : Session) : Prop :=
  s'.change = s.change ∧ s'.config = s.config ∧ s'.feed = s.feed

theorem Refuses.unique {edit : SessionEdit} {fault other : RemoteFault} (h : s.Refuses edit fault)
    (h' : s.Refuses edit other) : fault = other := by
  cases h with
  | tooMany desired many =>
    cases h' with
    | tooMany _ _ => rfl
    | unnumbered _ missing taken =>
      have hone := (taken desired rfl).1
      omega
  | unnumbered _ missing taken =>
    cases h' with
    | tooMany desired many =>
      have hone := (taken desired rfl).1
      omega
    | unnumbered _ _ _ => rfl

theorem Refuses.not_needs {edit : SessionEdit} {fault : RemoteFault} {n : ChangeNumber}
    (h : s.Refuses edit fault) (hn : s.change.number = some n) : ¬ s.Needs edit := by
  intro hneeded
  cases h with
  | tooMany desired many =>
    have hone := hneeded.1
    omega
  | unnumbered _ missing taken =>
    rw [missing] at hn
    cases hn

namespace Performed

variable {edit : SessionEdit} {desired : List Account} {fault : RemoteFault} {reply : EditReply}
  {result : Except RemoteFault EditReply}

theorem of_error (hp : Performed s edit talk (.error fault) s') :
    Untouched s s' ∧ (talk = [] ∧ s.Refuses edit fault ∨
      ∃ n, s.change.number = some n ∧ talk = [⟨edit.call n, .error fault⟩]) := by
  cases hp with
  | refused why => exact ⟨⟨rfl, rfl, rfl⟩, .inl ⟨rfl, why⟩⟩
  | failed _ numbered needed => exact ⟨⟨rfl, rfl, rfl⟩, .inr ⟨_, numbered, rfl⟩⟩

theorem of_refuses (hp : Performed s edit talk result s') (h : s.Refuses edit fault) :
    talk = [] ∧ result = .error fault := by
  cases hp with
  | refused why => exact ⟨rfl, by rw [why.unique h]⟩
  | ignored one off =>
    cases h with
    | tooMany _ many => omega
    | unnumbered _ missing taken =>
      have hon := (taken _ rfl).2
      rw [off] at hon
      cases hon
  | agreed one on numbered same =>
    cases h with
    | tooMany _ many => omega
    | unnumbered _ missing taken =>
      rw [missing] at numbered
      cases numbered
  | failed _ numbered needed => exact absurd needed (h.not_needs numbered)
  | confirmed numbered needed confirms => exact absurd needed (h.not_needs numbered)

theorem of_called (hp : Performed s edit talk (.ok reply) s') (hcalled : talk ≠ []) :
    ∃ n exchange event, s.change.number = some n ∧ talk = [exchange] ∧
      Confirms n edit exchange reply event ∧ s'.change = event.write s.change ∧
      s'.config = s.config ∧ s'.feed = s.feed.send event := by
  cases hp with
  | ignored one off => exact absurd rfl hcalled
  | agreed one on numbered same => exact absurd rfl hcalled
  | confirmed numbered needed confirms =>
    exact ⟨_, _, _, numbered, rfl, confirms, rfl, rfl, rfl⟩

theorem of_quiet (hp : Performed s edit [] (.ok reply) s') : reply = .assignee false := by
  cases hp with
  | ignored one off => rfl
  | agreed one on numbered same => rfl

theorem of_uncalled (hp : Performed s edit talk (.ok (.assignee false)) s') :
    talk = [] ∧ Untouched s s' := by
  cases hp with
  | ignored one off => exact ⟨rfl, rfl, rfl, rfl⟩
  | agreed one on numbered same => exact ⟨rfl, rfl, rfl, rfl⟩
  | confirmed numbered needed confirms => cases confirms

theorem settled_of_error (hp : Performed s (.assignee desired) talk (.error fault) s')
    (hcalled : talk ≠ []) :
    s'.assigneeView = s'.change.assignee.toList ∧
      ∀ seq target, s'.assigner.state ≠ .pending seq target := by
  cases hp with
  | refused why => exact absurd rfl hcalled
  | failed _ numbered needed => exact ⟨rfl, fun seq target => by rintro ⟨⟩⟩

end Performed

/-- An edit is done in full or not at all, whatever the session and whatever the server answers.
An edit that fails leaves the change, the configuration and the feed as they were; one that is
refused makes no call. An edit that succeeds after a call has made exactly one, for the change of
the session; it writes the one field that the edit is of, and sends the one event that tells it. An
edit of the assignee that reports no call has made none and leaves all three as they were; after one
whose call failed the viewer sees the assignee of the change, and no call is under way. -/
theorem perform_atomic (s : Session) (edit : SessionEdit) (answers : Remote.Answers) :
    let outcome := (s.perform edit).converse answers
    let talk := outcome.1
    let result := outcome.2.1
    let s' := outcome.2.2
    (∀ fault, result = .error fault → Untouched s s' ∧
      (talk = [] ∧ s.Refuses edit fault ∨
        ∃ n, s.change.number = some n ∧ talk = [⟨edit.call n, .error fault⟩])) ∧
    (∀ fault, s.Refuses edit fault → talk = [] ∧ result = .error fault) ∧
    (∀ reply, result = .ok reply → talk ≠ [] →
      ∃ n exchange event, s.change.number = some n ∧ talk = [exchange] ∧
        Confirms n edit exchange reply event ∧ s'.change = event.write s.change ∧
        s'.config = s.config ∧ s'.feed = s.feed.send event) ∧
    (∀ reply, result = .ok reply → talk = [] → reply = .assignee false) ∧
    (result = .ok (.assignee false) → talk = [] ∧ Untouched s s') ∧
    (∀ desired fault, edit = .assignee desired → result = .error fault → talk ≠ [] →
      s'.assigneeView = s'.change.assignee.toList ∧
      ∀ seq target, s'.assigner.state ≠ .pending seq target) := by
  intro outcome talk result s'
  have hp : Performed s edit talk result s' :=
    performed_of_held (Dialogue.held_converse answers (s.perform edit))
  refine ⟨?_, ?_, ?_, ?_, ?_, ?_⟩
  · rintro fault hresult
    exact (hresult ▸ hp).of_error
  · intro fault hrefuses
    exact hp.of_refuses hrefuses
  · intro reply hresult hcalled
    exact (hresult ▸ hp).of_called hcalled
  · intro reply hresult hquiet
    exact (hresult ▸ hquiet ▸ hp).of_quiet
  · intro hresult
    exact (hresult ▸ hp).of_uncalled
  · intro desired fault hedit hresult hcalled
    exact (hedit ▸ hresult ▸ hp).settled_of_error hcalled

end Session

end ChangeDesk
