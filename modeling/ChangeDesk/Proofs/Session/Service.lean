import ChangeDesk.Proofs.Session.Edits
import Mathlib.Logic.Function.Basic

/-!
# A session and its server

A server holds an assignee for each change. What it acknowledges it has stored; a call that fails
has changed nothing. A session is edited against it, and now and then takes its change anew as the
server has it.

Main statements: what one turn keeps (`Meeting.Aligned.turn`), and that a session agrees with its
server over every run (`Meeting.agreement`).
-/

namespace ChangeDesk

/-- The assignees that a server holds, by change. -/
abbrev Holdings : Type := ChangeNumber → Option Account

namespace Holdings

/-- What a server holds after one call. -/
def after (held : Holdings) : Remote.Exchange → Holdings
  | ⟨.setAssignee n account, .ok _⟩ => Function.update held n (some account)
  | ⟨.clearAssignee n, .ok _⟩ => Function.update held n none
  | _ => held

theorem after_error (held : Holdings) (c : Call) (fault : RemoteFault) :
    held.after ⟨c, .error fault⟩ = held := by
  cases c <;> rfl

end Holdings

namespace Session

/-- Sessions as they are opened, on a change at hand or by a load. -/
inductive Opened : Session → Prop where
  | start (change : Change) (config : ServerConfig) : Opened (start change config)
  | load {n : ChangeNumber} {talk : List Remote.Exchange} {s : Session}
    (held : (load n).Held talk (.ok s)) : Opened s

theorem Opened.eq_start {s : Session} (h : s.Opened) :
    ∃ change config, s = Session.start change config := by
  cases h with
  | start change config => exact ⟨change, config, rfl⟩
  | load held =>
    cases loaded_of_held held with
    | loaded config change => exact ⟨change, config, rfl⟩

end Session

/-- A session and what its server holds. -/
structure Meeting where
  session : Session
  held : Holdings

/-- What happens next: an edit, with the outcomes of its calls, or the session takes a change anew
from a server that by now may hold anything. -/
inductive Turn where
  | edit (edit : SessionEdit) (answers : Remote.Answers)
  | reload (change : Change) (held : Holdings)

/-- A change taken anew has a number, and the assignee that the server holds. -/
def Turn.Fair : Turn → Prop
  | .edit _ _ => True
  | .reload change held => ∃ n, change.number = some n ∧ held n = change.assignee

namespace Meeting

def turn (m : Meeting) : Turn → Meeting
  | .edit edit answers =>
    let outcome := (m.session.perform edit).converse answers
    ⟨outcome.2.2, outcome.1.foldl Holdings.after m.held⟩
  | .reload change held => ⟨m.session.replaceChange change, held⟩

def run (m : Meeting) (turns : List Turn) : Meeting := turns.foldl turn m

/-- No call is under way, the server holds the assignee of the change, and the viewer sees that. -/
structure Aligned (m : Meeting) : Prop where
  quiet : ∀ seq target, m.session.assigner.state ≠ .pending seq target
  enabled : m.session.assigner.enabled = m.session.config.assigneeEnabled
  agrees : ∃ n, m.session.change.number = some n ∧ m.held n = m.session.change.assignee
  single : m.session.assigneeView.length ≤ 1
  same : sameTarget m.session.assigneeView.head? m.session.change.assignee = true

variable {m : Meeting} {s s' : Session} {held : Holdings} {talk : List Remote.Exchange}

/-- An assigner that shows the assignee of the change as it is. -/
theorem aligned_of_view (quiet : ∀ seq target, s.assigner.state ≠ .pending seq target)
    (enabled : s.assigner.enabled = s.config.assigneeEnabled) {n : ChangeNumber}
    (numbered : s.change.number = some n) (agrees : held n = s.change.assignee)
    (view : s.assigneeView = s.change.assignee.toList) : Aligned ⟨s, held⟩ where
  quiet := quiet
  enabled := enabled
  agrees := ⟨n, numbered, agrees⟩
  single := by
    rw [view]
    exact Option.length_toList_le
  same := by
    rw [view, Option.head?_toList]
    exact sameTarget_self _

theorem aligned_start (change : Change) (config : ServerConfig) {n : ChangeNumber}
    (numbered : change.number = some n) (agrees : held n = change.assignee) :
    Aligned ⟨.start change config, held⟩ :=
  aligned_of_view (fun _ _ => by rintro ⟨⟩) rfl numbered agrees rfl

theorem Aligned.performed (h : Aligned ⟨s, held⟩) {edit : SessionEdit}
    {result : Except RemoteFault EditReply} (hp : s.Performed edit talk result s') :
    Aligned ⟨s', talk.foldl Holdings.after held⟩ := by
  obtain ⟨k, hk, hheld⟩ := h.agrees
  cases hp with
  | refused why => exact h
  | ignored one off => exact h
  | @agreed desired n one on numbered same =>
    -- only the view moves, to an account that is the same as the assignee of the change
    rw [Assigner.standing_of_quiet _ _ h.quiet] at same
    refine ⟨h.quiet, h.enabled, h.agrees, Option.length_toList_le, ?_⟩
    show sameTarget desired.head?.toList.head? s.change.assignee = true
    rw [Option.head?_toList]
    exact same
  | failed fault numbered needed =>
    -- neither side has changed, but an edit of the assignee has reset the view
    rw [List.foldl_cons, List.foldl_nil, Holdings.after_error]
    cases edit with
    | assignee desired => exact aligned_of_view (fun _ _ => by rintro ⟨⟩) h.enabled hk hheld rfl
    | _ => exact h
  | confirmed numbered needed confirms =>
    -- the server has stored the account that the session writes into the change of that number
    cases confirms with
    | assigned account answer =>
      exact aligned_of_view (fun _ _ => by rintro ⟨⟩) h.enabled numbered
        (Function.update_self ..) rfl
    | cleared =>
      exact aligned_of_view (fun _ _ => by rintro ⟨⟩) h.enabled numbered
        (Function.update_self ..) rfl
    | _ => exact ⟨h.quiet, h.enabled, ⟨k, hk, hheld⟩, h.single, h.same⟩

theorem Aligned.turn (h : Aligned m) {t : Turn} (fair : t.Fair) : Aligned (m.turn t) := by
  cases t with
  | edit edit answers =>
    exact h.performed (Session.performed_of_held (Dialogue.held_converse answers _))
  | reload change held =>
    obtain ⟨n, numbered, agrees⟩ := fair
    exact aligned_of_view (fun _ _ => by rintro ⟨⟩) h.enabled numbered agrees rfl

theorem Aligned.run (h : Aligned m) {turns : List Turn} (fair : ∀ t ∈ turns, t.Fair) :
    Aligned (m.run turns) := by
  induction turns generalizing m with
  | nil => exact h
  | cons t turns ih =>
    exact ih (h.turn (fair t (List.mem_cons_self ..))) fun x hx => fair x (List.mem_cons_of_mem _ hx)

/-! ### One edit of the assignee -/

section

variable {desired : List Account} {result : Except RemoteFault EditReply} {n : ChangeNumber}

theorem calls_of_performed (hp : s.Performed (.assignee desired) talk result s')
    (quiet : ∀ seq target, s.assigner.state ≠ .pending seq target)
    (on : s.assigner.enabled = true) (one : desired.length ≤ 1)
    (numbered : s.change.number = some n) :
    talk.map Sigma.fst =
      if sameTarget desired.head? s.change.assignee then []
      else [(SessionEdit.assignee desired).call n] := by
  have hstanding := s.assigner.standing_of_quiet s.change quiet
  cases hp with
  | refused why =>
    cases why with
    | tooMany _ many => omega
    | unnumbered _ missing taken =>
      rw [missing] at numbered
      cases numbered
  | ignored _ off =>
    rw [on] at off
    cases off
  | agreed _ _ _ same =>
    rw [hstanding] at same
    rw [same]
    rfl
  | failed fault numbered' needed =>
    have hother := needed.2.2
    rw [hstanding] at hother
    rw [numbered] at numbered'
    cases numbered'
    rw [hother]
    rfl
  | confirmed numbered' needed confirms =>
    have hother := needed.2.2
    rw [hstanding] at hother
    rw [numbered] at numbered'
    cases numbered'
    rw [hother]
    cases confirms <;> rfl

theorem same_of_performed {reply : EditReply}
    (hp : s.Performed (.assignee desired) talk (.ok reply) s')
    (quiet : ∀ seq target, s.assigner.state ≠ .pending seq target)
    (on : s.assigner.enabled = true) :
    sameTarget desired.head? s'.change.assignee = true ∧
      (reply = .assignee true → s'.change.assignee = desired.head?) := by
  cases hp with
  | ignored _ off =>
    rw [on] at off
    cases off
  | agreed _ _ _ same =>
    rw [s.assigner.standing_of_quiet s.change quiet] at same
    exact ⟨same, by rintro ⟨⟩⟩
  | confirmed numbered needed confirms =>
    cases confirms with
    | assigned account answer => exact ⟨sameTarget_self _, fun _ => rfl⟩
    | cleared => exact ⟨rfl, fun _ => rfl⟩

theorem off_of_performed (hp : s.Performed (.assignee desired) talk result s')
    (off : s.assigner.enabled = false) (one : desired.length ≤ 1) :
    talk = [] ∧ result = .ok (.assignee false) ∧ s' = s := by
  cases hp with
  | refused why =>
    cases why with
    | tooMany _ many => omega
    | unnumbered _ missing taken =>
      have on := (taken desired rfl).2
      rw [off] at on
      cases on
  | ignored _ _ => exact ⟨rfl, rfl, rfl⟩
  | agreed _ on _ _ =>
    rw [off] at on
    cases on
  | failed fault numbered needed =>
    have on := needed.2.1
    rw [off] at on
    cases on
  | confirmed numbered needed confirms =>
    have on := needed.2.1
    rw [off] at on
    cases on

end

/-- A session agrees with its server. Over every run, however the calls come out, no call is under
way between the turns, the server holds the assignee of the change, and the viewer sees it. Where
assignees are on, an edit of the assignee calls the server exactly if it differs from the assignee of
the change; one that succeeds leaves an assignee that is the same as it asked for, and the very one
if the server was called. Where they are off, the edit does nothing. -/
theorem agreement {s : Session} (opened : s.Opened) {n : ChangeNumber}
    (numbered : s.change.number = some n) {held : Holdings} (agrees : held n = s.change.assignee)
    {turns : List Turn} (fair : ∀ t ∈ turns, t.Fair) :
    let m := run ⟨s, held⟩ turns
    let c := m.session.change
    (∀ seq target, m.session.assigner.state ≠ .pending seq target) ∧
    (∃ k, c.number = some k ∧ m.held k = c.assignee) ∧
    m.session.assigneeView.length ≤ 1 ∧
    sameTarget m.session.assigneeView.head? c.assignee = true ∧
    ∀ (desired : List Account) (answers : Remote.Answers), desired.length ≤ 1 →
      let outcome := (m.session.perform (.assignee desired)).converse answers
      let talk := outcome.1
      let result := outcome.2.1
      let s' := outcome.2.2
      (m.session.config.assigneeEnabled = true →
        (∃ k, c.number = some k ∧ talk.map Sigma.fst =
          if sameTarget desired.head? c.assignee then []
          else [desired.head?.elim (.clearAssignee k) (.setAssignee k)]) ∧
        (∀ reply, result = .ok reply →
          sameTarget desired.head? s'.change.assignee = true ∧
          (reply = .assignee true → s'.change.assignee = desired.head?))) ∧
      (m.session.config.assigneeEnabled = false →
        talk = [] ∧ result = .ok (.assignee false) ∧ s' = m.session) := by
  intro m c
  have hm : Aligned m := by
    obtain ⟨change, config, rfl⟩ := opened.eq_start
    exact (aligned_start change config numbered agrees).run fair
  refine ⟨hm.quiet, hm.agrees, hm.single, hm.same, ?_⟩
  intro desired answers one outcome talk result s'
  have hp : m.session.Performed (.assignee desired) talk result s' :=
    Session.performed_of_held (Dialogue.held_converse answers _)
  obtain ⟨k, hk, _⟩ := hm.agrees
  refine ⟨fun on => ⟨⟨k, hk, ?_⟩, ?_⟩, fun off => ?_⟩
  · exact calls_of_performed hp hm.quiet (hm.enabled.trans on) one hk
  · intro reply hresult
    exact same_of_performed (hresult ▸ hp) hm.quiet (hm.enabled.trans on)
  · exact off_of_performed hp (hm.enabled.trans off) one

/-- A server that stores the account it is sent holds it afterwards, for a session that was just
opened and for one that took the change anew. -/
theorem agreement_assigned :
    let change := { Change.blank with number := some ⟨42⟩ }
    let config : ServerConfig := { ServerConfig.blank with review := some ⟨some true⟩ }
    let turns : List Turn :=
      [.edit (.assignee [.withId ⟨1⟩]) fun _ _ => .error .unaddressable,
        .reload { change with assignee := some (.withId ⟨2⟩) } fun _ => some (.withId ⟨2⟩),
        .edit (.assignee [.withId ⟨1⟩]) fun _ c => match c with
          | .setAssignee _ account => .ok account
          | _ => .error .unaddressable]
    let m := run ⟨.start change config, fun _ => none⟩ turns
    (∃ k, m.session.change.number = some k ∧ m.held k = m.session.change.assignee) ∧
      m.session.change.assignee = some (.withId ⟨1⟩) := by
  intro change config turns m
  have fair : ∀ t ∈ turns, t.Fair := by
    simp [turns, Turn.Fair, change]
  exact ⟨(agreement (.start change config) (n := ⟨42⟩) rfl rfl fair).2.1, rfl⟩

end Meeting

end ChangeDesk
