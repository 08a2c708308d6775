import ChangeDesk.Assigner

/-!
# What one operation of an assigner does

Every way an edit can end, and what the outcome of a call does to the state, the view and the
change. Statements about whole histories are built from these and do not open the operations again.
-/

namespace ChangeDesk

theorem sameTarget_self (t : Option Account) : sameTarget t t = true := by
  cases t with
  | none => rfl
  | some a =>
    have hs := Account.sameIdentity_self a
    simp only [sameTarget, hs, Bool.true_and, beq_self_eq_true, Bool.or_true]

/-- Putting a call to the server asks it to assign or to clear, of the change the call is for. -/
theorem AssignCall.issue_asks (call : AssignCall) :
    ∃ next, call.issue =
      .ask (call.target.elim (Call.clearAssignee call.change) (Call.setAssignee call.change))
        next := by
  obtain ⟨seq, change, target⟩ := call
  cases target with
  | none => exact ⟨_, rfl⟩
  | some account => exact ⟨_, rfl⟩

namespace Assigner

variable (a : Assigner) (call : AssignCall) (outcome : Except RemoteFault Unit) (c : Change)

/-! ### Edits -/

theorem standing_of_quiet (h : ∀ seq target, a.state ≠ .pending seq target) :
    a.standing c = c.assignee := by
  unfold standing
  split
  · rename_i seq target hstate
    exact absurd hstate (h seq target)
  · rfl

theorem edit_of_many (desired : List Account) (hd : 1 < desired.length) :
    a.edit c desired = (.error (.tooManyAssignees desired.length), a) := by
  simp only [edit, hd, if_true]

theorem edit_of_off (desired : List Account) (hd : desired.length ≤ 1)
    (he : a.enabled = false) : a.edit c desired = (.ok none, a) := by
  have hlen : ¬ 1 < desired.length := by omega
  simp only [edit, hlen, he, if_false, Bool.not_false, if_true]

theorem edit_of_unnumbered (desired : List Account) (hd : desired.length ≤ 1)
    (he : a.enabled = true) (hn : c.number = none) :
    a.edit c desired = (.error .noChangeNumber, a) := by
  have hlen : ¬ 1 < desired.length := by omega
  simp only [edit, hlen, he, hn, if_false, Bool.not_true, Bool.false_eq_true]

/-- An edit that is taken at all is compared with what stands; if that differs, it needs a call. -/
theorem edit_of_numbered (desired : List Account) (n : ChangeNumber) (he : a.enabled = true)
    (hd : desired.length ≤ 1) (hn : c.number = some n) :
    a.edit c desired =
      if sameTarget desired.head? (a.standing c) then
        (.ok none, { a with view := desired.head?.toList })
      else
        (.ok (some ⟨a.issued + 1, n, desired.head?⟩),
          { a with
            view := desired.head?.toList, issued := a.issued + 1,
            state := .pending (a.issued + 1) desired.head? }) := by
  have hlen : ¬ 1 < desired.length := by omega
  simp only [edit, hlen, he, hn, if_false, Bool.not_true, Bool.false_eq_true]

/-- The four ways an edit can end: it is refused, ignored, found to stand already, or it needs a
call. -/
theorem edit_cases (desired : List Account) :
    (∃ fault, a.edit c desired = (.error fault, a)) ∨
    (a.enabled = false ∧ a.edit c desired = (.ok none, a)) ∨
    (sameTarget desired.head? (a.standing c) = true ∧
      a.edit c desired = (.ok none, { a with view := desired.head?.toList })) ∨
    (∃ n, c.number = some n ∧ sameTarget desired.head? (a.standing c) = false ∧
      a.edit c desired = (.ok (some ⟨a.issued + 1, n, desired.head?⟩),
        { a with
          view := desired.head?.toList, issued := a.issued + 1,
          state := .pending (a.issued + 1) desired.head? })) := by
  by_cases hd : 1 < desired.length
  · left
    exact ⟨.tooManyAssignees desired.length, a.edit_of_many c desired hd⟩
  · have hone : desired.length ≤ 1 := by omega
    by_cases he : a.enabled = true
    · rcases hn : c.number with - | n
      · left
        exact ⟨.noChangeNumber, a.edit_of_unnumbered c desired hone he hn⟩
      · have hedit := a.edit_of_numbered c desired n he hone hn
        right; right
        by_cases hs : sameTarget desired.head? (a.standing c) = true
        · left
          exact ⟨hs, by rw [hedit, if_pos hs]⟩
        · right
          exact ⟨n, rfl, Bool.eq_false_iff.2 hs, by rw [hedit, if_neg hs]⟩
    · have hoff : a.enabled = false := Bool.eq_false_iff.2 he
      right; left
      exact ⟨hoff, a.edit_of_off c desired hone hoff⟩

theorem edit_error (desired : List Account) (fault : RemoteFault)
    (h : (a.edit c desired).1 = .error fault) : (a.edit c desired).2 = a := by
  rcases a.edit_cases c desired with ⟨f, he⟩ | ⟨_, he⟩ | ⟨_, he⟩ | ⟨n, _, _, he⟩
  · rw [he]
  all_goals
    rw [he] at h
    cases h

/-! ### Outcomes -/

@[simp] theorem issued_complete : (a.complete call outcome c).1.issued = a.issued := rfl

theorem state_complete_own {target : Option Account}
    (h : a.state = .pending call.seq target) :
    (a.complete call outcome c).1.state = .settled := by
  simp only [complete, h, if_true]

theorem state_complete_other (h : ∀ target, a.state ≠ .pending call.seq target) :
    (a.complete call outcome c).1.state = a.state := by
  cases hs : a.state with
  | idle => simp only [complete, hs]
  | settled => simp only [complete, hs]
  | pending seq target =>
    have hne : seq ≠ call.seq := by
      intro he
      exact h target (by rw [hs, he])
    simp only [complete, hs, hne, if_false]

/-- No outcome puts a call under way. -/
theorem state_of_complete_pending {seq : Nat} {target : Option Account}
    (h : (a.complete call outcome c).1.state = .pending seq target) :
    a.state = .pending seq target := by
  by_cases hown : ∃ t, a.state = .pending call.seq t
  · obtain ⟨t, ht⟩ := hown
    rw [state_complete_own a call outcome c ht] at h
    cases h
  · rw [← state_complete_other a call outcome c fun t ht => hown ⟨t, ht⟩]
    exact h

theorem view_complete : (a.complete call outcome c).1.view =
    match (a.complete call outcome c).1.state with
    | .pending _ _ => a.view
    | _ => (a.complete call outcome c).2.assignee.toList := rfl

theorem view_complete_pending {seq : Nat} {target : Option Account}
    (h : (a.complete call outcome c).1.state = .pending seq target) :
    (a.complete call outcome c).1.view = a.view := by
  rw [view_complete, h]

theorem view_complete_rest
    (h : ∀ seq target, (a.complete call outcome c).1.state ≠ .pending seq target) :
    (a.complete call outcome c).1.view = (a.complete call outcome c).2.assignee.toList := by
  rw [view_complete]
  split
  · rename_i seq target hs
    exact absurd hs (h seq target)
  · rfl

end Assigner

end ChangeDesk
