import ChangeDesk.Proofs.Assigner.History

/-!
# The change and the view at a desk

The change at a desk is the one loaded last, with the assignee that the server confirmed last since.
The view shows at most one account, and it agrees with what stands: an edit is shown before it is
compared, an outcome resets the view unless a call is under way.

Main statements: the change over every run (`Desk.change_run`) and the view over every run that
starts with a load (`Desk.view_run`).
-/

namespace ChangeDesk.Assigner

namespace Desk

open History

variable {d : Desk}

/-! ### The change -/

/-- The change at a desk is what the history of the desk has made of it. -/
def Recorded (c : Change) (d : Desk) : Prop :=
  d.change = { d.history.base c with
    assignee := d.history.written?.getD (d.history.base c).assignee }

variable {c : Change}

theorem recorded_fresh (enabled : Bool) (c : Change) : Recorded c (fresh enabled c) := rfl

theorem Recorded.quiet (hr : Recorded c d) (a : Assigner) {e : Deed} (hload : e.loaded? = none)
    (hwrite : e.wrote? = none) : Recorded c ⟨a, d.change, e :: d.history⟩ := by
  show d.change = _
  rw [base_cons hload, written?_cons hload, hwrite, Option.none_or]
  exact hr

theorem Recorded.step (hr : Recorded c d) (s : Step) : Recorded c (d.step s) := by
  have hm := step_moved d s
  generalize d.step s = d' at hm
  cases hm with
  | refused desired fault => exact hr.quiet _ rfl rfl
  | ignored desired off => exact hr.quiet _ rfl rfl
  | dropped desired same => exact hr.quiet _ rfl rfl
  | issued desired n numbered other => exact hr.quiet _ rfl rfl
  | unknown k outcome never => exact hr
  | completed k outcome call was =>
    cases outcome with
    | error fault => exact hr.quiet _ rfl rfl
    | ok done =>
      show { d.change with assignee := call.target } = _
      rw [base_cons rfl, written?_cons rfl]
      -- only the assignee was written since the load, and it is written over
      rw [hr]
      rfl
  | loaded c' => rfl

theorem change_edit (d : Desk) (desired : List Account) :
    (d.step (.edit desired)).change = d.change := rfl

/-- The change over every run: the one loaded last, its assignee written over by the call that
succeeded last since, whichever it was and whenever it was issued. Edits leave the change alone,
and the outcome of a call that failed is handed on and leaves it alone too. -/
theorem change_run (enabled : Bool) (c : Change) (steps : List Step) :
    let d := (fresh enabled c).run steps
    d.change = { d.history.base c with
      assignee := d.history.written?.getD (d.history.base c).assignee } ∧
    (∀ desired, (d.step (.edit desired)).change = d.change) ∧
    (∀ call fault other,
      (d.assigner.conclude call (.error fault) other).1 = .error fault ∧
      (d.assigner.conclude call (.error fault) other).2.2 = other) := by
  intro d
  have hr : Recorded c d := run_keeps (fun _ s hr => hr.step s) (recorded_fresh enabled c) steps
  exact ⟨hr, change_edit d, fun call fault other => ⟨rfl, rfl⟩⟩

-- a success that comes late is written all the same
example :
    ((fresh true { Change.blank with number := some ⟨42⟩ }).run
      [.edit [.withId ⟨1⟩], .edit [.withId ⟨2⟩], .complete 1 (.ok ()),
        .complete 0 (.ok ())]).change.assignee =
    some (.withId ⟨1⟩) := by
  decide

/-! ### The view -/

/-- The view shows at most one account, the same as what stands. -/
structure Shown (d : Desk) : Prop where
  single : d.assigner.view.length ≤ 1
  same : sameTarget d.assigner.view.head? (d.assigner.standing d.change) = true

/-- A view that shows what stands as it is. -/
theorem shown_of_eq (h : d.assigner.view = (d.assigner.standing d.change).toList) : Shown d where
  single := by
    rw [h]
    exact Option.length_toList_le
  same := by
    rw [h, Option.head?_toList]
    exact sameTarget_self _

theorem shown_load (d : Desk) (c : Change) : Shown (d.step (.load c)) := shown_of_eq rfl

theorem Shown.step (hs : Shown d) (s : Step) : Shown (d.step s) := by
  have hm := step_moved d s
  generalize d.step s = d' at hm
  cases hm with
  | refused desired fault => exact ⟨hs.single, hs.same⟩
  | ignored desired off => exact ⟨hs.single, hs.same⟩
  | dropped desired same =>
    constructor
    · exact Option.length_toList_le
    · show sameTarget desired.head?.toList.head? (d.assigner.standing d.change) = true
      rw [Option.head?_toList]
      exact same
  | issued desired n numbered other => exact shown_of_eq rfl
  | unknown k outcome never => exact hs
  | completed k outcome call was =>
    generalize hstate : (d.assigner.complete call outcome d.change).1.state = state
    cases state with
    | pending seq target =>
      have hview := view_complete_pending _ _ _ _ hstate
      have hbefore := state_of_complete_pending _ _ _ _ hstate
      have hstands : d.assigner.standing d.change = target := by rw [standing, hbefore]
      have hstill : (d.assigner.complete call outcome d.change).1.standing
          (d.assigner.complete call outcome d.change).2 = target := by rw [standing, hstate]
      constructor
      · show (d.assigner.complete call outcome d.change).1.view.length ≤ 1
        rw [hview]
        exact hs.single
      · show sameTarget (d.assigner.complete call outcome d.change).1.view.head? _ = true
        rw [hview, hstill, ← hstands]
        exact hs.same
    | _ =>
      apply shown_of_eq
      show (d.assigner.complete call outcome d.change).1.view = _
      rw [view_complete_rest _ _ _ _ (by simp [hstate]), standing, hstate]
  | loaded c' => exact shown_load d c'

theorem view_after_outcome {k : Nat} {call : AssignCall} (outcome : Except RemoteFault Unit)
    (hk : d.history.calls[k]? = some call)
    (h : ∀ seq target, (d.step (.complete k outcome)).assigner.state ≠ .pending seq target) :
    (d.step (.complete k outcome)).assigner.view =
      (d.step (.complete k outcome)).change.assignee.toList := by
  simp only [step, hk, conclude] at h ⊢
  exact view_complete_rest _ _ _ _ h

/-- The view over every run that starts with a load: at most one account, the same as what stands.
After a load, and after an outcome that leaves no call under way, it is the assignee of the change
in all its parts; an edit that is refused leaves the assigner as it is. -/
theorem view_run (enabled : Bool) (c₀ c : Change) (steps : List Step) :
    let d := (fresh enabled c₀).run (.load c :: steps)
    d.assigner.view.length ≤ 1 ∧
    sameTarget d.assigner.view.head?
      (match d.assigner.state with
        | .pending _ target => target
        | _ => d.change.assignee) = true ∧
    (∀ other, (d.step (.load other)).assigner.view =
      (d.step (.load other)).change.assignee.toList) ∧
    (∀ k call outcome, d.history.calls[k]? = some call →
      (∀ seq target, (d.step (.complete k outcome)).assigner.state ≠ .pending seq target) →
      (d.step (.complete k outcome)).assigner.view =
        (d.step (.complete k outcome)).change.assignee.toList) ∧
    (∀ desired fault, (d.assigner.edit d.change desired).1 = .error fault →
      (d.assigner.edit d.change desired).2 = d.assigner) := by
  intro d
  have hs : Shown d := run_keeps (fun _ s hs => hs.step s) (shown_load (fresh enabled c₀) c) steps
  refine ⟨hs.single, hs.same, fun other => rfl, ?_, ?_⟩
  · intro k call outcome hk h
    exact view_after_outcome outcome hk h
  · intro desired fault h
    exact d.assigner.edit_error d.change desired fault h

end Desk

end ChangeDesk.Assigner
