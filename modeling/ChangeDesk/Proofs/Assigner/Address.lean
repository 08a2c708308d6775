import ChangeDesk.Proofs.Assigner.History

/-!
# The change that a call is for

A call carries the number of the change it was issued for, but its outcome is written into whatever
change is at the desk when it comes. While no other change was loaded these are the same; after a
load, a success that comes late is written into the change that was loaded.

Main statements: calls issued since the load are for the change at the desk (`Desk.Addressed`), and
what outcomes do to a change of another number, over every run (`Desk.outcome_reach`).
-/

namespace ChangeDesk.Assigner

namespace Desk

open History

variable {d : Desk}

/-- The calls issued since the change was loaded are for that change. -/
def Addressed (d : Desk) : Prop :=
  ∀ call ∈ d.history.sinceLoad.calls, d.change.number = some call.change

theorem addressed_fresh (enabled : Bool) (c : Change) : Addressed (fresh enabled c) := by
  intro call hcall
  simp [fresh, sinceLoad, calls] at hcall

theorem number_complete (a : Assigner) (call : AssignCall) (outcome : Except RemoteFault Unit)
    (c : Change) : (a.complete call outcome c).2.number = c.number := by
  cases outcome with
  | ok done => rfl
  | error fault => rfl

theorem Addressed.extend (hd : Addressed d) {a : Assigner} {c : Change} {e : Deed}
    (hload : e.loaded? = none) (hnumber : c.number = d.change.number)
    (hissue : ∀ call, e.issued? = some call → d.change.number = some call.change) :
    Addressed ⟨a, c, e :: d.history⟩ := by
  intro call hcall
  show c.number = some call.change
  rw [hnumber]
  rw [sinceLoad_cons hload, calls_cons, List.mem_append, Option.mem_toList] at hcall
  rcases hcall with hold | hnew
  · exact hd call hold
  · exact hissue call hnew

theorem Addressed.step (hd : Addressed d) (s : Step) : Addressed (d.step s) := by
  have hm := step_moved d s
  generalize d.step s = d' at hm
  cases hm with
  | refused desired fault => exact hd.extend rfl rfl nofun
  | ignored desired off => exact hd.extend rfl rfl nofun
  | dropped desired same => exact hd.extend rfl rfl nofun
  | issued desired n numbered other =>
    apply hd.extend rfl rfl
    rintro call ⟨⟩
    exact numbered
  | unknown k outcome never => exact hd
  | completed k outcome call was => exact hd.extend rfl (number_complete ..) nofun
  | loaded c =>
    intro call hcall
    simp [sinceLoad, Deed.loaded?, calls] at hcall

/-- A call for another number than that of the change at the desk was issued before the load. -/
theorem Addressed.before_load (hd : Addressed d) {k : Nat} {call : AssignCall}
    (hk : d.history.calls[k]? = some call) (hother : d.change.number ≠ some call.change) :
    k < d.history.upToLoad.calls.length := by
  apply Nat.lt_of_not_le
  intro hlate
  rw [calls_upToLoad, List.getElem?_append_right hlate] at hk
  exact hother (hd call (List.mem_of_getElem? hk))

/-- What outcomes do to a change of another number, over every run and for every call issued in it.
In the run the change at the desk has another number than the call only if it was loaded after the
call was issued. Whatever change is handed over with an outcome, and whatever its number: no field
of it but the assignee is written; a failure leaves that as it is, and a success puts the target of
the call there. So the assignee stays exactly if the call failed or asked for what was there. -/
theorem outcome_reach (enabled : Bool) (c : Change) (steps : List Step) :
    let d := (fresh enabled c).run steps
    ∀ (k : Nat) (call : AssignCall), d.history.calls[k]? = some call →
      (d.change.number ≠ some call.change → k < d.history.upToLoad.calls.length) ∧
      ∀ (outcome : Except RemoteFault Unit) (record : Change),
        let after := ({ d with change := record }.step (.complete k outcome)).change
        after = { record with assignee := after.assignee } ∧
        (∀ fault, outcome = .error fault → after = record) ∧
        (outcome = .ok () → after.assignee = call.target) ∧
        (record.number ≠ some call.change → (after.assignee = record.assignee ↔
          (∃ fault, outcome = .error fault) ∨ call.target = record.assignee)) := by
  intro d k call hk
  have hd : Addressed d :=
    run_keeps (fun _ s hd => hd.step s) (addressed_fresh enabled c) steps
  refine ⟨hd.before_load hk, ?_⟩
  intro outcome record after
  have hafter : after = (d.assigner.complete call outcome record).2 := by
    show (({ d with change := record } : Desk).step (.complete k outcome)).change = _
    simp only [step, hk, conclude]
  cases outcome with
  | error fault =>
    have hsame : after = record := hafter
    rw [hsame]
    refine ⟨rfl, fun _ _ => rfl, ?_, fun _ => ?_⟩
    · intro hok
      cases hok
    · exact ⟨fun _ => .inl ⟨fault, rfl⟩, fun _ => rfl⟩
  | ok done =>
    have hwritten : after = { record with assignee := call.target } := hafter
    have hfault : ¬ ∃ fault : RemoteFault, Except.ok done = .error fault := by
      rintro ⟨fault, herror⟩
      cases herror
    rw [hwritten]
    refine ⟨rfl, fun fault herror => absurd ⟨fault, herror⟩ hfault, fun _ => rfl, fun _ => ?_⟩
    exact ⟨.inr, fun h => h.resolve_left hfault⟩

/-- A success that comes after another change was loaded is written into that change. -/
theorem outcome_crosses :
    let d := (fresh true { Change.blank with number := some ⟨42⟩ }).run
      [.edit [.withId ⟨1⟩], .load { Change.blank with number := some ⟨7⟩ }]
    d.history.calls[0]?.map AssignCall.change = some ⟨42⟩ ∧
    d.change.number = some ⟨7⟩ ∧ d.change.assignee = none ∧
    (d.step (.complete 0 (.ok ()))).change.number = some ⟨7⟩ ∧
    (d.step (.complete 0 (.ok ()))).change.assignee = some (.withId ⟨1⟩) := by
  decide

end Desk

end ChangeDesk.Assigner
