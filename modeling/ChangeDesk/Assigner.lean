import ChangeDesk.Remote.Call

/-!
# Assigning a change

The viewer edits the assignee of a change, the server decides. An assigner says which edits need
a call to the server, keeps what the viewer sees in the meantime, and writes the outcome of each
call into the change. An edit is compared with what stands already: the target of the call under
way, or else the assignee in the change.
-/

namespace ChangeDesk

/-- Whether two assignees are the same. Accounts with neither numbers nor emails to tell them
apart by are told apart by user name. -/
def sameTarget : Option Account → Option Account → Bool
  | some a, some b =>
    a.sameIdentity b &&
      ((a.id.isSome && b.id.isSome) || a.email.isSome || a.username == b.username)
  | none, none => true
  | _, _ => false

/-- A call that assigns a change, or clears its assignee. Calls are numbered from one. -/
structure AssignCall where
  seq : Nat
  change : ChangeNumber
  target : Option Account
deriving DecidableEq, Repr

/-- Puts the call to the server. -/
def AssignCall.issue (c : AssignCall) : Remote (Except RemoteFault Unit) :=
  match c.target with
  | some account => do
    let answer ← Remote.call (.setAssignee c.change account)
    return answer.map fun _ => ()
  | none => Remote.call (.clearAssignee c.change)

/-- What is known of the last call since the change was loaded. -/
inductive AssignState where
  | idle
  | pending (seq : Nat) (target : Option Account)
  | settled
deriving DecidableEq, Repr

/-- The state of assigning a change: whether the server has assignees at all, the last call, what
the viewer sees, and how many calls were issued. -/
structure Assigner where
  enabled : Bool
  state : AssignState
  view : List Account
  issued : Nat
deriving DecidableEq, Repr

namespace Assigner

/-- The assigner of a change not yet loaded. -/
def start (enabled : Bool) : Assigner := ⟨enabled, .idle, [], 0⟩

/-- Takes a change that was loaded anew. -/
def reload (a : Assigner) (c : Change) : Assigner :=
  { a with view := c.assignee.toList, state := .idle }

/-- The assignee that stands: the target of the call under way, or that of the change. -/
def standing (a : Assigner) (c : Change) : Option Account :=
  match a.state with
  | .pending _ target => target
  | _ => c.assignee

/-- Takes an edit of the viewer. The result is the call it needs, if it needs one. -/
def edit (a : Assigner) (c : Change) (desired : List Account) :
    Except RemoteFault (Option AssignCall) × Assigner :=
  if 1 < desired.length then (.error (.tooManyAssignees desired.length), a)
  else if !a.enabled then (.ok none, a)
  else
    match c.number with
    | none => (.error .noChangeNumber, a)
    | some number =>
      let target := desired.head?
      let shown := { a with view := target.toList }
      if sameTarget target (a.standing c) then (.ok none, shown)
      else
        let seq := a.issued + 1
        (.ok (some ⟨seq, number, target⟩),
          { shown with issued := seq, state := .pending seq target })

/-- Takes the outcome of a call. A call that succeeded is written into the change even if another
was issued after it; once none is under way the viewer sees the change's assignee. -/
def complete (a : Assigner) (call : AssignCall) (outcome : Except RemoteFault Unit) (c : Change) :
    Assigner × Change :=
  let state := match a.state with
    | .pending seq target => if seq = call.seq then .settled else .pending seq target
    | s => s
  let changed := match outcome with
    | .ok () => { c with assignee := call.target }
    | .error _ => c
  let view := match state with
    | .pending _ _ => a.view
    | _ => changed.assignee.toList
  ({ a with state := state, view := view }, changed)

/-- Takes the outcome of a call, and hands it on to whoever made the call. -/
def conclude (a : Assigner) (call : AssignCall) (outcome : Except RemoteFault Unit) (c : Change) :
    Except RemoteFault Unit × Assigner × Change :=
  (outcome, a.complete call outcome c)

end Assigner

end ChangeDesk
