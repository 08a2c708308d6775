import ChangeDesk.Proofs.Assigner.Moves

/-!
# Histories of an assigner

A desk is an assigner at work on a change: the viewer edits, outcomes of calls come in whatever
order, late or twice, and the change is loaded anew. What happened is kept beside it as a history,
the newest deed first. The assigner itself keeps a state and a counter only, so that everything
said of it in terms of the calls issued and answered is said of the history.

Main statement: the ways a desk can move in one step (`Desk.step_moved`).
-/

namespace ChangeDesk.Assigner

/-- What happened once: an edit and its answer, the outcome of the call issued in place `k`
(counted from zero), or a change loaded anew. -/
inductive Deed where
  | edited (desired : List Account) (answer : Except RemoteFault (Option AssignCall))
  | completed (k : Nat) (call : AssignCall) (outcome : Except RemoteFault Unit)
  | loaded (change : Change)

namespace Deed

def issued? : Deed → Option AssignCall
  | .edited _ (.ok call) => call
  | _ => none

def loaded? : Deed → Option Change
  | .loaded c => some c
  | _ => none

/-- Whether a deed is an outcome of the call issued in a place. -/
def completes (k : Nat) : Deed → Bool
  | .completed j _ _ => j == k
  | _ => false

/-- The assignee that the server confirmed with a deed. -/
def wrote? : Deed → Option (Option Account)
  | .completed _ call (.ok ()) => some call.target
  | _ => none

end Deed

abbrev History := List Deed

namespace History

variable (h : History)

/-- The calls issued, in the order of issue. -/
def calls : List AssignCall := h.reverse.filterMap Deed.issued?

/-- What happened since a change was last loaded. -/
def sinceLoad : History := h.takeWhile fun e => e.loaded?.isNone

/-- The last load of a change and all before it. -/
def upToLoad : History := h.dropWhile fun e => e.loaded?.isNone

/-- The call issued last since a change was loaded. -/
def latest? : Option AssignCall := h.sinceLoad.findSome? Deed.issued?

/-- Whether an outcome came for the call issued in place `k`. -/
def completed (k : Nat) : Bool := h.any (Deed.completes k)

/-- Whether an outcome came for the call issued last. -/
def lastCompleted : Bool := h.completed (h.calls.length - 1)

/-- What an edit is to be compared with: the target of the call issued last since the change was
loaded, unless an outcome came for it, else the assignee of the change. -/
def target (c : Change) : Option Account :=
  match h.latest? with
  | some call => if h.lastCompleted then c.assignee else call.target
  | none => c.assignee

/-- The assignee confirmed last since a change was loaded. -/
def written? : Option (Option Account) := h.sinceLoad.findSome? Deed.wrote?

/-- The change loaded last, or else the one that was there at first. -/
def base (c : Change) : Change := (h.findSome? Deed.loaded?).getD c

/-- Outcomes come for calls issued before. -/
def Ordered : History → Prop
  | [] => True
  | e :: h => (∀ k, e.completes k = true → k < (calls h).length) ∧ Ordered h

/-! ### One deed more -/

variable {h} {e : Deed}

theorem calls_cons (e : Deed) (h : History) : calls (e :: h) = h.calls ++ e.issued?.toList := by
  simp only [calls, List.reverse_cons, List.filterMap_append]
  cases he : e.issued? <;> simp [he]

theorem calls_cons_none (he : e.issued? = none) : calls (e :: h) = h.calls := by
  rw [calls_cons, he, Option.toList_none, List.append_nil]

theorem calls_append (newer older : History) :
    calls (newer ++ older) = calls older ++ calls newer := by
  simp only [calls, List.reverse_append, List.filterMap_append]

theorem sinceLoad_cons (he : e.loaded? = none) : sinceLoad (e :: h) = e :: h.sinceLoad := by
  simp only [sinceLoad, List.takeWhile_cons, he, Option.isNone_none, if_true]

theorem latest?_cons (he : e.loaded? = none) : latest? (e :: h) = e.issued?.or h.latest? := by
  simp only [latest?, sinceLoad_cons he, List.findSome?_cons]
  cases e.issued? <;> rfl

theorem latest?_cons_none (he : e.loaded? = none) (hi : e.issued? = none) :
    latest? (e :: h) = h.latest? := by
  rw [latest?_cons he, hi, Option.none_or]

theorem written?_cons (he : e.loaded? = none) : written? (e :: h) = e.wrote?.or h.written? := by
  simp only [written?, sinceLoad_cons he, List.findSome?_cons]
  cases e.wrote? <;> rfl

theorem base_cons (he : e.loaded? = none) (c : Change) : base (e :: h) c = h.base c := by
  simp only [base, List.findSome?_cons, he]

theorem completed_cons (e : Deed) (h : History) (k : Nat) :
    completed (e :: h) k = (e.completes k || h.completed k) := rfl

/-- The call issued last since the load is the last of all calls issued. -/
theorem getLast?_calls {call : AssignCall} (hl : h.latest? = some call) :
    h.calls.getLast? = some call := by
  induction h with
  | nil => cases hl
  | cons e h ih =>
    cases e with
    | loaded c => cases hl
    | completed k call outcome =>
      rw [calls_cons_none rfl]
      exact ih (by rwa [latest?_cons_none rfl rfl] at hl)
    | edited desired answer =>
      cases hi : (Deed.edited desired answer).issued? with
      | none =>
        rw [calls_cons_none hi]
        exact ih (by rwa [latest?_cons_none rfl hi] at hl)
      | some issued =>
        rw [latest?_cons rfl, hi, Option.some_or] at hl
        rw [calls_cons, hi, Option.toList_some, List.getLast?_concat]
        exact hl

theorem calls_upToLoad (h : History) :
    h.calls = h.upToLoad.calls ++ h.sinceLoad.calls := by
  rw [← calls_append, sinceLoad, upToLoad, List.takeWhile_append_dropWhile]

theorem length_calls_upToLoad {call : AssignCall} (hl : h.latest? = some call) :
    h.upToLoad.calls.length < h.calls.length := by
  obtain ⟨e, hmem, he⟩ := List.exists_of_findSome?_eq_some hl
  have hissued : call ∈ h.sinceLoad.calls :=
    List.mem_filterMap.2 ⟨e, List.mem_reverse.2 hmem, he⟩
  have hpos := List.length_pos_of_mem hissued
  rw [calls_upToLoad h, List.length_append]
  omega

theorem Ordered.lt_length {k : Nat} (ho : h.Ordered) (hk : h.completed k = true) :
    k < h.calls.length := by
  induction h with
  | nil => cases hk
  | cons e h ih =>
    rw [completed_cons, Bool.or_eq_true] at hk
    rw [calls_cons, List.length_append]
    rcases hk with hk | hk
    · have hlt := ho.1 k hk
      omega
    · have hlt := ih ho.2 hk
      omega

theorem Ordered.not_completed_length (ho : h.Ordered) : h.completed h.calls.length = false := by
  cases hc : h.completed h.calls.length with
  | false => rfl
  | true =>
    have hlt := ho.lt_length hc
    omega

theorem Ordered.older {newer older : History} (ho : Ordered (newer ++ older)) :
    Ordered older := by
  induction newer with
  | nil => exact ho
  | cons e newer ih => exact ih ho.2

end History

/-! ### Desks -/

/-- What may happen to a desk next: an edit, an outcome for the call issued in place `k`, or a
change that takes the place of the one there. -/
inductive Step where
  | edit (desired : List Account)
  | complete (k : Nat) (outcome : Except RemoteFault Unit)
  | load (change : Change)

/-- An assigner at work on a change, and what happened so far. -/
structure Desk where
  assigner : Assigner
  change : Change
  history : History

namespace Desk

/-- A new assigner with a change that it was not told of. -/
def fresh (enabled : Bool) (c : Change) : Desk := ⟨.start enabled, c, []⟩

/-- The desk after a step; an outcome for a call that was never issued does not come. -/
def step (d : Desk) : Step → Desk
  | .edit desired =>
    let (answer, a) := d.assigner.edit d.change desired
    ⟨a, d.change, .edited desired answer :: d.history⟩
  | .complete k outcome =>
    match d.history.calls[k]? with
    | none => d
    | some call =>
      let (_, a, c) := d.assigner.conclude call outcome d.change
      ⟨a, c, .completed k call outcome :: d.history⟩
  | .load c => ⟨d.assigner.reload c, c, .loaded c :: d.history⟩

def run (d : Desk) (steps : List Step) : Desk := steps.foldl step d

/-- A run in which the assigner is handed another change at every step, told of it or not. -/
def tour (d : Desk) (visits : List (Change × Step)) : Desk :=
  visits.foldl (fun d v => { d with change := v.1 }.step v.2) d

/-- The ways a desk can move. -/
inductive Moved (d : Desk) : Step → Desk → Prop where
  | refused (desired : List Account) (fault : RemoteFault) :
      Moved d (.edit desired)
        ⟨d.assigner, d.change, .edited desired (.error fault) :: d.history⟩
  | ignored (desired : List Account) (off : d.assigner.enabled = false) :
      Moved d (.edit desired) ⟨d.assigner, d.change, .edited desired (.ok none) :: d.history⟩
  | dropped (desired : List Account)
      (same : sameTarget desired.head? (d.assigner.standing d.change) = true) :
      Moved d (.edit desired)
        ⟨{ d.assigner with view := desired.head?.toList }, d.change,
          .edited desired (.ok none) :: d.history⟩
  | issued (desired : List Account) (n : ChangeNumber) (numbered : d.change.number = some n)
      (other : sameTarget desired.head? (d.assigner.standing d.change) = false) :
      Moved d (.edit desired)
        ⟨{ d.assigner with
            view := desired.head?.toList, issued := d.assigner.issued + 1,
            state := .pending (d.assigner.issued + 1) desired.head? }, d.change,
          .edited desired (.ok (some ⟨d.assigner.issued + 1, n, desired.head?⟩)) :: d.history⟩
  | unknown (k : Nat) (outcome : Except RemoteFault Unit)
      (never : d.history.calls[k]? = none) : Moved d (.complete k outcome) d
  | completed (k : Nat) (outcome : Except RemoteFault Unit) (call : AssignCall)
      (was : d.history.calls[k]? = some call) :
      Moved d (.complete k outcome)
        ⟨(d.assigner.complete call outcome d.change).1,
          (d.assigner.complete call outcome d.change).2,
          .completed k call outcome :: d.history⟩
  | loaded (c : Change) :
      Moved d (.load c) ⟨d.assigner.reload c, c, .loaded c :: d.history⟩

theorem step_moved (d : Desk) (s : Step) : Moved d s (d.step s) := by
  cases s with
  | edit desired =>
    simp only [step]
    rcases d.assigner.edit_cases d.change desired with
      ⟨fault, he⟩ | ⟨hoff, he⟩ | ⟨hs, he⟩ | ⟨n, hn, hs, he⟩
    · rw [he]
      exact .refused desired fault
    · rw [he]
      exact .ignored desired hoff
    · rw [he]
      exact .dropped desired hs
    · rw [he]
      exact .issued desired n hn hs
  | complete k outcome =>
    cases hc : d.history.calls[k]? with
    | none =>
      have hstep : d.step (.complete k outcome) = d := by simp only [step, hc]
      rw [hstep]
      exact .unknown k outcome hc
    | some call =>
      simp only [step, hc, conclude]
      exact .completed k outcome call hc
  | load c => exact .loaded c

/-- What every step keeps, every run keeps. -/
theorem run_keeps {P : Desk → Prop} (hstep : ∀ d s, P d → P (d.step s)) {d : Desk} (hd : P d)
    (steps : List Step) : P (d.run steps) := by
  induction steps generalizing d with
  | nil => exact hd
  | cons s steps ih => exact ih (hstep d s hd)

theorem enabled_step (d : Desk) (s : Step) :
    (d.step s).assigner.enabled = d.assigner.enabled := by
  have hm := step_moved d s
  generalize d.step s = d' at hm
  cases hm <;> rfl

end Desk

end ChangeDesk.Assigner
