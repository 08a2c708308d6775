import ChangeDesk.Proofs.Assigner.Lifecycle

/-!
# Which edits need a call

An edit needs a call exactly if it differs from the target that the history tells. So two calls
issued one after the other, with no outcome of the first and no load in between, never have the
same target.

Main statement: the law of issuing over every run (`Desk.issuing_law`).
-/

namespace ChangeDesk.Assigner

namespace History

/-- Deeds that neither issue a call, nor load a change, nor answer the call in place `k`. -/
def Silent (k : Nat) (h : History) : Prop :=
  ∀ e ∈ h, e.issued? = none ∧ e.loaded? = none ∧ e.completes k = false

/-- No two calls issued one after the other have the same target, unless the first one was
answered or the change loaded in between. -/
def Alternating (h : History) : Prop :=
  ∀ (newer between older : History) (desired₁ desired₂ : List Account)
    (first second : AssignCall),
    h = newer ++ .edited desired₂ (.ok (some second)) ::
      (between ++ .edited desired₁ (.ok (some first)) :: older) →
    Silent older.calls.length between → sameTarget second.target first.target = false

/-- After an issue and silence the call is still the last one, and unanswered. -/
theorem under_way (desired : List Account) (first : AssignCall) {between older : History}
    (hs : Silent older.calls.length between) (ho : older.Ordered) :
    latest? (between ++ .edited desired (.ok (some first)) :: older) = some first ∧
    calls (between ++ .edited desired (.ok (some first)) :: older) = older.calls ++ [first] ∧
    completed (between ++ .edited desired (.ok (some first)) :: older) older.calls.length =
      false := by
  induction between with
  | nil => exact ⟨rfl, calls_cons _ _, ho.not_completed_length⟩
  | cons e between ih =>
    obtain ⟨hissue, hload, hanswer⟩ := hs e (List.mem_cons_self ..)
    obtain ⟨hlatest, hcalls, hopen⟩ := ih fun x hx => hs x (List.mem_cons_of_mem _ hx)
    refine ⟨?_, ?_, ?_⟩
    · rw [List.cons_append, latest?_cons_none hload hissue]
      exact hlatest
    · rw [List.cons_append, calls_cons_none hissue]
      exact hcalls
    · rw [List.cons_append, completed_cons, hanswer, Bool.false_or]
      exact hopen

theorem target_under_way {between older : History} {desired : List Account} {first : AssignCall}
    (hs : Silent older.calls.length between)
    (ho : Ordered (between ++ .edited desired (.ok (some first)) :: older)) (c : Change) :
    target (between ++ .edited desired (.ok (some first)) :: older) c = first.target := by
  obtain ⟨hlatest, hcalls, hopen⟩ := under_way desired first hs ho.older.2
  have hlast : lastCompleted (between ++ .edited desired (.ok (some first)) :: older) = false := by
    rw [lastCompleted, hcalls, List.length_append, List.length_singleton, Nat.add_sub_cancel]
    exact hopen
  rw [target, hlatest, hlast]
  rfl

theorem Alternating.cons {h : History} (ha : h.Alternating) (ho : h.Ordered) (c : Change) (e : Deed)
    (he : ∀ second, e.issued? = some second → sameTarget second.target (h.target c) = false) :
    Alternating (e :: h) := by
  intro newer between older desired₁ desired₂ first second heq hs
  cases newer with
  | nil =>
    rw [List.nil_append, List.cons.injEq] at heq
    obtain ⟨rfl, rfl⟩ := heq
    have hother := he second rfl
    rwa [target_under_way hs ho] at hother
  | cons e' newer =>
    rw [List.cons_append, List.cons.injEq] at heq
    exact ha newer between older desired₁ desired₂ first second heq.2 hs

end History

namespace Desk

open History

variable {d : Desk}

theorem alternating_step (hd : Kept d) (ha : d.history.Alternating) (s : Step) :
    (d.step s).history.Alternating := by
  have hm := step_moved d s
  generalize d.step s = d' at hm
  cases hm with
  | issued desired n numbered other =>
    apply ha.cons hd.ordered d.change
    intro second hsecond
    cases hsecond
    rwa [hd.standing] at other
  | unknown k outcome never => exact ha
  | _ => exact ha.cons hd.ordered d.change _ fun second hsecond => by cases hsecond

/-- The law of issuing. At every moment of every run of an assigner that is enabled, an edit of at
most one account to a change with a number needs a call exactly if it differs from the target of
the history, and the call assigns that account to the change, or clears its assignee. Calls issued
one after the other thus have different targets, unless the first one was answered or the change
loaded in between. -/
theorem issuing_law (c : Change) (steps : List Step) :
    let d := (fresh true c).run steps
    (∀ (desired : List Account) (n : ChangeNumber),
      desired.length ≤ 1 → d.change.number = some n →
      ((∃ call, (d.assigner.edit d.change desired).1 = .ok (some call)) ↔
        sameTarget desired.head? (d.history.target d.change) = false) ∧
      (∀ call, (d.assigner.edit d.change desired).1 = .ok (some call) →
        call.change = n ∧ call.target = desired.head? ∧
        ∃ next, call.issue =
          .ask (desired.head?.elim (Call.clearAssignee n) (Call.setAssignee n)) next)) ∧
    d.history.Alternating := by
  intro d
  have hrun : Kept d ∧ d.history.Alternating ∧ d.assigner.enabled = true :=
    run_keeps
      (P := fun d => Kept d ∧ d.history.Alternating ∧ d.assigner.enabled = true)
      (fun d s ⟨hd, ha, he⟩ =>
        ⟨hd.step s, alternating_step hd ha s, (enabled_step d s).trans he⟩)
      ⟨kept_fresh true c, by simp [fresh, Alternating], rfl⟩ steps
  obtain ⟨hd, halternating, henabled⟩ := hrun
  refine ⟨?_, halternating⟩
  intro desired n hlen hn
  have hedit := d.assigner.edit_of_numbered d.change desired n henabled hlen hn
  rw [hd.standing] at hedit
  cases hsame : sameTarget desired.head? (d.history.target d.change) with
  | true =>
    rw [hsame, if_pos rfl] at hedit
    rw [hedit]
    simp
  | false =>
    rw [hsame, if_neg Bool.false_ne_true] at hedit
    rw [hedit]
    refine ⟨⟨fun _ => rfl, fun _ => ⟨_, rfl⟩⟩, ?_⟩
    intro call hcall
    cases hcall
    exact ⟨rfl, rfl, AssignCall.issue_asks ⟨d.assigner.issued + 1, n, desired.head?⟩⟩

end Desk

end ChangeDesk.Assigner
