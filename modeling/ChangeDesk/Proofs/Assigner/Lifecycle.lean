import ChangeDesk.Proofs.Assigner.History

/-!
# The state of an assigner against its history

An assigner keeps a three-valued state and a counter. Both are determined by the history of the
desk: calls are numbered by their place, and the state tells whether a call was issued since the
change was loaded and whether the last such call was answered.

Main statements: the invariant of every run (`Desk.Kept`, `Desk.Kept.tour`), what stands for an edit
in terms of the history (`Desk.Kept.standing`), and the life of the state over every tour
(`Desk.lifecycle`).
-/

namespace ChangeDesk.Assigner

namespace History

/-- The state that a history calls for. -/
def phase (h : History) : AssignState :=
  match h.latest? with
  | none => .idle
  | some call => if h.lastCompleted then .settled else .pending call.seq call.target

/-- An outcome for the call in place `k` comes too late for the state: another call was issued
after that one, or it had an outcome before, or the change was loaded since. -/
def Stale (h : History) (k : Nat) : Prop :=
  k + 1 < h.calls.length ∨ h.completed k = true ∨ k < h.upToLoad.calls.length

variable {h : History}

theorem phase_idle_iff : h.phase = .idle ↔ h.latest? = none := by
  unfold phase
  split
  · rename_i hl
    exact ⟨fun _ => hl, fun _ => rfl⟩
  · rename_i call hl
    rw [hl]
    cases h.lastCompleted <;> simp

theorem phase_pending_iff (seq : Nat) (target : Option Account) :
    h.phase = .pending seq target ↔
      ∃ call, h.latest? = some call ∧ h.lastCompleted = false ∧
        call.seq = seq ∧ call.target = target := by
  unfold phase
  split
  · rename_i hl
    simp [hl]
  · rename_i call hl
    cases hc : h.lastCompleted <;> simp [hl]

theorem phase_settled_iff :
    h.phase = .settled ↔ ∃ call, h.latest? = some call ∧ h.lastCompleted = true := by
  unfold phase
  split
  · rename_i hl
    simp [hl]
  · rename_i call hl
    cases hc : h.lastCompleted <;> simp [hl]

/-- What stands under the state of a history is the target of the history. -/
theorem standing_of_phase (a : Assigner) (c : Change) (hs : a.state = h.phase) :
    a.standing c = h.target c := by
  unfold standing target
  rw [hs, phase]
  cases h.latest? with
  | none => rfl
  | some call => cases h.lastCompleted <;> rfl

end History

namespace Desk

open History

/-- What the assigner of a desk keeps of the history: the counter counts the calls, each call is
numbered by its place, outcomes come for calls issued before, and the state is that of the
history. -/
structure Kept (d : Desk) : Prop where
  issued : d.assigner.issued = d.history.calls.length
  numbered : ∀ k call, d.history.calls[k]? = some call → call.seq = k + 1
  ordered : d.history.Ordered
  state : d.assigner.state = d.history.phase

theorem kept_fresh (enabled : Bool) (c : Change) : Kept (fresh enabled c) where
  issued := rfl
  numbered k call hk := by simp [fresh, calls] at hk
  ordered := trivial
  state := rfl

variable {d : Desk}

namespace Kept

theorem handed (hd : Kept d) (c : Change) : Kept { d with change := c } :=
  ⟨hd.issued, hd.numbered, hd.ordered, hd.state⟩

theorem seq_latest (hd : Kept d) {call : AssignCall} (hl : d.history.latest? = some call) :
    call.seq = d.history.calls.length := by
  have hlast := getLast?_calls hl
  have hne : d.history.calls ≠ [] := by
    intro he
    simp [he] at hlast
  have hpos := List.length_pos_iff.2 hne
  rw [List.getLast?_eq_getElem?] at hlast
  have hseq := hd.numbered _ call hlast
  omega

/-- A deed that issues no call leaves the counter and the numbers; the state has to follow. -/
theorem extend (hd : Kept d) {a : Assigner} {c : Change} {e : Deed} (hissue : e.issued? = none)
    (hi : a.issued = d.assigner.issued)
    (hanswer : ∀ k, e.completes k = true → k < d.history.calls.length)
    (hs : a.state = phase (e :: d.history)) : Kept ⟨a, c, e :: d.history⟩ := by
  have hcalls : calls (e :: d.history) = d.history.calls := calls_cons_none hissue
  constructor
  · show a.issued = (calls (e :: d.history)).length
    rw [hi, hcalls]
    exact hd.issued
  · intro k call hk
    exact hd.numbered k call (by rwa [hcalls] at hk)
  · exact ⟨hanswer, hd.ordered⟩
  · exact hs

/-- A deed that answers and loads nothing either leaves the state, too. -/
theorem quiet (hd : Kept d) {a : Assigner} {c : Change} {e : Deed} (hissue : e.issued? = none)
    (hload : e.loaded? = none) (hanswer : ∀ k, e.completes k = false)
    (hi : a.issued = d.assigner.issued) (hs : a.state = d.assigner.state) :
    Kept ⟨a, c, e :: d.history⟩ := by
  have hlast : lastCompleted (e :: d.history) = d.history.lastCompleted := by
    rw [lastCompleted, calls_cons_none hissue, completed_cons, hanswer, Bool.false_or,
      lastCompleted]
  have hphase : phase (e :: d.history) = d.history.phase := by
    rw [phase, latest?_cons_none hload hissue, hlast, phase]
  apply hd.extend hissue hi
  · intro k hk
    rw [hanswer] at hk
    cases hk
  · rw [hs, hphase]
    exact hd.state

/-- A call numbered by the counter is the last of the history, and is under way. -/
theorem issue (hd : Kept d) {a : Assigner} {c : Change} {desired : List Account}
    {n : ChangeNumber} {target : Option Account} (hi : a.issued = d.assigner.issued + 1)
    (hs : a.state = .pending (d.assigner.issued + 1) target) :
    Kept ⟨a, c, .edited desired (.ok (some ⟨d.assigner.issued + 1, n, target⟩)) ::
      d.history⟩ := by
  generalize hcall : (⟨d.assigner.issued + 1, n, target⟩ : AssignCall) = call
  have hseq : call.seq = d.assigner.issued + 1 := by rw [← hcall]
  have htarget : call.target = target := by rw [← hcall]
  have hcalls : calls (.edited desired (.ok (some call)) :: d.history) =
      d.history.calls ++ [call] := calls_cons _ _
  have hcompleted : ∀ k, completed (.edited desired (.ok (some call)) :: d.history) k =
      d.history.completed k := fun k => rfl
  constructor
  · show a.issued = (calls (.edited desired (.ok (some call)) :: d.history)).length
    rw [hi, hcalls, List.length_append, hd.issued]
    rfl
  · intro k other hk
    rw [hcalls] at hk
    by_cases hlt : k < d.history.calls.length
    · rw [List.getElem?_append_left hlt] at hk
      exact hd.numbered k other hk
    · rw [List.getElem?_append_right (by omega), List.getElem?_singleton] at hk
      split at hk
      · cases hk
        have hcount := hd.issued
        omega
      · cases hk
  · exact ⟨fun _ hk => Bool.noConfusion hk, hd.ordered⟩
  · show a.state = phase (.edited desired (.ok (some call)) :: d.history)
    have hlast : lastCompleted (.edited desired (.ok (some call)) :: d.history) = false := by
      rw [lastCompleted, hcalls, hcompleted, List.length_append, List.length_singleton,
        Nat.add_sub_cancel]
      exact hd.ordered.not_completed_length
    rw [hs, phase, latest?_cons rfl]
    simp only [Deed.issued?, Option.some_or, hlast, Bool.false_eq_true, if_false, hseq, htarget]

/-- An outcome settles the state if it is that of the call under way, and leaves it otherwise. -/
theorem state_answer (hd : Kept d) {k : Nat} {call : AssignCall}
    (outcome : Except RemoteFault Unit) (hk : d.history.calls[k]? = some call) :
    (d.assigner.complete call outcome d.change).1.state =
      phase (.completed k call outcome :: d.history) := by
  have hlt : k < d.history.calls.length := (List.getElem?_eq_some_iff.1 hk).1
  have hseq := hd.numbered k call hk
  have hlatest : latest? (.completed k call outcome :: d.history) = d.history.latest? :=
    latest?_cons_none rfl rfl
  have hlast : lastCompleted (.completed k call outcome :: d.history) =
      (k == d.history.calls.length - 1 || d.history.lastCompleted) := by
    rw [lastCompleted, calls_cons_none rfl, completed_cons, lastCompleted, Deed.completes]
  cases hl : d.history.latest? with
  | none =>
    have hidle : d.assigner.state = .idle := hd.state.trans (phase_idle_iff.2 hl)
    rw [phase_idle_iff.2 (hlatest.trans hl),
      state_complete_other _ _ _ _ (by simp [hidle])]
    exact hidle
  | some last =>
    have hlen := hd.seq_latest hl
    cases hc : d.history.lastCompleted with
    | true =>
      have hsettled : d.assigner.state = .settled :=
        hd.state.trans (phase_settled_iff.2 ⟨last, hl, hc⟩)
      have hdone : lastCompleted (.completed k call outcome :: d.history) = true := by
        rw [hlast, hc, Bool.or_true]
      rw [phase_settled_iff.2 ⟨last, hlatest.trans hl, hdone⟩,
        state_complete_other _ _ _ _ (by simp [hsettled])]
      exact hsettled
    | false =>
      have hpending : d.assigner.state = .pending last.seq last.target :=
        hd.state.trans ((phase_pending_iff _ _).2 ⟨last, hl, hc, rfl, rfl⟩)
      -- the numbers of the two calls tell whether the outcome is the one waited for
      by_cases hown : k = d.history.calls.length - 1
      · have hsame : last.seq = call.seq := by omega
        have hdone : lastCompleted (.completed k call outcome :: d.history) = true := by
          rw [hlast, hc, Bool.or_false]
          exact beq_iff_eq.2 hown
        rw [phase_settled_iff.2 ⟨last, hlatest.trans hl, hdone⟩]
        exact state_complete_own _ _ _ _ (by rw [hpending, hsame])
      · have hother : last.seq ≠ call.seq := by omega
        have hopen : lastCompleted (.completed k call outcome :: d.history) = false := by
          rw [hlast, hc, Bool.or_false]
          exact beq_false_of_ne hown
        rw [(phase_pending_iff _ _).2 ⟨last, hlatest.trans hl, hopen, rfl, rfl⟩,
          state_complete_other _ _ _ _ (by simp [hpending, hother])]
        exact hpending

theorem answer (hd : Kept d) {k : Nat} {call : AssignCall} (outcome : Except RemoteFault Unit)
    (hk : d.history.calls[k]? = some call) :
    Kept ⟨(d.assigner.complete call outcome d.change).1,
      (d.assigner.complete call outcome d.change).2, .completed k call outcome :: d.history⟩ := by
  refine hd.extend rfl (issued_complete ..) (fun j hj => ?_) (hd.state_answer outcome hk)
  rw [Deed.completes, beq_iff_eq] at hj
  rw [← hj]
  exact (List.getElem?_eq_some_iff.1 hk).1

theorem load (hd : Kept d) (c : Change) :
    Kept ⟨d.assigner.reload c, c, .loaded c :: d.history⟩ :=
  hd.extend rfl rfl (fun _ hk => Bool.noConfusion hk) rfl

theorem step (hd : Kept d) (s : Step) : Kept (d.step s) := by
  have hm := step_moved d s
  generalize d.step s = d' at hm
  cases hm with
  | refused desired fault => exact hd.quiet rfl rfl (fun _ => rfl) rfl rfl
  | ignored desired off => exact hd.quiet rfl rfl (fun _ => rfl) rfl rfl
  | dropped desired same => exact hd.quiet rfl rfl (fun _ => rfl) rfl rfl
  | issued desired n numbered other => exact hd.issue rfl rfl
  | unknown k outcome never => exact hd
  | completed k outcome call was => exact hd.answer outcome was
  | loaded c => exact hd.load c

theorem tour (hd : Kept d) (visits : List (Change × Step)) : Kept (d.tour visits) := by
  induction visits generalizing d with
  | nil => exact hd
  | cons v visits ih => exact ih ((hd.handed v.1).step v.2)

theorem standing (hd : Kept d) (c : Change) : d.assigner.standing c = d.history.target c :=
  standing_of_phase d.assigner c hd.state

theorem seq_lt (hd : Kept d) :
    d.history.calls.Pairwise fun first second => first.seq < second.seq := by
  rw [List.pairwise_iff_getElem]
  intro i j hi hj hij
  have hfirst := hd.numbered i _ (List.getElem?_eq_getElem hi)
  have hsecond := hd.numbered j _ (List.getElem?_eq_getElem hj)
  omega

theorem state_stale (hd : Kept d) {k : Nat} (hk : d.history.Stale k)
    (outcome : Except RemoteFault Unit) :
    (d.step (.complete k outcome)).assigner.state = d.assigner.state := by
  have hm := step_moved d (.complete k outcome)
  generalize d.step (.complete k outcome) = d' at hm
  cases hm with
  | unknown _ _ never => rfl
  | completed _ _ call was =>
    apply state_complete_other
    intro target hpending
    rw [hd.state] at hpending
    obtain ⟨last, hl, hopen, hseq, -⟩ := (phase_pending_iff _ _).1 hpending
    have hlen := hd.seq_latest hl
    have hplace := hd.numbered k call was
    have hlast : k = d.history.calls.length - 1 := by omega
    rcases hk with hnewer | hagain | hbefore
    · omega
    · rw [lastCompleted, ← hlast, hagain] at hopen
      cases hopen
    · have hlt := length_calls_upToLoad hl
      omega

end Kept

/-- The life of the state, whatever change is handed over at each step. Calls are numbered by their
place, across loads too; as the counter counts them, it stays within 64 bits while fewer than `2^64`
calls were issued. Nothing was issued since the load, or the last call since waits for its outcome,
or it has one; and outcomes that come too late do not touch the state. -/
theorem lifecycle (enabled : Bool) (c : Change) (visits : List (Change × Step)) :
    let d := (fresh enabled c).tour visits
    d.assigner.issued = d.history.calls.length ∧
    (∀ k call, d.history.calls[k]? = some call → call.seq = k + 1) ∧
    d.history.calls.Pairwise (fun first second => first.seq < second.seq) ∧
    (d.assigner.state = .idle ↔ d.history.latest? = none) ∧
    (∀ seq target, d.assigner.state = .pending seq target ↔
      ∃ call, d.history.latest? = some call ∧ d.history.lastCompleted = false ∧
        call.seq = seq ∧ call.target = target) ∧
    (d.assigner.state = .settled ↔
      ∃ call, d.history.latest? = some call ∧ d.history.lastCompleted = true) ∧
    (∀ k outcome other, d.history.Stale k →
      ({ d with change := other }.step (.complete k outcome)).assigner.state =
        d.assigner.state) := by
  intro d
  have hd : Kept d := (kept_fresh enabled c).tour visits
  refine ⟨hd.issued, hd.numbered, hd.seq_lt, ?_, ?_, ?_, ?_⟩
  · rw [hd.state]
    exact phase_idle_iff
  · intro seq target
    rw [hd.state]
    exact phase_pending_iff seq target
  · rw [hd.state]
    exact phase_settled_iff
  · intro k outcome other hk
    exact (hd.handed other).state_stale hk outcome

-- the outcome of the first of two calls does not settle the second
example :
    ((fresh true { Change.blank with number := some ⟨42⟩ }).run
      [.edit [.withId ⟨1⟩], .edit [.withId ⟨2⟩], .complete 0 (.ok ())]).assigner.state =
    .pending 2 (some (.withId ⟨2⟩)) := by
  decide

end Desk

end ChangeDesk.Assigner
