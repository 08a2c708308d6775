import ChangeDesk.Proofs.Assigner.Lifecycle

/-!
# Edits that are dropped

An edit that asks for what stands already is dropped. Whether two accounts are the same is judged by
what both carry, and of what neither carries nothing is said: two missing emails agree, and so do
two missing user names. So a dropped edit asks for an account that shares an address with the one
that stands, unless neither has an email or a user name to tell them apart by and one of them has no
number either.

Main statement: what is known of the account of a dropped edit (`Desk.dropped_shares`).
-/

namespace ChangeDesk

namespace Account

/-- Both accounts carry an address of one kind, and it is the same. -/
inductive SharesAddress (a b : Account) : Prop where
  | number (id : AccountId) (left : a.id = some id) (right : b.id = some id)
  | email (email : String) (left : a.email = some email) (right : b.email = some email)
  | username (name : String) (left : a.username = some name) (right : b.username = some name)

/-- Neither account carries an email or a user name, and one of them has no number either. -/
structure Indistinct (a b : Account) : Prop where
  emails : a.email = none ∧ b.email = none
  usernames : a.username = none ∧ b.username = none
  numbers : a.id = none ∨ b.id = none

variable {a b : Account}

theorem sameIdentity_of_unnumbered (h : a.id = none ∨ b.id = none) :
    a.sameIdentity b = (a.email == b.email) := by
  unfold sameIdentity
  rcases h with h | h
  · rw [h]
  · rw [h]
    cases a.id <;> rfl

theorem sameTarget_of_unnumbered (h : a.id = none ∨ b.id = none) :
    sameTarget (some a) (some b) =
      (a.email == b.email && (a.email.isSome || a.username == b.username)) := by
  have hnumbers : (a.id.isSome && b.id.isSome) = false := by
    rcases h with h | h <;> simp [h]
  simp only [sameTarget, sameIdentity_of_unnumbered h, hnumbers, Bool.false_or]

theorem sameTarget_of_numbered {i j : AccountId} (ha : a.id = some i) (hb : b.id = some j) :
    sameTarget (some a) (some b) = (i == j) := by
  simp only [sameTarget, sameIdentity, ha, hb, Option.isSome_some, Bool.and_self, Bool.true_or,
    Bool.and_true]

theorem Indistinct.sameTarget (h : a.Indistinct b) : sameTarget (some a) (some b) = true := by
  rw [sameTarget_of_unnumbered h.numbers, h.emails.1, h.emails.2, h.usernames.1, h.usernames.2]
  rfl

theorem shares_of_sameTarget (h : ChangeDesk.sameTarget (some a) (some b) = true) :
    a.SharesAddress b ∨ a.Indistinct b := by
  by_cases hnumbers : a.id = none ∨ b.id = none
  · rw [sameTarget_of_unnumbered hnumbers, Bool.and_eq_true, beq_iff_eq] at h
    obtain ⟨hemails, hrest⟩ := h
    cases hemail : a.email with
    | some email => exact .inl (.email email hemail (hemails.symm.trans hemail))
    | none =>
      -- only where no email tells them apart are user names looked at
      have husernames : a.username = b.username := by simpa [hemail] using hrest
      cases husername : a.username with
      | some name => exact .inl (.username name husername (husernames.symm.trans husername))
      | none =>
        exact .inr ⟨⟨hemail, hemails.symm.trans hemail⟩,
          ⟨husername, husernames.symm.trans husername⟩, hnumbers⟩
  · obtain ⟨ha, hb⟩ := not_or.1 hnumbers
    obtain ⟨i, hi⟩ := Option.ne_none_iff_exists'.1 ha
    obtain ⟨j, hj⟩ := Option.ne_none_iff_exists'.1 hb
    rw [sameTarget_of_numbered hi hj, beq_iff_eq] at h
    exact .inl (.number i hi (by rw [hj, h]))

end Account

namespace Assigner

theorem edit_single_dropped {a : Assigner} {c : Change} {n : ChangeNumber} (account : Account)
    (enabled : a.enabled = true) (numbered : c.number = some n) :
    (a.edit c [account]).1 = .ok none ↔ sameTarget (some account) (a.standing c) = true := by
  have hedit := a.edit_of_numbered c [account] n enabled (Nat.le_refl 1) numbered
  rw [hedit, List.head?_cons]
  cases sameTarget (some account) (a.standing c) with
  | true => exact ⟨fun _ => rfl, fun _ => rfl⟩
  | false => exact ⟨nofun, nofun⟩

namespace Desk

theorem enabled_tour (d : Desk) (visits : List (Change × Step)) :
    (d.tour visits).assigner.enabled = d.assigner.enabled := by
  induction visits generalizing d with
  | nil => rfl
  | cons v visits ih =>
    have hrest := ih ({ d with change := v.1 }.step v.2)
    have hstep := enabled_step { d with change := v.1 } v.2
    exact hrest.trans hstep

/-- Dropped edits, at every moment of every run of an assigner that is enabled and whatever change
with a number is handed over. If an edit of one account is dropped, the target of the history is an
account that shares an address with it, unless both are without email and user name and one without
a number, too; and such an edit is dropped indeed. -/
theorem dropped_shares (c : Change) (visits : List (Change × Step)) {record : Change}
    {n : ChangeNumber} (numbered : record.number = some n) (a : Account) :
    let d := (fresh true c).tour visits
    ((d.assigner.edit record [a]).1 = .ok none →
      ∃ b, d.history.target record = some b ∧ (a.SharesAddress b ∨ a.Indistinct b)) ∧
    (∀ b, d.history.target record = some b → a.Indistinct b →
      (d.assigner.edit record [a]).1 = .ok none) := by
  intro d
  have henabled : d.assigner.enabled = true := enabled_tour (fresh true c) visits
  have hkept : Kept d := (kept_fresh true c).tour visits
  rw [edit_single_dropped a henabled numbered, hkept.standing]
  constructor
  · intro hsame
    cases htarget : d.history.target record with
    | none =>
      rw [htarget] at hsame
      cases hsame
    | some b =>
      rw [htarget] at hsame
      exact ⟨b, rfl, Account.shares_of_sameTarget hsame⟩
  · intro b htarget hindistinct
    rw [htarget]
    exact hindistinct.sameTarget

/-- An account that is named by its email, where it stands with a number. -/
theorem dropped_shares_email :
    let email : Account := .withEmail "a@b"
    let standing : Account := { email with id := some ⟨1⟩ }
    let c : Change := { Change.blank with number := some ⟨42⟩, assignee := some standing }
    let d := (fresh true c).tour [(c, .load c)]
    c.number = some ⟨42⟩ ∧ (d.assigner.edit c [email]).1 = .ok none ∧
      ∃ b, d.history.target c = some b ∧ (email.SharesAddress b ∨ email.Indistinct b) := by
  intro email standing c d
  have hnumber : c.number = some ⟨42⟩ := rfl
  have hdropped : (d.assigner.edit c [email]).1 = .ok none := rfl
  exact ⟨hnumber, hdropped, (dropped_shares c [(c, .load c)] hnumber email).1 hdropped⟩

/-- The change is assigned to somebody of whom only a name is known. That account 1 is asked for
instead goes unnoticed. -/
theorem dropped_stranger :
    let ann : Account := { Account.blank with name := some "Ann" }
    let c : Change := { Change.blank with number := some ⟨42⟩, assignee := some ann }
    let d := (fresh true c).tour [(c, .load c)]
    (d.assigner.edit c [.withId ⟨1⟩]).1 = .ok none ∧ d.history.target c = some ann ∧
      ¬ (Account.withId ⟨1⟩).SharesAddress ann := by
  intro ann c d
  refine ⟨rfl, rfl, ?_⟩
  intro h
  cases h with
  | number id left right => cases right
  | email email left right => cases right
  | username name left right => cases right

end Desk

end Assigner

end ChangeDesk
