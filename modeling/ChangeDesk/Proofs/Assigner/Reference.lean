import ChangeDesk.Proofs.Assigner.Dropped
import ChangeDesk.Proofs.Http.Request
import ChangeDesk.Proofs.Text.Identifier

/-!
# Dropped edits and what is sent

Which edits are dropped is judged from all that two accounts carry. What is sent of an account is one
text: its number, else its email, else its user name. Among accounts that are addressed in the same
way both come to the same; an account that is addressed by its number and one that is addressed by
its email are the same target if their emails agree, and yet other texts are sent of them.

Main statement: how targets are compared, and which edits are dropped (`Assigner.edit_reference`).
-/

namespace ChangeDesk

/-- What an account is addressed by. -/
inductive AddressForm where
  | number
  | email
  | username
deriving DecidableEq

namespace Account

variable {a b : Account}

/-- The first that an account carries of a number, an email and a user name. -/
def form? (a : Account) : Option AddressForm :=
  match a.id, a.email, a.username with
  | some _, _, _ => some .number
  | none, some _, _ => some .email
  | none, none, some _ => some .username
  | none, none, none => none

theorem sameTarget_iff_reference (same : a.form? = b.form?) :
    sameTarget (some a) (some b) = true ↔ a.reference? = b.reference? := by
  obtain ⟨id, email, name, username⟩ := a
  obtain ⟨id', email', name', username'⟩ := b
  cases id with
  | some i =>
    cases id' with
    | some j =>
      rw [sameTarget_of_numbered rfl rfl, beq_iff_eq]
      show i = j ↔ some i.text = some j.text
      rw [Option.some.injEq, AccountId.text_inj]
    | none => cases email' <;> cases username' <;> cases same
  | none =>
    cases id' with
    | some j => cases email <;> cases username <;> cases same
    | none =>
      rw [sameTarget_of_unnumbered (.inl rfl)]
      cases email with
      | some e =>
        cases email' with
        | some e' => simp [reference?]
        | none => cases username' <;> cases same
      | none =>
        cases email' with
        | some e' => cases username <;> cases same
        | none => simp [reference?]

end Account

theorem sameTarget_comm (x y : Option Account) : sameTarget x y = sameTarget y x := by
  cases x with
  | none => cases y <;> rfl
  | some a =>
    cases y with
    | none => rfl
    | some b =>
      by_cases hnumbers : a.id = none ∨ b.id = none
      · have hemails : a.email = b.email → (a.email.isSome = b.email.isSome) := congrArg _
        rw [Account.sameTarget_of_unnumbered hnumbers,
          Account.sameTarget_of_unnumbered hnumbers.symm, Bool.eq_iff_iff]
        simp only [Bool.and_eq_true, Bool.or_eq_true, beq_iff_eq]
        constructor
        · rintro ⟨hemail, hrest⟩
          exact ⟨hemail.symm, hemails hemail ▸ hrest.imp_right Eq.symm⟩
        · rintro ⟨hemail, hrest⟩
          exact ⟨hemail.symm, (hemails hemail.symm).symm ▸ hrest.imp_right Eq.symm⟩
      · obtain ⟨ha, hb⟩ := not_or.1 hnumbers
        obtain ⟨i, hi⟩ := Option.ne_none_iff_exists'.1 ha
        obtain ⟨j, hj⟩ := Option.ne_none_iff_exists'.1 hb
        rw [Account.sameTarget_of_numbered hi hj, Account.sameTarget_of_numbered hj hi,
          Bool.beq_comm]

theorem sameIdentity_of_sameTarget {a b : Account} (h : sameTarget (some a) (some b) = true) :
    a.sameIdentity b = true :=
  (Bool.and_eq_true_iff.1 h).1

namespace Http.Client

variable {c : Client} {n : ChangeNumber} {a b : Account} {reference : String}

theorem requestOf_unreferenced (h : a.reference? = none) :
    c.requestOf (.setAssignee n a) = .error .unaddressable :=
  requestOf_unaddressable (Account.reference?_eq_none.1 h)

theorem requestOf_referenced (h : a.reference? = some reference) :
    ∃ r text, c.requestOf (.setAssignee n a) = .ok r ∧ r.body = some text ∧
      Json.Document.Holds .text text [("assignee", reference)] := by
  have hsome : ¬ (Call.setAssignee n a).Unaddressable := by
    intro hnone
    rw [Account.reference?_eq_none.2 hnone] at h
    cases h
  obtain ⟨r, hrequest, hr⟩ := requestOf_addressable (c := c) hsome
  have hbody := hr.body
  generalize hsent : r.body = sent at hbody
  cases hbody with
  | assignee known body =>
    obtain rfl := Option.some.inj (known.symm.trans h)
    exact ⟨r, _, hrequest, hsent, body⟩

/-- The requests that set two accounts are the same if the references are, and only then. -/
theorem requestOf_assignee_inj :
    c.requestOf (.setAssignee n a) = c.requestOf (.setAssignee n b) ↔
      a.reference? = b.reference? := by
  constructor
  · intro h
    cases ha : a.reference? with
    | none =>
      rw [requestOf_unreferenced ha] at h
      cases hb : b.reference? with
      | none => rfl
      | some reference =>
        obtain ⟨r, text, hrequest, -, -⟩ := requestOf_referenced (c := c) (n := n) hb
        rw [hrequest] at h
        cases h
    | some reference =>
      obtain ⟨r, text, hrequest, hsent, hbody⟩ := requestOf_referenced (c := c) (n := n) ha
      rw [hrequest] at h
      cases hb : b.reference? with
      | none =>
        rw [requestOf_unreferenced hb] at h
        cases h
      | some reference' =>
        obtain ⟨r', text', hrequest', hsent', hbody'⟩ :=
          requestOf_referenced (c := c) (n := n) hb
        rw [hrequest'] at h
        obtain rfl := Except.ok.inj h
        obtain rfl := Option.some.inj (hsent.symm.trans hsent')
        have hentries := hbody.unique hbody'
        simpa using hentries
  · intro h
    rw [requestOf, requestOf, h]

end Http.Client

namespace Assigner

/-- How the targets of edits are compared. Every target is the same as itself, whichever of two comes
first, and accounts that are the same target are of one identity. Of two accounts that are addressed
by the same, or neither by anything, they are the same target exactly if the server is told the same
of them. An edit of such an account is dropped where it would send again what was sent, or would be
sent, of the one that stands, and else is issued. -/
theorem edit_reference :
    (∀ x, sameTarget x x = true) ∧
    (∀ x y, sameTarget x y = sameTarget y x) ∧
    (∀ a b : Account, sameTarget (some a) (some b) = true → a.sameIdentity b = true) ∧
    ∀ a b : Account, a.form? = b.form? →
      (sameTarget (some a) (some b) = true ↔ a.reference? = b.reference?) ∧
      (∀ (client : Http.Client) (n : ChangeNumber),
        client.requestOf (.setAssignee n a) = client.requestOf (.setAssignee n b) ↔
          a.reference? = b.reference?) ∧
      ∀ (assigner : Assigner) (record : Change) (n : ChangeNumber), assigner.enabled = true →
        record.number = some n → assigner.standing record = some b →
        (assigner.edit record [a]).1 =
          .ok (if a.reference? = b.reference? then none
            else some ⟨assigner.issued + 1, n, some a⟩) := by
  refine ⟨sameTarget_self, sameTarget_comm, fun a b => sameIdentity_of_sameTarget, ?_⟩
  intro a b same
  have hreference := Account.sameTarget_iff_reference same
  refine ⟨hreference, fun client n => Http.Client.requestOf_assignee_inj, ?_⟩
  intro assigner record n enabled numbered standing
  have hedit := assigner.edit_of_numbered record [a] n enabled (Nat.le_refl 1) numbered
  rw [hedit, List.head?_cons, standing]
  by_cases h : a.reference? = b.reference?
  · rw [if_pos (hreference.2 h), if_pos h]
  · rw [if_neg (mt hreference.1 h), if_neg h]

/-- Two accounts with one email, of which more is known besides. -/
theorem edit_reference_email :
    let a : Account := { Account.withEmail "a@b" with name := some "Ann" }
    let b : Account := { Account.withEmail "a@b" with username := some "ann" }
    let record : Change := { Change.blank with number := some ⟨42⟩, assignee := some b }
    let assigner := Assigner.start true
    a.form? = b.form? ∧ assigner.enabled = true ∧ record.number = some ⟨42⟩ ∧
      assigner.standing record = some b ∧ (assigner.edit record [a]).1 = .ok none := by
  intro a b record assigner
  have hform : a.form? = b.form? := rfl
  have hreference : a.reference? = b.reference? := rfl
  have hedit := (edit_reference.2.2.2 a b hform).2.2 assigner record ⟨42⟩ rfl rfl rfl
  rw [if_pos hreference] at hedit
  exact ⟨hform, rfl, rfl, rfl, hedit⟩

/-- Accounts that are addressed by other things: what would be sent is not what was. -/
example :
    let standing : Account := { Account.withEmail "a@b" with id := some ⟨1⟩ }
    sameTarget (some (.withEmail "a@b")) (some standing) = true ∧
      (Account.withEmail "a@b").reference? ≠ standing.reference? := by
  decide +kernel

end Assigner

end ChangeDesk
