import ChangeDesk.Proofs.Command.Reference

/-!
# What is said of an assignment

A command that has assigned a change says to whom, in the words by which accounts are called: their
name, else their email, else their number. An account that is named on the command line has a number
or an email or a user name and nothing else, so numbers and emails are told apart, but all accounts
that are named by a user name are called anonymous, although each of them was sent to the server by
that name.

Main statement: what is printed, and when it is the same for two accounts
(`Command.confirmation`).
-/

namespace ChangeDesk

namespace Account

variable {r r' : String} {a a' : Account}

theorem not_isUsername_of_spelled {n : UInt64} (h : Identifier.Spelled r n) : ¬ IsUsername r :=
  fun hbare => hbare.1 ⟨n, h⟩

/-! ### The words for an account -/

theorem displayName_withId (id : AccountId) : (withId id).displayName = "account " ++ id.text := rfl

/-- The words for a number are no email. -/
theorem displayName_withId_ne (id : AccountId) (sign : '@' ∈ r.toList) :
    (withId id).displayName ≠ r := by
  rintro rfl
  rw [displayName_withId, String.toList_append, List.mem_append] at sign
  obtain hlabel | hdigits := sign
  · exact absurd hlabel (by decide)
  · rw [AccountId.text, digitsOf, String.toList_ofList] at hdigits
    exact Text.not_mem_toDigits rfl id.val.toNat hdigits

theorem displayName_withId_ne_anonymous (id : AccountId) :
    (withId id).displayName ≠ "anonymous" := by
  intro h
  have hblank : ' ' ∈ ("account " ++ id.text).toList := by
    rw [String.toList_append]
    exact List.mem_append_left _ (by decide)
  rw [← displayName_withId, h] at hblank
  exact absurd hblank (by decide)

theorem ne_anonymous (sign : '@' ∈ r.toList) : r ≠ "anonymous" := by
  rintro rfl
  exact absurd sign (by decide)

/-- Named accounts are called alike only if they are the same, or both are user names. -/
theorem Refers.displayName_eq_iff (h : Refers r a) (h' : Refers r' a') :
    a.displayName = a'.displayName ↔ a = a' ∨ (IsUsername r ∧ IsUsername r') := by
  constructor
  · intro hname
    cases h with
    | @number id spelled =>
      cases h' with
      | @number id' spelled' =>
        rw [displayName_withId, displayName_withId, String.append_right_inj,
          AccountId.text_inj] at hname
        exact .inl (congrArg withId hname)
      | email unnumbered' sign' => exact absurd hname (displayName_withId_ne id sign')
      | username bare' => exact absurd hname (displayName_withId_ne_anonymous id)
    | email unnumbered sign =>
      cases h' with
      | @number id' spelled' => exact absurd hname.symm (displayName_withId_ne id' sign)
      | email unnumbered' sign' => exact .inl (congrArg withEmail hname)
      | username bare' => exact absurd hname (ne_anonymous sign)
    | username bare =>
      cases h' with
      | @number id' spelled' => exact absurd hname.symm (displayName_withId_ne_anonymous id')
      | email unnumbered' sign' => exact absurd hname.symm (ne_anonymous sign')
      | username bare' => exact .inr ⟨bare, bare'⟩
  · rintro (rfl | ⟨bare, bare'⟩)
    · rfl
    · cases h with
      | number spelled => exact absurd bare (not_isUsername_of_spelled spelled)
      | email unnumbered sign => exact absurd sign bare.2
      | username _ =>
        cases h' with
        | number spelled' => exact absurd bare' (not_isUsername_of_spelled spelled')
        | email unnumbered' sign' => exact absurd sign' bare'.2
        | username _ => rfl

/-- The text that the server is sent tells named accounts apart. -/
theorem ofReference_eq_iff :
    (ofReference r).reference? = (ofReference r').reference? ↔ ofReference r = ofReference r' := by
  constructor
  · intro href
    obtain ⟨text, htext, hmeans⟩ := (refers_ofReference r).means
    obtain ⟨text', htext', hmeans'⟩ := (refers_ofReference r').means
    rw [htext, htext', Option.some.injEq] at href
    subst href
    obtain rfl | ⟨n, hn, hn'⟩ := hmeans.same hmeans'
    · rfl
    · have hid : AccountId.ofText r = .ok ⟨n⟩ := Identifier.accountId_ok.2 hn
      have hid' : AccountId.ofText r' = .ok ⟨n⟩ := Identifier.accountId_ok.2 hn'
      rw [ofReference, ofReference, hid, hid']
  · intro h
    rw [h]

end Account

namespace FieldEdit

/-- An assignment that asked the server and succeeded tells of the account of the edit itself. -/
theorem assigned_of_held {client : Http.Client} {n : ChangeNumber} {loaded : Session} {r : String}
    {asked : List Http.Exchange} {line : String} {exchange : Http.Exchange}
    (h : (client.run ((assignee (some r)).apply n loaded)).Held asked (.ok line))
    (mem : exchange ∈ asked) :
    line = assigneeMessage n true (some (Account.ofReference r)) := by
  obtain ⟨inner, hinner, hcarried⟩ := Dialogue.held_interpret client.answer h
  obtain ⟨outcome, s', hperformed, hline⟩ := performed_of_apply hinner
  have hedit : (assignee (some r)).toSession = .assignee [Account.ofReference r] := rfl
  rw [hedit] at hperformed
  cases hperformed with
  | refused why => cases hline
  | ignored one off =>
    rw [hcarried.eq_nil] at mem
    cases mem
  | agreed one on numbered same =>
    rw [hcarried.eq_nil] at mem
    cases mem
  | failed fault numbered needed => cases hline
  | confirmed numbered needed confirms =>
    cases confirms with
    | assigned account answer => exact Except.ok.inj hline

end FieldEdit

namespace Command

variable {n : ChangeNumber} {r r' output output' : String}

/-- In some run the command that assigns change `n` to what `r` refers to made the request for it
and succeeded, and this was its output. -/
def Confirmed (n : ChangeNumber) (r output : String) : Prop :=
  ∃ (s : Surroundings) (profile : String) (replies : Http.Replies),
    let ended := (run s (.edit n (.assignee (some r)) profile)).converse replies
    (∃ exchange ∈ ended.1, exchange.1.method ≠ .get) ∧
      Ending.ofResult ended.2 = ⟨0, output, "", none⟩

theorem Confirmed.output_eq (h : Confirmed n r output) :
    output =
      "Assigned change " ++ n.text ++ " to " ++ (Account.ofReference r).displayName ++ "\n" := by
  obtain ⟨s, profile, replies, ⟨exchange, mem, mutates⟩, hend⟩ := h
  have hheld := Dialogue.held_converse replies (runEdit s n (.assignee (some r)) profile)
  obtain ⟨o, ho⟩ := (Ending.code_ofResult _).1 (congrArg Ending.code hend)
  have hrun : ((runEdit s n (.assignee (some r)) profile).converse replies).2 = .ok o := ho
  rw [hrun] at hheld
  obtain ⟨client, sent, loaded, asked, line, normal, happlied, hmem, rfl⟩ :=
    applied_of_held hheld mem mutates
  obtain rfl : FieldEdit.assignee (some r) = sent := Except.ok.inj normal
  have hline := FieldEdit.assigned_of_held happlied hmem
  rw [ho, hline] at hend
  exact (congrArg Ending.output hend).symm

/-- What an assignment that was asked for and succeeded prints, whatever the stored profiles are and
whatever the server replies. For two references the output is the same exactly if they lead to the
same text for the server, or if both are user names. -/
theorem confirmation (h : Confirmed n r output) (h' : Confirmed n r' output') :
    output =
        "Assigned change " ++ n.text ++ " to " ++ (Account.ofReference r).displayName ++ "\n" ∧
      (output = output' ↔
        (Account.ofReference r).reference? = (Account.ofReference r').reference? ∨
          (Account.IsUsername r ∧ Account.IsUsername r')) := by
  refine ⟨h.output_eq, ?_⟩
  rw [h.output_eq, h'.output_eq, String.append_left_inj, String.append_right_inj,
    (Account.refers_ofReference r).displayName_eq_iff (Account.refers_ofReference r'),
    Account.ofReference_eq_iff]

/-- A number and an email are told apart. -/
theorem confirmation_apart :
    let number := "Assigned change 42 to account 7\n"
    let email := "Assigned change 42 to 7@r\n"
    Confirmed ⟨42⟩ " +7" number ∧ Confirmed ⟨42⟩ "7@r" email ∧
      (number = email ↔
        (Account.ofReference " +7").reference? = (Account.ofReference "7@r").reference? ∨
          (Account.IsUsername " +7" ∧ Account.IsUsername "7@r")) := by
  intro number email
  let s : Surroundings :=
    ⟨.ok (some "[profiles.default]\nbase_url = \"https://r\"\n"), fun _ => .error .missing⟩
  let documents : List String := ["\x7b\"change\":\x7b\"enable_assignee\":true\x7d\x7d",
    "\x7b\"_number\":42,\"actions\":\x7b\"assignee\":\x7b\"enabled\":true\x7d\x7d\x7d"]
  let replies : Http.Replies := fun i _ => .ok ⟨200, documents.getD i ""⟩
  have hnumber : Confirmed ⟨42⟩ " +7" number := ⟨s, "default", replies, by decide +kernel⟩
  have hemail : Confirmed ⟨42⟩ "7@r" email := ⟨s, "default", replies, by decide +kernel⟩
  exact ⟨hnumber, hemail, (confirmation hnumber hemail).2⟩

/-- The server is sent two user names, and the same is said of both. -/
theorem confirmation_usernames :
    let s : Surroundings :=
      ⟨.ok (some "[profiles.default]\nbase_url = \"https://r\"\n"), fun _ => .error .missing⟩
    let documents : List String := ["\x7b\"change\":\x7b\"enable_assignee\":true\x7d\x7d",
      "\x7b\"_number\":42,\"actions\":\x7b\"assignee\":\x7b\"enabled\":true\x7d\x7d\x7d"]
    let replies : Http.Replies := fun i _ => .ok ⟨200, documents.getD i ""⟩
    let ended (r : String) := (run s (.edit ⟨42⟩ (.assignee (some r)) "default")).converse replies
    (ended "alice").1[2]?.map (fun e => (e.1.method, e.1.body)) =
        some (.put, some "\x7b\"assignee\":\"alice\"\x7d") ∧
      (ended "bob").1[2]?.map (fun e => (e.1.method, e.1.body)) =
        some (.put, some "\x7b\"assignee\":\"bob\"\x7d") ∧
      (Account.ofReference "alice").reference? ≠ (Account.ofReference "bob").reference? ∧
      Ending.ofResult (ended "alice").2 = ⟨0, "Assigned change 42 to anonymous\n", "", none⟩ ∧
      Ending.ofResult (ended "bob").2 = ⟨0, "Assigned change 42 to anonymous\n", "", none⟩ := by
  decide +kernel

end Command

end ChangeDesk
