import ChangeDesk.Proofs.Command.Path
import ChangeDesk.Proofs.Http.Request

/-!
# Accounts as they are named on the command line

An account is named by a number, an email or a user name, and it depends on the text alone which of
them it is. What the server is then asked for is the number in plain decimal, or else the text as it
stands, blanks included, so two texts ask for the same only where they are the same or the same
number.

Main statement: what is sent for each text (`Command.reference_sent`).
-/

namespace ChangeDesk

namespace Account

variable {r r' text text' : String} {a a' : Account}

/-- The text names no account by its number, and has no at sign that would make it an email. -/
def IsUsername (r : String) : Prop := (¬ ∃ n, Identifier.Spelled r n) ∧ '@' ∉ r.toList

/-- The account that a text names. -/
inductive Refers (r : String) : Account → Prop where
  | number {id : AccountId} (spelled : Identifier.Spelled r id.val) : Refers r (withId id)
  | email (unnumbered : ¬ ∃ n, Identifier.Spelled r n) (sign : '@' ∈ r.toList) :
    Refers r (withEmail r)
  | username (bare : IsUsername r) : Refers r (withUsername r)

theorem refers_ofReference (r : String) : Refers r (ofReference r) := by
  unfold ofReference
  cases h : AccountId.ofText r with
  | ok id => exact .number (Identifier.accountId_ok.1 h)
  | error fault =>
    have hnot : ¬ ∃ n, Identifier.Spelled r n := by
      rintro ⟨n, hn⟩
      have hok : AccountId.ofText r = .ok ⟨n⟩ := Identifier.accountId_ok.2 hn
      rw [h] at hok
      cases hok
    dsimp only
    split
    · rename_i hsign
      exact .email hnot (List.contains_iff_mem.1 hsign)
    · rename_i hsign
      exact .username ⟨hnot, fun hmem => hsign (List.contains_iff_mem.2 hmem)⟩

/-- The text that the server is sent for a text: the digits of the number it is, else itself. -/
structure Means (r text : String) : Prop where
  number : ∀ n, Identifier.Spelled r n → text = digitsOf n
  verbatim : (¬ ∃ n, Identifier.Spelled r n) → text = r

theorem means_of_unnumbered (h : ¬ ∃ n, Identifier.Spelled r n) : Means r r :=
  ⟨fun n hn => absurd ⟨n, hn⟩ h, fun _ => rfl⟩

theorem Refers.means (h : Refers r a) : ∃ text, a.reference? = some text ∧ Means r text := by
  cases h with
  | @number id spelled =>
    refine ⟨id.text, rfl, ?_, fun hnot => absurd ⟨_, spelled⟩ hnot⟩
    intro n hn
    -- a text is one number only
    have hread := Identifier.numberOfText_ok.2 spelled
    rw [Identifier.numberOfText_ok.2 hn] at hread
    rw [AccountId.text, Except.ok.inj hread]
  | email unnumbered sign => exact ⟨r, rfl, means_of_unnumbered unnumbered⟩
  | username bare => exact ⟨r, rfl, means_of_unnumbered bare.1⟩

theorem spelled_digitsOf (n : UInt64) : Identifier.Spelled (digitsOf n) n :=
  Identifier.numberOfText_ok.1 (numberOfText_digitsOf n)

theorem Means.spelled {n : UInt64} (h : Means r (digitsOf n)) : Identifier.Spelled r n := by
  by_cases hr : ∃ m, Identifier.Spelled r m
  · obtain ⟨m, hm⟩ := hr
    rwa [digitsOf_inj.1 (h.number m hm)]
  · rw [← h.verbatim hr]
    exact spelled_digitsOf n

/-- Two texts that mean the same are the same, or the same number. -/
theorem Means.same (h : Means r text) (h' : Means r' text) :
    r = r' ∨ ∃ n, Identifier.Spelled r n ∧ Identifier.Spelled r' n := by
  by_cases hr : ∃ n, Identifier.Spelled r n
  · obtain ⟨n, hn⟩ := hr
    rw [h.number n hn] at h'
    exact .inr ⟨n, hn, h'.spelled⟩
  · by_cases hr' : ∃ n, Identifier.Spelled r' n
    · obtain ⟨n, hn⟩ := hr'
      rw [h'.number n hn] at h
      exact .inr ⟨n, h.spelled, hn⟩
    · exact .inl ((h.verbatim hr).symm.trans (h'.verbatim hr'))

end Account

namespace Command

variable {s : Surroundings} {n : ChangeNumber} {profile r text : String}
  {talk : List Http.Exchange} {result : Except CommandFault Outcome} {exchange : Http.Exchange}

/-- The request that assigns a change, with the text in its body. -/
theorem Course.assigns (h : Course s n (.assignee (some r)) profile talk result)
    (mem : exchange ∈ talk) (mutates : exchange.request.method ≠ .get)
    (known : (Account.ofReference r).reference? = some text) :
    exchange.request.method = .put ∧ ∃ body, exchange.request.body = some body ∧
      Json.Document.Holds .text body [("assignee", text)] := by
  obtain ⟨client, sent, config, change, before, after, ready, normal, fetched, rest, -, hmem⟩ :=
    h.edited_of_mem mem mutates
  obtain rfl : FieldEdit.assignee (some r) = sent := Except.ok.inj normal
  obtain ⟨-, k, -, asked⟩ := rest.asked hmem
  have hrequest := Http.Client.requests_of_requestOf asked
  have hsends : (Call.setAssignee k (Account.ofReference r)).Sends exchange.request.body :=
    hrequest.body
  refine ⟨hrequest.method, ?_⟩
  generalize exchange.request.body = sent at hsends
  cases hsends with
  | assignee known' body =>
    obtain rfl := Option.some.inj (known.symm.trans known')
    exact ⟨_, rfl, body⟩

/-- What is sent for an account that is named on the command line. Every text leads to one: the
digits of the number, if the text is a number of 64 bits in decimal with blanks around it, else the
text as it stands. Another text leads to the same only if it is the same text or the same number.
Whatever the stored profiles are and whatever the server replies, a request that edits assigns the
change, and its body holds just this text. -/
theorem reference_sent (r : String) :
    ∃ text, (Account.ofReference r).reference? = some text ∧
      (∀ n, Identifier.Spelled r n → text = digitsOf n) ∧
      ((¬ ∃ n, Identifier.Spelled r n) → text = r) ∧
      (∀ r', (Account.ofReference r').reference? = some text →
        r = r' ∨ ∃ n, Identifier.Spelled r n ∧ Identifier.Spelled r' n) ∧
      ∀ (s : Surroundings) (n : ChangeNumber) (profile : String) (replies : Http.Replies),
        let talk : List Http.Exchange :=
          ((run s (.edit n (.assignee (some r)) profile)).converse replies).1
        ∀ exchange ∈ talk, exchange.request.method ≠ .get →
          exchange.request.method = .put ∧ ∃ body, exchange.request.body = some body ∧
            Json.Document.Holds .text body [("assignee", text)] := by
  obtain ⟨text, hknown, hmeans⟩ := (Account.refers_ofReference r).means
  refine ⟨text, hknown, hmeans.number, hmeans.verbatim, ?_, ?_⟩
  · intro r' hknown'
    obtain ⟨text', htext', hmeans'⟩ := (Account.refers_ofReference r').means
    obtain rfl := Option.some.inj (htext'.symm.trans hknown')
    exact hmeans.same hmeans'
  · intro s n profile replies talk exchange mem mutates
    have hcourse : Course s n (.assignee (some r)) profile talk _ :=
      course_of_held (Dialogue.held_converse replies (runEdit s n _ profile))
    exact hcourse.assigns mem mutates hknown

/-- A number with blanks, a sign and zeros, and one that is past all numbers of 64 bits. -/
example :
    let s : Surroundings :=
      ⟨.ok (some "[profiles.default]\nbase_url = \"https://r\"\n"), fun _ => .error .missing⟩
    let documents : List String := ["\x7b\"change\":\x7b\"enable_assignee\":true\x7d\x7d",
      "\x7b\"_number\":42,\"actions\":\x7b\"assignee\":\x7b\"enabled\":true\x7d\x7d\x7d"]
    let replies : Http.Replies := fun i _ => .ok ⟨200, documents.getD i ""⟩
    let body (r : String) : Option String := do
      let exchange ←
        ((run s (.edit ⟨42⟩ (.assignee (some r)) "default")).converse replies).1[2]?
      exchange.1.body
    body " +007\u3000" = some "\x7b\"assignee\":\"7\"\x7d" ∧
      body " 18446744073709551616" = some "\x7b\"assignee\":\" 18446744073709551616\"\x7d" := by
  decide +kernel

end Command

end ChangeDesk
