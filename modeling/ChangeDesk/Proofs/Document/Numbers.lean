import ChangeDesk.Proofs.Document.Places
import ChangeDesk.Proofs.Document.Variant

/-!
# Numbers in documents

Documents have numbers at many places: changes, revisions and accounts have them, and so have votes
and labels. Wherever such a number stands, and however many digits its token has, it is read as the
whole number that the token is, or the document cannot be read. A vote is no exception, though the
number of its account is checked as any value first and read from what was kept.

Main statement: a document with a token at the place of a number is read if and only if the token is
exact and in the range of the number, and has that number then (`NumberPlace.decode_exact`).
-/

namespace ChangeDesk

open Json (Node Codec Record Numeral Serves bind_ok)

/-! ### The parts of documents that are or have numbers -/

/-- The fields of documents that are numbers or in whose values there are some: the codec of the
values, and what it is for a record to have one. -/
inductive NumberPart :
    {ρ α : Type} → Record ρ → Json.Field ρ → Codec α → (ρ → α → Prop) → Prop where
  | accountId : NumberPart Account.record
    (.optional "_account_id" AccountId.codec Account.id fun v a => { a with id := v })
    AccountId.codec fun a id => a.id = some id
  | author : NumberPart Commit.record
    (.optional "author" Account.codec Commit.author fun v c => { c with author := v })
    Account.codec fun c a => c.author = some a
  | committer : NumberPart Commit.record
    (.optional "committer" Account.codec Commit.committer fun v c => { c with committer := v })
    Account.codec fun c a => c.committer = some a
  | revisionNumber : NumberPart Revision.record
    (.plain "_number" Codec.uint32 Revision.number fun v r => { r with number := v })
    Codec.uint32 fun r n => r.number = n
  | uploader : NumberPart Revision.record
    (.optional "uploader" Account.codec Revision.uploader fun v r => { r with uploader := v })
    Account.codec fun r a => r.uploader = some a
  | commit : NumberPart Revision.record
    (.optional "commit" Commit.codec Revision.commit fun v r => { r with commit := v })
    Commit.codec fun r c => r.commit = some c
  | votes : NumberPart Label.record
    (.plain "all" Approval.codec.list Label.all fun v l => { l with all := v })
    Approval.codec.list fun l as => l.all = as
  | defaultValue : NumberPart Label.record
    (.plain "default_value" Codec.int32 Label.defaultValue fun v l => { l with defaultValue := v })
    Codec.int32 fun l n => l.defaultValue = n
  | approved : NumberPart Label.record
    (.optional "approved" Account.codec Label.approved fun v l => { l with approved := v })
    Account.codec fun l a => l.approved = some a
  | rejected : NumberPart Label.record
    (.optional "rejected" Account.codec Label.rejected fun v l => { l with rejected := v })
    Account.codec fun l a => l.rejected = some a
  | changeNumber : NumberPart Change.record
    (.optional "_number" ChangeNumber.codec Change.number fun v c => { c with number := v })
    ChangeNumber.codec fun c n => c.number = some n
  | owner : NumberPart Change.record
    (.plain "owner" Account.codec Change.owner fun v c => { c with owner := v })
    Account.codec fun c a => c.owner = a
  | revisions : NumberPart Change.record
    (.plain "revisions" Revision.codec.dict Change.revisions fun v c => { c with revisions := v })
    Revision.codec.dict fun c d => c.revisions = d
  | labels : NumberPart Change.record
    (.plain "labels" Label.codec.dict Change.labels fun v c => { c with labels := v })
    Label.codec.dict fun c d => c.labels = d
  | assignee : NumberPart Change.record
    (.optional "assignee" Account.codec Change.assignee fun v c => { c with assignee := v })
    Account.codec fun c a => c.assignee = some a
  | cherryPickOf : NumberPart Change.record
    (.optional "cherry_pick_of_change" ChangeNumber.codec Change.cherryPickOf
      fun v c => { c with cherryPickOf := v })
    ChangeNumber.codec fun c n => c.cherryPickOf = some n
  | cherryPickOfPatchSet : NumberPart Change.record
    (.optional "cherry_pick_of_patch_set" Codec.uint32 Change.cherryPickOfPatchSet
      fun v c => { c with cherryPickOfPatchSet := v })
    Codec.uint32 fun c n => c.cherryPickOfPatchSet = some n

namespace NumberPart

variable {ρ α : Type} {t : Record ρ} {f : Json.Field ρ} {c : Codec α} {has : ρ → α → Prop}

theorem orderly (h : NumberPart t f c has) : t.Orderly := by
  have hrecord : DocumentRecord t := by cases h <;> constructor
  exact hrecord.orderly

theorem fills (h : NumberPart t f c has) : f.Fills c has := by
  cases h
  all_goals
    constructor
    exact fun _ _ => rfl

theorem holds (h : NumberPart t f c has) : t.Holds f has where
  mem := by
    cases h
    all_goals repeat' first | exact List.mem_cons_self .. | apply List.mem_cons_of_mem
  others := by
    cases h
    all_goals
      repeat' first | exact List.forall_mem_nil _ | refine List.forall_mem_cons.2 ⟨?_, ?_⟩
    -- the other fields set other parts
    all_goals
      intro hne levels w s hs x
      obtain ⟨a, rfl⟩ := Json.Field.Made.exists_set (by constructor) hs
      first | rfl | exact absurd rfl hne

end NumberPart

/-! ### Places in votes -/

namespace Approval

variable {levels : Nat} {k v : Node} {n : Numeral} {i : Int} {before after : List (Node × Node)}
  {a : Approval}

theorem filter_at_id (hk : k.keyText = .ok "_account_id") :
    (before ++ (k, v) :: after).filter isKept =
      before.filter isKept ++ (k, v) :: after.filter isKept := by
  rw [List.filter_append, filter_kept hk (by decide)]

theorem filter_at_value (hk : k.keyText = .ok "value") :
    (before ++ (k, v) :: after).filter isKept = before.filter isKept ++ after.filter isKept := by
  rw [List.filter_append, filter_value hk]

theorem valueField_fills : valueField.Fills Codec.int32 fun value x => value = some x :=
  .optional "value" Codec.int32 id (fun v _ => v) fun _ _ => rfl

theorem valueField_holds :
    valueRecord.Holds valueField fun value x => value = some x where
  mem := List.mem_singleton.2 rfl
  others := by
    intro g hg hne
    rw [List.mem_singleton.1 hg] at hne
    exact absurd rfl hne

/-- The number of the account in a vote, which is taken from what was kept. -/
theorem id_of_read (hk : k.keyText = .ok "_account_id")
    (hread : codec.read levels (.object (before ++ (k, .number n) :: after) .closed) = .ok a) :
    ∃ i, n.integer? = some i ∧ 0 ≤ i ∧ i ≤ UInt64.size - 1 ∧
      ∃ id, a.account.id = some id ∧ (id.val.toNat : Int) = i := by
  obtain ⟨-, -, -, -, names, haccount⟩ := object_ok.1 hread
  rw [filter_at_id hk] at haccount
  obtain ⟨s, y, hs, hhas⟩ := NumberPart.accountId.holds.of_readMembers
    NumberPart.accountId.orderly hk List.not_mem_nil haccount
  exact NumberPart.accountId.fills.value_of_read NumberCodec.accountId.exact hs hhas

theorem serves_id (hk : k.keyText = .ok "_account_id") (hi : n.integer? = some i) (hlow : 0 ≤ i)
    (hhigh : i ≤ UInt64.size - 1) :
    Serves (codec.read levels (.object (before ++ (k, v) :: after) .closed))
      (codec.read levels (.object (before ++ (k, .number n) :: after) .closed)) := by
  intro hread
  obtain ⟨a, ha⟩ := hread
  obtain ⟨hlevels, hend, ⟨names, hvalue⟩, hcheck, names', haccount⟩ := object_ok.1 ha
  -- to the value the number of the account is an unknown member
  have hunknown : valueRecord.field? "_account_id" = none :=
    Record.field?_of_not_knows (not_knows (by decide))
  have hvalue' := Record.readMembers_passed hk hunknown
    (show (Node.number n).skip = .ok () from rfl) hvalue
  have hnumber : (Node.number n).check (levels - 1) = .ok () := by
    rw [Node.check, Numeral.inRange, hi]
    rfl
  rw [filter_at_id hk] at hcheck haccount
  obtain ⟨hbefore, hafter⟩ := List.forall_mem_append.1 hcheck
  have hcheck' : ∀ m ∈ (before ++ (k, .number n) :: after).filter isKept,
      m.2.check (levels - 1) = .ok () := by
    rw [filter_at_id hk]
    exact List.forall_mem_append.2
      ⟨hbefore, List.forall_mem_cons.2 ⟨hnumber, (List.forall_mem_cons.1 hafter).2⟩⟩
  obtain ⟨account, haccount'⟩ := Record.readMembers_replaced NumberPart.accountId.orderly
    NumberPart.accountId.holds.mem hk
    (fun _ => NumberPart.accountId.fills.takes NumberCodec.accountId.exact hi hlow hhigh _) haccount
  rw [← filter_at_id hk] at haccount'
  exact ⟨⟨account, a.value⟩,
    object_ok.2 ⟨hlevels, hend, ⟨names, hvalue'⟩, hcheck', names', haccount'⟩⟩

theorem value_of_read (hk : k.keyText = .ok "value")
    (hread : codec.read levels (.object (before ++ (k, .number n) :: after) .closed) = .ok a) :
    ∃ i, n.integer? = some i ∧ Int32.minValue.toInt ≤ i ∧ i ≤ Int32.maxValue.toInt ∧
      ∃ value, a.value = some value ∧ value.toInt = i := by
  obtain ⟨-, -, ⟨names, hvalue⟩, -, -⟩ := object_ok.1 hread
  obtain ⟨s, y, hs, hhas⟩ :=
    valueField_holds.of_readMembers valueRecord_orderly hk List.not_mem_nil hvalue
  exact valueField_fills.value_of_read NumberCodec.int32.exact hs hhas

theorem serves_value (hk : k.keyText = .ok "value") (hi : n.integer? = some i)
    (hlow : Int32.minValue.toInt ≤ i) (hhigh : i ≤ Int32.maxValue.toInt) :
    Serves (codec.read levels (.object (before ++ (k, v) :: after) .closed))
      (codec.read levels (.object (before ++ (k, .number n) :: after) .closed)) := by
  intro hread
  obtain ⟨a, ha⟩ := hread
  obtain ⟨hlevels, hend, ⟨names, hvalue⟩, hcheck, haccount⟩ := object_ok.1 ha
  obtain ⟨value, hvalue'⟩ := Record.readMembers_replaced valueRecord_orderly
    valueField_holds.mem hk
    (fun _ => valueField_fills.takes NumberCodec.int32.exact hi hlow hhigh _) hvalue
  rw [filter_at_value hk, ← filter_at_value hk] at hcheck haccount
  exact ⟨⟨a.account, value⟩,
    object_ok.2 ⟨hlevels, hend, ⟨names, hvalue'⟩, hcheck, haccount⟩⟩

end Approval

/-! ### Places in documents -/

/-- Where a number stands in a value that is read with a codec: the range of the number, the value
as a function from what stands there, and what it is for the value that is read to have a number
there. -/
inductive NumberPlace :
    {α : Type} → Codec α → Int → Int → (Node → Node) → (α → Int → Prop) → Prop where
  | number {ρ α : Type} {t : Record ρ} {f : Json.Field ρ} {c : Codec α} {has : ρ → α → Prop}
    {low high : Int} {value : α → Int} {outer : Node → Node} (hpart : NumberPart t f c has)
    (hc : NumberCodec c low high value) (hat : t.At f outer) :
    NumberPlace t.codec low high outer fun x i => ∃ a, has x a ∧ value a = i
  | voter {k : Node} (before after : List (Node × Node)) (hk : k.keyText = .ok "_account_id") :
    NumberPlace Approval.codec 0 (UInt64.size - 1)
      (fun v => .object (before ++ (k, v) :: after) .closed)
      fun a i => ∃ id, a.account.id = some id ∧ (id.val.toNat : Int) = i
  | vote {k : Node} (before after : List (Node × Node)) (hk : k.keyText = .ok "value") :
    NumberPlace Approval.codec Int32.minValue.toInt Int32.maxValue.toInt
      (fun v => .object (before ++ (k, v) :: after) .closed)
      fun a i => ∃ value, a.value = some value ∧ value.toInt = i
  | part {ρ α : Type} {t : Record ρ} {f : Json.Field ρ} {c : Codec α} {has : ρ → α → Prop}
    {low high : Int} {fill outer : Node → Node} {shows : α → Int → Prop}
    (hpart : NumberPart t f c has) (hat : t.At f outer) (h : NumberPlace c low high fill shows) :
    NumberPlace t.codec low high (fun v => outer (fill v)) fun x i => ∃ a, has x a ∧ shows a i
  | item {α : Type} {c : Codec α} {low high : Int} {fill : Node → Node} {shows : α → Int → Prop}
    (before after : List Node) (h : NumberPlace c low high fill shows) :
    NumberPlace c.list low high (fun v => .list (before ++ fill v :: after) .closed)
      fun as i => ∃ a, as[before.length]? = some a ∧ shows a i
  | entry {α : Type} {c : Codec α} {low high : Int} {fill : Node → Node}
    {shows : α → Int → Prop} {k : Node} {key : String} (before after : List (Node × Node))
    (hk : k.keyText = .ok key) (h : NumberPlace c low high fill shows) :
    NumberPlace c.dict low high (fun v => .object (before ++ (k, fill v) :: after) .closed)
      -- of two entries with one key the later counts
      fun d i => (∀ m ∈ after, m.1.keyText ≠ .ok key) → ∃ a, d.get? key = some a ∧ shows a i

namespace NumberPlace

variable {α : Type} {c : Codec α} {low high : Int} {fill : Node → Node} {shows : α → Int → Prop}
  {levels : Nat} {n : Numeral} {i : Int}

theorem nested (h : NumberPlace c low high fill shows) (v : Node) : (fill v).Nested := by
  cases h with
  | number hpart hc hat => exact hat.nested v
  | part hpart hat h => exact hat.nested _
  | _ => trivial

theorem bounds (h : NumberPlace c low high fill shows) :
    Int64.minValue.toInt ≤ low ∧ high < UInt64.size := by
  induction h with
  | number hpart hc hat => exact hc.bounds
  | voter before after hk => exact NumberCodec.accountId.bounds
  | vote before after hk => exact NumberCodec.int32.bounds
  | part hpart hat h ih => exact ih
  | item before after h ih => exact ih
  | entry before after hk h ih => exact ih

/-- What is read has the number that stands at the place. -/
theorem shows_of_read (h : NumberPlace c low high fill shows) {a : α}
    (hread : c.read levels (fill (.number n)) = .ok a) :
    ∃ i, n.integer? = some i ∧ low ≤ i ∧ i ≤ high ∧ shows a i := by
  induction h generalizing levels with
  | number hpart hc hat =>
    obtain ⟨s, y, hs, hhas⟩ := hat.of_read hpart.orderly hpart.holds hread
    exact hpart.fills.value_of_read hc.exact hs hhas
  | voter before after hk => exact Approval.id_of_read hk hread
  | vote before after hk => exact Approval.value_of_read hk hread
  | @part _ _ _ _ _ _ _ _ fill _ _ hpart hat h ih =>
    obtain ⟨s, y, hs, hhas⟩ := hat.of_read hpart.orderly hpart.holds hread
    have hnull : fill (.number n) ≠ .null := by
      intro heq
      have hnested := h.nested (.number n)
      rw [heq] at hnested
      exact hnested
    obtain ⟨b, hb, hx⟩ := hpart.fills.of_read hnull hs hhas
    obtain ⟨i, hi, hlow, hhigh, hshows⟩ := ih hb
    exact ⟨i, hi, hlow, hhigh, b, hx, hshows⟩
  | item before after h ih =>
    obtain ⟨b, hb, hplace⟩ := Codec.list_at hread
    obtain ⟨i, hi, hlow, hhigh, hshows⟩ := ih hb
    exact ⟨i, hi, hlow, hhigh, b, hplace, hshows⟩
  | entry before after hk h ih =>
    obtain ⟨b, hb, hget⟩ := Codec.dict_at hk hread
    obtain ⟨i, hi, hlow, hhigh, hshows⟩ := ih hb
    exact ⟨i, hi, hlow, hhigh, fun hlast => ⟨b, hget hlast, hshows⟩⟩

/-- Where some value can be read, a number in the range can be. -/
theorem serves (h : NumberPlace c low high fill shows) (hi : n.integer? = some i)
    (hlow : low ≤ i) (hhigh : i ≤ high) (v : Node) :
    Serves (c.read levels (fill v)) (c.read levels (fill (.number n))) := by
  induction h generalizing levels with
  | number hpart hc hat =>
    exact hat.serves hpart.orderly hpart.holds.mem
      fun _ => hpart.fills.takes hc.exact hi hlow hhigh _
  | voter before after hk => exact Approval.serves_id hk hi hlow hhigh
  | vote before after hk => exact Approval.serves_value hk hi hlow hhigh
  | part hpart hat h ih =>
    -- what stands at the place of the part is a list or an object, so it is offered to the codec
    obtain ⟨_, _, hmade⟩ := hpart.fills.made
    exact hat.serves hpart.orderly hpart.holds.mem
      (hmade.serves_read (h.nested v) (h.nested _) (ih hlow hhigh))
  | item before after h ih => exact Codec.serves_item (ih hlow hhigh) before after
  | entry before after hk h ih =>
    exact Codec.serves_entry (ih hlow hhigh) _ before after .closed

open Json.Document in
/-- A number in a document is exact or the document is rejected. Take a place of a number in a
document that can be read with some value there, and the same document with any token of a number
there, however long. It can be read if and only if the token is nothing but digits, perhaps behind a
minus sign that does not make it a negative zero, and stands for a number in the range of the place.
What is read has this very number at the place. -/
theorem decode_exact (h : NumberPlace c low high fill shows) {v : Node} {text text' : String}
    {a : α} (hdocument : Spells (fill v) text) (hread : decode c text = .ok a) {n : Numeral}
    {token : List Char} (htoken : n.Spells token) (hdocument' : Spells (fill (.number n)) text') :
    ((∃ b, decode c text' = .ok b) ↔ ∃ i, Numeral.Exact token i ∧ low ≤ i ∧ i ≤ high) ∧
    ∀ b, decode c text' = .ok b →
      ∃ i, Numeral.Exact token i ∧ low ≤ i ∧ i ≤ high ∧ shows b i := by
  obtain ⟨hmin, hmax⟩ := h.bounds
  have hshows : ∀ b, decode c text' = .ok b →
      ∃ i, Numeral.Exact token i ∧ low ≤ i ∧ i ≤ high ∧ shows b i := by
    intro b hb
    rw [hdocument'.decode] at hb
    obtain ⟨i, hi, hlow, hhigh, hshows⟩ := h.shows_of_read hb
    exact ⟨i, ((Numeral.integer?_eq_some htoken).1 hi).1, hlow, hhigh, hshows⟩
  refine ⟨⟨?_, ?_⟩, hshows⟩
  · intro hdecode
    obtain ⟨b, hb⟩ := hdecode
    obtain ⟨i, hexact, hlow, hhigh, -⟩ := hshows b hb
    exact ⟨i, hexact, hlow, hhigh⟩
  · intro hnumber
    obtain ⟨i, hexact, hlow, hhigh⟩ := hnumber
    have hi := (Numeral.integer?_eq_some htoken).2 ⟨hexact, by omega, by omega⟩
    rw [hdocument.decode] at hread
    rw [hdocument'.decode]
    exact h.serves hi hlow hhigh v ⟨a, hread⟩

open Json.Document in
/-- The greatest number that an account may have is read in a vote, and the number after it is
not. -/
theorem decode_exact_voter :
    let detail (id : Json.Value) : Json.Value :=
      .object [("labels", .object [("l", .object
        [("all", .list [.object [("value", .int (-1)), ("_account_id", id)]])])])]
    let change : Change := { Change.blank with
      labels := .ofList [("l", ⟨[⟨.blank, some (-1)⟩], 0, [], none, none, none⟩)] }
    decode Change.codec (detail .null).toText = .ok change ∧
    (∃ c label vote id, decode Change.codec (detail (.int 18446744073709551615)).toText = .ok c ∧
      c.labels.get? "l" = some label ∧ label.all[0]? = some vote ∧ vote.account.id = some id ∧
      id.val.toNat = 18446744073709551615) ∧
    ¬∃ c, decode Change.codec (detail (.int 18446744073709551616)).toText = .ok c := by
  intro detail change
  have hkey (s : String) : (Node.text (.written s)).keyText = .ok s := Json.Quoted.text_written s
  have hplace := NumberPlace.part .labels (.member [] [] (hkey "labels"))
    (.entry [] [] (hkey "l") (.part .votes (.member [] [] (hkey "all"))
      (.item [] [] (.voter [(.text (.written "value"), .number (.ofInt (-1)))] []
        (hkey "_account_id")))))
  have hnull : Spells (detail .null).node (detail .null).toText := spells_toText _
  have hread : decode Change.codec (detail .null).toText = .ok change := hnull.decode.trans rfl
  have hexact (i : Int) := hplace.decode_exact hnull hread (Numeral.spells_ofInt i)
    (spells_toText (detail (.int i)))
  have hvalue {i j : Int} (h : Numeral.Exact (Numeral.ofInt i).chars j) (hlow : 0 ≤ j)
      (hhigh : j ≤ UInt64.size - 1) : (Numeral.ofInt i).integer? = some j :=
    (Numeral.integer?_eq_some (Numeral.spells_ofInt i)).2
      ⟨h, Int.le_trans (by decide) hlow, by omega⟩
  refine ⟨hread, ?_, ?_⟩
  · have hgreatest : (Numeral.ofInt 18446744073709551615).integer? = some 18446744073709551615 :=
      Numeral.integer?_ofInt (by decide) (by decide)
    have htoken := ((Numeral.integer?_eq_some (Numeral.spells_ofInt _)).1 hgreatest).1
    obtain ⟨c, hc⟩ := (hexact _).1.2 ⟨_, htoken, by decide, by decide⟩
    obtain ⟨i, hi, hlow, hhigh, labels, rfl, hshows⟩ := (hexact _).2 c hc
    obtain ⟨label, hlabel, votes, rfl, vote, hvote, id, hid, hnumber⟩ := hshows nofun
    rw [hvalue hi hlow hhigh, Option.some.injEq] at hgreatest
    exact ⟨c, label, vote, id, hc, hlabel, hvote, hid, by omega⟩
  · intro hdecode
    obtain ⟨i, hi, hlow, hhigh⟩ := (hexact _).1.1 hdecode
    have hnone : (Numeral.ofInt 18446744073709551616).integer? = none := by decide +kernel
    rw [hvalue hi hlow hhigh] at hnone
    cases hnone

end NumberPlace

end ChangeDesk
