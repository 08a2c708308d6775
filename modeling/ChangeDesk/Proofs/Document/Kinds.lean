import ChangeDesk.Change
import ChangeDesk.Json.Document
import ChangeDesk.Proofs.Json.Lawful
import ChangeDesk.ServerConfig

/-!
# The kinds of documents

The types whose values come as documents, and the proof that the codec of each is lawful. Two of
them do not read as they write: a vote keeps the members that are its account's for a second
reading, and the permitted values of a label are first read as any value.

Main statement: the codec of every kind is lawful (`DocumentKind.codec_lawful`).
-/

namespace ChangeDesk

open Json (Record)
open Json.Codec (text_lawful boolean_lawful uint64_lawful uint32_lawful int32_lawful)

/-! ### Accounts and what is made of them -/

theorem ChangeNumber.codec_lawful : ChangeNumber.codec.Lawful 0 := uint64_lawful.imap fun _ => rfl

theorem AccountId.codec_lawful : AccountId.codec.Lawful 0 := uint64_lawful.imap fun _ => rfl

theorem RevisionId.codec_lawful : RevisionId.codec.Lawful 0 := text_lawful.imap fun _ => rfl

theorem Account.restores {levels : Nat} (hl : 0 < levels) (a : Account) :
    Record.Restores levels a Account.blank Account.record.fields :=
  .optional AccountId.codec_lawful hl rfl <| .optional text_lawful hl rfl <|
    .optional text_lawful hl rfl <| .optional text_lawful hl rfl .done

theorem Account.codec_lawful : Account.codec.Lawful 1 :=
  Record.codec_lawful (by decide) fun _ hl a => Account.restores hl a

theorem WebLink.codec_lawful : WebLink.codec.Lawful 1 :=
  Record.codec_lawful (by decide) fun _ hl _ =>
    .needed text_lawful hl <| .needed text_lawful hl <| .optional text_lawful hl rfl .done

theorem Parent.codec_lawful : Parent.codec.Lawful 1 :=
  Record.codec_lawful (by decide) fun _ hl _ =>
    .needed text_lawful hl <| .plain text_lawful hl .done

theorem Commit.codec_lawful : Commit.codec.Lawful 3 := by
  refine Record.codec_lawful (by decide) fun levels hl c => ?_
  have h₀ : 0 < levels := by omega
  have h₁ : 1 < levels := by omega
  exact .optional text_lawful h₀ rfl <| .optional Account.codec_lawful h₁ rfl <|
    .optional Account.codec_lawful h₁ rfl <| .optional Parent.codec_lawful.list hl rfl <|
    .plain text_lawful h₀ <| .optional text_lawful h₀ rfl <|
    .nonempty WebLink.codec_lawful hl rfl .done

theorem KeyStatus.codec_lawful : KeyStatus.codec.Lawful 0 := by
  refine Json.Codec.enumeration_lawful fun a => ?_
  cases a <;> rfl

theorem SigningKey.codec_lawful : SigningKey.codec.Lawful 2 := by
  refine Record.codec_lawful (by decide) fun levels hl k => ?_
  have h₀ : 0 < levels := by omega
  exact .optional text_lawful h₀ rfl <| .optional text_lawful h₀ rfl <|
    .optional KeyStatus.codec_lawful h₀ rfl <| .plain text_lawful.list hl .done

theorem Certificate.codec_lawful : Certificate.codec.Lawful 3 := by
  refine Record.codec_lawful (by decide) fun levels hl c => ?_
  have h₀ : 0 < levels := by omega
  exact .plain text_lawful h₀ <| .plain SigningKey.codec_lawful hl .done

theorem Revision.codec_lawful : Revision.codec.Lawful 4 := by
  refine Record.codec_lawful (by decide) fun levels hl r => ?_
  have h₀ : 0 < levels := by omega
  have h₁ : 1 < levels := by omega
  exact .plain uint32_lawful h₀ <| .optional Account.codec_lawful h₁ rfl <|
    .optional Commit.codec_lawful hl rfl <| .optional Certificate.codec_lawful hl rfl <|
    .optional text_lawful h₀ rfl .done

theorem Action.codec_lawful : Action.codec.Lawful 1 :=
  Record.codec_lawful (by decide) fun _ hl _ =>
    .optional boolean_lawful hl rfl <| .optional text_lawful hl rfl <|
    .optional text_lawful hl rfl <| .optional text_lawful hl rfl .done

theorem Requirement.codec_lawful : Requirement.codec.Lawful 1 :=
  Record.codec_lawful (by decide) fun _ hl _ =>
    .plain text_lawful hl <| .plain text_lawful hl <| .optional text_lawful hl rfl .done

/-! ### Votes -/

namespace Approval

open Json (Node Value)

theorem check_text (levels : Nat) (s : String) : (Value.text s).node.check levels = .ok () := by
  have htext := Json.Quoted.text_written s
  show (do let _ ← (Json.Quoted.written s).text) = Except.ok ()
  rw [Json.Quoted.written, htext]
  rfl

theorem check_accountId (levels : Nat) (id : AccountId) :
    (AccountId.codec.write id).node.check levels = .ok () := by
  have hn := id.val.toNat_lt_size
  have hmin : Int64.minValue.toInt = -9223372036854775808 := rfl
  have hwhole : (Json.Numeral.ofInt id.val.toNat).integer? = some (id.val.toNat : Int) :=
    Json.Numeral.integer?_ofInt (by omega) (by omega)
  have hrange : (Json.Numeral.ofInt id.val.toNat).inRange = true := by
    rw [Json.Numeral.inRange, hwhole]
    rfl
  exact if_pos hrange

/-- The members of an account are sound, and none of them is the value of a vote. -/
theorem account_member {a : Account} {m : String × Value}
    (hm : m ∈ Account.record.members a) :
    m.1 ≠ valueField.name ∧ ∀ levels, m.2.node.check levels = .ok () := by
  obtain ⟨f, hf, hw⟩ := List.mem_filterMap.1 hm
  obtain ⟨v, hv, rfl⟩ := Option.map_eq_some_iff.1 hw
  have hnames : ∀ f ∈ Account.record.fields, f.name ≠ valueField.name := by decide
  refine ⟨hnames f hf, ?_⟩
  simp only [Account.record, List.mem_cons, List.not_mem_nil, or_false] at hf
  rcases hf with rfl | rfl | rfl | rfl
  all_goals
    obtain ⟨x, -, rfl⟩ := Option.map_eq_some_iff.1 hv
    intro levels
  · exact check_accountId levels x
  all_goals exact check_text levels x

/-- Sound members that are not the value are kept. -/
theorem readMembers_kept {levels : Nat} (value : Option (Option Int32)) {ms : List (String × Value)}
    (hms : ∀ m ∈ ms, m.1 ≠ valueField.name ∧ ∀ levels, m.2.node.check levels = .ok ())
    (kept rest : List (Node × Node)) :
    readMembers levels value kept (Value.memberNodes ms ++ rest) =
      readMembers levels value ((Value.memberNodes ms).reverse ++ kept) rest := by
  induction ms generalizing kept with
  | nil => rfl
  | cons m ms ih =>
    obtain ⟨k, v⟩ := m
    obtain ⟨hname, hcheck⟩ := hms (k, v) (List.mem_cons_self ..)
    have hkey : (Node.text (.written k)).keyText = .ok k := Json.Quoted.text_written k
    have hother : (k == valueField.name) = false := beq_eq_false_iff_ne.2 hname
    rw [Value.memberNodes, List.cons_append, readMembers, hkey]
    show (if k == valueField.name then _ else do
      v.node.check levels
      readMembers levels value ((Node.text (.written k), v.node) :: kept)
        (Value.memberNodes ms ++ rest)) = _
    rw [hother, if_neg Bool.false_ne_true, hcheck levels]
    show readMembers levels value _ (Value.memberNodes ms ++ rest) = _
    rw [ih (fun m hm => hms m (List.mem_cons_of_mem _ hm)), List.reverse_cons, List.append_assoc,
      List.singleton_append]

theorem readMembers_value {levels : Nat} (hl : 0 < levels) (v : Option Int32)
    (kept : List (Node × Node)) :
    readMembers levels none kept
        (Value.memberNodes ((valueField.write v).toList.map fun w => (valueField.name, w))) =
      .ok (v.map some, kept.reverse) := by
  cases v with
  | none => rfl
  | some v =>
    have hkey : (Node.text (.written valueField.name)).keyText = .ok valueField.name :=
      Json.Quoted.text_written valueField.name
    have hread : valueField.read levels (Json.Codec.int32.write v).node =
        .ok fun _ => some v := int32_lawful.map_read_write hl (fun i _ => some i) v
    show readMembers levels none kept
      [(.text (.written valueField.name), (Json.Codec.int32.write v).node)] = _
    rw [readMembers, hkey]
    simp only [bind, Except.bind, beq_self_eq_true, if_true, Option.isSome_none,
      Bool.false_eq_true, if_false, hread]
    rfl

theorem codec_lawful : codec.Lawful 1 where
  read_write := by
    intro levels hl a
    obtain ⟨account, value⟩ := a
    -- the value stands last, so all that is kept before it is the account
    have hmembers : readMembers (levels - 1) none []
        (Value.memberNodes (Account.record.members account ++
          (valueField.write value).toList.map fun w => (valueField.name, w))) =
        .ok (value.map some, Value.memberNodes (Account.record.members account)) := by
      rw [Value.memberNodes_append, readMembers_kept none fun m hm => account_member hm,
        readMembers_value (by omega), List.append_nil, List.reverse_reverse]
    have hlevels : 0 < levels - 1 := by omega
    have hunseen : ∀ f ∈ Account.record.fields, f.name ∉ ([] : List String) :=
      fun f _ => List.not_mem_nil
    have hrestores := Account.restores hlevels account
    obtain ⟨seen, haccount, -, -⟩ := hrestores.readMembers
      (t := Account.record) (fun f hf => Record.find?_name (by decide) hf) hunseen (by decide)
    show read levels (.object (Value.memberNodes (Account.record.members account ++
      (valueField.write value).toList.map fun w => (valueField.name, w))) .closed) = .ok ⟨account, value⟩
    rw [read, Node.enter_of_lt hl, Json.ok_bind, hmembers, Json.ok_bind]
    show (Account.record.readMembers (levels - 1) [] Account.blank _ >>= _) = _
    rw [Record.members, haccount, Json.ok_bind]
    cases value with
    | none => rfl
    | some v => rfl
  write_ne_null := by
    intro a h
    cases h

end Approval

/-! ### Labels -/

namespace Label

open Json (Node Value)

theorem checkItems_texts (levels : Nat) (ss : List String) :
    Node.checkItems levels (Value.nodes (ss.map Json.Codec.text.write)) = .ok () := by
  induction ss with
  | nil => rfl
  | cons s ss ih =>
    rw [List.map_cons, Value.nodes, Node.checkItems]
    show (do
      (Value.text s).node.check levels
      Node.checkItems levels (Value.nodes (ss.map Json.Codec.text.write))) = _
    rw [Approval.check_text, ih]
    rfl

theorem valuesCodec_lawful : valuesCodec.Lawful 1 where
  read_write := by
    intro levels hl ss
    have hcheck : Node.check levels
        (.list (Value.nodes (ss.map Json.Codec.text.write)) .closed) = .ok () := by
      rw [Node.check, Node.enter_of_lt hl, Json.ok_bind, checkItems_texts]
      rfl
    have hread : (Value.nodes (ss.map Json.Codec.text.write)).mapM (Json.Codec.text.read 0) =
        .ok ss := text_lawful.mapM_read_write 1 (by decide) ss
    show readValues levels (.list (Value.nodes (ss.map Json.Codec.text.write)) .closed) = .ok ss
    rw [readValues, hcheck, Json.ok_bind, hread]
    rfl
  write_ne_null := by
    intro ss h
    cases h

theorem codec_lawful : codec.Lawful 3 := by
  refine Record.codec_lawful (by decide) fun levels hl l => ?_
  have h₀ : 0 < levels := by omega
  have h₁ : 1 < levels := by omega
  exact .plain Approval.codec_lawful.list hl <| .plain int32_lawful h₀ <|
    .plain valuesCodec_lawful h₁ <| .optional Account.codec_lawful h₁ rfl <|
    .optional Account.codec_lawful h₁ rfl <| .optional boolean_lawful h₀ rfl .done

end Label

/-! ### Changes and configurations -/

theorem ChangeStatus.codec_lawful : ChangeStatus.codec.Lawful 0 := by
  refine Json.Codec.enumeration_lawful fun a => ?_
  cases a <;> rfl

theorem SubmitType.codec_lawful : SubmitType.codec.Lawful 0 := by
  refine Json.Codec.enumeration_lawful fun a => ?_
  cases a <;> rfl

theorem Change.codec_lawful : Change.codec.Lawful 6 := by
  refine Record.codec_lawful (by decide) fun levels hl c => ?_
  have h₀ : 0 < levels := by omega
  have h₁ : 1 < levels := by omega
  have h₂ : 2 < levels := by omega
  have h₄ : 4 < levels := by omega
  exact .optional ChangeNumber.codec_lawful h₀ rfl <| .optional text_lawful h₀ rfl <|
    .optional text_lawful h₀ rfl <| .optional text_lawful h₀ rfl <|
    .plain ChangeStatus.codec_lawful h₀ <| .plain Account.codec_lawful h₁ <|
    .plain Revision.codec_lawful.dict hl <| .optional RevisionId.codec_lawful h₀ rfl <|
    .plain Label.codec_lawful.dict h₄ <| .plain Action.codec_lawful.dict h₂ <|
    .optional text_lawful h₀ rfl <| .optional text_lawful.list h₁ rfl <|
    .optional Account.codec_lawful h₁ rfl <| .plain boolean_lawful h₀ <|
    .plain boolean_lawful h₀ <| .optional SubmitType.codec_lawful h₀ rfl <|
    .plain Requirement.codec_lawful.list h₂ <| .optional ChangeNumber.codec_lawful h₀ rfl <|
    .optional uint32_lawful h₀ rfl .done

theorem ServerConfig.codec_lawful : ServerConfig.codec.Lawful 2 := by
  have hreceive : ReceiveConfig.record.codec.Lawful 1 :=
    Record.codec_lawful (by decide) fun _ hl _ => .optional boolean_lawful hl rfl .done
  have hhost : HostConfig.record.codec.Lawful 1 :=
    Record.codec_lawful (by decide) fun _ hl _ => .optional text_lawful hl rfl .done
  have hreview : ReviewConfig.record.codec.Lawful 1 :=
    Record.codec_lawful (by decide) fun _ hl _ => .optional boolean_lawful hl rfl .done
  exact Record.codec_lawful (by decide) fun _ hl _ =>
    .optional hreceive hl rfl <| .optional hhost hl rfl <| .optional hreview hl rfl .done

/-! ### All kinds of documents -/

/-- The types whose values come as documents. -/
inductive DocumentKind where
  | change
  | account
  | configuration
  | revision
  | commit
  | parent
  | certificate
  | signingKey
  | label
  | approval
  | webLink
  | action
  | requirement
  | text
  | texts
deriving DecidableEq, Repr

namespace DocumentKind

/-- What a document of the kind holds. -/
def Content : DocumentKind → Type
  | .change => Change
  | .account => Account
  | .configuration => ServerConfig
  | .revision => Revision
  | .commit => Commit
  | .parent => Parent
  | .certificate => Certificate
  | .signingKey => SigningKey
  | .label => Label
  | .approval => Approval
  | .webLink => WebLink
  | .action => Action
  | .requirement => Requirement
  | .text => String
  | .texts => List String

def codec : (k : DocumentKind) → Json.Codec k.Content
  | .change => Change.codec
  | .account => Account.codec
  | .configuration => ServerConfig.codec
  | .revision => Revision.codec
  | .commit => Commit.codec
  | .parent => Parent.codec
  | .certificate => Certificate.codec
  | .signingKey => SigningKey.codec
  | .label => Label.codec
  | .approval => Approval.codec
  | .webLink => WebLink.codec
  | .action => Action.codec
  | .requirement => Requirement.codec
  | .text => Json.Codec.text
  | .texts => Json.Codec.text.list

/-- No document nests deeper than a change. -/
theorem codec_lawful (k : DocumentKind) : ∃ depth ≤ 6, k.codec.Lawful depth := by
  cases k with
  | change => exact ⟨6, by decide, Change.codec_lawful⟩
  | account => exact ⟨1, by decide, Account.codec_lawful⟩
  | configuration => exact ⟨2, by decide, ServerConfig.codec_lawful⟩
  | revision => exact ⟨4, by decide, Revision.codec_lawful⟩
  | commit => exact ⟨3, by decide, Commit.codec_lawful⟩
  | parent => exact ⟨1, by decide, Parent.codec_lawful⟩
  | certificate => exact ⟨3, by decide, Certificate.codec_lawful⟩
  | signingKey => exact ⟨2, by decide, SigningKey.codec_lawful⟩
  | label => exact ⟨3, by decide, Label.codec_lawful⟩
  | approval => exact ⟨1, by decide, Approval.codec_lawful⟩
  | webLink => exact ⟨1, by decide, WebLink.codec_lawful⟩
  | action => exact ⟨1, by decide, Action.codec_lawful⟩
  | requirement => exact ⟨1, by decide, Requirement.codec_lawful⟩
  | text => exact ⟨0, by decide, Json.Codec.text_lawful⟩
  | texts => exact ⟨1, by decide, Json.Codec.text_lawful.list⟩

end DocumentKind

end ChangeDesk
