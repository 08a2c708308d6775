import ChangeDesk.Change
import ChangeDesk.Proofs.Json.Members
import ChangeDesk.ServerConfig

/-!
# The records of documents

The records that documents are made of, and two facts about all of them: their fields do not get in
each other's way, and what they read can be passed over.

Main statements: the records are orderly (`DocumentRecord.orderly`), and the codecs of all types of
documents are strict (`DocumentCodec.strict`).
-/

namespace ChangeDesk

open Json (Node Codec Record bind_ok seq_ok)
open Json.Codec (text_strict uint64_strict int32_strict enumeration_strict)

/-! ### Fields that do not get in each other's way -/

/-- The records that documents are made of. -/
inductive DocumentRecord : {ρ : Type} → Record ρ → Prop where
  | account : DocumentRecord Account.record
  | webLink : DocumentRecord WebLink.record
  | parent : DocumentRecord Parent.record
  | commit : DocumentRecord Commit.record
  | signingKey : DocumentRecord SigningKey.record
  | certificate : DocumentRecord Certificate.record
  | revision : DocumentRecord Revision.record
  | label : DocumentRecord Label.record
  | receive : DocumentRecord ReceiveConfig.record
  | host : DocumentRecord HostConfig.record
  | review : DocumentRecord ReviewConfig.record
  | configuration : DocumentRecord ServerConfig.record
  | action : DocumentRecord Action.record
  | requirement : DocumentRecord Requirement.record
  | change : DocumentRecord Change.record

variable {ρ : Type} {t : Record ρ}

theorem DocumentRecord.orderly (h : DocumentRecord t) : t.Orderly where
  names := by cases h <;> decide
  commutes := by
    cases h
    all_goals
      repeat' first | exact List.Pairwise.nil | refine List.Pairwise.cons ?_ ?_
      repeat' first | exact List.forall_mem_nil _ | refine List.forall_mem_cons.2 ⟨?_, ?_⟩
    -- two fields set different parts of the record
    all_goals
      refine Json.Field.Made.commutes (by constructor) (by constructor) ?_
      exact fun _ _ _ => rfl
  unset := by
    cases h
    all_goals
      repeat' first | exact List.forall_mem_nil _ | refine List.forall_mem_cons.2 ⟨?_, ?_⟩
    -- null is a fault of a field that may not be unset
    all_goals
      intro levels s hs
      cases hs <;> rfl

/-! ### What is read can be passed over -/

@[simp] theorem ChangeNumber.codec_strict : ChangeNumber.codec.Strict := uint64_strict.imap _ _

@[simp] theorem AccountId.codec_strict : AccountId.codec.Strict := uint64_strict.imap _ _

@[simp] theorem RevisionId.codec_strict : RevisionId.codec.Strict := text_strict.imap _ _

@[simp] theorem Account.codec_strict : Account.codec.Strict :=
  Record.codec_strict (by simp [Account.record])

@[simp] theorem WebLink.codec_strict : WebLink.codec.Strict :=
  Record.codec_strict (by simp [WebLink.record])

@[simp] theorem Parent.codec_strict : Parent.codec.Strict :=
  Record.codec_strict (by simp [Parent.record])

@[simp] theorem Commit.codec_strict : Commit.codec.Strict :=
  Record.codec_strict (by simp [Commit.record])

@[simp] theorem KeyStatus.codec_strict : KeyStatus.codec.Strict := enumeration_strict _

@[simp] theorem SigningKey.codec_strict : SigningKey.codec.Strict :=
  Record.codec_strict (by simp [SigningKey.record])

@[simp] theorem Certificate.codec_strict : Certificate.codec.Strict :=
  Record.codec_strict (by simp [Certificate.record])

@[simp] theorem Revision.codec_strict : Revision.codec.Strict :=
  Record.codec_strict (by simp [Revision.record])

@[simp] theorem Action.codec_strict : Action.codec.Strict :=
  Record.codec_strict (by simp [Action.record])

@[simp] theorem Requirement.codec_strict : Requirement.codec.Strict :=
  Record.codec_strict (by simp [Requirement.record])

theorem Approval.valueField_strict : valueField.Strict := Json.Field.optional_strict int32_strict

theorem Approval.skipMembers_of_readMembers {levels : Nat} {value : Option (Option Int32)}
    {kept ms : List (Node × Node)} {p : Option (Option Int32) × List (Node × Node)}
    (h : readMembers levels value kept ms = .ok p) : Node.skipMembers ms = .ok () := by
  induction ms generalizing value kept with
  | nil => rfl
  | cons m ms ih =>
    obtain ⟨k, v⟩ := m
    obtain ⟨name, hname, h⟩ := bind_ok.1 h
    have hkey := Node.closed_of_keyText hname
    split at h
    · split at h
      · cases h
      · obtain ⟨s, hs, h⟩ := bind_ok.1 h
        exact Node.skipMembers_cons.2 ⟨hkey, valueField_strict hs, ih h⟩
    · obtain ⟨hv, h⟩ := seq_ok.1 h
      exact Node.skipMembers_cons.2 ⟨hkey, Node.skip_of_check v levels hv, ih h⟩

@[simp] theorem Approval.codec_strict : Approval.codec.Strict := by
  intro levels v a h
  cases v with
  | object members ending =>
    obtain ⟨inner, -, h⟩ := bind_ok.1 h
    obtain ⟨p, hp, h⟩ := bind_ok.1 h
    obtain ⟨hend, -⟩ := seq_ok.1 h
    exact Node.skip_object.2 ⟨skipMembers_of_readMembers hp, Json.ObjectEnd.raise_ok.1 hend⟩
  | _ => cases h

@[simp] theorem Label.valuesCodec_strict : Label.valuesCodec.Strict := by
  intro levels v values h
  obtain ⟨hcheck, -⟩ := seq_ok.1 h
  exact Node.skip_of_check v levels hcheck

@[simp] theorem Label.codec_strict : Label.codec.Strict :=
  Record.codec_strict (by simp [Label.record])

@[simp] theorem ChangeStatus.codec_strict : ChangeStatus.codec.Strict := enumeration_strict _

@[simp] theorem SubmitType.codec_strict : SubmitType.codec.Strict := enumeration_strict _

@[simp] theorem Change.codec_strict : Change.codec.Strict :=
  Record.codec_strict (by simp [Change.record])

@[simp] theorem ReceiveConfig.codec_strict : ReceiveConfig.record.codec.Strict :=
  Record.codec_strict (by simp [ReceiveConfig.record])

@[simp] theorem HostConfig.codec_strict : HostConfig.record.codec.Strict :=
  Record.codec_strict (by simp [HostConfig.record])

@[simp] theorem ReviewConfig.codec_strict : ReviewConfig.record.codec.Strict :=
  Record.codec_strict (by simp [ReviewConfig.record])

@[simp] theorem ServerConfig.codec_strict : ServerConfig.codec.Strict :=
  Record.codec_strict (by simp [ServerConfig.record])

theorem DocumentRecord.strict (h : DocumentRecord t) : t.codec.Strict := by
  cases h with
  | account => exact Account.codec_strict
  | webLink => exact WebLink.codec_strict
  | parent => exact Parent.codec_strict
  | commit => exact Commit.codec_strict
  | signingKey => exact SigningKey.codec_strict
  | certificate => exact Certificate.codec_strict
  | revision => exact Revision.codec_strict
  | label => exact Label.codec_strict
  | receive => exact ReceiveConfig.codec_strict
  | host => exact HostConfig.codec_strict
  | review => exact ReviewConfig.codec_strict
  | configuration => exact ServerConfig.codec_strict
  | action => exact Action.codec_strict
  | requirement => exact Requirement.codec_strict
  | change => exact Change.codec_strict

/-- The codecs of what documents are made of. -/
inductive DocumentCodec : {α : Type} → Codec α → Prop where
  | record {ρ : Type} {t : Record ρ} (ht : DocumentRecord t) : DocumentCodec t.codec
  | vote : DocumentCodec Approval.codec
  | changeStatus : DocumentCodec ChangeStatus.codec
  | submitType : DocumentCodec SubmitType.codec
  | keyStatus : DocumentCodec KeyStatus.codec
  | changeNumber : DocumentCodec ChangeNumber.codec
  | accountId : DocumentCodec AccountId.codec
  | revisionId : DocumentCodec RevisionId.codec
  | text : DocumentCodec Codec.text
  | list {α : Type} {c : Codec α} (hc : DocumentCodec c) : DocumentCodec c.list
  | dict {α : Type} {c : Codec α} (hc : DocumentCodec c) : DocumentCodec c.dict

theorem DocumentCodec.strict {α : Type} {c : Codec α} (h : DocumentCodec c) : c.Strict := by
  induction h with
  | record ht => exact ht.strict
  | vote => exact Approval.codec_strict
  | changeStatus => exact ChangeStatus.codec_strict
  | submitType => exact SubmitType.codec_strict
  | keyStatus => exact KeyStatus.codec_strict
  | changeNumber => exact ChangeNumber.codec_strict
  | accountId => exact AccountId.codec_strict
  | revisionId => exact RevisionId.codec_strict
  | text => exact text_strict
  | list _ ih => exact ih.list
  | dict _ ih => exact ih.dict

end ChangeDesk
