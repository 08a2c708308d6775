import ChangeDesk.Proofs.Document.Records

/-!
# What is buffered

Two types are not read straight from the text. Of a vote all members but the value are checked as
any values and kept, and the account is read from those that are kept. The permitted values of a
label are checked as any value and then taken as a list or as an object.

Main statements: the edits of its members that a vote does not notice (`Approval.keeps_edit`), and
the order of the permitted values in an object (`Label.keeps_values_perm`).
-/

namespace ChangeDesk

open Json (Node Record Keeps MembersEdit Distinct bind_ok seq_ok raise_ok)

/-! ### Sound members -/

variable {levels : Nat} {ms ms' : List (Node × Node)}

theorem Json.MembersEdit.check {known mayLack : String → Prop}
    (h : MembersEdit known mayLack levels ms ms') (hms : ∀ m ∈ ms, m.2.check levels = .ok ()) :
    ∀ m ∈ ms', m.2.check levels = .ok () := by
  cases h with
  | permuted h => exact fun m hm => hms m (h.mem_iff.2 hm)
  | unknown before after hk hname hv hdepth =>
    rw [List.forall_mem_append] at hms ⊢
    exact ⟨hms.1, List.forall_mem_cons.2 ⟨hv.check hdepth, hms.2⟩⟩
  | unset before after hk hname habsent =>
    rw [List.forall_mem_append] at hms ⊢
    exact ⟨hms.1, List.forall_mem_cons.2 ⟨rfl, hms.2⟩⟩

/-! ### Votes -/

namespace Approval

/-- The member that is not the account's, as a record of its own. -/
def valueRecord : Record (Option Int32) := ⟨"ApprovalInfo", none, [valueField]⟩

theorem valueRecord_orderly : valueRecord.Orderly where
  names := by decide
  commutes := List.pairwise_singleton ..
  unset := by
    intro f hf levels s hs
    obtain rfl := List.mem_singleton.1 hf
    cases hs
    rfl

/-- Whether a member is left to the account. -/
def isKept (m : Node × Node) : Bool :=
  match m.1.keyText with
  | .ok name => name != valueField.name
  | .error _ => true

/-- The names that are seen when a value is read. -/
def seen (value : Option (Option Int32)) : List String := value.toList.map fun _ => valueField.name

theorem filter_kept {k v : Node} {name : String} (hk : k.keyText = .ok name)
    (hname : name ≠ valueField.name) :
    ((k, v) :: ms).filter isKept = (k, v) :: ms.filter isKept :=
  List.filter_cons_of_pos (by rw [isKept, hk]; exact bne_iff_ne.2 hname)

theorem filter_value {k v : Node} (hk : k.keyText = .ok valueField.name) :
    ((k, v) :: ms).filter isKept = ms.filter isKept :=
  List.filter_cons_of_neg (by rw [isKept, hk]; exact fun h => bne_iff_ne.1 h rfl)

theorem field?_value : valueRecord.field? valueField.name = some valueField := rfl

theorem not_knows {name : String} (h : name ≠ valueField.name) : ¬valueRecord.Knows name := by
  rintro ⟨f, hf, rfl⟩
  exact h (congrArg Json.Field.name (List.mem_singleton.1 hf))

/-- The value is read as a record of its own reads it; the other members are checked and kept. -/
theorem valueRecord_of_readMembers {value value' : Option (Option Int32)}
    {kept kept' : List (Node × Node)}
    (h : readMembers levels value kept ms = .ok (value', kept')) :
    (∃ names, valueRecord.readMembers levels (seen value) value.join ms =
      .ok (names, value'.join)) ∧
    (∀ m ∈ ms.filter isKept, m.2.check levels = .ok ()) ∧
    kept' = kept.reverse ++ ms.filter isKept := by
  induction ms generalizing value kept with
  | nil =>
    cases h
    exact ⟨⟨_, rfl⟩, nofun, (List.append_nil _).symm⟩
  | cons m ms ih =>
    obtain ⟨k, v⟩ := m
    obtain ⟨name, hk, h⟩ := bind_ok.1 h
    split at h
    · rename_i hname
      obtain rfl := beq_iff_eq.1 hname
      cases value with
      | some x => cases h
      | none =>
        obtain ⟨s, hs, h⟩ := bind_ok.1 h
        obtain ⟨⟨names, hrest⟩, hcheck, hkept⟩ := ih h
        have hstep : valueRecord.Step levels ([], none) (k, v) ([valueField.name], s none) :=
          .taken hk field?_value List.not_mem_nil hs
        rw [filter_value hk]
        exact ⟨⟨names, Record.readMembers_cons.2 ⟨_, hstep, hrest⟩⟩, hcheck, hkept⟩
    · rename_i hname
      have hother : name ≠ valueField.name := fun heq => hname (beq_iff_eq.2 heq)
      obtain ⟨hv, h⟩ := seq_ok.1 h
      obtain ⟨⟨names, hrest⟩, hcheck, hkept⟩ := ih h
      have hstep : valueRecord.Step levels (seen value, value.join) (k, v)
          (seen value, value.join) :=
        .passed hk (Record.field?_of_not_knows (not_knows hother)) (Node.skip_of_check v levels hv)
      rw [filter_kept hk hother]
      refine ⟨⟨names, Record.readMembers_cons.2 ⟨_, hstep, hrest⟩⟩, ?_, ?_⟩
      · exact List.forall_mem_cons.2 ⟨hv, hcheck⟩
      · rw [hkept, List.reverse_cons, List.append_assoc, List.singleton_append]

theorem readMembers_of_valueRecord (value : Option (Option Int32)) (kept : List (Node × Node))
    {p : List String × Option Int32}
    (h : valueRecord.readMembers levels (seen value) value.join ms = .ok p)
    (hcheck : ∀ m ∈ ms.filter isKept, m.2.check levels = .ok ()) :
    ∃ value', readMembers levels value kept ms =
      .ok (value', kept.reverse ++ ms.filter isKept) ∧ value'.join = p.2 := by
  induction ms generalizing value kept with
  | nil =>
    cases h
    exact ⟨value, by rw [List.filter_nil, List.append_nil]; rfl, rfl⟩
  | cons m ms ih =>
    obtain ⟨q, hstep, hrest⟩ := Record.readMembers_cons.1 h
    cases hstep with
    | @passed _ k v name hk hnone hv =>
      have hother : name ≠ valueField.name := by
        rintro rfl
        cases hnone
      rw [filter_kept hk hother] at hcheck ⊢
      obtain ⟨hw, hcheck⟩ := List.forall_mem_cons.1 hcheck
      obtain ⟨value', hread, hvalue⟩ := ih value ((k, v) :: kept) hrest hcheck
      refine ⟨value', bind_ok.2 ⟨name, hk, ?_⟩, hvalue⟩
      rw [if_neg fun heq => hother (beq_iff_eq.1 heq)]
      rw [List.reverse_cons, List.append_assoc, List.singleton_append] at hread
      exact seq_ok.2 ⟨hw, hread⟩
    | @taken _ _ k v f s hk hf hnew hs =>
      obtain rfl := List.mem_singleton.1 (Record.mem_of_field? hf)
      rw [filter_value hk] at hcheck ⊢
      cases value with
      | some x => exact absurd (List.mem_singleton.2 rfl) hnew
      | none =>
        obtain ⟨value', hread, hvalue⟩ := ih (some (s none)) kept hrest hcheck
        refine ⟨value', bind_ok.2 ⟨_, hk, ?_⟩, hvalue⟩
        rw [if_pos (beq_self_eq_true _)]
        exact bind_ok.2 ⟨s, hs, hread⟩

/-- A vote is read from an object as two records are: one that has its value only, from all members,
and the account, from those that are kept and pass the check. -/
theorem object_ok {ending : Json.ObjectEnd} {a : Approval} :
    codec.read levels (.object ms ending) = .ok a ↔
      1 < levels ∧ ending = .closed ∧
      (∃ names, valueRecord.readMembers (levels - 1) [] none ms = .ok (names, a.value)) ∧
      (∀ m ∈ ms.filter isKept, m.2.check (levels - 1) = .ok ()) ∧
      ∃ names, Account.record.readMembers (levels - 1) [] .blank (ms.filter isKept) =
        .ok (names, a.account) := by
  constructor
  · intro hread
    obtain ⟨inner, henter, hread⟩ := bind_ok.1 hread
    obtain ⟨⟨value, kept⟩, hmembers, hread⟩ := bind_ok.1 hread
    obtain ⟨hend, hread⟩ := seq_ok.1 hread
    obtain ⟨⟨names, account⟩, haccount, ha⟩ := bind_ok.1 hread
    cases ha
    obtain ⟨hlevels, rfl⟩ := Node.enter_ok.1 henter
    obtain ⟨hvalue, hcheck, rfl⟩ := valueRecord_of_readMembers hmembers
    exact ⟨hlevels, Json.ObjectEnd.raise_ok.1 hend, hvalue, hcheck, names, haccount⟩
  · rintro ⟨hlevels, rfl, ⟨names, hvalue⟩, hcheck, _, haccount⟩
    have henter := Node.enter_ok.2 ⟨hlevels, rfl⟩
    obtain ⟨value, hmembers, hjoin⟩ := readMembers_of_valueRecord none [] hvalue hcheck
    refine bind_ok.2 ⟨_, henter, bind_ok.2 ⟨_, hmembers, seq_ok.2 ⟨rfl, ?_⟩⟩⟩
    refine bind_ok.2 ⟨_, haccount, ?_⟩
    rw [hjoin]
    rfl

/-! ### Edits that a vote does not notice -/

/-- The names that a vote knows: that of its value and those of its account. -/
def Knows (name : String) : Prop := name = valueField.name ∨ Account.record.Knows name

/-- The names that may be missing in a vote. -/
def MayLack (name : String) : Prop := name = valueField.name ∨ Account.record.MayLack name

theorem edit_value (hl : 0 < levels) (h : MembersEdit Knows MayLack levels ms ms') :
    MembersEdit valueRecord.Knows valueRecord.MayLack levels ms ms' := by
  cases h with
  | permuted h => exact .permuted h
  | unknown before after hk hname hv hdepth =>
    exact .unknown before after hk (not_knows fun heq => hname (.inl heq)) hv hdepth
  | @unset before after _ name hk hname habsent =>
    -- to the value null for a part of the account is one more unknown member
    by_cases heq : name = valueField.name
    · subst heq
      exact .unset before after hk ⟨_, _, _, _, List.mem_singleton.2 rfl⟩ habsent
    · exact .unknown before after hk (not_knows heq) .null hl

theorem edit_kept (h : MembersEdit Knows MayLack levels ms ms') :
    ms.filter isKept = ms'.filter isKept ∨
      MembersEdit Account.record.Knows Account.record.MayLack levels (ms.filter isKept)
        (ms'.filter isKept) := by
  cases h with
  | permuted h => exact .inr (.permuted (h.filter _))
  | @unknown before after k v name hk hname hv hdepth =>
    rw [List.filter_append, List.filter_append, filter_kept hk fun heq => hname (.inl heq)]
    exact .inr (.unknown _ _ hk (fun hknown => hname (.inr hknown)) hv hdepth)
  | @unset before after k name hk hname habsent =>
    rw [List.filter_append, List.filter_append]
    by_cases heq : name = valueField.name
    · subst heq
      rw [filter_value hk]
      exact .inl rfl
    · rw [filter_kept hk heq]
      refine .inr (.unset _ _ hk (hname.resolve_left heq) fun m hm => habsent m ?_)
      rw [← List.filter_append] at hm
      exact List.mem_of_mem_filter hm

theorem kept_edit (h : MembersEdit Knows MayLack levels ms ms')
    (hcheck : ∀ m ∈ ms.filter isKept, m.2.check levels = .ok ()) {p : List String × Account}
    (hread : Account.record.readMembers levels [] .blank (ms.filter isKept) = .ok p) :
    (∀ m ∈ ms'.filter isKept, m.2.check levels = .ok ()) ∧
    ∃ names, Account.record.readMembers levels [] .blank (ms'.filter isKept) =
      .ok (names, p.2) := by
  rcases edit_kept h with heq | hedit
  · rw [heq] at hcheck hread
    exact ⟨hcheck, p.1, hread⟩
  · obtain ⟨names, hread', -⟩ := DocumentRecord.account.orderly.readMembers_edit hedit hread
    exact ⟨hedit.check hcheck, names, hread'⟩

/-- An edit of the members of a vote does not count. -/
theorem keeps_edit (h : MembersEdit Knows MayLack (levels - 1) ms ms') (ending : Json.ObjectEnd) :
    Keeps (codec.read levels (.object ms ending)) (codec.read levels (.object ms' ending)) := by
  intro a hread
  obtain ⟨hlevels, hend, ⟨names, hvalue⟩, hcheck, _, haccount⟩ := object_ok.1 hread
  obtain ⟨names', hvalue', -⟩ :=
    valueRecord_orderly.readMembers_edit (edit_value (by omega) h) hvalue
  obtain ⟨hcheck', haccount'⟩ := kept_edit h hcheck haccount
  exact object_ok.2 ⟨hlevels, hend, ⟨names', hvalue'⟩, hcheck', haccount'⟩

end Approval

/-! ### Permitted values -/

namespace Label

theorem readValues_object {ending : Json.ObjectEnd} {values : List String} :
    readValues levels (.object ms ending) = .ok values ↔
      (Node.object ms ending).check levels = .ok () ∧ ∃ es, ms.mapM readTextEntry = .ok es ∧
        sortScores ((Dict.ofList es).keys.map Text.trimmed) = values := by
  rw [readValues, seq_ok]
  refine and_congr_right fun _ => ?_
  cases ms.mapM readTextEntry with
  | error e => exact ⟨nofun, nofun⟩
  | ok es =>
    constructor
    · intro h
      cases h
      exact ⟨es, rfl, rfl⟩
    · rintro ⟨es, h, rfl⟩
      cases h
      rfl

theorem check_perm (h : ms.Perm ms') {ending : Json.ObjectEnd}
    (hcheck : (Node.object ms ending).check levels = .ok ()) :
    (Node.object ms' ending).check levels = .ok () := by
  obtain ⟨inner, henter, hcheck⟩ := bind_ok.1 hcheck
  obtain ⟨hms, hend⟩ := seq_ok.1 hcheck
  refine bind_ok.2 ⟨inner, henter, seq_ok.2 ⟨?_, hend⟩⟩
  rw [Node.checkMembers_ok] at hms ⊢
  exact fun m hm => hms m (h.mem_iff.2 hm)

/-- The order of permitted values with different names does not count. -/
theorem keeps_values_perm (hd : Distinct ms) (h : ms.Perm ms') (ending : Json.ObjectEnd) :
    Keeps (valuesCodec.read levels (.object ms ending))
      (valuesCodec.read levels (.object ms' ending)) := by
  intro values hread
  obtain ⟨hcheck, es, hes, rfl⟩ := readValues_object.1 hread
  obtain ⟨es', hes', hperm⟩ := Json.mapM_perm h hes
  refine readValues_object.2 ⟨check_perm h hcheck, es', hes', ?_⟩
  rw [Dict.ofList, Dict.ofList, Json.foldl_insert_perm hperm (hd.keys hes)]

end Label

end ChangeDesk
