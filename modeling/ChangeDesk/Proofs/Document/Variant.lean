import Mathlib.Logic.Relation
import ChangeDesk.Proofs.Document.Buffered
import ChangeDesk.Proofs.Document.RoundTrip
import ChangeDesk.Proofs.Json.Reading

/-!
# Variants of documents

A document may be edited in ways that do not count: in an object that is read as a record or as a
vote the members may change places, a sound member with an unknown name may be added, and so may
null for a name that may be missing; in an object that is read as a dictionary members with
different names may change places. The edit may be made at any depth.

Main statement: a document that can be read is read as the same value after any number of such
edits, however the edited value is spelled (`DocumentCodec.decode_variants`).
-/

namespace ChangeDesk

open Json (Node Codec Record Keeps MembersEdit Distinct bind_ok seq_ok)

/-- An edit at some depth of a value that is read with a codec where `levels` may be entered. -/
inductive Variant : {α : Type} → Codec α → Nat → Node → Node → Prop where
  | members {ρ : Type} {t : Record ρ} {levels : Nat} {ms ms' : List (Node × Node)}
    (ht : DocumentRecord t) (h : MembersEdit t.Knows t.MayLack (levels - 1) ms ms') :
    Variant t.codec levels (.object ms .closed) (.object ms' .closed)
  | vote {levels : Nat} {ms ms' : List (Node × Node)}
    (h : MembersEdit Approval.Knows Approval.MayLack (levels - 1) ms ms') :
    Variant Approval.codec levels (.object ms .closed) (.object ms' .closed)
  | entries {α : Type} {c : Codec α} {levels : Nat} {ms ms' : List (Node × Node)}
    (hd : Distinct ms) (h : ms.Perm ms') :
    Variant c.dict levels (.object ms .closed) (.object ms' .closed)
  | values {levels : Nat} {ms ms' : List (Node × Node)} (hd : Distinct ms) (h : ms.Perm ms') :
    Variant Label.valuesCodec levels (.object ms .closed) (.object ms' .closed)
  | field {ρ α γ : Type} {t : Record ρ} {f : Json.Field ρ} {c : Codec α} {set : γ → ρ → ρ}
    {levels : Nat} {k v v' : Node} (before after : List (Node × Node)) (ht : DocumentRecord t)
    (hf : f ∈ t.fields) (hc : f.Made c set) (hk : k.keyText = .ok f.name)
    (h : Variant c (levels - 1) v v') :
    Variant t.codec levels (.object (before ++ (k, v) :: after) .closed)
      (.object (before ++ (k, v') :: after) .closed)
  | position {ρ α γ : Type} {t : Record ρ} {f : Json.Field ρ} {c : Codec α} {set : γ → ρ → ρ}
    {levels : Nat} {v v' : Node} {fields fs : List (Json.Field ρ)} (before after : List Node)
    (ht : DocumentRecord t) (hf : t.fields = fields ++ f :: fs) (hc : f.Made c set)
    (hplace : fields.length = before.length) (h : Variant c (levels - 1) v v') :
    Variant t.codec levels (.list (before ++ v :: after) .closed)
      (.list (before ++ v' :: after) .closed)
  | item {α : Type} {c : Codec α} {levels : Nat} {v v' : Node} (before after : List Node)
    (h : Variant c (levels - 1) v v') :
    Variant c.list levels (.list (before ++ v :: after) .closed)
      (.list (before ++ v' :: after) .closed)
  | entry {α : Type} {c : Codec α} {levels : Nat} {k v v' : Node}
    (before after : List (Node × Node)) (h : Variant c (levels - 1) v v') :
    Variant c.dict levels (.object (before ++ (k, v) :: after) .closed)
      (.object (before ++ (k, v') :: after) .closed)

namespace Variant

variable {α : Type} {c : Codec α} {levels : Nat} {v v' : Node}

theorem nested (h : Variant c levels v v') : v.Nested ∧ v'.Nested := by
  cases h <;> exact ⟨trivial, trivial⟩

theorem keeps (h : Variant c levels v v') : Keeps (c.read levels v) (c.read levels v') := by
  induction h with
  | members ht h => exact ht.orderly.keeps_edit h .closed
  | vote h => exact Approval.keeps_edit h .closed
  | entries hd h => exact Json.Codec.keeps_dict_perm hd h .closed
  | values hd h => exact Label.keeps_values_perm hd h .closed
  | field before after ht hf hc hk h ih =>
    obtain ⟨hv, hv'⟩ := h.nested
    exact ht.orderly.keeps_field hf hk (hc.keeps_read hv hv' ih) before after .closed
  | position before after ht hf hc hplace h ih =>
    obtain ⟨hv, hv'⟩ := h.nested
    exact Record.keeps_position (hc.keeps_read hv hv' ih) hf hplace .closed
  | item before after h ih => exact Json.Codec.keeps_list ih before after .closed
  | entry before after h ih => exact Json.Codec.keeps_entry ih _ before after .closed

end Variant

/-! ### Documents -/

namespace Json.Document

/-- The text is a document that holds the value. -/
def Spells (v : Node) (s : String) : Prop := Node.Padded v (payload s.toList)

variable {α : Type} {c : Codec α} {v : Node} {s : String} {a : α}

theorem spells_of_read {r : List Char} (h : Node.read (payload s.toList) = (v, r))
    (hv : v.skip = .ok ()) (hr : skipSpace r = []) : Spells v s := by
  obtain ⟨sp, ds, hs, hspells, hpayload⟩ := Node.spells_of_read h hv
  obtain ⟨sp', hs', hrest⟩ := exists_space r
  rw [hr, List.append_nil] at hrest
  subst hrest
  rw [Spells, hpayload]
  exact .intro hs hspells hs'

/-- What is written is a document that holds the value that was written. -/
theorem spells_toText (v : Value) : Spells v.node v.toText := by
  have hpayload := payload_compact v []
  rw [List.append_nil] at hpayload
  rw [Spells, Value.toText, String.toList_ofList, hpayload]
  exact v.spells_compact.padded

/-- A document is read as its value is. -/
theorem Spells.decode (h : Spells v s) : decode c s = c.read levels v := by
  rw [Document.decode]
  rw [Spells] at h
  generalize payload s.toList = cs at h ⊢
  cases h with
  | @intro _ sp ds sp' hs hspells hs' =>
    rw [readWhole, Node.read_spelled hs hspells hs'.delimits]
    show (c.read levels v >>= fun a => if (skipSpace sp').isEmpty then pure a else _) = _
    rw [skipSpace_space hs']
    exact bind_pure _

theorem spells_of_decode (hc : c.Strict) (h : Document.decode c s = .ok a) : ∃ v, Spells v s := by
  rcases hread : Node.read (payload s.toList) with ⟨v, r⟩
  rw [Document.decode, readWhole, hread] at h
  obtain ⟨b, hb, hrest⟩ := bind_ok.1 h
  split at hrest
  · rename_i hend
    exact ⟨v, spells_of_read hread (hc hb) (List.isEmpty_iff.1 hend)⟩
  · cases hrest

end Json.Document

open Json.Document in
/-- What can be read is spelled, and its variants are read as the same value. -/
theorem DocumentCodec.decode_variants {α : Type} {c : Codec α} (hc : DocumentCodec c) {s : String}
    {a : α} (h : decode c s = .ok a) :
    (∃ v, Spells v s) ∧
    ∀ v v' s', Spells v s → Relation.ReflTransGen (Variant c levels) v v' → Spells v' s' →
      decode c s' = .ok a := by
  refine ⟨spells_of_decode hc.strict h, fun v v' s' hs hedits hs' => ?_⟩
  rw [hs.decode] at h
  rw [hs'.decode]
  clear hs hs'
  induction hedits with
  | refl => exact h
  | tail _ hedit ih => exact hedit.keeps a ih

open Json.Document in
/-- In a label the members of the vote change places, and two are added. -/
theorem DocumentCodec.decode_variants_label :
    let value : String × Json.Value := ("value", .int 1)
    let email : String × Json.Value := ("email", .text "e")
    let date : String × Json.Value := ("date", .list [])
    let name : String × Json.Value := ("name", .null)
    let label (ms : List (String × Json.Value)) : Json.Value :=
      .object [("all", .list [.object ms])]
    let v := label [value, email]
    let v' := label [email, date, name, value]
    let a : Label := ⟨[⟨.withEmail "e", some 1⟩], 0, [], none, none, none⟩
    DocumentCodec Label.codec ∧ decode Label.codec v.toText = .ok a ∧ Spells v.node v.toText ∧
    Relation.ReflTransGen (Variant Label.codec levels) v.node v'.node ∧
    Spells v'.node v'.toText ∧ decode Label.codec v'.toText = .ok a := by
  intro value email date name label v v' a
  have hc : DocumentCodec Label.codec := .record .label
  have hs : Spells v.node v.toText := spells_toText v
  have hs' : Spells v'.node v'.toText := spells_toText v'
  have hread : decode Label.codec v.toText = .ok a := hs.decode.trans rfl
  have hvote {ms ms' : List (String × Json.Value)}
      (h : MembersEdit Approval.Knows Approval.MayLack 125 (Json.Value.memberNodes ms)
        (Json.Value.memberNodes ms')) :
      Variant Label.codec levels (label ms).node (label ms').node :=
    .field [] [] .label (List.mem_cons_self ..) (.plain ..) rfl (.item [] [] (.vote h))
  have hdate : ¬Approval.Knows "date" := by
    simp [Approval.Knows, Record.Knows, Account.record, Approval.valueField, Json.Field.optional]
  have hname : Approval.MayLack "name" :=
    .inr ⟨_, _, _, _, List.mem_cons_of_mem _ (List.mem_cons_of_mem _ (List.mem_cons_self ..))⟩
  have hkey (s : String) : (Node.text (.written s)).keyText = .ok s := Json.Quoted.text_written s
  have hsound : (Node.list [] .closed).Sound := .list fun v hv => absurd hv List.not_mem_nil
  have hdepth : (Node.list [] .closed).height < 125 := by decide
  have habsent : ∀ m ∈ Json.Value.memberNodes ([email, date] ++ [value]),
      m.1.keyText ≠ .ok "name" := by
    simp [email, date, value, hkey, Json.Value.memberNodes]
  have hswap : Variant Label.codec levels v.node (label [email, value]).node :=
    hvote (.permuted (List.Perm.swap ..))
  have hadd : Variant Label.codec levels (label [email, value]).node
      (label [email, date, value]).node :=
    hvote (.unknown (Json.Value.memberNodes [email]) (Json.Value.memberNodes [value])
      (hkey "date") hdate hsound hdepth)
  have hnull : Variant Label.codec levels (label [email, date, value]).node v'.node :=
    hvote (.unset (Json.Value.memberNodes [email, date]) (Json.Value.memberNodes [value])
      (hkey "name") hname habsent)
  have hedits := ((Relation.ReflTransGen.single hswap).tail hadd).tail hnull
  exact ⟨hc, hread, hs, hedits, hs', (hc.decode_variants hread).2 _ _ _ hs hedits hs'⟩

end ChangeDesk
