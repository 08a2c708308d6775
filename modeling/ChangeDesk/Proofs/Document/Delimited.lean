import Mathlib.Data.List.TakeWhile
import ChangeDesk.Proofs.Document.Variant

/-!
# Documents show where they end

A document is an object, a list or a quoted text, so it is over with the bracket, the brace or the
quote that closes it, and not before. A document that was cut off is no document, although nearly
all of its members could have been left out; and nothing but space may follow a whole one.

Main statement: what can be read of a document that was cut off or continued
(`DocumentKind.decode_delimited`).
-/

namespace ChangeDesk

namespace Json

namespace Node

variable {v w : Node} {cs ds r s sp : List Char}

/-- The characters with which an enclosed value begins. -/
def Opener (c : Char) : Prop := c = '"' ∨ c = '[' ∨ c = '\x7b'

instance : DecidablePred Opener := fun _ => inferInstanceAs (Decidable (_ ∨ _ ∨ _))

theorem not_opener_of_numeral {c : Char} (h : c = '-' ∨ c.isDigit = true) : ¬ Opener c := by
  rintro (rfl | rfl | rfl) <;> exact absurd h (by decide)

theorem Spells.enclosed_iff (h : Spells v cs) :
    v.Enclosed ↔ ∃ c r, cs = c :: r ∧ Opener c := by
  constructor
  · intro hv
    cases h with
    | null => exact hv.elim
    | bool b => exact hv.elim
    | number h => exact hv.elim
    | text h => exact ⟨_, _, rfl, .inl rfl⟩
    | emptyList hs => exact ⟨_, _, rfl, .inr (.inl rfl)⟩
    | list h => exact ⟨_, _, rfl, .inr (.inl rfl)⟩
    | emptyObject hs => exact ⟨_, _, rfl, .inr (.inr rfl)⟩
    | object h => exact ⟨_, _, rfl, .inr (.inr rfl)⟩
  · rintro ⟨c, r, hcs, hc⟩
    cases h with
    | null =>
      obtain ⟨rfl, -⟩ := List.cons.inj hcs
      exact absurd hc (by decide)
    | bool b =>
      cases b with
      | true =>
        obtain ⟨rfl, -⟩ := List.cons.inj hcs
        exact absurd hc (by decide)
      | false =>
        obtain ⟨rfl, -⟩ := List.cons.inj hcs
        exact absurd hc (by decide)
    | number h =>
      obtain ⟨d, ds, hds, hd⟩ := h.cons
      rw [hds] at hcs
      obtain ⟨rfl, -⟩ := List.cons.inj hcs
      exact absurd hc (not_opener_of_numeral hd)
    | _ => trivial

/-- Of two values that are spelled at the beginning of one text, the first of which is enclosed,
both are the same, and so is what follows them. -/
theorem Spells.unique (hv : Spells v cs) (henclosed : v.Enclosed) (hs : Space sp)
    (hw : Spells w ds) (h : cs ++ r = sp ++ (ds ++ s)) : v = w ∧ r = s := by
  obtain ⟨c, cs', rfl, hc⟩ := hv.cons
  obtain ⟨d, ds', rfl, hd⟩ := hw.cons
  have hskip := congrArg skipSpace h
  rw [skipSpace_append hs, List.cons_append, List.cons_append, skipSpace_cons hc.plain.1,
    skipSpace_cons hd.plain.1] at hskip
  obtain ⟨rfl, -⟩ := List.cons.inj hskip
  -- they begin with one character, so both are enclosed and reading stops where each of them ends
  obtain ⟨e, es, hes, he⟩ := hv.enclosed_iff.1 henclosed
  obtain ⟨rfl, -⟩ := List.cons.inj hes
  have hread := read_enclosed space_nil hv henclosed r
  rw [List.nil_append, h, read_enclosed hs hw (hw.enclosed_iff.2 ⟨_, _, rfl, he⟩)] at hread
  exact ⟨(Prod.mk.inj hread).1.symm, (Prod.mk.inj hread).2.symm⟩

end Node

namespace Document

variable {α : Type} {c : Codec α} {depth : Nat} {a b : α} {p : String} {q r : List Char}

/-- What the codec writes shows where it ends. -/
def Encloses (c : Codec α) : Prop := ∀ a, (c.write a).node.Enclosed

/-! ### What follows a document -/

theorem skipSpace_eq_nil : skipSpace r = [] ↔ Space r := List.dropWhile_eq_nil_iff

/-- Whatever follows a document does not change what is read of it, and only space may. -/
theorem decode_append (hc : c.Lawful depth) (hd : depth < levels) (henclosed : Encloses c) (a : α)
    (s : String) :
    decode c (encode c a ++ s) =
      if (skipSpace s.toList).isEmpty then .ok a else .error .trailingText := by
  have htext : (encode c a).toList = (c.write a).compact := String.toList_ofList
  have hnode := Node.read_enclosed space_nil (c.write a).spells_compact (henclosed a) s.toList
  rw [List.nil_append] at hnode
  rw [decode, String.toList_append, htext, payload_compact, readWhole, hnode]
  dsimp only
  rw [hc.read_write _ hd]
  rfl

theorem decode_append_ok (hc : c.Lawful depth) (hd : depth < levels) (henclosed : Encloses c)
    {s : String} : decode c (encode c a ++ s) = .ok b ↔ b = a ∧ Space s.toList := by
  rw [decode_append hc hd henclosed, ← skipSpace_eq_nil, ← List.isEmpty_iff]
  cases (skipSpace s.toList).isEmpty with
  | true => simp [eq_comm]
  | false => simp

/-! ### Documents that are cut off -/

/-- What begins a document is read from its first character on. -/
theorem payload_cut (h : (c.write a).compact = p.toList ++ q) : payload p.toList = p.toList := by
  obtain ⟨d, ds, hds, hd⟩ := (c.write a).compact_cons
  cases hp : p.toList with
  | nil => rfl
  | cons e es =>
    rw [hp, hds, List.cons_append] at h
    obtain ⟨rfl, -⟩ := List.cons.inj h
    exact payload_opens hd es

/-- What can be read of a beginning of a document is the whole document. -/
theorem eq_nil_of_decode_cut (hstrict : c.Strict) (henclosed : Encloses c)
    (h : (c.write a).compact = p.toList ++ q) (hread : decode c p = .ok b) : q = [] := by
  obtain ⟨v, hv⟩ := spells_of_decode hstrict hread
  rw [Spells, payload_cut h] at hv
  generalize p.toList = cs at h hv
  cases hv with
  | @intro _ sp ds sp' hs hspells hs' =>
    -- the whole document begins with the value that was read, so it is that value and ends with it
    have hwhole : (c.write a).compact ++ [] = sp ++ (ds ++ (sp' ++ q)) := by
      rw [List.append_nil, h, List.append_assoc, List.append_assoc]
    obtain ⟨-, hrest⟩ := (c.write a).spells_compact.unique (henclosed a) hs hspells hwhole
    exact (List.append_eq_nil_iff.1 hrest.symm).2

theorem decode_cut (hstrict : c.Strict) (henclosed : Encloses c) {rest : String}
    (h : p ++ rest = encode c a) (hrest : rest ≠ "") : ∃ fault, decode c p = .error fault := by
  cases hread : decode c p with
  | error fault => exact ⟨fault, rfl⟩
  | ok b =>
    have hwhole : (c.write a).compact = p.toList ++ rest.toList := by
      rw [← String.toList_append, h]
      exact String.toList_ofList.symm
    have hnil := eq_nil_of_decode_cut hstrict henclosed hwhole hread
    exact absurd (String.toList_eq_nil_iff.1 hnil) hrest

end Document

end Json

namespace DocumentKind

open Json.Document

theorem documentCodec (k : DocumentKind) : DocumentCodec k.codec := by
  cases k with
  | change => exact .record .change
  | account => exact .record .account
  | configuration => exact .record .configuration
  | revision => exact .record .revision
  | commit => exact .record .commit
  | parent => exact .record .parent
  | certificate => exact .record .certificate
  | signingKey => exact .record .signingKey
  | label => exact .record .label
  | approval => exact .vote
  | webLink => exact .record .webLink
  | action => exact .record .action
  | requirement => exact .record .requirement
  | text => exact .text
  | texts => exact .list .text

/-- Documents are objects, but for texts and lists of texts. -/
theorem encloses (k : DocumentKind) : Encloses k.codec := by
  intro a
  cases k <;> trivial

/-- What can be read of a document that was cut off or continued, for values of any kind. No text
that a document only begins with can be read, wherever it was cut off. What follows a document keeps
it from being read unless it is space, and then the value is the one that was written. -/
theorem decode_delimited (k : DocumentKind) (a : k.Content) :
    (∀ p rest, p ++ rest = encode k.codec a → rest ≠ "" →
      ∃ fault, decode k.codec p = .error fault) ∧
    ∀ s b, decode k.codec (encode k.codec a ++ s) = .ok b ↔ b = a ∧ Json.Space s.toList := by
  obtain ⟨depth, hdepth, hc⟩ := k.codec_lawful
  have hd : depth < levels := Nat.lt_of_le_of_lt hdepth (by decide)
  constructor
  · intro p rest hcut hrest
    exact decode_cut k.documentCodec.strict k.encloses hcut hrest
  · intro s b
    exact decode_append_ok hc hd k.encloses

/-- A vote that is cut off after a member, though it could do without the others; and one that is
followed by space, and by another. -/
example :
    let vote : Approval := ⟨.withId ⟨7⟩, some 2⟩
    let document := encode Approval.codec vote
    document = "\x7b\"_account_id\":7,\"value\":2\x7d" ∧
      decode Approval.codec "\x7b\"_account_id\":7" = .error .endInObject ∧
      decode Approval.codec (document ++ "\r\n") = .ok vote ∧
      decode Approval.codec (document ++ document) = .error .trailingText := by
  decide +kernel

end DocumentKind

end ChangeDesk
