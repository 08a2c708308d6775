import ChangeDesk.Json.Codec
import ChangeDesk.Text.Blank
import ChangeDesk.Text.Decimal
import ChangeDesk.Text.Offset

/-!
# Identifiers

Changes and accounts have numbers of 64 bits, revisions have texts. A number is read from text
after trimming, with at most one plus sign in front of its digits.

Main statement: every number is read back from its digits (`ChangeNumber.ofText_text`,
`AccountId.ofText_text`).
-/

namespace ChangeDesk

/-- The number of a change. -/
structure ChangeNumber where
  val : UInt64
deriving DecidableEq, Repr, Inhabited

/-- The number of an account; those known by their email only have none. -/
structure AccountId where
  val : UInt64
deriving DecidableEq, Repr, Inhabited

/-- The key of a revision in its change, usually the hash of its commit. -/
structure RevisionId where
  text : String
deriving DecidableEq, Repr, Inhabited

/-- Why a text is no identifier. -/
inductive IdentifierFault where
  | changeNumber (text : String) (fault : Text.NumberFault)
  | accountId (text : String) (fault : Text.NumberFault)
  | emptyRevision
  | revisionCharacter (text : String)
deriving DecidableEq, Repr

/-- The wording of a fault. -/
def IdentifierFault.message : IdentifierFault → String
  | .changeNumber text fault => s!"invalid change number: {text}: {fault.message}"
  | .accountId text fault => s!"invalid account id: {text}: {fault.message}"
  | .emptyRevision => "invalid revision id: empty revision id"
  | .revisionCharacter text => s!"invalid revision id: unexpected character in '{text}'"

/-- The number of 64 bits that a text names. -/
def numberOfText (s : String) : Except Text.NumberFault UInt64 :=
  UInt64.ofNat <$> Text.readNatural (UInt64.size - 1) (Text.trim s.toList)

/-- The digits of a number of 64 bits. -/
def digitsOf (n : UInt64) : String := String.ofList (Nat.toDigits 10 n.toNat)

/-- A number is read back from its digits. -/
theorem numberOfText_digitsOf (n : UInt64) : numberOfText (digitsOf n) = .ok n := by
  have hn : n.toNat ≤ UInt64.size - 1 := Nat.le_sub_one_of_lt n.toNat_lt_size
  have hd : ∀ c ∈ Nat.toDigits 10 n.toNat, c.isDigit = true :=
    fun c => Nat.isDigit_of_mem_toDigits (by decide) (by decide)
  have ht : Text.trim (Nat.toDigits 10 n.toNat) = Nat.toDigits 10 n.toNat := by
    have hall : ∀ cs : List Char, (∀ c ∈ cs, c.isDigit = true) →
        cs.dropWhile Text.isBlank = cs := by
      intro cs h
      cases cs with
      | nil => rfl
      | cons c cs => simp [Text.isBlank_of_isDigit (h c (by simp))]
    refine Text.trim_eq_self (hall _ hd) ?_
    rw [Text.trimEnd, hall _ fun c hc => hd c (List.mem_reverse.1 hc), List.reverse_reverse]
  have hr : Text.readNatural (UInt64.size - 1) (Nat.toDigits 10 n.toNat) = .ok n.toNat := by
    have hne : Nat.toDigits 10 n.toNat ≠ [] := Nat.toDigits_ne_nil
    have hread := Text.readDigits_toDigits hn
    unfold Text.readNatural
    split
    · rename_i h
      exact absurd h hne
    · rename_i h
      have := hd '+' (by simp [h])
      simp at this
    · rename_i h
      have := hd '+' (by simp [h])
      simp at this
    · exact hread
  rw [numberOfText, digitsOf, String.toList_ofList, ht, hr]
  show Except.ok (UInt64.ofNat n.toNat) = Except.ok n
  rw [UInt64.ofNat_toNat]

namespace ChangeNumber

/-- The change number that a text names. -/
def ofText (s : String) : Except IdentifierFault ChangeNumber :=
  match numberOfText s with
  | .ok n => .ok ⟨n⟩
  | .error f => .error (.changeNumber s f)

/-- The digits of the number. -/
def text (n : ChangeNumber) : String := digitsOf n.val

theorem ofText_text (n : ChangeNumber) : ofText n.text = .ok n := by
  rw [ofText, text, numberOfText_digitsOf]

def codec : Json.Codec ChangeNumber := Json.Codec.uint64.imap ChangeNumber.mk ChangeNumber.val

end ChangeNumber

namespace AccountId

/-- The account number that a text names. -/
def ofText (s : String) : Except IdentifierFault AccountId :=
  match numberOfText s with
  | .ok n => .ok ⟨n⟩
  | .error f => .error (.accountId s f)

/-- The digits of the number. -/
def text (n : AccountId) : String := digitsOf n.val

theorem ofText_text (n : AccountId) : ofText n.text = .ok n := by
  rw [ofText, text, numberOfText_digitsOf]

def codec : Json.Codec AccountId := Json.Codec.uint64.imap AccountId.mk AccountId.val

end AccountId

namespace RevisionId

/-- The revision that a text names: it is not empty and holds neither blanks nor slashes. -/
def ofText (s : String) : Except IdentifierFault RevisionId :=
  if s.toList.isEmpty then .error .emptyRevision
  else if s.toList.any fun c => Text.isBlank c || c == '/' then .error (.revisionCharacter s)
  else .ok ⟨s⟩

/-- Where the abbreviated form ends: where the eighth character begins, or with the text. -/
def shortEnd (id : RevisionId) : Nat := Text.startOf id.text 7

/-- The abbreviated form is cut off between two characters. -/
theorem isValid_shortEnd (id : RevisionId) :
    (String.Pos.Raw.mk id.shortEnd).IsValid id.text := Text.isValid_startOf id.text 7

/-- The abbreviated form. -/
def short (id : RevisionId) : String := Text.upTo id.text id.shortEnd id.isValid_shortEnd

theorem toList_short (id : RevisionId) : id.short.toList = id.text.toList.take 7 :=
  Text.toList_upTo id.text 7

def codec : Json.Codec RevisionId := Json.Codec.text.imap RevisionId.mk RevisionId.text

end RevisionId

end ChangeDesk
