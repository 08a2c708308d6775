import ChangeDesk.Identifier
import ChangeDesk.Proofs.Text.Number

/-!
# The texts of identifiers

Changes and accounts are numbered in the same texts: a number of 64 bits in decimal, with blanks
around it. Any other text has one reason why it is none.

Main statement: which texts are read, as what, and why the others are not
(`Identifier.ofText_grammar`).
-/

namespace ChangeDesk

theorem digitsOf_inj {m n : UInt64} : digitsOf m = digitsOf n ↔ m = n := by
  constructor
  · intro h
    have hread := congrArg numberOfText h
    rw [numberOfText_digitsOf, numberOfText_digitsOf] at hread
    exact Except.ok.inj hread
  · rintro rfl
    rfl

theorem ChangeNumber.text_inj {k n : ChangeNumber} : k.text = n.text ↔ k = n := by
  rw [text, text, digitsOf_inj, ChangeNumber.mk.injEq]

theorem AccountId.text_inj {i j : AccountId} : i.text = j.text ↔ i = j := by
  rw [text, text, digitsOf_inj, AccountId.mk.injEq]

namespace Identifier

open Text (Blanks Natural Exceeds)

/-- The text is the number in decimal, with blanks around it. -/
def Spelled (s : String) (n : UInt64) : Prop :=
  ∃ front body back, s.toList = front ++ (body ++ back) ∧ Blanks front ∧ Blanks back ∧
    Natural body n.toNat

/-- After blanks the text begins with digits that are past all numbers of 64 bits. -/
def Overlong (s : String) : Prop :=
  ∃ front body, s.toList = front ++ body ∧ Blanks front ∧ Exceeds (UInt64.size - 1) body

/-- The reason that is told for a text that is no number. -/
structure Reason (s : String) (reason : String) : Prop where
  empty : reason = "cannot parse integer from empty string" ↔ Blanks s.toList
  tooLarge : reason = "number too large to fit in target type" ↔ Overlong s
  invalidDigit : reason = "invalid digit found in string" ↔ ¬ Blanks s.toList ∧ ¬ Overlong s

variable {s : String} {n : UInt64} {fault : Text.NumberFault}

/-! ### Trimming -/

theorem natural_trim_iff {k : Nat} :
    Natural (Text.trim s.toList) k ↔
      ∃ front body back, s.toList = front ++ (body ++ back) ∧ Blanks front ∧ Blanks back ∧
        Natural body k := by
  constructor
  · intro h
    obtain ⟨front, back, hs, hfront, hback⟩ := Text.exists_frame s.toList
    exact ⟨front, _, back, hs, hfront, hback, h⟩
  · rintro ⟨front, body, back, hs, hfront, hback, hnatural⟩
    obtain ⟨sign, ds, rfl, hsign, hds, hvalue⟩ := hnatural
    have hbody : sign ++ ds ≠ [] := List.append_ne_nil_of_right_ne_nil _ hds.1
    have htrim := Text.trim_framed hfront hbody (Text.not_blank_signed hsign hds.2) back
    rw [hs, htrim, Text.trimEnd_blanks hback, List.append_nil]
    exact ⟨sign, ds, rfl, hsign, hds, hvalue⟩

theorem exceeds_trim_iff : Exceeds (UInt64.size - 1) (Text.trim s.toList) ↔ Overlong s := by
  constructor
  · intro h
    obtain ⟨front, back, hs, hfront, -⟩ := Text.exists_frame s.toList
    obtain ⟨sign, ds, rest, htrim, hsign, hds, hpast⟩ := h
    rw [htrim, List.append_assoc, List.append_assoc] at hs
    exact ⟨front, _, hs, hfront, sign, ds, rest ++ back, rfl, hsign, hds, hpast⟩
  · rintro ⟨front, body, hs, hfront, sign, ds, rest, rfl, hsign, hds, hpast⟩
    have hbody : sign ++ ds ≠ [] := List.append_ne_nil_of_right_ne_nil _ hds.1
    -- what follows the digits is trimmed at its end, and still follows them
    have htrim := Text.trim_framed hfront hbody (Text.not_blank_signed hsign hds.2) rest
    rw [List.append_assoc, List.append_assoc] at htrim
    rw [hs, htrim]
    exact ⟨sign, ds, _, rfl, hsign, hds, hpast⟩

/-! ### Numbers of 64 bits -/

theorem readNatural_of_ok :
    numberOfText s = .ok n ↔
      Text.readNatural (UInt64.size - 1) (Text.trim s.toList) = .ok n.toNat := by
  rw [numberOfText]
  cases hread : Text.readNatural (UInt64.size - 1) (Text.trim s.toList) with
  | error fault =>
    constructor
    · intro h
      cases h
    · intro h
      cases h
  | ok k =>
    have hk : k < UInt64.size := Nat.lt_of_le_pred (by decide) (Text.readNatural_ok.1 hread).2
    show Except.ok (UInt64.ofNat k) = .ok n ↔ Except.ok k = .ok n.toNat
    rw [Except.ok.injEq, Except.ok.injEq, ← UInt64.toNat_inj, UInt64.toNat_ofNat_of_lt' hk]

theorem readNatural_of_error (h : numberOfText s = .error fault) :
    Text.readNatural (UInt64.size - 1) (Text.trim s.toList) = .error fault := by
  rw [numberOfText] at h
  cases hread : Text.readNatural (UInt64.size - 1) (Text.trim s.toList) with
  | ok k =>
    rw [hread] at h
    cases h
  | error fault' =>
    rw [hread] at h
    cases h
    rfl

theorem numberOfText_ok : numberOfText s = .ok n ↔ Spelled s n := by
  have hbound : n.toNat ≤ UInt64.size - 1 := Nat.le_sub_one_of_lt n.toNat_lt_size
  rw [readNatural_of_ok, Text.readNatural_ok, natural_trim_iff, and_iff_left hbound, Spelled]

theorem reason_of_error (h : numberOfText s = .error fault) : Reason s fault.message := by
  have hread := readNatural_of_error h
  have hempty : fault = .empty ↔ Blanks s.toList := by
    have hnil := @Text.readNatural_empty (UInt64.size - 1) (Text.trim s.toList)
    rw [hread, Except.error.injEq, Text.trim_eq_nil_iff] at hnil
    exact hnil
  have htooLarge : fault = .tooLarge ↔ Overlong s := by
    rw [← exceeds_trim_iff, ← Text.readNatural_tooLarge, hread, Except.error.injEq]
  constructor
  · rw [← hempty]
    cases fault <;> decide
  · rw [← htooLarge]
    cases fault <;> decide
  · rw [← hempty, ← htooLarge]
    cases fault <;> decide

/-! ### Identifiers -/

theorem changeNumber_ok {k : ChangeNumber} : ChangeNumber.ofText s = .ok k ↔ Spelled s k.val := by
  obtain ⟨n⟩ := k
  rw [← numberOfText_ok, ChangeNumber.ofText]
  cases numberOfText s with
  | error fault =>
    constructor
    · intro h
      cases h
    · intro h
      cases h
  | ok m => rw [Except.ok.injEq, Except.ok.injEq, ChangeNumber.mk.injEq]

theorem accountId_ok {id : AccountId} : AccountId.ofText s = .ok id ↔ Spelled s id.val := by
  obtain ⟨n⟩ := id
  rw [← numberOfText_ok, AccountId.ofText]
  cases numberOfText s with
  | error fault =>
    constructor
    · intro h
      cases h
    · intro h
      cases h
  | ok m => rw [Except.ok.injEq, Except.ok.injEq, AccountId.mk.injEq]

/-- A text is read as the number of a change, and as that of an account, exactly if it is a number
of 64 bits in decimal with blanks around it, and then as this number. Of any other text it is told
that nothing is left of it without its blanks, or that the digits it begins with are past all these
numbers, or else that a digit is invalid. The digits of a number are read as the number. -/
theorem ofText_grammar (s : String) :
    (∀ k : ChangeNumber, ChangeNumber.ofText s = .ok k ↔ Spelled s k.val) ∧
    (∀ id : AccountId, AccountId.ofText s = .ok id ↔ Spelled s id.val) ∧
    ((¬ ∃ n, Spelled s n) → ∃ changeFault accountFault reason,
      ChangeNumber.ofText s = .error changeFault ∧
      AccountId.ofText s = .error accountFault ∧
      changeFault.message = "invalid change number: " ++ s ++ ": " ++ reason ∧
      accountFault.message = "invalid account id: " ++ s ++ ": " ++ reason ∧
      Reason s reason) ∧
    (∀ k : ChangeNumber, ChangeNumber.ofText k.text = .ok k) ∧
    ∀ id : AccountId, AccountId.ofText id.text = .ok id := by
  refine ⟨fun k => changeNumber_ok, fun id => accountId_ok, ?_, ChangeNumber.ofText_text,
    AccountId.ofText_text⟩
  intro hnot
  cases h : numberOfText s with
  | ok n => exact absurd ⟨n, numberOfText_ok.1 h⟩ hnot
  | error fault =>
    have hchange : ChangeNumber.ofText s = .error (.changeNumber s fault) := by
      rw [ChangeNumber.ofText, h]
    have haccount : AccountId.ofText s = .error (.accountId s fault) := by
      rw [AccountId.ofText, h]
    exact ⟨_, _, fault.message, hchange, haccount, rfl, rfl, reason_of_error h⟩

/-- Zeros in front count for nothing, and after the digit that is too much the text is not read on. -/
example : ChangeNumber.ofText " +0018446744073709551615\u3000" = .ok ⟨18446744073709551615⟩ ∧
    ChangeNumber.ofText "18446744073709551616x" =
      .error (.changeNumber "18446744073709551616x" .tooLarge) ∧
    ChangeNumber.ofText "1844674407370955161x" =
      .error (.changeNumber "1844674407370955161x" .invalidDigit) := by
  decide +kernel

end Identifier

end ChangeDesk
