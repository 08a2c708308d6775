import ChangeDesk.Identifier
import ChangeDesk.Proofs.Json.Strict

/-!
# Exact numbers

A token is an exact number if it is nothing but digits, perhaps behind a minus sign, which zero does
not have. A numeral has the value of its token or none at all: its value is never taken from a
double, and it is none that does not fit in 64 bits. A codec of numbers takes the values of its
range as they are, and nothing else.

Main statements: the value of a numeral by its token (`Numeral.integer?_eq_some`), and that the
codecs of numbers are exact (`NumberCodec.exact`).
-/

namespace ChangeDesk

namespace Json

namespace Numeral

/-- A token that stands for a whole number, and the number. -/
inductive Exact : List Char → Int → Prop where
  | natural {ds : List Char} (h : Whole ds) : Exact ds (Nat.ofDigitChars 10 ds 0 : Nat)
  | negative {ds : List Char} (h : Whole ds) (hne : ds ≠ ['0']) :
    Exact ('-' :: ds) (-(Nat.ofDigitChars 10 ds 0 : Nat))

variable {n m : Numeral} {cs ds : List Char} {i : Int}

theorem Spells.unique (h : Spells n cs) (h' : Spells m cs) : n = m := by
  have hend : Delimits [] := nofun
  have hread := read_spelled h hend
  rw [read_spelled h' hend] at hread
  exact (Reading.complete.inj hread).1.symm

theorem Whole.pos_iff (h : Whole ds) : 0 < Nat.ofDigitChars 10 ds 0 ↔ ds ≠ ['0'] := by
  constructor
  · rintro hpos rfl
    exact absurd hpos (by decide)
  · intro hne
    obtain ⟨d, ds, rfl, hd, -, hzero⟩ := h.cons
    have hdigit : d ≠ '0' := fun heq => hne (by rw [heq, hzero heq])
    have hle := Text.le_ofDigitChars (10 * 0 + (d.toNat - '0'.toNat)) ds
    have hpos : '0'.toNat < d.toNat := by
      have hge := (Char.isDigit_iff_toNat.1 hd).1
      have hne : d.toNat ≠ '0'.toNat := fun heq => hdigit (Char.toNat_inj.1 heq)
      omega
    rw [Nat.ofDigitChars_cons]
    omega

theorem spells_whole (h : Whole ds) : Spells ⟨false, ds, none, none⟩ ds := by
  have hspells := Spells.positive h .absent .absent
  rwa [List.append_nil, List.append_nil] at hspells

theorem spells_negative (h : Whole ds) : Spells ⟨true, ds, none, none⟩ ('-' :: ds) := by
  have hspells := Spells.negative h .absent .absent
  rwa [List.append_nil, List.append_nil] at hspells

theorem plain_of_integer? {negative : Bool} {fraction : Option (List Char)}
    {exponent : Option (Bool × List Char)}
    (h : (⟨negative, ds, fraction, exponent⟩ : Numeral).integer? = some i) :
    fraction = none ∧ exponent = none := by
  cases fraction with
  | some fs => cases h
  | none =>
    cases exponent with
    | some e => cases h
    | none => exact ⟨rfl, rfl⟩

theorem integer?_whole :
    (⟨false, ds, none, none⟩ : Numeral).integer? = some i ↔
      (Nat.ofDigitChars 10 ds 0 : Nat) = i ∧ i < UInt64.size := by
  rw [integer?]
  dsimp only
  rw [if_neg Bool.false_ne_true]
  split
  · rw [Option.some.injEq]
    omega
  · simp only [reduceCtorEq, false_iff]
    omega

theorem integer?_negative :
    (⟨true, ds, none, none⟩ : Numeral).integer? = some i ↔
      0 < Nat.ofDigitChars 10 ds 0 ∧ -(Nat.ofDigitChars 10 ds 0 : Nat) = i ∧
        Int64.minValue.toInt ≤ i := by
  have hmin : Int64.minValue.toInt = -(UInt64.size / 2 : Nat) := rfl
  rw [integer?, hmin]
  dsimp only
  rw [if_pos rfl]
  split
  · rw [Option.some.injEq]
    omega
  · simp only [reduceCtorEq, false_iff]
    omega

/-- A numeral has a value if its token is exact and the value fits in 64 bits, and no other value
than that. -/
theorem integer?_eq_some (h : Spells n cs) :
    n.integer? = some i ↔ Exact cs i ∧ Int64.minValue.toInt ≤ i ∧ i < UInt64.size := by
  have hmin : Int64.minValue.toInt < 0 := by decide
  have hsize : 0 < UInt64.size := by decide
  constructor
  · intro hvalue
    cases h with
    | positive hw hf he =>
      obtain ⟨rfl, rfl⟩ := plain_of_integer? hvalue
      obtain ⟨rfl, hlt⟩ := integer?_whole.1 hvalue
      cases hf
      cases he
      rw [List.append_nil, List.append_nil]
      exact ⟨.natural hw, by omega, hlt⟩
    | negative hw hf he =>
      obtain ⟨rfl, rfl⟩ := plain_of_integer? hvalue
      obtain ⟨hpos, rfl, hle⟩ := integer?_negative.1 hvalue
      cases hf
      cases he
      rw [List.append_nil, List.append_nil]
      exact ⟨.negative hw (hw.pos_iff.1 hpos), hle, by omega⟩
  · intro hexact
    obtain ⟨hexact, hle, hlt⟩ := hexact
    -- the token spells a numeral without fraction and exponent, and there is no other that it spells
    cases hexact with
    | natural hw =>
      obtain rfl := h.unique (spells_whole hw)
      exact integer?_whole.2 ⟨rfl, hlt⟩
    | negative hw hne =>
      obtain rfl := h.unique (spells_negative hw)
      exact integer?_negative.2 ⟨hw.pos_iff.2 hne, rfl, hle⟩

end Numeral

/-! ### Codecs of numbers -/

variable {α β : Type}

/-- The codec takes the numbers from `low` to `high` as they are, and no other numeral. -/
structure Codec.Exact (c : Codec α) (low high : Int) (value : α → Int) : Prop where
  value_of_read : ∀ {levels : Nat} {n : Numeral} {a : α}, c.read levels (.number n) = .ok a →
    ∃ i, n.integer? = some i ∧ low ≤ i ∧ i ≤ high ∧ value a = i
  takes : ∀ {n : Numeral} {i : Int}, n.integer? = some i → low ≤ i → i ≤ high →
    ∀ levels, ∃ a, c.read levels (.number n) = .ok a

namespace Codec

theorem integer_exact (expected : Expected) (low high : Int) :
    (integer expected low high).Exact low high id where
  value_of_read := by
    intro levels n i hread
    rw [integer] at hread
    dsimp only at hread
    split at hread
    · split at hread
      · rename_i hi hrange
        obtain rfl := Except.ok.inj hread
        exact ⟨_, hi, hrange.1, hrange.2, rfl⟩
      · cases hread
    · cases hread
  takes := by
    intro n i hi hlow hhigh levels
    refine ⟨i, ?_⟩
    rw [integer]
    dsimp only
    rw [hi]
    exact if_pos ⟨hlow, hhigh⟩

theorem Exact.imap {c : Codec α} {low high : Int} {value : α → Int} (h : c.Exact low high value)
    (into : α → β) (back : β → α) {value' : β → Int}
    (hvalue : ∀ a, low ≤ value a → value a ≤ high → value' (into a) = value a) :
    (c.imap into back).Exact low high value' where
  value_of_read := by
    intro levels n b hread
    obtain ⟨a, ha, rfl⟩ := map_ok.1 hread
    obtain ⟨i, hi, hlow, hhigh, rfl⟩ := h.value_of_read ha
    exact ⟨_, hi, hlow, hhigh, hvalue a hlow hhigh⟩
  takes := by
    intro n i hi hlow hhigh levels
    obtain ⟨a, ha⟩ := h.takes hi hlow hhigh levels
    exact ⟨into a, map_ok.2 ⟨a, ha, rfl⟩⟩

theorem integer_imap_exact (expected : Expected) {low high : Int} (into : Int → α) (back : α → Int)
    {value : α → Int} (hvalue : ∀ i, low ≤ i → i ≤ high → value (into i) = i) :
    ((integer expected low high).imap into back).Exact low high value :=
  (integer_exact ..).imap into back hvalue

theorem uint64_exact : uint64.Exact 0 (UInt64.size - 1) fun n => n.toNat := by
  refine integer_imap_exact _ _ _ fun i hlow hhigh => ?_
  rw [UInt64.toNat_ofNat_of_lt' (by omega)]
  omega

theorem uint32_exact : uint32.Exact 0 (UInt32.size - 1) fun n => n.toNat := by
  refine integer_imap_exact _ _ _ fun i hlow hhigh => ?_
  rw [UInt32.toNat_ofNat_of_lt' (by omega)]
  omega

theorem int32_exact : int32.Exact Int32.minValue.toInt Int32.maxValue.toInt Int32.toInt := by
  refine integer_imap_exact _ _ _ fun i hlow hhigh => ?_
  rw [Int32.toInt_minValue] at hlow
  rw [Int32.toInt_maxValue] at hhigh
  exact Int32.toInt_ofInt_of_le hlow (by omega)

end Codec

end Json

open Json (Codec)

/-- The codecs of numbers in documents, the range of each, and the number that a value is. -/
inductive NumberCodec : {α : Type} → Codec α → Int → Int → (α → Int) → Prop where
  | changeNumber : NumberCodec ChangeNumber.codec 0 (UInt64.size - 1) fun n => n.val.toNat
  | accountId : NumberCodec AccountId.codec 0 (UInt64.size - 1) fun n => n.val.toNat
  | uint32 : NumberCodec Codec.uint32 0 (UInt32.size - 1) fun n => n.toNat
  | int32 : NumberCodec Codec.int32 Int32.minValue.toInt Int32.maxValue.toInt Int32.toInt

theorem NumberCodec.exact {α : Type} {c : Codec α} {low high : Int} {value : α → Int}
    (h : NumberCodec c low high value) : c.Exact low high value := by
  cases h with
  | changeNumber => exact Codec.uint64_exact.imap _ _ fun _ _ _ => rfl
  | accountId => exact Codec.uint64_exact.imap _ _ fun _ _ _ => rfl
  | uint32 => exact Codec.uint32_exact
  | int32 => exact Codec.int32_exact

theorem NumberCodec.bounds {α : Type} {c : Codec α} {low high : Int} {value : α → Int}
    (h : NumberCodec c low high value) :
    Int64.minValue.toInt ≤ low ∧ high < UInt64.size := by
  cases h <;> decide

end ChangeDesk
