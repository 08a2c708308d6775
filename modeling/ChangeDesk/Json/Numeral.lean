import ChangeDesk.Decimal.Layout

/-!
# Numerals

A number in a document is kept as it is written. It is whole if it has neither fraction nor
exponent, is not a negative zero and fits in 64 bits, signed or unsigned; then its value is exact.
Every other numeral stands for a double, and is out of range if that is infinite.

Main statement: a whole number is read back from its written form (`integer?_ofInt`).
-/

namespace ChangeDesk.Json

/-- A number as it is written. The flag of an exponent says that it is negative. -/
structure Numeral where
  negative : Bool
  whole : List Char
  fraction : Option (List Char)
  exponent : Option (Bool × List Char)
deriving DecidableEq, Repr

namespace Numeral

/-- The written form of a whole number. -/
def ofInt (i : Int) : Numeral :=
  ⟨decide (i < 0), Nat.toDigits 10 i.natAbs, none, none⟩

/-- The exact value of a whole number. -/
def integer? (n : Numeral) : Option Int :=
  match n.fraction, n.exponent with
  | none, none =>
    let v := Nat.ofDigitChars 10 n.whole 0
    if n.negative then
      if 0 < v ∧ v ≤ UInt64.size / 2 then some (-(v : Int)) else none
    else if v < UInt64.size then some v else none
  | _, _ => none

/-- What a character adds to a significand of 64 bits, if it still fits. -/
def extend? (significand : Nat) (c : Char) : Option Nat :=
  let n := 10 * significand + (c.toNat - '0'.toNat)
  if n < UInt64.size then some n else none

/-- The significand of the digits before the point, and how many digits were left out of it: all
from the first that does not fit. -/
def wholePart : Nat → List Char → Nat × Nat
  | s, [] => (s, 0)
  | s, c :: cs =>
    match extend? s c with
    | some s' => wholePart s' cs
    | none => (s, cs.length + 1)

/-- The significand with the digits after the point, and how many digits it took. -/
def fractionPart : Nat → List Char → Nat × Nat
  | s, [] => (s, 0)
  | s, c :: cs =>
    match extend? s c with
    | some s' =>
      let (t, n) := fractionPart s' cs
      (t, n + 1)
    | none => (s, 0)

/-- The power of ten that the exponent names. -/
def exponentValue : Option (Bool × List Char) → Int
  | none => 0
  | some (negative, ds) =>
    let v : Nat := Nat.ofDigitChars 10 ds 0
    if negative then -(v : Int) else v

/-- Divides by a power of ten, in steps that are themselves doubles. -/
def scaleDown (x : Float) (k : Nat) : Float :=
  if k ≤ 308 then x / Float.ofScientific 1 false k
  else if x == 0 then x
  else scaleDown (x / Float.ofScientific 1 false 308) (k - 308)
termination_by k

/-- Multiplies by a power of ten; `none` if the result is infinite. -/
def scale? (x : Float) (e : Int) : Option Float :=
  if e < 0 then some (scaleDown x e.natAbs)
  else if e ≤ 308 then
    let y := x * Float.ofScientific 1 false e.natAbs
    if y.isInf then none else some y
  else if x == 0 then some x else none

/-- The double a numeral stands for: its leading digits as far as they fit in 64 bits, rounded
to a double and scaled. `none` if it is out of range. -/
def double? (n : Numeral) : Option Float :=
  let (s, dropped) := wholePart 0 n.whole
  let (s, places) := fractionPart s (n.fraction.getD [])
  let e := exponentValue n.exponent + dropped - places
  (scale? (UInt64.ofNat s).toFloat e).map fun x => if n.negative then -x else x

/-- Whether the numeral stands for a finite number. -/
def inRange (n : Numeral) : Bool := n.integer?.isSome || n.double?.isSome

/-- Doubles in messages are positional from `10 ^ -5` up to `10 ^ 16`, otherwise written with an
exponent. -/
def layout : Decimal.Layout := ⟨-5, 15⟩

/-- Whole numbers of 64 bits are read back from their written form. -/
theorem integer?_ofInt {i : Int} (hl : Int64.minValue.toInt ≤ i) (hu : i < UInt64.size) :
    (ofInt i).integer? = some i := by
  have hlow : Int64.minValue.toInt = -9223372036854775808 := rfl
  have hsize : UInt64.size = 18446744073709551616 := rfl
  have hv : Nat.ofDigitChars 10 (Nat.toDigits 10 i.natAbs) 0 = i.natAbs :=
    Nat.ofDigitChars_toDigits (by decide) (by decide)
  unfold integer? ofInt
  simp only [hv, decide_eq_true_eq]
  split
  · rename_i hneg
    rw [if_pos (by omega)]
    congr 1
    omega
  · rename_i hneg
    rw [if_pos (by omega)]
    congr 1
    omega

/-- A numeral with a fraction or an exponent is no whole number. -/
theorem integer?_eq_none {n : Numeral} (h : n.fraction.isSome ∨ n.exponent.isSome) :
    n.integer? = none := by
  unfold integer?
  split
  · rename_i hf he
    simp [hf, he] at h
  · rfl

/-! ### Reading -/

/-- What stands where a numeral begins: a numeral and the text after it, or a broken one, which
ends with the text or at a character that does not belong to it. -/
inductive Reading where
  | complete (n : Numeral) (rest : List Char)
  | broken (cutOff : Bool)
deriving DecidableEq, Repr

/-- Reads the exponent, if one follows. -/
def readExponent (negative : Bool) (whole : List Char) (fraction : Option (List Char))
    (cs : List Char) : Reading :=
  let finish (down : Bool) (r : List Char) : Reading :=
    match r.takeWhile Char.isDigit with
    | [] => .broken r.isEmpty
    | ds => .complete ⟨negative, whole, fraction, some (down, ds)⟩ (r.dropWhile Char.isDigit)
  match cs with
  | c :: r =>
    if c = 'e' ∨ c = 'E' then
      match r with
      | '+' :: r' => finish false r'
      | '-' :: r' => finish true r'
      | r => finish false r
    else .complete ⟨negative, whole, fraction, none⟩ cs
  | [] => .complete ⟨negative, whole, fraction, none⟩ []

/-- Reads the fraction, if one follows, and the exponent. -/
def readFraction (negative : Bool) (whole : List Char) : List Char → Reading
  | '.' :: r =>
    match r.takeWhile Char.isDigit with
    | [] => .broken r.isEmpty
    | ds => readExponent negative whole (some ds) (r.dropWhile Char.isDigit)
  | cs => readExponent negative whole none cs

/-- Reads the digits before the point, which have no needless zero in front, and what follows. -/
def readWhole (negative : Bool) : List Char → Reading
  | [] => .broken true
  | '0' :: r =>
    match r with
    | [] => readFraction negative ['0'] []
    | c :: r' => if c.isDigit then .broken false else readFraction negative ['0'] (c :: r')
  | c :: r =>
    if c.isDigit then
      readFraction negative (c :: r.takeWhile Char.isDigit) (r.dropWhile Char.isDigit)
    else .broken false

/-- Reads a numeral. -/
def read : List Char → Reading
  | '-' :: cs => readWhole true cs
  | cs => readWhole false cs

/-! ### Writing -/

/-- The characters of a numeral. -/
def chars (n : Numeral) : List Char :=
  let sign := if n.negative then ['-'] else []
  let fraction := match n.fraction with
    | none => []
    | some ds => '.' :: ds
  let exponent := match n.exponent with
    | none => []
    | some (down, ds) => 'e' :: (if down then '-' else '+') :: ds
  sign ++ n.whole ++ fraction ++ exponent

end Numeral

end ChangeDesk.Json
