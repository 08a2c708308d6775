/-!
# Text from bytes

Reading bytes as UTF-8. A character is a first byte and the bytes it owes, the first of which may
be narrowed by it. Bytes that form no character are read, as far as they begin one, as one
replacement character, and reading goes on with the byte that did not fit.
-/

namespace ChangeDesk.Text

/-- A character that was begun: how many bytes it still owes, where the next one must lie, and
the value so far. -/
structure Owed where
  count : Nat
  low : Nat
  high : Nat
  value : Nat
deriving DecidableEq, Repr

/-- The replacement character. -/
def replacement : Char := '\ufffd'

/-- What a first byte is: a character of its own, the beginning of one, or neither. -/
def firstByte (b : Nat) : Char ⊕ Option Owed :=
  if b < 0x80 then .inl (Char.ofNat b)
  else if b < 0xc2 then .inr none
  else if b < 0xe0 then .inr (some ⟨1, 0x80, 0xbf, b - 0xc0⟩)
  else if b = 0xe0 then .inr (some ⟨2, 0xa0, 0xbf, 0⟩)
  else if b = 0xed then .inr (some ⟨2, 0x80, 0x9f, 0xd⟩)
  else if b < 0xf0 then .inr (some ⟨2, 0x80, 0xbf, b - 0xe0⟩)
  else if b = 0xf0 then .inr (some ⟨3, 0x90, 0xbf, 0⟩)
  else if b < 0xf4 then .inr (some ⟨3, 0x80, 0xbf, b - 0xf0⟩)
  else if b = 0xf4 then .inr (some ⟨3, 0x80, 0x8f, 4⟩)
  else .inr none

/-- Reads bytes after a character that was begun, if one was. -/
def decodeFrom (owed : Option Owed) : List UInt8 → List Char
  | [] => if owed.isSome then [replacement] else []
  | b :: bs =>
    let fresh : List Char := match firstByte b.toNat with
      | .inl c => c :: decodeFrom none bs
      | .inr (some o) => decodeFrom (some o) bs
      | .inr none => replacement :: decodeFrom none bs
    match owed with
    | none => fresh
    | some o =>
      if o.low ≤ b.toNat ∧ b.toNat ≤ o.high then
        let value := 64 * o.value + (b.toNat - 0x80)
        if o.count ≤ 1 then Char.ofNat value :: decodeFrom none bs
        else decodeFrom (some ⟨o.count - 1, 0x80, 0xbf, value⟩) bs
      else replacement :: fresh

/-- The text of bytes, with replacements. -/
def decodeLossy (bs : List UInt8) : String := String.ofList (decodeFrom none bs)

/-- The text of bytes, if they are one. -/
def decodeStrict? (bs : List UInt8) : Option String := String.fromUTF8? ⟨bs.toArray⟩

example : decodeLossy [0x61, 0xe2, 0x82, 0x62, 0xff, 0xc3, 0xa9, 0xf0, 0x9f] =
    "a\ufffdb\ufffdé\ufffd" := by decide +kernel

end ChangeDesk.Text
