/-!
# Offsets in bytes

A place in a text is an offset: the number of bytes before it in the text's UTF-8 form. Characters
take up to four bytes, so most offsets may lie inside of one, where a text cannot be cut.

Main statement: where a character begins a text can be cut (`isValid_startOf`).
-/

namespace ChangeDesk.Text

/-- Where each of the characters begins, if the first one begins at `start`. -/
def offsets (start : Nat) : List Char → List Nat
  | [] => []
  | c :: cs => start :: offsets (start + c.utf8Size) cs

/-- Where the character with `n` others before it begins. If there is none, the end of the text. -/
def startOf (s : String) (n : Nat) : Nat := (offsets 0 s.toList)[n]?.getD s.utf8ByteSize

theorem utf8ByteSize_cons (c : Char) (cs : List Char) :
    (String.ofList (c :: cs)).utf8ByteSize = c.utf8Size + (String.ofList cs).utf8ByteSize := by
  rw [String.ofList_cons, String.utf8ByteSize_append, String.utf8ByteSize_singleton]

theorem getD_offsets (start n : Nat) (cs : List Char) :
    (offsets start cs)[n]?.getD (start + (String.ofList cs).utf8ByteSize) =
      start + (String.ofList (cs.take n)).utf8ByteSize := by
  -- along the text both move on: where the next character begins, and how many are before it
  induction cs generalizing start n with
  | nil => rw [List.take_nil, offsets, List.getElem?_nil, Option.getD_none]
  | cons c cs ih =>
    cases n with
    | zero => rfl
    | succ n =>
      have hrest := ih (start + c.utf8Size) n
      rw [offsets, List.getElem?_cons_succ, List.take_succ_cons, utf8ByteSize_cons,
        utf8ByteSize_cons, ← Nat.add_assoc, ← Nat.add_assoc]
      exact hrest

theorem startOf_eq (s : String) (n : Nat) :
    startOf s n = (String.ofList (s.toList.take n)).utf8ByteSize := by
  have hstart := getD_offsets 0 n s.toList
  rwa [Nat.zero_add, Nat.zero_add, String.ofList_toList] at hstart

/-- No character reaches over the beginning of another one, nor over the end of the text. -/
theorem isValid_startOf (s : String) (n : Nat) :
    (String.Pos.Raw.mk (startOf s n)).IsValid s :=
  String.Pos.Raw.isValid_iff_exists_take_toList.2 ⟨n, startOf_eq s n⟩

/-- The text before a place. Only an offset at which the text can be cut is one. -/
def upTo (s : String) (offset : Nat) (h : (String.Pos.Raw.mk offset).IsValid s) : String :=
  (s.sliceTo ⟨_, h⟩).copy

theorem toList_upTo (s : String) (n : Nat) :
    (upTo s (startOf s n) (isValid_startOf s n)).toList = s.toList.take n := by
  have hcut := String.Pos.splits (⟨_, isValid_startOf s n⟩ : s.Pos)
  have hsplit : (⟨_, isValid_startOf s n⟩ : s.Pos).Splits (String.ofList (s.toList.take n))
      (String.ofList (s.toList.drop n)) := by
    constructor
    · rw [← String.ofList_append, List.take_append_drop, String.ofList_toList]
    · exact String.Pos.Raw.ext (startOf_eq s n)
  rw [upTo, hcut.eq_left hsplit, String.toList_ofList]

end ChangeDesk.Text
