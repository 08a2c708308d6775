import ChangeDesk.Json.Codec
import ChangeDesk.Text.Blank

/-!
# Documents

A document is the text of one value. In front of it there may be blanks and then a guard of four
characters, which keeps browsers from running the text as a script.
-/

namespace ChangeDesk.Json.Document

/-- The guard that servers put in front of a document. -/
def guardChars : List Char := [')', ']', '\x7d', '\'']

/-- What is left of a text after the blanks and the guard in front of it. -/
def payload (cs : List Char) : List Char :=
  match Text.trimStart cs with
  | ')' :: ']' :: '\x7d' :: '\'' :: r => r
  | cs => cs

/-- The levels of lists and objects that a document may have, and one. -/
def levels : Nat := 128

/-- Reads a text as one value and nothing else. -/
def readWhole {α : Type} (take : Node → Except Fault α) (cs : List Char) : Except Fault α := do
  let (node, rest) := Node.read cs
  let a ← take node
  if (skipSpace rest).isEmpty then return a else .error .trailingText

/-- The value of a document. -/
def decode {α : Type} (c : Codec α) (s : String) : Except Fault α :=
  readWhole (c.read levels) (payload s.toList)

/-- The fault of a text as a value of any type, if it is none. -/
def anyFault? (s : String) : Option Fault :=
  match readWhole (Node.check levels) s.toList with
  | .ok () => none
  | .error f => some f

/-- The wording of the fault of a whole document. -/
def message (f : Fault) : String := s!"deserialization error: {f.message}"

/-- A value as a document. -/
def encode {α : Type} (c : Codec α) (a : α) : String := (c.write a).toText

theorem payload_guard (cs : List Char) : payload (guardChars ++ cs) = cs := rfl

theorem payload_blank {bs : List Char} (h : ∀ c ∈ bs, Text.isBlank c = true) (cs : List Char) :
    payload (bs ++ cs) = payload cs := by
  rw [payload, Text.trimStart_append_of_blank h]
  rfl

end ChangeDesk.Json.Document
