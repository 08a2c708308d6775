import ChangeDesk.Json.Node
import ChangeDesk.Json.Value
import ChangeDesk.Dict

/-!
# Codecs

A codec says how the values of a type are taken out of a document and how they are written into
one. Reading is given the levels of nesting that are still allowed. Here are the codecs of texts,
truth values, whole numbers, lists, dictionaries and enumerations; records have a module of their
own.
-/

namespace ChangeDesk.Json

/-- How the values of a type are read and written. -/
structure Codec (α : Type) where
  read : Nat → Node → Except Fault α
  write : α → Value

namespace Codec

variable {α β : Type}

/-- The codec of a type whose values correspond to those of another. -/
def imap (c : Codec α) (into : α → β) (back : β → α) : Codec β :=
  ⟨fun levels v => into <$> c.read levels v, fun b => c.write (back b)⟩

/-- Texts. -/
def text : Codec String where
  read _ v :=
    match v with
    | .text q => q.text
    | v => .error (v.mismatch .text)
  write := .text

/-- Truth values. -/
def boolean : Codec Bool where
  read _ v :=
    match v with
    | .bool b => .ok b
    | v => .error (v.mismatch .boolean)
  write := .bool

/-- Whole numbers from `low` to `high`. -/
def integer (expected : Expected) (low high : Int) : Codec Int where
  read _ v :=
    match v with
    | .number n =>
      match n.integer? with
      | some i =>
        if low ≤ i ∧ i ≤ high then .ok i else .error (.outOfRange (.number n) expected)
      | none => .error (v.mismatch expected)
    | v => .error (v.mismatch expected)
  write := .int

/-- Numbers of 64 bits. -/
def uint64 : Codec UInt64 :=
  (integer (.unsigned 64) 0 (UInt64.size - 1)).imap (fun i => UInt64.ofNat i.toNat) fun n => n.toNat

/-- Numbers of 32 bits. -/
def uint32 : Codec UInt32 :=
  (integer (.unsigned 32) 0 (UInt32.size - 1)).imap (fun i => UInt32.ofNat i.toNat) fun n => n.toNat

/-- Signed numbers of 32 bits. -/
def int32 : Codec Int32 :=
  (integer (.signed 32) Int32.minValue.toInt Int32.maxValue.toInt).imap Int32.ofInt Int32.toInt

/-- Lists. -/
def list (c : Codec α) : Codec (List α) where
  read levels v :=
    match v with
    | .list items ending => do
      let inner ← Node.enter levels
      let as ← items.mapM (c.read inner)
      Fault.raise? ending.fault?
      return as
    | v => .error (v.mismatch .list)
  write as := .list (as.map c.write)

/-- Reads the members of an object into a dictionary; of two with one key the later counts. -/
def readEntries (read : Node → Except Fault α) (d : Dict α) :
    List (Node × Node) → Except Fault (Dict α)
  | [] => .ok d
  | (k, v) :: ms => do
    let key ← k.keyText
    let a ← read v
    readEntries read (d.insert key a) ms

/-- Dictionaries. -/
def dict (c : Codec α) : Codec (Dict α) where
  read levels v :=
    match v with
    | .object members ending => do
      let inner ← Node.enter levels
      let d ← readEntries (c.read inner) .empty members
      Fault.raise? ending.fault?
      return d
    | v => .error (v.mismatch .map)
  write d := .object (d.entries.map fun e => (e.1, c.write e.2))

/-- The values of an enumeration: each has a name, and there may be one for all other names. -/
structure Names (α : Type) where
  all : List α
  name : α → String
  other : Option α

/-- The value with a name. -/
def Names.pick (n : Names α) (name : String) : Except Fault α :=
  match n.all.find? fun a => n.name a == name with
  | some a => .ok a
  | none =>
    match n.other with
    | some a => .ok a
    | none => .error (.unknownVariant name (n.all.map n.name))

/-- Reads the object form of an enumeration: one member, its key the name and its value null. -/
def Names.readObject (n : Names α) (ending : ObjectEnd) :
    List (Node × Node) → Except Fault α
  | [] => .error (if ending = .cutOff then .endInObject else .noValue)
  | (k, v) :: rest => do
    let name ← k.keyText
    let a ← n.pick name
    match v with
    | .null => pure ()
    | v => .error (v.mismatch .unit)
    match rest, ending with
    | [], .closed => return a
    | [], .cutOff => .error .endInObject
    | _, _ => .error .noValue

/-- Enumerations, as a name or in the object form. -/
def enumeration (n : Names α) : Codec α where
  read levels v :=
    match v with
    | .text q => do n.pick (← q.text)
    | .object members ending => do
      let _ ← Node.enter levels
      n.readObject ending members
    | .gap (.noColon cutOff) => .error (Gap.noColon cutOff).fault
    | .gap (.noValue cutOff) => .error (Gap.noValue cutOff).fault
    | _ => .error .noValue
  write a := .text (n.name a)

end Codec

end ChangeDesk.Json
