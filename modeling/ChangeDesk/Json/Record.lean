import ChangeDesk.Json.Codec

/-!
# Records

A record type is described by one table: its name, the record in which nothing is set, and its
fields in order. The table serves both ways. A document gives a record as an object, where unknown
members are passed over and a field comes at most once, or as a list of the fields in order, where
the last ones may be left out. Written it is always an object with its fields in order.
-/

namespace ChangeDesk.Json

/-- A field of the records `ρ`. Reading it gives the change it makes to a record; it may be left
out when it is written. -/
structure Field (ρ : Type) where
  name : String
  required : Bool
  read : Nat → Node → Except Fault (ρ → ρ)
  write : ρ → Option Value

namespace Field

variable {α ρ : Type}

/-- A field that is always written. -/
def plain (name : String) (c : Codec α) (get : ρ → α) (set : α → ρ → ρ) : Field ρ :=
  ⟨name, false, fun levels v => set <$> c.read levels v, fun r => some (c.write (get r))⟩

/-- A field that a document must have. -/
def needed (name : String) (c : Codec α) (get : ρ → α) (set : α → ρ → ρ) : Field ρ :=
  { plain name c get set with required := true }

/-- A field that may be unset: read from null, and left out when it is written. What begins like
null is not offered to the codec. -/
def optional (name : String) (c : Codec α) (get : ρ → Option α) (set : Option α → ρ → ρ) :
    Field ρ :=
  ⟨name, false,
    fun levels v =>
      match v with
      | .null => .ok (set none)
      | .gap (.brokenNull cutOff) => .error (Gap.brokenNull cutOff).fault
      | v => (fun a => set (some a)) <$> c.read levels v,
    fun r => (get r).map c.write⟩

/-- A list that is left out when it is empty. -/
def nonempty (name : String) (c : Codec α) (get : ρ → List α) (set : List α → ρ → ρ) : Field ρ :=
  { plain name c.list get set with
    write := fun r => if (get r).isEmpty then none else some (c.list.write (get r)) }

end Field

/-- The description of a record type. -/
structure Record (ρ : Type) where
  name : String
  blank : ρ
  fields : List (Field ρ)

namespace Record

variable {ρ : Type}

/-- The field with a name. -/
def field? (t : Record ρ) (name : String) : Option (Field ρ) :=
  t.fields.find? fun f => f.name == name

/-- Reads one member into a record, given the names of the fields already read. -/
def readMember (t : Record ρ) (levels : Nat) (seen : List String) (r : ρ) (name : String)
    (v : Node) : Except Fault (List String × ρ) :=
  match t.field? name with
  | none => do
    v.skip
    return (seen, r)
  | some f =>
    if seen.contains name then .error (.duplicateField name)
    else do
      let set ← f.read levels v
      return (name :: seen, set r)

/-- Reads members into a record, from the left. -/
def readMembers (t : Record ρ) (levels : Nat) (seen : List String) (r : ρ) :
    List (Node × Node) → Except Fault (List String × ρ)
  | [] => .ok (seen, r)
  | (k, v) :: ms => do
    let name ← k.keyText
    let (seen, r) ← t.readMember levels seen r name v
    readMembers t levels seen r ms

/-- The first field that a document must have and that was not read. -/
def missing? (t : Record ρ) (seen : List String) : Option Fault :=
  (t.fields.find? fun f => f.required && !seen.contains f.name).map (.missingField ·.name)

/-- The fault of what follows the last field in a list of fields. -/
def surplusFault? (rest : List Node) (ending : ListEnd) : Option Fault :=
  match rest, ending with
  | [], .noSeparator => some .trailingText
  | [], e => e.fault?
  | _ :: _, _ => some .trailingText

/-- Reads a list of fields into a record; `index` counts the fields before these. -/
def readFields (t : Record ρ) (levels : Nat) (ending : ListEnd) (r : ρ) (index : Nat) :
    List (Field ρ) → List Node → Except Fault ρ
  | [], rest => do
    Fault.raise? (surplusFault? rest ending)
    return r
  | f :: fs, [] => do
    Fault.raise? ending.fault?
    match (f :: fs).findIdx? (·.required) with
    | some i => .error (.wrongLength (index + i) t.name t.fields.length)
    | none => return r
  | f :: fs, v :: vs => do
    let set ← f.read levels v
    readFields t levels ending (set r) (index + 1) fs vs

/-- Reads a record. -/
def read (t : Record ρ) (levels : Nat) (v : Node) : Except Fault ρ :=
  match v with
  | .object members ending => do
    let inner ← Node.enter levels
    let (seen, r) ← t.readMembers inner [] t.blank members
    Fault.raise? ending.fault?
    Fault.raise? (t.missing? seen)
    return r
  | .list items ending => do
    let inner ← Node.enter levels
    t.readFields inner ending t.blank 0 t.fields items
  | v => .error (v.mismatch (.record t.name))

/-- The members of a record, in the order of its fields. -/
def members (t : Record ρ) (r : ρ) : List (String × Value) :=
  t.fields.filterMap fun f => (f.write r).map fun v => (f.name, v)

/-- The codec of a record type. -/
def codec (t : Record ρ) : Codec ρ where
  read := t.read
  write r := .object (t.members r)

end Record

end ChangeDesk.Json
