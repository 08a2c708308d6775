import ChangeDesk.Account

/-!
# Labels

A label of a change, the votes on it and the values a vote may have. Servers give the values as a
list, or as an object from values to descriptions, which is put in the order of the scores. A vote
is an account and a value in one object.
-/

namespace ChangeDesk

/-- A vote on a label. -/
structure Approval where
  account : Account
  value : Option Int32
deriving DecidableEq, Repr, Inhabited

namespace Approval

/-- The member that is not the account's. -/
def valueField : Json.Field (Option Int32) :=
  .optional "value" Json.Codec.int32 id fun v _ => v

/-- Reads the members of a vote from the left. Those that may be the account's are only checked
here, and kept for later. -/
def readMembers (levels : Nat) (value : Option (Option Int32))
    (kept : List (Json.Node × Json.Node)) :
    List (Json.Node × Json.Node) →
      Except Json.Fault (Option (Option Int32) × List (Json.Node × Json.Node))
  | [] => .ok (value, kept.reverse)
  | (k, v) :: ms => do
    let name ← k.keyText
    if name == valueField.name then
      if value.isSome then .error (.duplicateField name)
      else do
        let set ← valueField.read levels v
        readMembers levels (some (set none)) kept ms
    else do
      v.check levels
      readMembers levels value ((k, v) :: kept) ms

/-- Votes are objects; the account in one is read after the object has ended. -/
def read (levels : Nat) (v : Json.Node) : Except Json.Fault Approval :=
  match v with
  | .object members ending => do
    let inner ← Json.Node.enter levels
    let (value, kept) ← readMembers inner none [] members
    Json.Fault.raise? ending.fault?
    let (_, account) ← Account.record.readMembers inner [] Account.blank kept
    return ⟨account, value.join⟩
  | v => .error (v.mismatch (.record "ApprovalInfo"))

def codec : Json.Codec Approval where
  read := read
  write a :=
    .object (Account.record.members a.account ++
      (valueField.write a.value).toList.map fun v => (valueField.name, v))

end Approval

/-! ### The order of scores -/

/-- The place of a value: those that are scores come first, by score. -/
def scoreRank (value : String) : Nat × Int :=
  match Text.readInteger? (UInt32.size / 2 - 1) value.toList with
  | some score => (0, score)
  | none => (1, 0)

/-- Whether a value may stand before another. -/
def scoreLe (a b : String) : Bool :=
  let (k, m) := scoreRank a
  let (l, n) := scoreRank b
  k < l || (k == l && m ≤ n)

/-- Values by score; those that are none keep their order at the end. -/
def sortScores (values : List String) : List String := values.mergeSort scoreLe

theorem sortScores_perm (values : List String) : (sortScores values).Perm values :=
  List.mergeSort_perm values scoreLe

/-! ### Labels -/

/-- A label of a change. -/
structure Label where
  all : List Approval
  defaultValue : Int32
  values : List String
  approved : Option Account
  rejected : Option Account
  optional : Option Bool
deriving DecidableEq, Repr, Inhabited

namespace Label

/-- Reads an entry of an object from texts to texts. -/
def readTextEntry (m : Json.Node × Json.Node) : Except Json.Fault (String × String) := do
  let key ← m.1.keyText
  let value ← Json.Codec.text.read 0 m.2
  return (key, value)

/-- Reads the permitted values in either of their shapes, after a check as any value. -/
def readValues (levels : Nat) (v : Json.Node) : Except Json.Fault (List String) := do
  v.check levels
  match v with
  | .list items _ =>
    match items.mapM (Json.Codec.text.read 0) with
    | .ok values => return values
    | .error _ => .error .noShapeFits
  | .object members _ =>
    match members.mapM readTextEntry with
    | .ok entries => return sortScores ((Dict.ofList entries).keys.map Text.trimmed)
    | .error _ => .error .noShapeFits
  | _ => .error .noShapeFits

def valuesCodec : Json.Codec (List String) := ⟨readValues, Json.Codec.text.list.write⟩

/-- The members of a label in a document. -/
def record : Json.Record Label where
  name := "Label"
  blank := ⟨[], 0, [], none, none, none⟩
  fields :=
    [.plain "all" Approval.codec.list Label.all fun v l => { l with all := v },
     .plain "default_value" Json.Codec.int32 Label.defaultValue
        fun v l => { l with defaultValue := v },
     .plain "values" valuesCodec Label.values fun v l => { l with values := v },
     .optional "approved" Account.codec Label.approved fun v l => { l with approved := v },
     .optional "rejected" Account.codec Label.rejected fun v l => { l with rejected := v },
     .optional "optional" Json.Codec.boolean Label.optional fun v l => { l with optional := v }]

def codec : Json.Codec Label := record.codec

end Label

end ChangeDesk
