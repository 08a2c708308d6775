import ChangeDesk.Json.Numeral
import ChangeDesk.Text.Quoted

/-!
# Faults of a document

Why a text is not a document of the type asked for: it is no JSON, or some value in it is not what
its place asks for. Each cause is one constructor, and its wording is `Fault.message`.
-/

namespace ChangeDesk.Json

/-- What a value turned out to be, as far as a message tells. -/
inductive Found where
  | null
  | boolean (b : Bool)
  | number (n : Numeral)
  | text (s : String)
  | list
  | object
deriving DecidableEq, Repr

/-- A number in a message: its digits if it is whole, else its double. -/
def Numeral.describe (n : Numeral) : String :=
  match n.integer? with
  | some i => s!"integer `{i}`"
  | none => s!"floating point `{Numeral.layout.write (n.double?.getD 0)}`"

/-- What a message calls a value. -/
def Found.describe : Found → String
  | .null => "null"
  | .boolean b => s!"boolean `{b}`"
  | .number n => n.describe
  | .text s => s!"string {Text.quoted s}"
  | .list => "sequence"
  | .object => "map"

/-- What the place of a value asks for. -/
inductive Expected where
  | unsigned (bits : Nat)
  | signed (bits : Nat)
  | text
  | boolean
  | list
  | map
  | unit
  | record (name : String)
deriving DecidableEq, Repr

/-- What a message calls that which a place asks for. -/
def Expected.describe : Expected → String
  | .unsigned bits => s!"u{bits}"
  | .signed bits => s!"i{bits}"
  | .text => "a string"
  | .boolean => "a boolean"
  | .list => "a sequence"
  | .map => "a map"
  | .unit => "unit"
  | .record name => s!"struct {name}"

/-- Why a text is not the document asked for. -/
inductive Fault where
  | endInValue
  | endInText
  | endInList
  | endInObject
  | noValue
  | brokenWord
  | brokenNumber
  | numberTooLarge
  | controlCharacter
  | brokenEscape
  | unpairedLead
  | unpairedTrail
  | noColon
  | noListSeparator
  | noObjectSeparator
  | keyNotText
  | trailingComma
  | trailingText
  | tooDeep
  | wrongType (found : Found) (expected : Expected)
  | outOfRange (found : Found) (expected : Expected)
  | unknownVariant (name : String) (known : List String)
  | duplicateField (name : String)
  | missingField (name : String)
  | wrongLength (length : Nat) (record : String) (fields : Nat)
  | noShapeFits
deriving DecidableEq, Repr

/-- The wording of a fault. -/
def Fault.message : Fault → String
  | .endInValue => "EOF while parsing a value"
  | .endInText => "EOF while parsing a string"
  | .endInList => "EOF while parsing a list"
  | .endInObject => "EOF while parsing an object"
  | .noValue => "expected value"
  | .brokenWord => "expected ident"
  | .brokenNumber => "invalid number"
  | .numberTooLarge => "number out of range"
  | .controlCharacter => "control character (\\u0000-\\u001F) found while parsing a string"
  | .brokenEscape => "invalid escape"
  | .unpairedLead => "unexpected end of hex escape"
  | .unpairedTrail => "lone leading surrogate in hex escape"
  | .noColon => "expected `:`"
  | .noListSeparator => "expected `,` or `]`"
  | .noObjectSeparator => "expected `,` or `\x7d`"
  | .keyNotText => "key must be a string"
  | .trailingComma => "trailing comma"
  | .trailingText => "trailing characters"
  | .tooDeep => "recursion limit exceeded"
  | .wrongType found expected =>
    s!"invalid type: {found.describe}, expected {expected.describe}"
  | .outOfRange found expected =>
    s!"invalid value: {found.describe}, expected {expected.describe}"
  | .unknownVariant name known =>
    s!"unknown variant `{name}`, expected one of " ++
      ", ".intercalate (known.map fun k => s!"`{k}`")
  | .duplicateField name => s!"duplicate field `{name}`"
  | .missingField name => s!"missing field `{name}`"
  | .wrongLength length record fields =>
    s!"invalid length {length}, expected struct {record} with {fields} elements"
  | .noShapeFits => "data did not match any variant of untagged enum Repr"

end ChangeDesk.Json
