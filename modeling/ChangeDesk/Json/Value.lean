import ChangeDesk.Json.Quoted

/-!
# Values and how they are written

The values that the library writes: whole numbers, texts, lists and objects with their members in
order. There are two written forms, one without any space and one with a line for each item.
-/

namespace ChangeDesk.Json

/-- A value to be written. -/
inductive Value where
  | null
  | bool (b : Bool)
  | int (i : Int)
  | text (s : String)
  | list (items : List Value)
  | object (members : List (String × Value))
deriving Repr, Inhabited

namespace Value

/-- The characters of a truth value. -/
def boolChars : Bool → List Char
  | true => ['t', 'r', 'u', 'e']
  | false => ['f', 'a', 'l', 's', 'e']

mutual

/-- The form without spaces. -/
def compact : Value → List Char
  | .null => ['n', 'u', 'l', 'l']
  | .bool b => boolChars b
  | .int i => (Numeral.ofInt i).chars
  | .text s => Quoted.quote s
  | .list [] => ['[', ']']
  | .list (v :: vs) => '[' :: (compact v ++ compactItems vs)
  | .object [] => ['\x7b', '\x7d']
  | .object ((k, v) :: ms) =>
    '\x7b' :: (Quoted.quote k ++ ':' :: (compact v ++ compactMembers ms))

/-- The items after the first, and the closing bracket. -/
def compactItems : List Value → List Char
  | [] => [']']
  | v :: vs => ',' :: (compact v ++ compactItems vs)

/-- The members after the first, and the closing brace. -/
def compactMembers : List (String × Value) → List Char
  | [] => ['\x7d']
  | (k, v) :: ms => ',' :: (Quoted.quote k ++ ':' :: (compact v ++ compactMembers ms))

end

/-- A new line, indented by two spaces for each level. -/
def newLine (level : Nat) : List Char := '\n' :: List.replicate (2 * level) ' '

mutual

/-- The form with a line for each item and member, at a level of indentation. -/
def indented (level : Nat) : Value → List Char
  | .list [] => ['[', ']']
  | .list (v :: vs) =>
    '[' :: (newLine (level + 1) ++ indented (level + 1) v ++ indentedItems level vs)
  | .object [] => ['\x7b', '\x7d']
  | .object ((k, v) :: ms) =>
    '\x7b' :: (newLine (level + 1) ++ Quoted.quote k ++ ':' :: ' ' :: indented (level + 1) v ++
      indentedMembers level ms)
  | .null => ['n', 'u', 'l', 'l']
  | .bool b => boolChars b
  | .int i => (Numeral.ofInt i).chars
  | .text s => Quoted.quote s

/-- The items after the first, and the closing bracket. -/
def indentedItems (level : Nat) : List Value → List Char
  | [] => newLine level ++ [']']
  | v :: vs => ',' :: (newLine (level + 1) ++ indented (level + 1) v ++ indentedItems level vs)

/-- The members after the first, and the closing brace. -/
def indentedMembers (level : Nat) : List (String × Value) → List Char
  | [] => newLine level ++ ['\x7d']
  | (k, v) :: ms =>
    ',' :: (newLine (level + 1) ++ Quoted.quote k ++ ':' :: ' ' :: indented (level + 1) v ++
      indentedMembers level ms)

end

/-- The value as text without spaces. -/
def toText (v : Value) : String := String.ofList v.compact

/-- The value as text with a line for each item. -/
def toLines (v : Value) : String := String.ofList (v.indented 0)

end Value

end ChangeDesk.Json
