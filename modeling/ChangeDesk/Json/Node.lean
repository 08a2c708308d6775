import ChangeDesk.Json.Quoted

/-!
# Documents as they are written

A text is first read into a `Node`: the tree of its values, as far as the text makes sense. The
first thing that makes no sense becomes part of the tree, as a gap where a value is due or as the
way in which a list or an object ends, and nothing is read after it.

So a fault of form and a fault of type can be told apart by one rule. Whoever takes values out of
the tree goes from left to right and reports what it meets first. There are three ways to go
through a node: a codec takes a value of its type out of it, `check` reads it as any value at all,
and `skip` passes over it, minding neither depth, nor ranges, nor paired units.
-/

namespace ChangeDesk.Json

/-- Where a value is due and none can be read. The flag says that the text ends there. A broken
word begins like null, or like one of the truth values. -/
inductive Gap where
  | noColon (cutOff : Bool)
  | noValue (cutOff : Bool)
  | brokenNull (cutOff : Bool)
  | brokenBool (cutOff : Bool)
  | brokenNumber (cutOff : Bool)
deriving DecidableEq, Repr

/-- How a list ends. -/
inductive ListEnd where
  | closed
  | cutOff
  | noSeparator
  | danglingComma
deriving DecidableEq, Repr

/-- How an object ends. -/
inductive ObjectEnd where
  | closed
  | cutOff
  | cutOffAfterComma
  | noSeparator
  | danglingComma
deriving DecidableEq, Repr

/-- A value as it is written. Keys are read like values; one that is no text ends its object. -/
inductive Node where
  | gap (g : Gap)
  | null
  | bool (b : Bool)
  | number (n : Numeral)
  | text (q : Quoted)
  | list (items : List Node) (ending : ListEnd)
  | object (members : List (Node × Node)) (ending : ObjectEnd)
deriving Repr, Inhabited

/-! ### Reading -/

/-- The four characters that may stand between the parts of a document. -/
def isSpace (c : Char) : Bool := c == ' ' || c == '\n' || c == '\t' || c == '\r'

/-- The text after the space in front of it. -/
def skipSpace (cs : List Char) : List Char := cs.dropWhile isSpace

namespace Node

/-- Reads what is left of a word, and what follows it. -/
def readWord (node : Node) (broken : Bool → Gap) : List Char → List Char → Node × List Char
  | [], r => (node, r)
  | _ :: _, [] => (.gap (broken true), [])
  | c :: w, d :: r => if c = d then readWord node broken w r else (.gap (broken false), [])

/-- Reads a numeral, and what follows it. -/
def readNumber (cs : List Char) : Node × List Char :=
  match Numeral.read cs with
  | .complete n r => (.number n, r)
  | .broken cutOff => (.gap (.brokenNumber cutOff), [])

mutual

/-- Reads a value, and what follows it. The first argument bounds the number of values; the
length of the text is enough. -/
def readValue : Nat → List Char → Node × List Char
  | 0, _ => (.gap (.noValue true), [])
  | n + 1, cs =>
    match skipSpace cs with
    | [] => (.gap (.noValue true), [])
    | '"' :: r => (.text (Quoted.read r).1, (Quoted.read r).2)
    | 'n' :: r => readWord .null .brokenNull ['u', 'l', 'l'] r
    | 't' :: r => readWord (.bool true) .brokenBool ['r', 'u', 'e'] r
    | 'f' :: r => readWord (.bool false) .brokenBool ['a', 'l', 's', 'e'] r
    | '[' :: r =>
      match skipSpace r with
      | [] => (.list [] .cutOff, [])
      | ']' :: r' => (.list [] .closed, r')
      | r' =>
        let (items, ending, rest) := readItems n r'
        (.list items ending, rest)
    | '\x7b' :: r =>
      match skipSpace r with
      | [] => (.object [] .cutOff, [])
      | '\x7d' :: r' => (.object [] .closed, r')
      | r' =>
        let (members, ending, rest) := readMembers n r'
        (.object members ending, rest)
    | c :: r =>
      if c = '-' ∨ c.isDigit then readNumber (c :: r) else (.gap (.noValue false), [])

/-- Reads the items of a list from the next one on, how it ends, and what follows it. -/
def readItems : Nat → List Char → List Node × ListEnd × List Char
  | 0, _ => ([], .cutOff, [])
  | n + 1, cs =>
    let (item, r) := readValue n cs
    match skipSpace r with
    | [] => ([item], .cutOff, [])
    | ']' :: r' => ([item], .closed, r')
    | ',' :: r' =>
      match skipSpace r' with
      | ']' :: _ => ([item], .danglingComma, [])
      | r'' =>
        let (items, ending, rest) := readItems n r''
        (item :: items, ending, rest)
    | _ => ([item], .noSeparator, [])

/-- Reads the members of an object from the next one on, how it ends, and what follows it. -/
def readMembers : Nat → List Char → List (Node × Node) × ObjectEnd × List Char
  | 0, _ => ([], .cutOff, [])
  | n + 1, cs =>
    let (key, r) := readValue n cs
    match skipSpace r with
    | ':' :: r' =>
      let (value, s) := readValue n r'
      match skipSpace s with
      | [] => ([(key, value)], .cutOff, [])
      | '\x7d' :: s' => ([(key, value)], .closed, s')
      | ',' :: s' =>
        match skipSpace s' with
        | [] => ([(key, value)], .cutOffAfterComma, [])
        | '\x7d' :: _ => ([(key, value)], .danglingComma, [])
        | s'' =>
          let (members, ending, rest) := readMembers n s''
          ((key, value) :: members, ending, rest)
      | _ => ([(key, value)], .noSeparator, [])
    | r' => ([(key, .gap (.noColon r'.isEmpty))], .cutOff, [])

end

/-- Reads the first value of a text, and what follows it. -/
def read (cs : List Char) : Node × List Char := readValue (2 * cs.length + 1) cs

end Node

/-! ### Faults of form -/

/-- The fault of a gap. -/
def Gap.fault : Gap → Fault
  | .noColon cutOff => if cutOff then .endInObject else .noColon
  | .noValue cutOff => if cutOff then .endInValue else .noValue
  | .brokenNull cutOff => if cutOff then .endInValue else .brokenWord
  | .brokenBool cutOff => if cutOff then .endInValue else .brokenWord
  | .brokenNumber cutOff => if cutOff then .endInValue else .brokenNumber

/-- The fault of a gap in a value that is passed over: a numeral that is cut off is broken. -/
def Gap.skipFault : Gap → Fault
  | .brokenNumber _ => .brokenNumber
  | g => g.fault

/-- The fault of a list's ending, if it is one. -/
def ListEnd.fault? : ListEnd → Option Fault
  | .closed => none
  | .cutOff => some .endInList
  | .noSeparator => some .noListSeparator
  | .danglingComma => some .trailingComma

/-- The fault of the ending of a list that is passed over: after a comma a value is due. -/
def ListEnd.skipFault? : ListEnd → Option Fault
  | .danglingComma => some .noValue
  | e => e.fault?

/-- The fault of an object's ending, if it is one. -/
def ObjectEnd.fault? : ObjectEnd → Option Fault
  | .closed => none
  | .cutOff => some .endInObject
  | .cutOffAfterComma => some .endInValue
  | .noSeparator => some .noObjectSeparator
  | .danglingComma => some .trailingComma

/-- The fault of the ending of an object that is passed over: after a comma a key is due. -/
def ObjectEnd.skipFault? : ObjectEnd → Option Fault
  | .cutOffAfterComma => some .endInObject
  | .danglingComma => some .keyNotText
  | e => e.fault?

/-- Fails with the fault, if there is one. -/
def Fault.raise? : Option Fault → Except Fault Unit
  | none => .ok ()
  | some f => .error f

namespace Node

mutual

/-- Passes over a value that nobody asked for. -/
def skip : Node → Except Fault Unit
  | .gap g => .error g.skipFault
  | .null => .ok ()
  | .bool _ => .ok ()
  | .number _ => .ok ()
  | .text q => q.skip
  | .list items ending => do
    skipItems items
    Fault.raise? ending.skipFault?
  | .object members ending => do
    skipMembers members
    Fault.raise? ending.skipFault?

/-- Passes over the items of a list. -/
def skipItems : List Node → Except Fault Unit
  | [] => .ok ()
  | v :: vs => do
    skip v
    skipItems vs

/-- Passes over the members of an object. -/
def skipMembers : List (Node × Node) → Except Fault Unit
  | [] => .ok ()
  | (k, v) :: ms => do
    match k with
    | .text q => q.skip
    | _ => .error .keyNotText
    skip v
    skipMembers ms

end

/-- The text of a key. -/
def keyText : Node → Except Fault String
  | .text q => q.text
  | _ => .error .keyNotText

/-- The levels that are left inside a list or an object. The last level may not be entered. -/
def enter (levels : Nat) : Except Fault Nat :=
  if levels ≤ 1 then .error .tooDeep else .ok (levels - 1)

mutual

/-- Reads a value as any value at all: it must be complete, in range and not too deep. -/
def check (levels : Nat) : Node → Except Fault Unit
  | .gap g => .error g.fault
  | .null => .ok ()
  | .bool _ => .ok ()
  | .number n => if n.inRange then .ok () else .error .numberTooLarge
  | .text q => do
    let _ ← q.text
  | .list items ending => do
    let inner ← enter levels
    checkItems inner items
    Fault.raise? ending.fault?
  | .object members ending => do
    let inner ← enter levels
    checkMembers inner members
    Fault.raise? ending.fault?

/-- Reads the items of a list. -/
def checkItems (levels : Nat) : List Node → Except Fault Unit
  | [] => .ok ()
  | v :: vs => do
    check levels v
    checkItems levels vs

/-- Reads the members of an object. -/
def checkMembers (levels : Nat) : List (Node × Node) → Except Fault Unit
  | [] => .ok ()
  | (k, v) :: ms => do
    let _ ← k.keyText
    check levels v
    checkMembers levels ms

end

/-- Why the node is not what its place asks for. A broken scalar is reported as such; lists and
objects are not looked into. -/
def mismatch (expected : Expected) : Node → Fault
  | .gap g => g.fault
  | .null => .wrongType .null expected
  | .bool b => .wrongType (.boolean b) expected
  | .number n => if n.inRange then .wrongType (.number n) expected else .numberTooLarge
  | .text q =>
    match q.text with
    | .ok s => .wrongType (.text s) expected
    | .error f => f
  | .list _ _ => .wrongType .list expected
  | .object _ _ => .wrongType .object expected

end Node

end ChangeDesk.Json
