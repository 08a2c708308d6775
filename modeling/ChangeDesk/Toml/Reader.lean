import ChangeDesk.Toml.Scalar
import ChangeDesk.Toml.Table
import ChangeDesk.Toml.Text

/-!
# Reading a configuration text

A configuration text is a sequence of lines: headers, definitions of keys, comments. Reading gives
the members of its table, or nothing if the text is invalid anywhere.
-/

namespace ChangeDesk.Toml

/-- Values may be nested, and keys dotted, less deeply than this. -/
def depthLimit : Nat := 80

/-- Reads one part of a key, and what follows it. -/
def readKeyPart (cs : List Char) : Option (String × List Char) :=
  match cs with
  | '"' :: r => (readBasic r).map fun p => (String.ofList p.1, p.2)
  | '\'' :: r => (readLiteral r).map fun p => (String.ofList p.1, p.2)
  | cs =>
    match cs.takeWhile isBareChar with
    | [] => none
    | part => some (String.ofList part, cs.dropWhile isBareChar)

/-- Reads a key with dots, and what follows it and the space behind it. The first argument bounds
the number of parts. -/
def readKey : Nat → List Char → Option (List String × List Char)
  | 0, _ => none
  | n + 1, cs => do
    let (part, r) ← readKeyPart (skipGap cs)
    match skipGap r with
    | '.' :: r' =>
      let (parts, rest) ← readKey n r'
      return (part :: parts, rest)
    | r' => return ([part], r')

/-- Skips a comment up to the end of its line. -/
def skipComment : List Char → Option (List Char)
  | [] => some []
  | '\n' :: r => some ('\n' :: r)
  | '\r' :: '\n' :: r => some ('\n' :: r)
  | c :: r => if isLineChar c then skipComment r else none

/-- Skips blanks, line feeds and comments; the flag says that a comment has begun. -/
def skipLines : Bool → List Char → Option (List Char)
  | _, [] => some []
  | _, '\n' :: r => skipLines false r
  | _, '\r' :: '\n' :: r => skipLines false r
  | true, c :: r => if isLineChar c then skipLines true r else none
  | false, c :: r =>
    if isGap c then skipLines false r
    else if c = '#' then skipLines true r
    else some (c :: r)

mutual

/-- Reads a value, and what follows it. The first argument bounds the number of values, the second
is the depth. -/
def readValue : Nat → Nat → List Char → Option (Item × List Char)
  | 0, _, _ => none
  | n + 1, depth, cs =>
    match cs with
    | '[' :: r =>
      if depthLimit ≤ depth + 1 then none
      else do
        let (items, rest) ← readItems n (depth + 1) r
        return (.list items, rest)
    | '\x7b' :: r =>
      if depthLimit ≤ depth + 1 then none
      else
        match skipGap r with
        | '\x7d' :: r' => some (.table .inline [], r')
        | r' => do
          let (members, rest) ← readPairs n (depth + 1) [] r'
          return (.table .inline members, rest)
    | '"' :: _ => (readText cs).map fun p => (.text p.1, p.2)
    | '\'' :: _ => (readText cs).map fun p => (.text p.1, p.2)
    | cs => (readScalar? cs).map fun rest => (.scalar, rest)

/-- Reads the items of a list up to its end, and what follows it. -/
def readItems : Nat → Nat → List Char → Option (List Item × List Char)
  | 0, _, _ => none
  | n + 1, depth, cs => do
    match ← skipLines false cs with
    | ']' :: r => return ([], r)
    | r =>
      let (item, r) ← readValue n depth r
      match ← skipLines false r with
      | ']' :: r => return ([item], r)
      | ',' :: r =>
        let (items, rest) ← readItems n depth r
        return (item :: items, rest)
      | _ => none

/-- Reads the definitions between braces up to the closing one, and what follows it. -/
def readPairs : Nat → Nat → Members → List Char → Option (Members × List Char)
  | 0, _, _, _ => none
  | n + 1, depth, members, cs => do
    let (path, r) ← readKey depthLimit.pred cs
    match r with
    | '=' :: r =>
      let (item, r) ← readValue n depth (skipGap r)
      let key ← path.getLast?
      let members ← define path.dropLast key item .inline members
      match skipGap r with
      | '\x7d' :: r => return (members, r)
      | ',' :: r => readPairs n depth members r
      | _ => none
    | _ => none

end

/-- The end of a line: blanks and a comment may come before it. -/
def endLine (cs : List Char) : Option (List Char) := do
  let r ← match skipGap cs with
    | '#' :: r => skipComment r
    | r => some r
  match r with
  | [] => return []
  | '\n' :: r => return r
  | '\r' :: '\n' :: r => return r
  | _ => none

/-- Adds a definition to the table that the last header opened. -/
def defineUnder (header : List String) (path : List String) (item : Item) (root : Members) :
    Option Members := do
  let key ← path.getLast?
  changeAt false (define path.dropLast key item) header .header root

/-- Reads one line that is not blank: the table after it, the last header, and what follows. -/
def readLine (header : List String) (root : Members) (cs : List Char) :
    Option (List String × Members × List Char) :=
  match cs with
  | '[' :: '[' :: r => do
    let (path, r) ← readKey depthLimit.pred r
    let key ← path.getLast?
    match r with
    | ']' :: ']' :: r => return (path, ← openElement path.dropLast key root, ← endLine r)
    | _ => none
  | '[' :: r => do
    let (path, r) ← readKey depthLimit.pred r
    let key ← path.getLast?
    match r with
    | ']' :: r => return (path, ← openTable path.dropLast key root, ← endLine r)
    | _ => none
  | cs => do
    let (path, r) ← readKey depthLimit.pred cs
    match r with
    | '=' :: r =>
      let (item, r) ← readValue (2 * r.length + 1) 0 (skipGap r)
      return (header, ← defineUnder header path item root, ← endLine r)
    | _ => none

/-- Reads lines up to the end of the text. The first argument bounds their number. -/
def readLines : Nat → List String → Members → List Char → Option Members
  | 0, _, _, _ => none
  | n + 1, header, root, cs => do
    match ← skipLines false cs with
    | [] => return root
    | r =>
      let (header, root, rest) ← readLine header root r
      readLines n header root rest

/-- Reads a configuration text. A byte order mark in front of it does not count. -/
def read (s : String) : Option Members :=
  let cs := match s.toList with
    | '\ufeff' :: r => r
    | cs => cs
  readLines (cs.length + 1) [] [] cs

end ChangeDesk.Toml
