import ChangeDesk.Json.Quoted

/-!
# Strings of a configuration text

The four ways to write a string: between double quotes, where a backslash begins an escape, and
between single quotes, where it does not; each on one line, or on several between three quotes. A
line feed right after three opening quotes does not count.
-/

namespace ChangeDesk.Toml

/-- The characters that may stand in a line. -/
def isLineChar (c : Char) : Bool := c == '\t' || (0x20 ≤ c.toNat && c.toNat != 0x7f)

/-- Whether a character may stand in a key without quotes. -/
def isBareChar (c : Char) : Bool := c.isAlphanum || c == '-' || c == '_'

/-- Whether a character is a space or a tab. -/
def isGap (c : Char) : Bool := c == ' ' || c == '\t'

/-- The text after the spaces and tabs in front of it. -/
def skipGap (cs : List Char) : List Char := cs.dropWhile isGap

/-- The character that a backslash and a letter stand for. -/
def escapedChar? : Char → Option Char
  | 'b' => some '\x08'
  | 't' => some '\t'
  | 'n' => some '\n'
  | 'f' => some '\x0c'
  | 'r' => some '\r'
  | '"' => some '"'
  | '\\' => some '\\'
  | _ => none

/-- The number that hexadecimal digits name. -/
def hexNumber? (ds : List Char) : Option Nat :=
  ds.foldlM (fun n d => (Json.Quoted.hexValue? d).map fun v => 16 * n + v) 0

/-- The character with a number in hexadecimal digits; surrogates are none. -/
def numberedChar? (ds : List Char) : Option Char := do
  let n ← hexNumber? ds
  if n < 0xd800 ∨ (0xdfff < n ∧ n < 0x110000) then some (Char.ofNat n) else none

/-- Puts a character in front. -/
def consChar (c : Option Char) (r : Option (List Char × List Char)) :
    Option (List Char × List Char) := do
  let c ← c
  let (cs, rest) ← r
  return (c :: cs, rest)

/-- Reads a string after its opening double quote, and what follows it. -/
def readBasic : List Char → Option (List Char × List Char)
  | [] => none
  | '"' :: r => some ([], r)
  | '\\' :: 'u' :: a :: b :: c :: d :: r => consChar (numberedChar? [a, b, c, d]) (readBasic r)
  | '\\' :: 'U' :: a :: b :: c :: d :: e :: f :: g :: h :: r =>
    consChar (numberedChar? [a, b, c, d, e, f, g, h]) (readBasic r)
  | '\\' :: c :: r => consChar (escapedChar? c) (readBasic r)
  | c :: r => if isLineChar c ∧ c ≠ '\\' then consChar (some c) (readBasic r) else none

/-- Where the reader of a long string stands: in its text, after a backslash at the end of a line,
or in the blanks that such a backslash takes away. -/
inductive Margin where
  | text
  | lineEnd
  | blanks
deriving DecidableEq, Repr

/-- Up to two quotes may stand directly before the three closing ones. -/
def closing (quote : Char) : List Char → List Char × List Char
  | c :: d :: r =>
    if c = quote ∧ d = quote then ([c, d], r)
    else if c = quote then ([c], d :: r) else ([], c :: d :: r)
  | [c] => if c = quote then ([c], []) else ([], [c])
  | [] => ([], [])

/-- Reads a long string after its opening quotes, and what follows it. -/
def readLongBasic : Margin → List Char → Option (List Char × List Char)
  | _, [] => none
  | .lineEnd, '\r' :: '\n' :: r => readLongBasic .blanks r
  | .lineEnd, c :: r =>
    if c = '\n' then readLongBasic .blanks r
    else if isGap c then readLongBasic .lineEnd r else none
  | .blanks, '\r' :: '\n' :: r => readLongBasic .blanks r
  | .blanks, ' ' :: r => readLongBasic .blanks r
  | .blanks, '\t' :: r => readLongBasic .blanks r
  | .blanks, '\n' :: r => readLongBasic .blanks r
  | _, '"' :: '"' :: '"' :: r => some (closing '"' r)
  | _, '\\' :: 'u' :: a :: b :: c :: d :: r =>
    consChar (numberedChar? [a, b, c, d]) (readLongBasic .text r)
  | _, '\\' :: 'U' :: a :: b :: c :: d :: e :: f :: g :: h :: r =>
    consChar (numberedChar? [a, b, c, d, e, f, g, h]) (readLongBasic .text r)
  | _, '\\' :: '\r' :: '\n' :: r => readLongBasic .blanks r
  | _, '\\' :: '\n' :: r => readLongBasic .blanks r
  | _, '\\' :: c :: r =>
    if isGap c then readLongBasic .lineEnd r
    else consChar (escapedChar? c) (readLongBasic .text r)
  | _, '\r' :: '\n' :: r => consChar (some '\n') (readLongBasic .text r)
  | _, c :: r =>
    if (isLineChar c ∨ c = '\n') ∧ c ≠ '\\' then consChar (some c) (readLongBasic .text r) else none

/-- Reads a string after its opening single quote, and what follows it. -/
def readLiteral : List Char → Option (List Char × List Char)
  | [] => none
  | c :: r =>
    if c = '\'' then some ([], r)
    else if isLineChar c then consChar (some c) (readLiteral r) else none

/-- Reads a long string after its opening single quotes, and what follows it. -/
def readLongLiteral : List Char → Option (List Char × List Char)
  | [] => none
  | '\'' :: '\'' :: '\'' :: r => some (closing '\'' r)
  | '\r' :: '\n' :: r => consChar (some '\n') (readLongLiteral r)
  | c :: r => if isLineChar c ∨ c = '\n' then consChar (some c) (readLongLiteral r) else none

/-- The text after a line feed in front of it, if there is one. -/
def skipLineFeed : List Char → List Char
  | '\n' :: r => r
  | '\r' :: '\n' :: r => r
  | cs => cs

/-- Reads a string of any kind, and what follows it. -/
def readText : List Char → Option (String × List Char)
  | '"' :: '"' :: '"' :: r => (readLongBasic .text (skipLineFeed r)).map fun p =>
    (String.ofList p.1, p.2)
  | '"' :: r => (readBasic r).map fun p => (String.ofList p.1, p.2)
  | '\'' :: '\'' :: '\'' :: r => (readLongLiteral (skipLineFeed r)).map fun p =>
    (String.ofList p.1, p.2)
  | '\'' :: r => (readLiteral r).map fun p => (String.ofList p.1, p.2)
  | _ => none

end ChangeDesk.Toml
