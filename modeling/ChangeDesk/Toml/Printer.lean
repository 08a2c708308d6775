import ChangeDesk.Toml.Text

/-!
# Writing a configuration text

A configuration is written as sections: a header, and under it one line per key. Each string is
written in the first form that holds it without an escape: on one line between double quotes, on
one line between single quotes, then the long forms. Only a string that none of them holds is
escaped.
-/

namespace ChangeDesk.Toml

/-- The forms of a written string. -/
inductive Form where
  | basic
  | literal
  | longBasic
  | longLiteral
deriving DecidableEq, Repr

/-- Whether a character can only be written by an escape. -/
def isControl (c : Char) : Bool := c.toNat == 0x7f || (c.toNat < 0x20 && c != '\t' && c != '\n')

/-- The length of the longest run of a character; the number says how many precede the text. -/
def longestRun (quote : Char) : Nat → List Char → Nat
  | n, [] => n
  | n, c :: cs =>
    if c = quote then longestRun quote (n + 1) cs else max n (longestRun quote 0 cs)

/-- The form in which a string is written. -/
def formOf (cs : List Char) : Form :=
  let double := longestRun '"' 0 cs
  let single := longestRun '\'' 0 cs
  let plain := !cs.any isControl
  let straight := plain && !cs.contains '\\'
  let line := !cs.contains '\n'
  if straight && double == 0 && line then .basic
  else if plain && single == 0 && line then .literal
  else if straight && double ≤ 2 then .longBasic
  else if plain && single ≤ 2 then .longLiteral
  else if line then .basic else .longBasic

/-- The four digits of a character's number. -/
def hexDigits (n : Nat) : List Char :=
  [n / 4096 % 16, n / 256 % 16, n / 16 % 16, n % 16].map fun d => (Nat.digitChar d).toUpper

/-- The escape of a character that needs one between double quotes. Quotes are no matter of a
single character. -/
def escapeOf (long : Bool) (c : Char) : Option (List Char) :=
  match c with
  | '\x08' => some ['\\', 'b']
  | '\t' => some ['\\', 't']
  | '\n' => if long then none else some ['\\', 'n']
  | '\x0c' => some ['\\', 'f']
  | '\r' => some ['\\', 'r']
  | '\\' => some ['\\', '\\']
  | c => if isControl c then some ('\\' :: 'u' :: hexDigits c.toNat) else none

/-- The text between double quotes. In the long form two quotes in a row may stand unescaped; the
number says how many precede the text. -/
def escape (long : Bool) : Nat → List Char → List Char
  | _, [] => []
  | n, c :: cs =>
    if c = '"' then
      if (if long then 2 else 0) ≤ n then '\\' :: '"' :: escape long 0 cs
      else '"' :: escape long (n + 1) cs
    else
      match escapeOf long c with
      | some e => e ++ escape long 0 cs
      | none => c :: escape long 0 cs

/-- A line feed after the opening quotes of a long string that has line feeds, where it does not
count. -/
def opening (cs : List Char) : List Char := if cs.contains '\n' then ['\n'] else []

/-- A string in a form. -/
def writeForm (form : Form) (cs : List Char) : List Char :=
  match form with
  | .basic => '"' :: escape false 0 cs ++ ['"']
  | .literal => '\'' :: cs ++ ['\'']
  | .longBasic => ['"', '"', '"'] ++ opening cs ++ escape true 0 cs ++ ['"', '"', '"']
  | .longLiteral => ['\'', '\'', '\''] ++ opening cs ++ cs ++ ['\'', '\'', '\'']

/-- A string as it is written. -/
def writeText (s : String) : List Char := writeForm (formOf s.toList) s.toList

/-- The form of a key that needs quotes. -/
def keyFormOf (cs : List Char) : Form :=
  let plain := !(cs.any isControl || cs.contains '\n')
  if plain && !cs.contains '\\' && !cs.contains '"' then .basic
  else if plain && !cs.contains '\'' then .literal
  else .basic

/-- A key as it is written. -/
def writeKey (s : String) : List Char :=
  let cs := s.toList
  if !cs.isEmpty && cs.all isBareChar then cs else writeForm (keyFormOf cs) cs

/-- A table with a header and the strings in it. -/
structure Section where
  path : List String
  texts : List (String × String)
deriving DecidableEq, Repr

/-- A section as it is written. -/
def writeSection (t : Section) : List Char :=
  '[' :: ['.'].intercalate (t.path.map writeKey) ++ [']', '\n'] ++
    t.texts.flatMap fun m => writeKey m.1 ++ [' ', '=', ' '] ++ writeText m.2 ++ ['\n']

/-- Sections as they are written, with a blank line between two. -/
def write (ts : List Section) : String :=
  String.ofList (['\n'].intercalate (ts.map writeSection))

example : String.ofList (writeText "it's \"quoted\"") = "\"\"\"it's \"quoted\"\"\"\"" := by
  decide +kernel

example : String.ofList (writeText "a\n\\''''\"\"\"\x07") =
    "\"\"\"\na\n\\\\''''\"\"\\\"\\u0007\"\"\"" := by decide +kernel

end ChangeDesk.Toml
