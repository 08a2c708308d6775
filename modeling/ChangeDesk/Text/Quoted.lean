import ChangeDesk.Text.Printable

/-!
# Quoted text in messages

How a message quotes a text it could not use: between double quotes, with a backslash form for
quotes, backslashes, line breaks, tabs and nulls, and the code point in braces for characters that
cannot be told from their picture.
-/

namespace ChangeDesk.Text

/-- A character inside a quoted text. -/
def quoteChar (c : Char) : List Char :=
  match c with
  | '\x00' => ['\\', '0']
  | '\t' => ['\\', 't']
  | '\r' => ['\\', 'r']
  | '\n' => ['\\', 'n']
  | '"' => ['\\', '"']
  | '\\' => ['\\', '\\']
  | c =>
    if isExtending c || !isPrintable c then
      ['\\', 'u', '\x7b'] ++ Nat.toDigits 16 c.toNat ++ ['\x7d']
    else [c]

/-- The text between double quotes. -/
def quoted (s : String) : String :=
  String.ofList ('"' :: s.toList.flatMap quoteChar ++ ['"'])

example : quoted "a\"b\\c" = "\"a\\\"b\\\\c\"" := by decide +kernel
example : quoted "\x1b\u200b" = "\"\\u\x7b1b\x7d\\u\x7b200b\x7d\"" := by decide +kernel

end ChangeDesk.Text
