/-!
# Numbers, truth values and dates in a configuration text

Which words are scalars. Their values are not needed, but a word that is none makes the text
invalid, and so does a number that is out of range.
-/

namespace ChangeDesk.Toml

/-- The characters of which such words are made. -/
def isWordChar (c : Char) : Bool :=
  c.isAlphanum || c == '+' || c == '-' || c == '_' || c == '.' || c == ':'

/-- The word without a sign in front. -/
def unsigned : List Char → List Char
  | '+' :: r => r
  | '-' :: r => r
  | cs => cs

/-- Digits of a kind, with single underscores between some of them. -/
def isDigitRun (digit : Char → Bool) : List Char → Bool
  | [] => false
  | [c] => digit c
  | c :: '_' :: r => digit c && isDigitRun digit r
  | c :: r => digit c && isDigitRun digit r

/-- The digits without underscores. -/
def digitsOnly (cs : List Char) : List Char := cs.filter (· != '_')

/-- Decimal digits without a needless zero in front. -/
def isPlainDecimal (cs : List Char) : Bool :=
  isDigitRun Char.isDigit cs && (cs.head? != some '0' || cs.length == 1)

/-- The value of a digit in bases up to sixteen. -/
def digitValue (c : Char) : Nat :=
  if c.isDigit then c.toNat - '0'.toNat else c.toLower.toNat - 'a'.toNat + 10

/-- The value of digits in a base. -/
def valueIn (base : Nat) (cs : List Char) : Nat :=
  (digitsOnly cs).foldl (fun n c => base * n + digitValue c) 0

/-- Whether digits of a base are a number of 63 bits. -/
def isBased (base : Nat) (cs : List Char) : Bool :=
  isDigitRun (fun c => (c.isDigit || ('a' ≤ c.toLower && c.toLower ≤ 'f')) &&
    decide (digitValue c < base)) cs && decide (valueIn base cs < UInt64.size / 2)

/-- Whole numbers of 64 bits with a sign. -/
def isInteger (word : List Char) : Bool :=
  match word with
  | '0' :: 'x' :: r => isBased 16 r
  | '0' :: 'o' :: r => isBased 8 r
  | '0' :: 'b' :: r => isBased 2 r
  | _ =>
    let digits := unsigned word
    let limit := if word.head? = some '-' then UInt64.size / 2 else UInt64.size / 2 - 1
    isPlainDecimal digits && decide (valueIn 10 digits ≤ limit)

/-- The least number that rounds to infinity. -/
def infinityFrom : Nat := Nat.pow 2 1024 - Nat.pow 2 970

/-- Whether `n * 10 ^ e` rounds to infinity. -/
def overflows (n : Nat) (e : Int) : Bool :=
  if n = 0 then false
  else
    let size := ((Nat.toDigits 10 n).length : Int) + e
    if 310 < size then true
    else if size < 300 then false
    else decide (infinityFrom * Nat.pow 10 (-e).toNat ≤ n * Nat.pow 10 e.toNat)

/-- Splits a word at the first character with a property, which is left out. -/
def splitWord (p : Char → Bool) (cs : List Char) : List Char × Option (List Char) :=
  match cs.dropWhile (!p ·) with
  | [] => (cs, none)
  | _ :: r => (cs.takeWhile (!p ·), some r)

/-- Numbers with a fraction or an exponent, and the names of infinity and of no number. A positive
number may not be too large for a double. -/
def isFloat (word : List Char) : Bool :=
  let body := unsigned word
  if body = ['i', 'n', 'f'] ∨ body = ['n', 'a', 'n'] then true
  else
    let (mantissa, exponent) := splitWord (fun c => c == 'e' || c == 'E') body
    let (whole, fraction) := splitWord (· == '.') mantissa
    let digits := digitsOnly (whole ++ fraction.getD [])
    let places := (digitsOnly (fraction.getD [])).length
    let power := exponent.getD []
    let size : Nat := valueIn 10 (unsigned power)
    let e : Int := (if power.head? = some '-' then -(size : Int) else size) - places
    (fraction.isSome || exponent.isSome) && isPlainDecimal whole &&
      fraction.all (isDigitRun Char.isDigit) &&
      exponent.all (fun x => isDigitRun Char.isDigit (unsigned x)) &&
      (word.head? == some '-' || !overflows (valueIn 10 digits) e)

/-- The number that two digits name, if it is within bounds. -/
def twoDigits? (low high : Nat) (a b : Char) : Option Nat :=
  let n := 10 * digitValue a + digitValue b
  if a.isDigit ∧ b.isDigit ∧ low ≤ n ∧ n ≤ high then some n else none

/-- The days of a month. -/
def daysIn (year month : Nat) : Nat :=
  if month = 2 then if year % 4 = 0 ∧ (year % 100 ≠ 0 ∨ year % 400 = 0) then 29 else 28
  else if month = 4 ∨ month = 6 ∨ month = 9 ∨ month = 11 then 30 else 31

/-- Reads a date; what follows it. -/
def readDate? : List Char → Option (List Char)
  | a :: b :: c :: d :: '-' :: m :: n :: '-' :: x :: y :: r => do
    let century ← twoDigits? 0 99 a b
    let inCentury ← twoDigits? 0 99 c d
    let month ← twoDigits? 1 12 m n
    let _ ← twoDigits? 1 (daysIn (100 * century + inCentury) month) x y
    return r
  | _ => none

/-- Reads a time of day; what follows it. -/
def readTime? : List Char → Option (List Char)
  | a :: b :: ':' :: c :: d :: ':' :: e :: f :: r => do
    let _ ← twoDigits? 0 23 a b
    let _ ← twoDigits? 0 59 c d
    let _ ← twoDigits? 0 60 e f
    match r with
    | '.' :: r' => if r'.head?.any Char.isDigit then some (r'.dropWhile Char.isDigit) else none
    | r => some r
  | _ => none

/-- Whether a text is an offset from universal time, or nothing. -/
def isOffset : List Char → Bool
  | [] => true
  | ['Z'] => true
  | ['z'] => true
  | [s, a, b, ':', c, d] =>
    (s == '+' || s == '-') && (twoDigits? 0 23 a b).isSome && (twoDigits? 0 59 c d).isSome
  | _ => false

/-- Dates, times of day, and both joined by a letter or a space. -/
def isDateTime (word : List Char) : Bool :=
  match readTime? word with
  | some r => r.isEmpty
  | none =>
    match readDate? word with
    | none => false
    | some [] => true
    | some (c :: r) => (c == 'T' || c == 't' || c == ' ') && (readTime? r).any isOffset

/-- Whether a word is a scalar. -/
def isScalar (word : List Char) : Bool :=
  word == ['t', 'r', 'u', 'e'] || word == ['f', 'a', 'l', 's', 'e'] || isInteger word ||
    isFloat word || isDateTime word

/-- Reads a scalar; what follows it. A date may be followed by a space and a time. -/
def readScalar? (cs : List Char) : Option (List Char) :=
  let word := cs.takeWhile isWordChar
  let rest := cs.dropWhile isWordChar
  let longer := word ++ ' ' :: (rest.drop 1).takeWhile isWordChar
  if (readDate? word == some []) && rest.head? == some ' ' && isDateTime longer then
    some ((rest.drop 1).dropWhile isWordChar)
  else if isScalar word then some rest else none

end ChangeDesk.Toml
