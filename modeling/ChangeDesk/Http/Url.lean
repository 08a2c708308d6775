/-!
# Web addresses

An address is taken apart into its scheme, host, port, path, query and fragment, and put together
again in one normal form: the scheme and the host in small letters, the usual port left out, dot
segments resolved and other characters percent-encoded byte by byte.
-/

namespace ChangeDesk.Http

/-- Why a text is no address that can be asked. -/
inductive UrlFault where
  | noScheme
  | otherScheme (text : String)
  | emptyHost
  | badHost
  | badPort
deriving DecidableEq, Repr

/-- The wording of a fault. -/
def UrlFault.message : UrlFault → String
  | .noScheme => "relative URL without a base"
  | .otherScheme _ => "URL scheme is not allowed"
  | .emptyHost => "empty host"
  | .badHost => "invalid international domain name"
  | .badPort => "invalid port number"

/-- An address of a web server and a place on it. -/
structure Url where
  secure : Bool
  host : List Char
  port : Option Nat
  path : List (List Char)
  query : Option (List Char)
  fragment : Option (List Char)
deriving DecidableEq, Repr

namespace Url

/-- A byte as a percent sign and two hexadecimal digits. -/
def percent (b : UInt8) : List Char :=
  ['%', (Nat.digitChar (b.toNat / 16)).toUpper, (Nat.digitChar (b.toNat % 16)).toUpper]

/-- Encodes the bytes of every character that is not plain ASCII or is one of the given ones. -/
def encodeChars (also : List Char) (cs : List Char) : List Char :=
  cs.flatMap fun c =>
    if c.toNat ≤ 0x20 || 0x7e < c.toNat || also.contains c then
      (String.singleton c).toUTF8.toList.flatMap percent
    else [c]

/-- The characters that are encoded in a path, a query and a fragment. -/
def pathSet : List Char := ['"', '#', '<', '>', '?', '`', '\x7b', '\x7d']

@[inherit_doc pathSet]
def querySet : List Char := ['"', '#', '<', '>', '\'']

@[inherit_doc pathSet]
def fragmentSet : List Char := ['"', '<', '>', '`']

/-- Splits a text at the separators. -/
def splitSegments : List Char → List (List Char)
  | [] => [[]]
  | c :: cs =>
    if c = '/' ∨ c = '\\' then [] :: splitSegments cs
    else
      match splitSegments cs with
      | [] => [[c]]
      | s :: ss => (c :: s) :: ss

/-- A dot, also in its encoded form, at the start of a segment. -/
def dropDot : List Char → Option (List Char)
  | '.' :: r => some r
  | '%' :: '2' :: 'e' :: r => some r
  | '%' :: '2' :: 'E' :: r => some r
  | _ => none

/-- Whether a segment is a single dot. -/
def isDot (s : List Char) : Bool := dropDot s == some []

/-- Whether a segment is a double dot. -/
def isDoubleDot (s : List Char) : Bool := (dropDot s).any isDot

/-- Whether a segment names a drive: a letter, and a colon or a bar. -/
def isDrive : List Char → Bool
  | [c, d] => c.isAlpha && (d == ':' || d == '|')
  | _ => false

/-- The segments that a double dot leaves of those before it, the last one first. It takes back
the last one, unless that names a drive. -/
def goUp : List (List Char) → List (List Char)
  | [] => []
  | s :: rest => if isDrive s then s :: rest else rest

/-- Resolves the dots among segments; `done` holds those before, the last one first. A dot at the
end leaves an empty segment. -/
def resolve (done : List (List Char)) : List (List Char) → List (List Char)
  | [] => done.reverse
  | [s] =>
    if isDoubleDot s then ([] :: goUp done).reverse
    else if isDot s then ([] :: done).reverse
    else (encodeChars pathSet s :: done).reverse
  | s :: rest =>
    if isDoubleDot s then resolve (goUp done) rest
    else if isDot s then resolve done rest
    else resolve (encodeChars pathSet s :: done) rest

/-- Splits a text at the first character with a property, which stays in front of the rest. -/
def cut (p : Char → Bool) (cs : List Char) : List Char × List Char :=
  (cs.takeWhile (!p ·), cs.dropWhile (!p ·))

/-- Reads a port; the usual one counts as none. -/
def readPort (secure : Bool) (cs : List Char) : Except UrlFault (Option Nat) :=
  if cs.all Char.isDigit then
    let n := Nat.ofDigitChars 10 cs 0
    if cs.isEmpty ∨ n = (if secure then 443 else 80) then .ok none
    else if n ≤ 65535 then .ok (some n)
    else .error .badPort
  else .error .badPort

/-- Whether a character may not stand in the name of a host. -/
def badInHost (c : Char) : Bool :=
  c.toNat ≤ 0x20 || c.toNat == 0x7f ||
    ['"', '#', '%', '/', ':', '<', '>', '?', '@', '[', '\\', ']', '^', '`', '\x7b', '|',
      '\x7d'].contains c

/-- Reads a host and its port; a host in brackets is kept as it is. -/
def readHost (secure : Bool) (cs : List Char) : Except UrlFault (List Char × Option Nat) := do
  let (name, rest) :=
    if cs.head? = some '[' then
      let (inside, rest) := cut (· == ']') cs
      (inside ++ rest.take 1, rest.drop 1)
    else cut (· == ':') cs
  if name.isEmpty then .error .emptyHost
  else if cs.head? ≠ some '[' ∧ name.any badInHost then .error .badHost
  else
    let port ← readPort secure (rest.drop 1)
    return (name.map Char.toLower, port)

/-- Reads what follows the slashes after a scheme. -/
def readRest (secure : Bool) (cs : List Char) : Except UrlFault Url := do
  let (authority, rest) := cut (fun c => ['/', '\\', '?', '#'].contains c) cs
  let host := ((authority.reverse.takeWhile (· != '@'))).reverse
  let (host, port) ← readHost secure host
  let (path, rest) := cut (fun c => c == '?' || c == '#') rest
  let (query, rest) := cut (· == '#') rest
  return ⟨secure, host, port, resolve [] (splitSegments (path.drop 1)),
    if query.isEmpty then none else some (encodeChars querySet (query.drop 1)),
    if rest.isEmpty then none else some (encodeChars fragmentSet (rest.drop 1))⟩

/-- Whether a character may stand in a scheme. -/
def isSchemeChar (c : Char) : Bool := c.isAlphanum || c == '+' || c == '-' || c == '.'

/-- Reads an address. Spaces and controls around it and line breaks in it do not count. -/
def read (s : String) : Except UrlFault Url :=
  let inner (cs : List Char) := cs.dropWhile fun c => c.toNat ≤ 0x20
  let cs := (inner (inner s.toList).reverse).reverse
  let cs := cs.filter fun c => c != '\t' && c != '\n' && c != '\r'
  let (scheme, rest) := cut (· == ':') cs
  let after := (rest.drop 1).dropWhile fun c => c == '/' || c == '\\'
  if rest.isEmpty ∨ !(scheme.head?.any Char.isAlpha) ∨ !(scheme.all isSchemeChar) then
    .error .noScheme
  else
    match String.ofList (scheme.map Char.toLower) with
    | "http" => readRest false after
    | "https" => readRest true after
    | _ => .error (.otherScheme (String.ofList cs))

/-- The scheme, host and port. -/
def origin (u : Url) : List Char :=
  (if u.secure then "https://" else "http://").toList ++ u.host ++
    match u.port with
    | none => []
    | some n => ':' :: Nat.toDigits 10 n

/-- The path and the query, as they are sent. -/
def target (u : Url) : List Char :=
  u.path.flatMap (fun s => '/' :: s) ++
    match u.query with
    | none => []
    | some q => '?' :: q

/-- The address in its normal form. -/
def text (u : Url) : String :=
  String.ofList (u.origin ++ u.target ++
    match u.fragment with
    | none => []
    | some f => '#' :: f)

end Url

end ChangeDesk.Http
