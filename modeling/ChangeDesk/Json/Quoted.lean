import ChangeDesk.Json.Fault

/-!
# Quoted texts in documents

A text between double quotes is read in two steps. `Quoted.read` finds where it ends and takes its
escapes apart, keeping numbered escapes as 16-bit units. `Quoted.text` joins paired units and
refuses lone ones. A text nobody needs is only read by the first step.

Main statement: what `quote` writes is read back, whatever follows it (`read_body`,
`text_written`).
-/

namespace ChangeDesk.Json

/-- A part of a quoted text: a character, or a 16-bit unit given by number. -/
inductive Piece where
  | char (c : Char)
  | unit (n : Nat)
deriving DecidableEq, Repr

/-- How a quoted text ends. -/
inductive QuoteEnd where
  | closed
  | cutOff
  | control
  | unknownEscape
  | brokenUnit
deriving DecidableEq, Repr

/-- The fault of an ending, if it is one. -/
def QuoteEnd.fault? : QuoteEnd → Option Fault
  | .closed => none
  | .cutOff => some .endInText
  | .control => some .controlCharacter
  | .unknownEscape => some .brokenEscape
  | .brokenUnit => some .brokenEscape

/-- A quoted text as it is written. -/
structure Quoted where
  pieces : List Piece
  ending : QuoteEnd
deriving DecidableEq, Repr

namespace Quoted

/-- The value of a hexadecimal digit. -/
def hexValue? (c : Char) : Option Nat :=
  if '0' ≤ c ∧ c ≤ '9' then some (c.toNat - '0'.toNat)
  else if 'a' ≤ c ∧ c ≤ 'f' then some (c.toNat - 'a'.toNat + 10)
  else if 'A' ≤ c ∧ c ≤ 'F' then some (c.toNat - 'A'.toNat + 10)
  else none

/-- The number that four hexadecimal digits name. -/
def unitValue? (a b c d : Char) : Option Nat := do
  return ((← hexValue? a) * 16 + (← hexValue? b)) * 256 + ((← hexValue? c) * 16 + (← hexValue? d))

/-- The characters that a backslash and one letter stand for. -/
def escapedChar? : Char → Option Char
  | '"' => some '"'
  | '\\' => some '\\'
  | '/' => some '/'
  | 'b' => some '\x08'
  | 'f' => some '\x0c'
  | 'n' => some '\n'
  | 'r' => some '\r'
  | 't' => some '\t'
  | _ => none

/-- Four bytes are due after a numbered escape's letter; a text with fewer ends too early. -/
def unitEnd (rest : List Char) : QuoteEnd :=
  if (String.ofList (rest.take 4)).utf8ByteSize < 4 then .cutOff else .brokenUnit

/-- Puts a piece in front. -/
def cons (p : Piece) (r : Quoted × List Char) : Quoted × List Char :=
  (⟨p :: r.1.pieces, r.1.ending⟩, r.2)

/-- Reads a text after its opening quote, and what is left after its closing quote. After a fault
nothing is left. -/
def read : List Char → Quoted × List Char
  | [] => (⟨[], .cutOff⟩, [])
  | '"' :: r => (⟨[], .closed⟩, r)
  | '\\' :: 'u' :: a :: b :: c :: d :: r =>
    match unitValue? a b c d with
    | some n => cons (.unit n) (read r)
    | none => (⟨[], .brokenUnit⟩, [])
  | '\\' :: 'u' :: r => (⟨[], unitEnd r⟩, [])
  | '\\' :: c :: r =>
    match escapedChar? c with
    | some e => cons (.char e) (read r)
    | none => (⟨[], .unknownEscape⟩, [])
  | ['\\'] => (⟨[], .cutOff⟩, [])
  | c :: r => if c.toNat < 0x20 then (⟨[], .control⟩, []) else cons (.char c) (read r)

/-- Whether a unit is the first of a pair. -/
def isLead (n : Nat) : Bool := 0xd800 ≤ n && n ≤ 0xdbff

/-- Whether a unit is the second of a pair. -/
def isTrail (n : Nat) : Bool := 0xdc00 ≤ n && n ≤ 0xdfff

/-- The character of a pair of units. -/
def pairChar (lead trail : Nat) : Char :=
  Char.ofNat (0x10000 + (lead - 0xd800) * 0x400 + (trail - 0xdc00))

/-- The fault of a first unit at the end of the pieces: the text is cut off there, or something
else than a numbered escape follows. -/
def faultAfterLead : QuoteEnd → Fault
  | .cutOff => .endInText
  | .brokenUnit => .brokenEscape
  | _ => .unpairedLead

/-- The characters of the pieces, with units paired, up to the first fault. -/
def charsOf (ending : QuoteEnd) : List Piece → Except Fault (List Char)
  | [] =>
    match ending.fault? with
    | none => .ok []
    | some f => .error f
  | .char c :: ps => (c :: ·) <$> charsOf ending ps
  | .unit n :: ps =>
    if isTrail n then .error .unpairedTrail
    else if isLead n then
      match ps with
      | [] => .error (faultAfterLead ending)
      | .char _ :: _ => .error .unpairedLead
      | .unit m :: ps' =>
        if isTrail m then (pairChar n m :: ·) <$> charsOf ending ps' else .error .unpairedTrail
    else (Char.ofNat n :: ·) <$> charsOf ending ps

/-- The text, if it is complete and its units are paired. -/
def text (q : Quoted) : Except Fault String :=
  String.ofList <$> charsOf q.ending q.pieces

/-- The fault of a text that is not needed; units need not be paired. -/
def skip (q : Quoted) : Except Fault Unit :=
  match q.ending.fault? with
  | none => .ok ()
  | some f => .error f

/-! ### Writing -/

/-- The letter that stands for a character after a backslash. -/
def letter? : Char → Option Char
  | '"' => some '"'
  | '\\' => some '\\'
  | '\x08' => some 'b'
  | '\x0c' => some 'f'
  | '\n' => some 'n'
  | '\r' => some 'r'
  | '\t' => some 't'
  | _ => none

/-- A character inside a quoted text. Controls without a letter are written by number. -/
def escape (c : Char) : List Char :=
  match letter? c with
  | some l => ['\\', l]
  | none =>
    if c.toNat < 0x20 then
      ['\\', 'u', '0', '0', Nat.digitChar (c.toNat / 16), Nat.digitChar (c.toNat % 16)]
    else [c]

/-- The characters of a text and its closing quote. -/
def body (cs : List Char) : List Char := cs.flatMap escape ++ ['"']

/-- The text between double quotes. -/
def quote (s : String) : List Char := '"' :: body s.toList

/-- The piece as which a character that was written is read. -/
def pieceOf (c : Char) : Piece :=
  if letter? c = none ∧ c.toNat < 0x20 then .unit c.toNat else .char c

theorem escapedChar?_of_letter? {c l : Char} (h : letter? c = some l) :
    escapedChar? l = some c := by
  unfold letter? at h
  split at h <;> first | (obtain rfl := Option.some.inj h; rfl) | simp at h

theorem ne_u_of_letter? {c l : Char} (h : letter? c = some l) : l ≠ 'u' := by
  intro hl
  subst hl
  simpa [escapedChar?] using escapedChar?_of_letter? h

theorem unitValue?_control : ∀ n < 0x20,
    unitValue? '0' '0' (Nat.digitChar (n / 16)) (Nat.digitChar (n % 16)) = some n := by
  decide

theorem read_letter {c l : Char} (h : letter? c = some l) (r : List Char) :
    read ('\\' :: l :: r) = cons (.char c) (read r) := by
  have he := escapedChar?_of_letter? h
  have hu := ne_u_of_letter? h
  rw [read.eq_def]
  split
  case h_5 heq _ => grind
  all_goals grind

theorem read_plain {c : Char} (h₁ : c ≠ '"') (h₂ : c ≠ '\\') (h : ¬c.toNat < 0x20)
    (r : List Char) : read (c :: r) = cons (.char c) (read r) := by
  rw [read.eq_def]
  split <;> grind

/-- A character that was written is read as its piece. -/
theorem read_escape (c : Char) (r : List Char) :
    read (escape c ++ r) = cons (pieceOf c) (read r) := by
  unfold escape pieceOf
  cases hl : letter? c with
  | some l =>
    simp only [reduceCtorEq, false_and, ↓reduceIte]
    exact read_letter hl r
  | none =>
    by_cases hc : c.toNat < 0x20
    · simp only [hc, ↓reduceIte, List.cons_append, List.nil_append, and_self, read,
        unitValue?_control c.toNat hc]
    · simp only [hc, ↓reduceIte, and_false, List.cons_append, List.nil_append]
      refine read_plain (fun h => ?_) (fun h => ?_) hc r
      · subst h
        simp [letter?] at hl
      · subst h
        simp [letter?] at hl

/-- What was written is read, up to the closing quote. -/
theorem read_body (cs r : List Char) :
    read (body cs ++ r) = (⟨cs.map pieceOf, .closed⟩, r) := by
  induction cs with
  | nil => rfl
  | cons c cs ih =>
    have h : body (c :: cs) ++ r = escape c ++ (body cs ++ r) := by simp [body]
    rw [h, read_escape, ih]
    rfl

theorem charsOf_map_pieceOf (cs : List Char) :
    charsOf .closed (cs.map pieceOf) = .ok cs := by
  induction cs with
  | nil => rfl
  | cons c cs ih =>
    rw [List.map_cons, pieceOf]
    split
    · rename_i hc
      have ht : isTrail c.toNat = false := by simp [isTrail]; omega
      have hl : isLead c.toNat = false := by simp [isLead]; omega
      have hv : Char.ofNat c.toNat = c := Char.ofNat_toNat c
      rw [charsOf.eq_def]
      simp only [ht, hl, ih, hv, Bool.false_eq_true, ↓reduceIte]
      rfl
    · rw [charsOf.eq_def]
      simp only [ih]
      rfl

/-- The text of what was written is the text. -/
theorem text_written (s : String) :
    text ⟨s.toList.map pieceOf, .closed⟩ = .ok s := by
  rw [text, charsOf_map_pieceOf]
  show Except.ok (String.ofList s.toList) = Except.ok s
  rw [String.ofList_toList]

end Quoted

end ChangeDesk.Json
