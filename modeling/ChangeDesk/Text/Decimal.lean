/-!
# Whole numbers in decimal

Writing a number in decimal, and reading one that must fit below a limit. Digits are read from
the left, so of two faults the one met first is reported: a character that is no digit, or the
digit with which the value leaves the range.

Main statement: reading gives back every number within the limit that was written
(`readDigits_toDigits`).
-/

namespace ChangeDesk.Text

/-- Why a text is not a number within the limit. -/
inductive NumberFault where
  | empty
  | invalidDigit
  | tooLarge
deriving DecidableEq, Repr

/-- The wording of a fault. -/
def NumberFault.message : NumberFault → String
  | .empty => "cannot parse integer from empty string"
  | .invalidDigit => "invalid digit found in string"
  | .tooLarge => "number too large to fit in target type"

/-- The value of a decimal digit. -/
def digitValue? (c : Char) : Option Nat :=
  if c.isDigit then some (c.toNat - '0'.toNat) else none

/-- Reads digits after the value `acc` of those already read; no value may pass `limit`. -/
def readDigits (limit acc : Nat) : List Char → Except NumberFault Nat
  | [] => .ok acc
  | c :: cs =>
    match digitValue? c with
    | none => .error .invalidDigit
    | some d =>
      let n := 10 * acc + d
      if n ≤ limit then readDigits limit n cs else .error .tooLarge

/-- Reads one or more digits, after at most one plus sign. -/
def readNatural (limit : Nat) : List Char → Except NumberFault Nat
  | [] => .error .empty
  | ['+'] => .error .invalidDigit
  | '+' :: c :: cs => readDigits limit 0 (c :: cs)
  | cs => readDigits limit 0 cs

/-- Reads one or more digits, after at most one sign, as an integer from `-limit - 1` to
`limit`. -/
def readInteger? (limit : Nat) : List Char → Option Int
  | [] => none
  | ['-'] => none
  | '-' :: c :: cs => (readDigits (limit + 1) 0 (c :: cs)).toOption.map fun n => -(n : Int)
  | cs => (readNatural limit cs).toOption.map fun n => (n : Int)

theorem readDigits_append_of_ok {limit acc n : Nat} {cs : List Char}
    (h : readDigits limit acc cs = .ok n) (ds : List Char) :
    readDigits limit acc (cs ++ ds) = readDigits limit n ds := by
  induction cs generalizing acc with
  | nil =>
    rw [readDigits, Except.ok.injEq] at h
    rw [List.nil_append, h]
  | cons c cs ih =>
    rw [List.cons_append, readDigits]
    rw [readDigits] at h
    cases hd : digitValue? c with
    | none => simp [hd] at h
    | some d =>
      simp only [hd] at h ⊢
      split at h
      · rename_i hle
        rw [if_pos hle]
        exact ih h
      · simp at h

theorem le_ofDigitChars (acc : Nat) (cs : List Char) : acc ≤ Nat.ofDigitChars 10 cs acc := by
  induction cs generalizing acc with
  | nil => exact Nat.le_refl _
  | cons c cs ih =>
    rw [Nat.ofDigitChars_cons]
    exact Nat.le_trans (by omega) (ih _)

/-- Digits whose value is within the limit are read as that value. -/
theorem readDigits_of_isDigit {limit acc : Nat} {cs : List Char}
    (hd : ∀ c ∈ cs, c.isDigit = true) (hl : Nat.ofDigitChars 10 cs acc ≤ limit) :
    readDigits limit acc cs = .ok (Nat.ofDigitChars 10 cs acc) := by
  induction cs generalizing acc with
  | nil => rfl
  | cons c cs ih =>
    rw [Nat.ofDigitChars_cons] at hl ⊢
    have hc : c.isDigit = true := hd c (by simp)
    have hn := Nat.le_trans (le_ofDigitChars _ cs) hl
    rw [readDigits, digitValue?, if_pos hc]
    simp only [if_pos hn]
    exact ih (fun d h => hd d (List.mem_cons_of_mem _ h)) hl

/-- A number within the limit is read back from its decimal digits. -/
theorem readDigits_toDigits {limit n : Nat} (h : n ≤ limit) :
    readDigits limit 0 (Nat.toDigits 10 n) = .ok n := by
  have hv : Nat.ofDigitChars 10 (Nat.toDigits 10 n) 0 = n :=
    Nat.ofDigitChars_toDigits (by decide) (by decide)
  rw [readDigits_of_isDigit (fun c => Nat.isDigit_of_mem_toDigits (by decide) (by decide))
    (by rw [hv]; exact h), hv]

end ChangeDesk.Text
