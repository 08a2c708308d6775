/-!
# Blanks and trimming

The characters with the Unicode property White_Space, and trimming by that class. Text is a list
of characters here; `trimmed` is the same operation on strings.

Main statements: blanks in front of a text are dropped (`trimStart_append_of_blank`), and what is
left does not start with one (`isBlank_head_trimStart`).
-/

namespace ChangeDesk.Text

/-- The Unicode property White_Space. -/
def isBlank (c : Char) : Bool :=
  let n := c.toNat
  (9 ≤ n && n ≤ 13) || n == 0x20 || n == 0x85 || n == 0xa0 || n == 0x1680 ||
    (0x2000 ≤ n && n ≤ 0x200a) || n == 0x2028 || n == 0x2029 || n == 0x202f || n == 0x205f ||
    n == 0x3000

/-- The blanks of program text are blanks here too. -/
theorem isBlank_of_isWhitespace {c : Char} (h : c.isWhitespace = true) : isBlank c = true := by
  simp only [Char.isWhitespace, Bool.or_eq_true, decide_eq_true_eq] at h
  rcases h with ((rfl | rfl) | rfl) | rfl <;> rfl

theorem isBlank_of_isDigit {c : Char} (hc : c.isDigit = true) : isBlank c = false := by
  have hrange : 48 ≤ c.toNat ∧ c.toNat ≤ 57 := by
    simpa [Char.isDigit, UInt32.le_iff_toNat_le] using hc
  simp only [isBlank, Bool.or_eq_false_iff, Bool.and_eq_false_iff, decide_eq_false_iff_not,
    beq_eq_false_iff_ne]
  omega

/-- The text from its first character that is no blank. -/
def trimStart (cs : List Char) : List Char := cs.dropWhile isBlank

/-- The text up to its last character that is no blank. -/
def trimEnd (cs : List Char) : List Char := (cs.reverse.dropWhile isBlank).reverse

/-- The text without the blanks around it. -/
def trim (cs : List Char) : List Char := trimEnd (trimStart cs)

theorem trimStart_blank_cons {c : Char} (h : isBlank c = true) (cs : List Char) :
    trimStart (c :: cs) = trimStart cs := by
  simp [trimStart, h]

theorem trimStart_cons {c : Char} (h : isBlank c = false) (cs : List Char) :
    trimStart (c :: cs) = c :: cs := by
  simp [trimStart, h]

theorem trimStart_append_of_blank {bs : List Char} (h : ∀ c ∈ bs, isBlank c = true)
    (cs : List Char) : trimStart (bs ++ cs) = trimStart cs := by
  induction bs with
  | nil => rfl
  | cons b bs ih =>
    rw [List.cons_append, trimStart_blank_cons (h b (by simp))]
    exact ih fun c hc => h c (List.mem_cons_of_mem _ hc)

theorem isBlank_head_trimStart {cs : List Char} {c : Char} {r : List Char}
    (h : trimStart cs = c :: r) : isBlank c = false := by
  induction cs with
  | nil => simp [trimStart] at h
  | cons d ds ih =>
    cases hd : isBlank d with
    | true => exact ih (by rwa [trimStart_blank_cons hd] at h)
    | false =>
      rw [trimStart_cons hd, List.cons.injEq] at h
      rw [← h.1, hd]

/-- Trimming a text that has no blank at its ends changes nothing. -/
theorem trim_eq_self {cs : List Char} (h : trimStart cs = cs) (h' : trimEnd cs = cs) :
    trim cs = cs := by
  rw [trim, h, h']

/-- The string without the blanks around it. -/
def trimmed (s : String) : String := String.ofList (trim s.toList)

/-- Whether the string holds nothing but blanks. -/
def allBlank (s : String) : Bool := s.toList.all isBlank

end ChangeDesk.Text
