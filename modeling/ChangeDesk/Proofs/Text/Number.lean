import Mathlib.Data.List.TakeWhile
import ChangeDesk.Proofs.Json.Spelling
import ChangeDesk.Text.Blank
import ChangeDesk.Text.Decimal

/-!
# Numbers in text

The grammar of whole numbers in decimal: digits, with at most one sign before them. A number must
not be past a limit, and the digits that take it there are the last that count: what comes after
them, digits or not, is never looked at.

Main statements: what the readers take (`readNatural_ok`, `readInteger?_eq_some`), when a number is
too large for them (`readNatural_tooLarge`), and what trimming leaves of a text with blanks around
it (`trim_framed`, `exists_frame`).
-/

namespace ChangeDesk.Text

open Json (Digits)

variable {limit acc n : Nat} {c : Char} {cs ds sign body : List Char}

/-! ### The grammar -/

/-- Nothing, or one plus sign. -/
def PlusSign (cs : List Char) : Prop := cs = [] ∨ cs = ['+']

/-- The text is a number: digits, with a plus sign or without. -/
def Natural (cs : List Char) (n : Nat) : Prop :=
  ∃ sign ds, cs = sign ++ ds ∧ PlusSign sign ∧ Digits ds ∧ Nat.ofDigitChars 10 ds 0 = n

/-- The text is a number with its sign, if it has one. -/
def Integer (cs : List Char) (i : Int) : Prop :=
  (∃ n : Nat, Natural cs n ∧ i = n) ∨
    ∃ ds, cs = '-' :: ds ∧ Digits ds ∧ i = -(Nat.ofDigitChars 10 ds 0 : Int)

/-- The text begins with digits, after a plus sign or without, that are past the limit already. -/
def Exceeds (limit : Nat) (cs : List Char) : Prop :=
  ∃ sign ds rest, cs = sign ++ (ds ++ rest) ∧ PlusSign sign ∧ Digits ds ∧
    limit < Nat.ofDigitChars 10 ds 0

/-- A text of blanks. -/
def Blanks (cs : List Char) : Prop := ∀ c ∈ cs, isBlank c = true

/-! ### Digits -/

theorem isDigit_ne {d : Char} (hc : c.isDigit = true) (hd : d.isDigit = false) : c ≠ d := by
  rintro rfl
  rw [hc] at hd
  cases hd

theorem not_mem_toDigits (hc : c.isDigit = false) (n : Nat) : c ∉ Nat.toDigits 10 n := by
  intro hmem
  exact isDigit_ne (Nat.isDigit_of_mem_toDigits (by decide) (by decide) hmem) hc rfl

theorem readDigits_digit (hc : c.isDigit = true) :
    readDigits limit acc (c :: cs) =
      if 10 * acc + (c.toNat - '0'.toNat) ≤ limit then
        readDigits limit (10 * acc + (c.toNat - '0'.toNat)) cs
      else .error .tooLarge := by
  rw [readDigits, digitValue?, if_pos hc]

theorem readDigits_other (hc : c.isDigit = false) :
    readDigits limit acc (c :: cs) = .error .invalidDigit := by
  have hnot : ¬ c.isDigit = true := by simp [hc]
  rw [readDigits, digitValue?, if_neg hnot]

theorem readDigits_ok (h : acc ≤ limit) :
    readDigits limit acc cs = .ok n ↔
      (∀ c ∈ cs, c.isDigit = true) ∧ Nat.ofDigitChars 10 cs acc = n ∧ n ≤ limit := by
  constructor
  · intro hread
    induction cs generalizing acc with
    | nil =>
      obtain rfl := Except.ok.inj hread
      exact ⟨nofun, rfl, h⟩
    | cons c cs ih =>
      cases hc : c.isDigit with
      | false =>
        rw [readDigits_other hc] at hread
        cases hread
      | true =>
        rw [readDigits_digit hc] at hread
        split at hread
        · rename_i hle
          obtain ⟨hdigits, hvalue, hn⟩ := ih hle hread
          exact ⟨List.forall_mem_cons.2 ⟨hc, hdigits⟩, Nat.ofDigitChars_cons.trans hvalue, hn⟩
        · cases hread
  · rintro ⟨hdigits, rfl, hn⟩
    exact readDigits_of_isDigit hdigits hn

/-- The run of digits ends with the one that is past the limit. -/
theorem exists_of_readDigits_tooLarge (hread : readDigits limit acc cs = .error .tooLarge) :
    ∃ ds rest, cs = ds ++ rest ∧ Digits ds ∧ limit < Nat.ofDigitChars 10 ds acc := by
  induction cs generalizing acc with
  | nil => cases hread
  | cons c cs ih =>
    cases hc : c.isDigit with
    | false =>
      rw [readDigits_other hc] at hread
      cases hread
    | true =>
      rw [readDigits_digit hc] at hread
      split at hread
      · obtain ⟨ds, rest, rfl, hds, hvalue⟩ := ih hread
        refine ⟨c :: ds, rest, rfl, ⟨nofun, List.forall_mem_cons.2 ⟨hc, hds.2⟩⟩, ?_⟩
        rw [Nat.ofDigitChars_cons]
        exact hvalue
      · rename_i hpast
        have hvalue : limit < Nat.ofDigitChars 10 [c] acc := by
          rw [Nat.ofDigitChars_cons]
          exact Nat.lt_of_not_le hpast
        exact ⟨[c], cs, rfl, ⟨nofun, by simpa using hc⟩, hvalue⟩

theorem readDigits_of_past (hds : ∀ d ∈ ds, d.isDigit = true) (rest : List Char)
    (h : acc ≤ limit) (hpast : limit < Nat.ofDigitChars 10 ds acc) :
    readDigits limit acc (ds ++ rest) = .error .tooLarge := by
  induction ds generalizing acc with
  | nil =>
    have hle : Nat.ofDigitChars 10 [] acc ≤ limit := h
    omega
  | cons d ds ih =>
    obtain ⟨hd, hds⟩ := List.forall_mem_cons.1 hds
    rw [List.cons_append, readDigits_digit hd]
    split
    · rename_i hle
      rw [Nat.ofDigitChars_cons] at hpast
      exact ih hds hle hpast
    · rfl

theorem readDigits_ne_empty : readDigits limit acc cs ≠ .error .empty := by
  induction cs generalizing acc with
  | nil => nofun
  | cons c cs ih =>
    cases hc : c.isDigit with
    | false =>
      rw [readDigits_other hc]
      nofun
    | true =>
      rw [readDigits_digit hc]
      split
      · exact ih
      · nofun

/-! ### The readers -/

/-- What the reader of digits is given: all of a text but a plus sign. -/
theorem exists_readDigits (hcs : cs ≠ []) (hsign : cs ≠ ['+']) :
    ∃ sign body, cs = sign ++ body ∧ PlusSign sign ∧ body ≠ [] ∧
      ∀ limit, readNatural limit cs = readDigits limit 0 body := by
  obtain ⟨c, cs, rfl⟩ := List.exists_cons_of_ne_nil hcs
  by_cases hc : c = '+'
  · subst hc
    have hbody : cs ≠ [] := fun h => hsign (by rw [h])
    obtain ⟨d, ds, rfl⟩ := List.exists_cons_of_ne_nil hbody
    exact ⟨['+'], d :: ds, rfl, .inr rfl, hbody, fun _ => rfl⟩
  · refine ⟨[], c :: cs, rfl, .inl rfl, hcs, ?_⟩
    intro limit
    unfold readNatural
    split
    · rename_i heq
      cases heq
    · rename_i heq
      exact absurd (List.cons.inj heq).1 hc
    · rename_i heq
      exact absurd (List.cons.inj heq).1 hc
    · rfl

theorem readNatural_digits (hsign : PlusSign sign) (hds : Digits ds) (rest : List Char) :
    readNatural limit (sign ++ (ds ++ rest)) = readDigits limit 0 (ds ++ rest) := by
  obtain ⟨d, ds, rfl⟩ := List.exists_cons_of_ne_nil hds.1
  have hd : d ≠ '+' := isDigit_ne (hds.2 d (List.mem_cons_self ..)) rfl
  obtain rfl | rfl := hsign
  · rw [List.nil_append, List.cons_append]
    unfold readNatural
    split
    · rename_i heq
      cases heq
    · rename_i heq
      exact absurd (List.cons.inj heq).1 hd
    · rename_i heq
      exact absurd (List.cons.inj heq).1 hd
    · rfl
  · rfl

/-- A number is read exactly if the text is one and it is within the limit. -/
theorem readNatural_ok : readNatural limit cs = .ok n ↔ Natural cs n ∧ n ≤ limit := by
  constructor
  · intro hread
    have hcs : cs ≠ [] := by
      rintro rfl
      cases hread
    have hplus : cs ≠ ['+'] := by
      rintro rfl
      cases hread
    obtain ⟨sign, body, rfl, hsign, hbody, hdigits⟩ := exists_readDigits hcs hplus
    rw [hdigits, readDigits_ok (Nat.zero_le _)] at hread
    obtain ⟨hall, hvalue, hn⟩ := hread
    exact ⟨⟨sign, body, rfl, hsign, ⟨hbody, hall⟩, hvalue⟩, hn⟩
  · rintro ⟨⟨sign, ds, rfl, hsign, hds, hvalue⟩, hn⟩
    have hread : readNatural limit (sign ++ (ds ++ [])) = readDigits limit 0 (ds ++ []) :=
      readNatural_digits hsign hds []
    rw [List.append_nil] at hread
    rw [hread, readDigits_ok (Nat.zero_le _)]
    exact ⟨hds.2, hvalue, hn⟩

/-- A text is too large exactly if digits at its beginning are past the limit. -/
theorem readNatural_tooLarge :
    readNatural limit cs = .error .tooLarge ↔ Exceeds limit cs := by
  constructor
  · intro hread
    have hcs : cs ≠ [] := by
      rintro rfl
      cases hread
    have hplus : cs ≠ ['+'] := by
      rintro rfl
      cases hread
    obtain ⟨sign, body, rfl, hsign, -, hdigits⟩ := exists_readDigits hcs hplus
    rw [hdigits] at hread
    obtain ⟨ds, rest, rfl, hds, hpast⟩ := exists_of_readDigits_tooLarge hread
    exact ⟨sign, ds, rest, rfl, hsign, hds, hpast⟩
  · rintro ⟨sign, ds, rest, rfl, hsign, hds, hpast⟩
    rw [readNatural_digits hsign hds]
    exact readDigits_of_past hds.2 rest (Nat.zero_le _) hpast

theorem readNatural_empty : readNatural limit cs = .error .empty ↔ cs = [] := by
  constructor
  · intro hread
    by_cases hcs : cs = []
    · exact hcs
    · by_cases hplus : cs = ['+']
      · subst hplus
        cases hread
      · obtain ⟨sign, body, -, -, -, hdigits⟩ := exists_readDigits hcs hplus
        rw [hdigits] at hread
        exact absurd hread readDigits_ne_empty
  · rintro rfl
    rfl

/-! ### Signed numbers -/

theorem readInteger?_minus (hds : ds ≠ []) :
    readInteger? limit ('-' :: ds) =
      (readDigits (limit + 1) 0 ds).toOption.map fun n : Nat => -(n : Int) := by
  obtain ⟨d, ds, rfl⟩ := List.exists_cons_of_ne_nil hds
  rw [readInteger?]
  cases readDigits (limit + 1) 0 (d :: ds) <;> rfl

theorem readInteger?_natural (hcs : ∀ ds, cs ≠ '-' :: ds) :
    readInteger? limit cs = (readNatural limit cs).toOption.map fun n : Nat => (n : Int) := by
  unfold readInteger?
  split
  · rfl
  · exact absurd rfl (hcs _)
  · exact absurd rfl (hcs _)
  · cases readNatural limit cs <;> rfl

theorem Natural.ne_minus (h : Natural cs n) (ds : List Char) : cs ≠ '-' :: ds := by
  obtain ⟨sign, digits, rfl, hsign, hdigits, -⟩ := h
  obtain ⟨d, digits, rfl⟩ := List.exists_cons_of_ne_nil hdigits.1
  have hd : d ≠ '-' := isDigit_ne (hdigits.2 d (List.mem_cons_self ..)) rfl
  obtain rfl | rfl := hsign
  · exact fun heq => hd (List.cons.inj heq).1
  · exact fun heq => absurd (List.cons.inj heq).1 (by decide)

theorem toOption_eq_some {ε α : Type} {x : Except ε α} {a : α} :
    x.toOption = some a ↔ x = .ok a := by
  cases x with
  | error e => exact ⟨nofun, nofun⟩
  | ok b =>
    constructor
    · intro h
      rw [Option.some.inj h]
    · intro h
      rw [Except.ok.inj h]
      rfl

/-- A signed number is read exactly if the text is one and it is in the range. -/
theorem readInteger?_eq_some {i : Int} :
    readInteger? limit cs = some i ↔ Integer cs i ∧ -(limit + 1 : Int) ≤ i ∧ i ≤ limit := by
  constructor
  · intro hread
    by_cases hminus : ∃ ds, cs = '-' :: ds
    · obtain ⟨ds, rfl⟩ := hminus
      have hds : ds ≠ [] := by
        rintro rfl
        cases hread
      rw [readInteger?_minus hds] at hread
      obtain ⟨n, hn, rfl⟩ := Option.map_eq_some_iff.1 hread
      obtain ⟨hall, hvalue, hle⟩ := (readDigits_ok (Nat.zero_le _)).1 (toOption_eq_some.1 hn)
      refine ⟨.inr ⟨ds, rfl, ⟨hds, hall⟩, ?_⟩, ?_, ?_⟩
      · rw [hvalue]
      · omega
      · omega
    · have hnot : ∀ ds, cs ≠ '-' :: ds := fun ds heq => hminus ⟨ds, heq⟩
      rw [readInteger?_natural hnot] at hread
      obtain ⟨n, hn, rfl⟩ := Option.map_eq_some_iff.1 hread
      obtain ⟨hnatural, hle⟩ := readNatural_ok.1 (toOption_eq_some.1 hn)
      refine ⟨.inl ⟨n, hnatural, rfl⟩, ?_, ?_⟩
      · omega
      · omega
  · rintro ⟨⟨n, hnatural, rfl⟩ | ⟨ds, rfl, hds, rfl⟩, hlow, hhigh⟩
    · have hread : readNatural limit cs = .ok n := readNatural_ok.2 ⟨hnatural, by omega⟩
      rw [readInteger?_natural hnatural.ne_minus, hread]
      rfl
    · have hread : readDigits (limit + 1) 0 ds = .ok (Nat.ofDigitChars 10 ds 0) :=
        (readDigits_ok (Nat.zero_le _)).2 ⟨hds.2, rfl, by omega⟩
      rw [readInteger?_minus hds.1, hread]
      rfl

/-! ### Blanks around a text -/

theorem not_blank_signed (hsign : PlusSign sign) (hds : ∀ d ∈ ds, d.isDigit = true) :
    ∀ c ∈ sign ++ ds, isBlank c = false := by
  rw [List.forall_mem_append]
  refine ⟨?_, fun d hd => isBlank_of_isDigit (hds d hd)⟩
  obtain rfl | rfl := hsign
  · nofun
  · exact List.forall_mem_singleton.2 rfl

/-- What stands behind a character that is no blank is trimmed on its own. -/
theorem trimEnd_append (hbody : body ≠ []) (hblank : ∀ c ∈ body, isBlank c = false)
    (rest : List Char) : trimEnd (body ++ rest) = body ++ trimEnd rest := by
  have hlast := hblank _ (List.getLast_mem hbody)
  have hreverse : body.reverse.dropWhile isBlank = body.reverse := by
    rw [← List.dropLast_concat_getLast hbody, List.reverse_append, List.reverse_singleton,
      List.singleton_append, List.dropWhile_cons_of_neg (by simp [hlast])]
  rw [trimEnd, List.reverse_append, List.dropWhile_append, hreverse]
  split
  · rename_i hempty
    rw [trimEnd, List.isEmpty_iff.1 hempty, List.reverse_reverse, List.reverse_nil,
      List.append_nil]
  · rw [trimEnd, List.reverse_append, List.reverse_reverse]

theorem trimEnd_blanks (h : Blanks cs) : trimEnd cs = [] := by
  have hreverse : Blanks cs.reverse := fun c hc => h c (List.mem_reverse.1 hc)
  rw [trimEnd, List.dropWhile_eq_nil_iff.2 hreverse, List.reverse_nil]

/-- Trimming takes the blanks in front of a text and goes on behind it. -/
theorem trim_framed {front : List Char} (hfront : Blanks front) (hbody : body ≠ [])
    (hblank : ∀ c ∈ body, isBlank c = false) (rest : List Char) :
    trim (front ++ (body ++ rest)) = body ++ trimEnd rest := by
  have hstart : trimStart (body ++ rest) = body ++ rest := by
    obtain ⟨c, body, rfl⟩ := List.exists_cons_of_ne_nil hbody
    exact trimStart_cons (hblank c (List.mem_cons_self ..)) _
  rw [trim, trimStart_append_of_blank hfront, hstart, trimEnd_append hbody hblank]

/-- A text is what trimming leaves of it, with blanks around it. -/
theorem exists_frame (cs : List Char) :
    ∃ front back, cs = front ++ (trim cs ++ back) ∧ Blanks front ∧ Blanks back := by
  refine ⟨cs.takeWhile isBlank, ((trimStart cs).reverse.takeWhile isBlank).reverse, ?_,
    fun c hc => List.mem_takeWhile_imp hc,
    fun c hc => List.mem_takeWhile_imp (List.mem_reverse.1 hc)⟩
  have hend : trim cs ++ ((trimStart cs).reverse.takeWhile isBlank).reverse = trimStart cs := by
    rw [trim, trimEnd, ← List.reverse_append, List.takeWhile_append_dropWhile,
      List.reverse_reverse]
  rw [hend, trimStart, List.takeWhile_append_dropWhile]

theorem trim_eq_nil_iff : trim cs = [] ↔ Blanks cs := by
  constructor
  · intro h
    obtain ⟨front, back, hcs, hfront, hback⟩ := exists_frame cs
    rw [h, List.nil_append] at hcs
    rw [hcs]
    intro c hc
    exact (List.mem_append.1 hc).elim (hfront c) (hback c)
  · intro h
    rw [trim, trimStart, List.dropWhile_eq_nil_iff.2 h]
    rfl

end ChangeDesk.Text
