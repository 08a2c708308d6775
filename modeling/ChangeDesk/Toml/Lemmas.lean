import ChangeDesk.Toml.Printer
import ChangeDesk.Toml.Reader

/-!
# Written strings and keys are read back

Each form of a string is read back by its own reader, and a form without escapes is only picked
for a string that it can hold.

Main statements: a written string and a written key are read back, with what follows them
(`readText_writeText`, `readKeyPart_writeKey`).
-/

namespace ChangeDesk.Toml

/-! ### Escapes -/

/-- The digits of a control's number are read back. -/
theorem numberedChar?_hexDigits {c : Char} (h : isControl c = true) :
    numberedChar? (hexDigits c.toNat) = some c := by
  have hall : ∀ n < 0x80, numberedChar? (hexDigits n) = some (Char.ofNat n) := by decide +kernel
  have hc : c.toNat < 0x80 := by
    simp only [isControl, Bool.or_eq_true, beq_iff_eq, Bool.and_eq_true, decide_eq_true_eq] at h
    omega
  rw [hall _ hc, Char.ofNat_toNat]

/-- What is written for a character that needs an escape is read back. -/
theorem readBasic_escapeOf {long : Bool} {c : Char} {e : List Char}
    (h : escapeOf long c = some e) (r : List Char) :
    readBasic (e ++ r) = consChar (some c) (readBasic r) := by
  unfold escapeOf at h
  split at h
  · cases h; rfl
  · cases h; rfl
  · cases long
    · cases h; rfl
    · cases h
  · cases h; rfl
  · cases h; rfl
  · cases h; rfl
  · split at h
    · rename_i hc
      cases h
      have hd := numberedChar?_hexDigits hc
      simp only [hexDigits, List.map_cons, List.map_nil] at hd
      simp [hexDigits, readBasic, hd]
    · cases h

theorem readLongBasic_escapeOf {c : Char} {e : List Char} (h : escapeOf true c = some e)
    (r : List Char) :
    readLongBasic .text (e ++ r) = consChar (some c) (readLongBasic .text r) := by
  unfold escapeOf at h
  split at h
  · cases h; rfl
  · cases h; rfl
  · cases h
  · cases h; rfl
  · cases h; rfl
  · cases h; rfl
  · split at h
    · rename_i hc
      cases h
      have hd := numberedChar?_hexDigits hc
      simp only [hexDigits, List.map_cons, List.map_nil] at hd
      simp [hexDigits, readLongBasic, hd]
    · cases h

/-- A character that needs no escape may stand in a line, unless it is a line feed. -/
theorem isLineChar_of_escapeOf {long : Bool} {c : Char} (h : escapeOf long c = none) :
    (isLineChar c = true ∨ (long = true ∧ c = '\n')) ∧ c ≠ '\\' ∧ c ≠ '\r' := by
  unfold escapeOf at h
  split at h
  · cases h
  · cases h
  · cases long
    · cases h
    · exact ⟨.inr ⟨rfl, rfl⟩, by decide, by decide⟩
  · cases h
  · cases h
  · cases h
  · rename_i h2 h3 h4 h5 h6
    split at h
    · cases h
    · rename_i hc
      refine ⟨.inl ?_, h6, h5⟩
      have h32 : ¬c.toNat < 32 := by
        intro hlt
        refine hc ?_
        simp only [isControl, hlt]
        simpa using .inr ⟨h2, h3⟩
      have h127 : c.toNat ≠ 127 := by
        intro he
        exact hc (by simp [isControl, he])
      simp [isLineChar, h127]
      omega

/-! ### Strings on one line -/

theorem readBasic_escape (n : Nat) (cs rest : List Char) :
    readBasic (escape false n cs ++ '"' :: rest) = some (cs, rest) := by
  induction cs generalizing n with
  | nil => rfl
  | cons c cs ih =>
    rw [escape]
    split
    · rename_i hq
      simp [readBasic, ih, hq, consChar, escapedChar?]
    · rename_i hq
      split
      · rename_i e he
        rw [List.append_assoc, readBasic_escapeOf he, ih]
        rfl
      · rename_i he
        obtain ⟨hl, hb, -⟩ := isLineChar_of_escapeOf he
        have hl : isLineChar c = true ∧ c ≠ '\\' := ⟨by simpa using hl, hb⟩
        rw [List.cons_append, readBasic, if_pos hl, ih]
        · rfl
        all_goals simp_all

theorem readLiteral_append {cs : List Char} (h : ∀ c ∈ cs, c ≠ '\'' ∧ isLineChar c = true)
    (rest : List Char) : readLiteral (cs ++ '\'' :: rest) = some (cs, rest) := by
  induction cs with
  | nil => rfl
  | cons c cs ih =>
    obtain ⟨hc, hcs⟩ := List.forall_mem_cons.1 h
    rw [List.cons_append, readLiteral, if_neg hc.1, if_pos hc.2, ih hcs]
    rfl

/-! ### Strings on several lines -/

theorem closing_of_head?_ne {quote : Char} {rest : List Char} (h : rest.head? ≠ some quote) :
    closing quote rest = ([], rest) ∧ closing quote (quote :: rest) = ([quote], rest) ∧
      closing quote (quote :: quote :: rest) = ([quote, quote], rest) := by
  rcases rest with - | ⟨a, - | ⟨b, r⟩⟩ <;> simp_all [closing]

/-- An escape begins with a backslash. -/
theorem escapeOf_head? {long : Bool} {c : Char} {e : List Char} (h : escapeOf long c = some e) :
    e.head? = some '\\' := by
  unfold escapeOf at h
  repeat' split at h
  all_goals cases h
  all_goals rfl

/-- What is written for a character other than a quote does not depend on what precedes it, and
does not begin with a quote. -/
theorem escape_cons_of_ne {long : Bool} {c : Char} (hc : c ≠ '"') (n : Nat) (cs : List Char) :
    ∃ x r, x ≠ '"' ∧ escape long n (c :: cs) = x :: r ∧
      escape long n (c :: cs) = (escapeOf long c).getD [c] ++ escape long 0 cs := by
  rw [escape, if_neg hc]
  cases he : escapeOf long c with
  | none => exact ⟨c, _, hc, rfl, rfl⟩
  | some e =>
    have hne := escapeOf_head? he
    cases e with
    | nil => cases hne
    | cons x e =>
      simp only [List.head?_cons, Option.some.injEq] at hne
      exact ⟨x, _, by simp [hne], rfl, rfl⟩

/-- Reading a character other than a quote as it was written. -/
theorem readLongBasic_getD {c : Char} (hc : c ≠ '"') (r : List Char) :
    readLongBasic .text ((escapeOf true c).getD [c] ++ r) =
      consChar (some c) (readLongBasic .text r) := by
  cases he : escapeOf true c with
  | some e => exact readLongBasic_escapeOf he r
  | none =>
    obtain ⟨hl, hb, hr⟩ := isLineChar_of_escapeOf he
    have hl : (isLineChar c = true ∨ c = '\n') ∧ c ≠ '\\' := ⟨by simpa using hl, hb⟩
    show readLongBasic .text (c :: r) = _
    rw [readLongBasic, if_pos hl]
    all_goals simp_all

/-- Reading a quote that does not begin three. -/
theorem readLongBasic_quote {x : Char} (hx : x ≠ '"') (r : List Char) :
    readLongBasic .text ('"' :: x :: r) = consChar (some '"') (readLongBasic .text (x :: r)) ∧
    readLongBasic .text ('"' :: '"' :: x :: r) =
      consChar (some '"') (consChar (some '"') (readLongBasic .text (x :: r))) := by
  have h₁ : readLongBasic .text ('"' :: x :: r) =
      consChar (some '"') (readLongBasic .text (x :: r)) := by
    rw [readLongBasic]
    all_goals simp_all [isLineChar]
  refine ⟨h₁, ?_⟩
  rw [readLongBasic, h₁]
  all_goals simp_all [isLineChar]

/-- Up to two quotes in front of another character are read as they were written. -/
theorem readLongBasic_escape_quotes {c : Char} (hc : c ≠ '"') {cs : List Char}
    {r : List Char} {p : List Char × List Char}
    (h : readLongBasic .text (escape true 0 cs ++ r) = some p) :
    readLongBasic .text (escape true 0 (c :: cs) ++ r) = some (c :: p.1, p.2) ∧
    readLongBasic .text (escape true 0 ('"' :: c :: cs) ++ r) = some ('"' :: c :: p.1, p.2) ∧
    readLongBasic .text (escape true 0 ('"' :: '"' :: c :: cs) ++ r) =
      some ('"' :: '"' :: c :: p.1, p.2) := by
  have hread : ∀ n, readLongBasic .text (escape true n (c :: cs) ++ r) = some (c :: p.1, p.2) := by
    intro n
    obtain ⟨x, t, hx, -, he⟩ := @escape_cons_of_ne true c hc n cs
    rw [he, List.append_assoc, readLongBasic_getD hc, h]
    rfl
  refine ⟨hread 0, ?_, ?_⟩
  · obtain ⟨x, t, hx, hxt, -⟩ := @escape_cons_of_ne true c hc 1 cs
    have hr := hread 1
    rw [hxt] at hr
    have hq : escape true 0 ('"' :: c :: cs) = '"' :: x :: t := by simp [escape, ← hxt]
    rw [hq, List.cons_append, List.cons_append, (readLongBasic_quote hx _).1, ← List.cons_append, hr]
    rfl
  · obtain ⟨x, t, hx, hxt, -⟩ := @escape_cons_of_ne true c hc 2 cs
    have hr := hread 2
    rw [hxt] at hr
    have hq : escape true 0 ('"' :: '"' :: c :: cs) = '"' :: '"' :: x :: t := by
      simp [escape, ← hxt]
    rw [hq, List.cons_append, List.cons_append, List.cons_append, (readLongBasic_quote hx _).2,
      ← List.cons_append, hr]
    rfl

/-- The third of three quotes is read as it was written. -/
theorem readLongBasic_escape_three {cs r : List Char} {p : List Char × List Char}
    (h : readLongBasic .text (escape true 0 cs ++ r) = some p) :
    readLongBasic .text (escape true 0 ('"' :: '"' :: '"' :: cs) ++ r) =
      some ('"' :: '"' :: '"' :: p.1, p.2) := by
  have hq : escape true 0 ('"' :: '"' :: '"' :: cs) =
      '"' :: '"' :: '\\' :: '"' :: escape true 0 cs := by
    simp [escape]
  rw [hq]
  simp only [List.cons_append]
  rw [(readLongBasic_quote (by decide) _).2]
  simp [readLongBasic, h, consChar, escapedChar?, isGap]

theorem readLongBasic_escape (cs : List Char) {rest : List Char} (h : rest.head? ≠ some '"') :
    readLongBasic .text (escape true 0 cs ++ '"' :: '"' :: '"' :: rest) = some (cs, rest) := by
  obtain ⟨h₀, h₁, h₂⟩ := closing_of_head?_ne h
  match cs with
  | [] => simp [escape, readLongBasic, h₀]
  | [a] =>
    by_cases ha : a = '"'
    · simp [escape, readLongBasic, h₁, ha]
    · exact (readLongBasic_escape_quotes ha (readLongBasic_escape [] h)).1
  | [a, b] =>
    by_cases ha : a = '"'
    · by_cases hb : b = '"'
      · simp [escape, readLongBasic, h₂, ha, hb]
      · rw [ha]
        exact (readLongBasic_escape_quotes hb (readLongBasic_escape [] h)).2.1
    · exact (readLongBasic_escape_quotes ha (readLongBasic_escape [b] h)).1
  | a :: b :: c :: cs =>
    by_cases ha : a = '"'
    · by_cases hb : b = '"'
      · rw [ha, hb]
        by_cases hc : c = '"'
        · rw [hc]
          exact readLongBasic_escape_three (readLongBasic_escape cs h)
        · exact (readLongBasic_escape_quotes hc (readLongBasic_escape cs h)).2.2
      · rw [ha]
        exact (readLongBasic_escape_quotes hb (readLongBasic_escape (c :: cs) h)).2.1
    · exact (readLongBasic_escape_quotes ha (readLongBasic_escape (b :: c :: cs) h)).1
termination_by cs.length

theorem le_longestRun (quote : Char) (n : Nat) (cs : List Char) : n ≤ longestRun quote n cs := by
  induction cs generalizing n with
  | nil => exact Nat.le_refl n
  | cons c cs ih =>
    rw [longestRun]
    split
    · exact Nat.le_of_succ_le (ih (n + 1))
    · exact Nat.le_max_left ..

/-- What follows a character other than a quote has no longer run. -/
theorem longestRun_cons_of_ne {quote c : Char} (hc : c ≠ quote) (n : Nat) (cs : List Char) :
    longestRun quote 0 cs ≤ longestRun quote n (c :: cs) := by
  rw [longestRun, if_neg hc]
  exact Nat.le_max_right ..

/-- Reading a character other than a quote. -/
theorem readLongLiteral_cons {c : Char} (hc : c ≠ '\'') (hl : isLineChar c = true ∨ c = '\n')
    (r : List Char) : readLongLiteral (c :: r) = consChar (some c) (readLongLiteral r) := by
  have hr : c ≠ '\r' := by
    rintro rfl
    rcases hl with h | h <;> simp [isLineChar] at h
  rw [readLongLiteral, if_pos hl]
  all_goals simp_all

/-- Reading a quote that does not begin three. -/
theorem readLongLiteral_quote {x : Char} (hx : x ≠ '\'') (r : List Char) :
    readLongLiteral ('\'' :: x :: r) = consChar (some '\'') (readLongLiteral (x :: r)) ∧
    readLongLiteral ('\'' :: '\'' :: x :: r) =
      consChar (some '\'') (consChar (some '\'') (readLongLiteral (x :: r))) := by
  have h₁ : readLongLiteral ('\'' :: x :: r) =
      consChar (some '\'') (readLongLiteral (x :: r)) := by
    rw [readLongLiteral]
    all_goals simp_all [isLineChar]
  refine ⟨h₁, ?_⟩
  rw [readLongLiteral, h₁]
  all_goals simp_all [isLineChar]

/-- Up to two quotes in front of another character are read as they were written. -/
theorem readLongLiteral_quotes {c : Char} (hc : c ≠ '\'') (hl : isLineChar c = true ∨ c = '\n')
    {cs r : List Char} {p : List Char × List Char} (h : readLongLiteral (cs ++ r) = some p) :
    readLongLiteral (c :: cs ++ r) = some (c :: p.1, p.2) ∧
    readLongLiteral ('\'' :: c :: cs ++ r) = some ('\'' :: c :: p.1, p.2) ∧
    readLongLiteral ('\'' :: '\'' :: c :: cs ++ r) = some ('\'' :: '\'' :: c :: p.1, p.2) := by
  have hread : readLongLiteral (c :: (cs ++ r)) = some (c :: p.1, p.2) := by
    rw [readLongLiteral_cons hc hl, h]
    rfl
  refine ⟨hread, ?_, ?_⟩
  · simp only [List.cons_append]
    rw [(readLongLiteral_quote hc _).1, hread]
    rfl
  · simp only [List.cons_append]
    rw [(readLongLiteral_quote hc _).2, hread]
    rfl

theorem readLongLiteral_append {cs : List Char} (hl : ∀ c ∈ cs, isLineChar c = true ∨ c = '\n')
    (hq : longestRun '\'' 0 cs ≤ 2) {rest : List Char} (h : rest.head? ≠ some '\'') :
    readLongLiteral (cs ++ '\'' :: '\'' :: '\'' :: rest) = some (cs, rest) := by
  obtain ⟨h₀, h₁, h₂⟩ := closing_of_head?_ne h
  have next : ∀ (n : Nat) (a : Char) (as : List Char), as.length < cs.length → a ≠ '\'' →
      (∀ c ∈ a :: as, isLineChar c = true ∨ c = '\n') → longestRun '\'' n (a :: as) ≤ 2 →
      readLongLiteral (as ++ '\'' :: '\'' :: '\'' :: rest) = some (as, rest) := by
    intro n a as _ ha hla hr
    exact readLongLiteral_append (List.forall_mem_cons.1 hla).2
      (Nat.le_trans (longestRun_cons_of_ne ha n as) hr) h
  match cs with
  | [] => simp [readLongLiteral, h₀]
  | [a] =>
    by_cases ha : a = '\''
    · simp [readLongLiteral, h₁, ha]
    · exact (readLongLiteral_quotes ha (hl a (by simp)) (next 0 a [] (by simp) ha hl hq)).1
  | [a, b] =>
    by_cases ha : a = '\''
    · subst ha
      by_cases hb : b = '\''
      · simp [readLongLiteral, h₂, hb]
      · exact (readLongLiteral_quotes hb (hl b (by simp))
          (next 1 b [] (by simp) hb (List.forall_mem_cons.1 hl).2 hq)).2.1
    · exact (readLongLiteral_quotes ha (hl a (by simp)) (next 0 a [b] (by simp) ha hl hq)).1
  | a :: b :: c :: cs =>
    by_cases ha : a = '\''
    · subst ha
      by_cases hb : b = '\''
      · subst hb
        by_cases hc : c = '\''
        · subst hc
          exact absurd hq (Nat.not_le.2 (le_longestRun '\'' 3 cs))
        · exact (readLongLiteral_quotes hc (hl c (by simp)) (next 2 c cs (by simp; omega) hc
            (List.forall_mem_cons.1 (List.forall_mem_cons.1 hl).2).2 hq)).2.2
      · exact (readLongLiteral_quotes hb (hl b (by simp)) (next 1 b (c :: cs) (by simp) hb
          (List.forall_mem_cons.1 hl).2 hq)).2.1
    · exact (readLongLiteral_quotes ha (hl a (by simp))
        (next 0 a (b :: c :: cs) (by simp) ha hl hq)).1
termination_by cs.length

/-! ### Any string -/

/-- Characters that need no escape may stand in a line or are line feeds. -/
theorem isLineChar_of_not_isControl {c : Char} (h : isControl c = false) :
    isLineChar c = true ∨ c = '\n' := by
  by_cases ht : c = '\t'
  · simp [ht, isLineChar]
  · by_cases hn : c = '\n'
    · exact .inr hn
    · simp [isControl, ht, hn] at h
      simp [isLineChar, h]

/-- The line feed after the opening quotes does not count, and nothing else is skipped. -/
theorem skipLineFeed_opening {cs body : List Char} (h : '\n' ∉ cs →
    body.head? ≠ some '\n' ∧ body.head? ≠ some '\r') :
    skipLineFeed (opening cs ++ body) = body := by
  rw [opening]
  by_cases hn : '\n' ∈ cs
  · simp [hn, skipLineFeed]
  · obtain ⟨h₁, h₂⟩ := h hn
    simp only [List.contains_eq_mem, hn, decide_false, Bool.false_eq_true, if_false,
      List.nil_append]
    rcases body with - | ⟨a, r⟩
    · rfl
    · simp only [List.head?_cons, ne_eq, Option.some.injEq] at h₁ h₂
      rw [skipLineFeed]
      all_goals simp_all

theorem not_mem_of_longestRun {quote : Char} {cs : List Char} (h : longestRun quote 0 cs = 0) :
    quote ∉ cs := by
  induction cs with
  | nil => simp
  | cons c cs ih =>
    rw [longestRun] at h
    split at h
    · have := le_longestRun quote (0 + 1) cs
      omega
    · rename_i hc
      have hcs : longestRun quote 0 cs = 0 := by omega
      simp only [List.mem_cons, not_or]
      exact ⟨fun he => hc he.symm, ih hcs⟩

/-- A form without escapes is only picked for a string that it can hold. -/
theorem formOf_literal {cs : List Char} (h : formOf cs = .literal) :
    cs ≠ [] ∧ ∀ c ∈ cs, c ≠ '\'' ∧ isLineChar c = true := by
  have hne : cs ≠ [] := by
    rintro rfl
    revert h
    decide
  refine ⟨hne, ?_⟩
  unfold formOf at h
  simp only at h
  split at h
  · cases h
  · split at h
    · rename_i hc
      simp only [Bool.and_eq_true, beq_iff_eq, Bool.not_eq_eq_eq_not, Bool.not_true,
        List.any_eq_false, List.contains_eq_mem, decide_eq_false_iff_not] at hc
      intro c hmem
      refine ⟨fun he => not_mem_of_longestRun hc.1.2 (he ▸ hmem), ?_⟩
      rcases isLineChar_of_not_isControl (by simpa using hc.1.1 c hmem) with hl | hl
      · exact hl
      · exact absurd (hl ▸ hmem) hc.2
    · repeat' split at h
      all_goals cases h

@[inherit_doc formOf_literal]
theorem formOf_longLiteral {cs : List Char} (h : formOf cs = .longLiteral) :
    longestRun '\'' 0 cs ≤ 2 ∧ ∀ c ∈ cs, isLineChar c = true ∨ c = '\n' := by
  unfold formOf at h
  simp only at h
  split at h
  · cases h
  · split at h
    · cases h
    · split at h
      · cases h
      · split at h
        · rename_i hc
          simp only [Bool.and_eq_true, decide_eq_true_eq, Bool.not_eq_eq_eq_not, Bool.not_true,
            List.any_eq_false] at hc
          exact ⟨hc.2, fun c hmem => isLineChar_of_not_isControl (by simpa using hc.1 c hmem)⟩
        · split at h <;> cases h

/-- Three quotes are not met where one quote begins a string. -/
theorem readText_quote {body : List Char} (h : ∀ r, body ≠ '"' :: '"' :: r) :
    readText ('"' :: body) = (readBasic body).map fun p => (String.ofList p.1, p.2) := by
  rw [readText]
  all_goals simp_all

@[inherit_doc readText_quote]
theorem readText_singleQuote {body : List Char} (h : ∀ r, body ≠ '\'' :: '\'' :: r) :
    readText ('\'' :: body) = (readLiteral body).map fun p => (String.ofList p.1, p.2) := by
  rw [readText]
  all_goals simp_all

theorem escape_head_ne (cs rest : List Char) (h : rest.head? ≠ some '"') (r : List Char) :
    escape false 0 cs ++ '"' :: rest ≠ '"' :: '"' :: r := by
  cases cs with
  | nil =>
    intro he
    simp only [escape, List.nil_append, List.cons.injEq, true_and] at he
    simp [he] at h
  | cons c cs =>
    by_cases hc : c = '"'
    · simp [hc, escape]
    · obtain ⟨x, t, hx, he, -⟩ := @escape_cons_of_ne false c hc 0 cs
      rw [he]
      simp [hx]

/-- The text between long quotes begins with no line end that could be taken for the one after
them. -/
theorem escape_head?_ne {cs : List Char} (h : '\n' ∉ cs) (rest : List Char) :
    (escape true 0 cs ++ '"' :: rest).head? ≠ some '\n' ∧
      (escape true 0 cs ++ '"' :: rest).head? ≠ some '\r' := by
  cases cs with
  | nil => simp [escape]
  | cons c cs =>
    by_cases hc : c = '"'
    · simp [hc, escape]
    · have hn : c ≠ '\n' := fun he => h (by simp [he])
      obtain ⟨x, t, -, hxt, he⟩ := @escape_cons_of_ne true c hc 0 cs
      cases hesc : escapeOf true c with
      | none =>
        obtain ⟨-, -, hr⟩ := isLineChar_of_escapeOf hesc
        rw [he, hesc]
        simp [hn, hr]
      | some e =>
        have hb := escapeOf_head? hesc
        rw [he, hesc]
        cases e with
        | nil => cases hb
        | cons y e => simp_all

/-- A written string is read back, with what follows it. -/
theorem readText_writeText (s : String) {rest : List Char} (hd : rest.head? ≠ some '"')
    (hs : rest.head? ≠ some '\'') : readText (writeText s ++ rest) = some (s, rest) := by
  rw [writeText]
  have hback : String.ofList s.toList = s := String.ofList_toList
  generalize s.toList = cs at hback
  cases hf : formOf cs with
  | basic =>
    have hr := readBasic_escape 0 cs rest
    simp only [writeForm, List.append_assoc, List.cons_append, List.nil_append]
    rw [readText_quote (escape_head_ne cs rest hd), hr]
    simp [hback]
  | literal =>
    obtain ⟨hne, hcs⟩ := formOf_literal hf
    have hr := readLiteral_append hcs rest
    simp only [writeForm, List.append_assoc, List.cons_append, List.nil_append]
    rw [readText_singleQuote, hr]
    · simp [hback]
    · intro r he
      cases cs with
      | nil => exact hne rfl
      | cons c cs => exact (hcs c (by simp)).1 (List.cons.inj he).1
  | longBasic =>
    have hr := readLongBasic_escape cs hd
    have hskip := @skipLineFeed_opening cs _ fun hn =>
      escape_head?_ne hn ('"' :: '"' :: rest)
    simp only [writeForm, List.append_assoc, List.cons_append, List.nil_append]
    rw [readText, hskip, hr]
    simp [hback]
  | longLiteral =>
    obtain ⟨hq, hl⟩ := formOf_longLiteral hf
    have hr := readLongLiteral_append hl hq hs
    have hskip : skipLineFeed (opening cs ++ (cs ++ '\'' :: '\'' :: '\'' :: rest)) =
        cs ++ '\'' :: '\'' :: '\'' :: rest := by
      refine skipLineFeed_opening fun hn => ?_
      cases cs with
      | nil => simp
      | cons c cs =>
        have hc := hl c (by simp)
        have hcn : c ≠ '\n' := fun he => hn (by simp [he])
        have hcr : c ≠ '\r' := by
          rintro rfl
          simp [isLineChar] at hc
        simp [hcn, hcr]
    simp only [writeForm, List.append_assoc, List.cons_append, List.nil_append]
    rw [readText, hskip, hr]
    simp [hback]

/-! ### Keys -/

@[inherit_doc formOf_literal]
theorem keyFormOf_literal {cs : List Char} (h : keyFormOf cs = .literal) :
    ∀ c ∈ cs, c ≠ '\'' ∧ isLineChar c = true := by
  unfold keyFormOf at h
  simp only at h
  split at h
  · cases h
  · split at h
    · rename_i hc
      simp only [Bool.and_eq_true, Bool.not_eq_eq_eq_not, Bool.not_true, Bool.or_eq_false_iff,
        List.any_eq_false, List.contains_eq_mem, decide_eq_false_iff_not] at hc
      intro c hmem
      refine ⟨fun he => hc.2 (he ▸ hmem), ?_⟩
      rcases isLineChar_of_not_isControl (by simpa using hc.1.1 c hmem) with hl | hl
      · exact hl
      · exact absurd (hl ▸ hmem) hc.1.2
    · cases h

/-- A key in quotes is read back. -/
theorem readKeyPart_writeForm (cs rest : List Char) :
    readKeyPart (writeForm (keyFormOf cs) cs ++ rest) = some (String.ofList cs, rest) := by
  cases hf : keyFormOf cs with
  | basic =>
    simp only [writeForm, List.append_assoc, List.cons_append, List.nil_append]
    rw [readKeyPart, readBasic_escape]
    rfl
  | literal =>
    simp only [writeForm, List.append_assoc, List.cons_append, List.nil_append]
    rw [readKeyPart, readLiteral_append (keyFormOf_literal hf)]
    rfl
  | longBasic =>
    unfold keyFormOf at hf
    simp only at hf
    repeat' split at hf
    all_goals cases hf
  | longLiteral =>
    unfold keyFormOf at hf
    simp only at hf
    repeat' split at hf
    all_goals cases hf

/-- A written key is read back, with what follows it. -/
theorem readKeyPart_writeKey (s : String) {rest : List Char}
    (h : rest.head?.all (fun c => !isBareChar c) = true) :
    readKeyPart (writeKey s ++ rest) = some (s, rest) := by
  have hback : String.ofList s.toList = s := String.ofList_toList
  rw [writeKey]
  generalize s.toList = cs at hback
  split
  · rename_i hc
    simp only [Bool.and_eq_true, Bool.not_eq_eq_eq_not, Bool.not_true, List.all_eq_true,
      List.isEmpty_eq_false_iff] at hc
    obtain ⟨hne, hbare⟩ := hc
    have hrest : rest.takeWhile isBareChar = [] ∧ rest.dropWhile isBareChar = rest := by
      cases rest with
      | nil => simp
      | cons c r => simp_all
    have hpart : (cs ++ rest).takeWhile isBareChar = cs ∧
        (cs ++ rest).dropWhile isBareChar = rest := by
      rw [List.takeWhile_append_of_pos hbare, List.dropWhile_append_of_pos hbare, hrest.1, hrest.2]
      simp
    cases cs with
    | nil => exact absurd rfl hne
    | cons c cs =>
      have hq : c ≠ '"' ∧ c ≠ '\'' := by
        have := hbare c (by simp)
        constructor <;> rintro rfl <;> simp [isBareChar, Char.isAlphanum] at this
      rw [readKeyPart, hpart.1, hpart.2]
      · simp [hback]
      all_goals simp_all
  · rw [readKeyPart_writeForm, hback]

end ChangeDesk.Toml
