import ChangeDesk.Json.Node

/-!
# How numerals and quoted texts are spelled

The grammar of the two kinds of values that have a spelling of their own. A numeral is a whole part
without a needless zero, a fraction and an exponent; a quoted text is made of plain characters and
escapes. Reading takes exactly one numeral or one quoted text from the front of a text.

Main statements: what is spelled is read, up to what follows (`Numeral.read_spelled`,
`Quoted.read_spelled`), and only what is spelled is read (`Numeral.spells_of_read`,
`Quoted.spells_of_read`).
-/

namespace ChangeDesk.Json

/-! ### Digits -/

/-- One digit or more. -/
def Digits (ds : List Char) : Prop := ds ≠ [] ∧ ∀ d ∈ ds, d.isDigit = true

/-- What may follow digits: the end, or anything but a digit. -/
def EndsDigits (r : List Char) : Prop := ∀ c ∈ r.head?, c.isDigit = false

/-- What may follow a numeral: the end, or a character that does not go on with it. -/
def Delimits (r : List Char) : Prop :=
  ∀ c ∈ r.head?, c.isDigit = false ∧ c ≠ '.' ∧ c ≠ 'e' ∧ c ≠ 'E'

theorem delimits_cons {c : Char} (h : c.isDigit = false ∧ c ≠ '.' ∧ c ≠ 'e' ∧ c ≠ 'E')
    (r : List Char) : Delimits (c :: r) := by
  intro d hd
  rw [List.head?_cons, Option.mem_some_iff] at hd
  rwa [← hd]

theorem endsDigits_cons {c : Char} (h : c.isDigit = false) (r : List Char) :
    EndsDigits (c :: r) := by
  intro d hd
  rw [List.head?_cons, Option.mem_some_iff] at hd
  rwa [← hd]

theorem Delimits.endsDigits {r : List Char} (h : Delimits r) : EndsDigits r :=
  fun c hc => (h c hc).1

theorem EndsDigits.takeWhile_append {ds r : List Char} (hr : EndsDigits r)
    (hd : ∀ c ∈ ds, c.isDigit = true) : (ds ++ r).takeWhile Char.isDigit = ds := by
  rw [List.takeWhile_append_of_pos hd]
  cases r with
  | nil => exact List.append_nil ds
  | cons c r => rw [List.takeWhile_cons_of_neg (by simp [hr c rfl]), List.append_nil]

theorem EndsDigits.dropWhile_append {ds r : List Char} (hr : EndsDigits r)
    (hd : ∀ c ∈ ds, c.isDigit = true) : (ds ++ r).dropWhile Char.isDigit = r := by
  rw [List.dropWhile_append_of_pos hd]
  cases r with
  | nil => rfl
  | cons c r => rw [List.dropWhile_cons_of_neg (by simp [hr c rfl])]

/-- The digits in front of a text, if there are any. -/
theorem digits_takeWhile {cs : List Char} (h : cs.takeWhile Char.isDigit ≠ []) :
    Digits (cs.takeWhile Char.isDigit) :=
  ⟨h, List.all_eq_true.1 List.all_takeWhile⟩

/-! ### Numerals -/

namespace Numeral

/-- The digits before the point, without a needless zero in front. -/
def Whole (ds : List Char) : Prop := Digits ds ∧ (ds.head? = some '0' → ds = ['0'])

inductive FractionSpells : Option (List Char) → List Char → Prop where
  | absent : FractionSpells none []
  | digits {ds : List Char} (h : Digits ds) : FractionSpells (some ds) ('.' :: ds)

/-- The sign of an exponent. -/
inductive SignSpells : Bool → List Char → Prop where
  | absent : SignSpells false []
  | plus : SignSpells false ['+']
  | minus : SignSpells true ['-']

inductive ExponentSpells : Option (Bool × List Char) → List Char → Prop where
  | absent : ExponentSpells none []
  | digits {mark : Char} {down : Bool} {sign ds : List Char} (hmark : mark = 'e' ∨ mark = 'E')
    (hsign : SignSpells down sign) (h : Digits ds) :
    ExponentSpells (some (down, ds)) (mark :: (sign ++ ds))

/-- The spelling of a numeral. -/
inductive Spells : Numeral → List Char → Prop where
  | positive {whole fs es : List Char} {fraction : Option (List Char)}
    {exponent : Option (Bool × List Char)} (hw : Whole whole) (hf : FractionSpells fraction fs)
    (he : ExponentSpells exponent es) :
    Spells ⟨false, whole, fraction, exponent⟩ (whole ++ (fs ++ es))
  | negative {whole fs es : List Char} {fraction : Option (List Char)}
    {exponent : Option (Bool × List Char)} (hw : Whole whole) (hf : FractionSpells fraction fs)
    (he : ExponentSpells exponent es) :
    Spells ⟨true, whole, fraction, exponent⟩ ('-' :: (whole ++ (fs ++ es)))

variable {negative : Bool} {whole fs es cs r : List Char} {fraction : Option (List Char)}
  {exponent : Option (Bool × List Char)} {n : Numeral}

theorem Whole.cons (h : Whole whole) :
    ∃ d ds, whole = d :: ds ∧ d.isDigit = true ∧ (∀ c ∈ ds, c.isDigit = true) ∧
      (d = '0' → ds = []) := by
  obtain ⟨⟨hne, hall⟩, hzero⟩ := h
  obtain ⟨d, ds, rfl⟩ := List.exists_cons_of_ne_nil hne
  refine ⟨d, ds, rfl, hall d (List.mem_cons_self ..),
    fun c hc => hall c (List.mem_cons_of_mem _ hc),
    ?_⟩
  rintro rfl
  exact (List.cons.inj (hzero rfl)).2

/-- What follows the fraction ends it, and does not begin with a point. -/
theorem ExponentSpells.head (he : ExponentSpells exponent es) (hr : Delimits r) :
    ∀ c ∈ (es ++ r).head?, c.isDigit = false ∧ c ≠ '.' := by
  cases he with
  | absent => exact fun c hc => ⟨(hr c hc).1, (hr c hc).2.1⟩
  | digits hmark hsign h =>
    intro c hc
    obtain rfl := Option.mem_some_iff.1 hc
    rcases hmark with rfl | rfl <;> decide

theorem FractionSpells.head (hf : FractionSpells fraction fs) (he : ExponentSpells exponent es)
    (hr : Delimits r) : EndsDigits (fs ++ (es ++ r)) := by
  cases hf with
  | absent => exact fun c hc => (he.head hr c hc).1
  | digits h => exact endsDigits_cons rfl _

/-! #### What is spelled is read -/

theorem readExponent_spelled (negative : Bool) (whole : List Char) (fraction : Option (List Char))
    (he : ExponentSpells exponent es) (hr : Delimits r) :
    readExponent negative whole fraction (es ++ r) =
      .complete ⟨negative, whole, fraction, exponent⟩ r := by
  cases he with
  | absent =>
    cases r with
    | nil => rfl
    | cons c r =>
      obtain ⟨-, -, he, hE⟩ := hr c rfl
      simp only [List.nil_append, readExponent, he, hE, or_self, if_false]
  | @digits mark down sign ds hmark hsign h =>
    obtain ⟨hne, hall⟩ := h
    obtain ⟨d, ds, rfl⟩ := List.exists_cons_of_ne_nil hne
    have htake := hr.endsDigits.takeWhile_append hall
    have hdrop := hr.endsDigits.dropWhile_append hall
    cases hsign with
    | plus =>
      show readExponent negative whole fraction (mark :: '+' :: (d :: ds ++ r)) = _
      simp only [readExponent, hmark, if_true, htake, hdrop]
    | minus =>
      show readExponent negative whole fraction (mark :: '-' :: (d :: ds ++ r)) = _
      simp only [readExponent, hmark, if_true, htake, hdrop]
    | absent =>
      have hd := hall d (List.mem_cons_self ..)
      show readExponent negative whole fraction (mark :: (d :: ds ++ r)) = _
      rw [readExponent.eq_def]
      simp only [hmark, if_true]
      -- a digit is no sign
      split
      · rename_i heq
        obtain rfl := (List.cons.inj heq).1
        cases hd
      · rename_i heq
        obtain rfl := (List.cons.inj heq).1
        cases hd
      · simp only [htake, hdrop]

theorem readFraction_spelled (negative : Bool) (whole : List Char)
    (hf : FractionSpells fraction fs) (he : ExponentSpells exponent es) (hr : Delimits r) :
    readFraction negative whole (fs ++ (es ++ r)) =
      .complete ⟨negative, whole, fraction, exponent⟩ r := by
  have hhead := he.head hr
  have hexponent := readExponent_spelled negative whole fraction he hr
  cases hf with
  | absent =>
    rw [List.nil_append, readFraction.eq_def]
    split
    · rename_i heq
      rw [heq] at hhead
      exact absurd rfl (hhead '.' rfl).2
    · exact hexponent
  | digits h =>
    obtain ⟨hne, hall⟩ := h
    obtain ⟨d, ds, rfl⟩ := List.exists_cons_of_ne_nil hne
    have hends : EndsDigits (es ++ r) := fun c hc => (hhead c hc).1
    simp only [List.cons_append, readFraction]
    rw [← List.cons_append, hends.takeWhile_append hall, hends.dropWhile_append hall]
    exact hexponent

theorem readWhole_spelled (negative : Bool) (hw : Whole whole) (hf : FractionSpells fraction fs)
    (he : ExponentSpells exponent es) (hr : Delimits r) :
    readWhole negative (whole ++ (fs ++ (es ++ r))) =
      .complete ⟨negative, whole, fraction, exponent⟩ r := by
  have hends := hf.head he hr
  obtain ⟨d, ds, rfl, hd, hall, hzero⟩ := hw.cons
  have hfraction := readFraction_spelled negative (d :: ds) hf he hr
  rw [List.cons_append, readWhole.eq_def]
  split
  · rename_i heq
    cases heq
  · rename_i rest heq
    obtain ⟨rfl, rfl⟩ := List.cons.inj heq
    obtain rfl := hzero rfl
    rw [List.nil_append]
    cases hrest : fs ++ (es ++ r) with
    | nil =>
      rw [hrest] at hfraction
      exact hfraction
    | cons c r' =>
      rw [hrest] at hfraction hends
      simp only [hends c rfl, Bool.false_eq_true, if_false]
      exact hfraction
  · rename_i heq
    obtain ⟨rfl, rfl⟩ := List.cons.inj heq
    rw [if_pos hd, hends.takeWhile_append hall, hends.dropWhile_append hall]
    exact hfraction

/-- A numeral is read, up to what does not go on with it. -/
theorem read_spelled (h : Spells n cs) (hr : Delimits r) : read (cs ++ r) = .complete n r := by
  cases h with
  | negative hw hf he =>
    rw [List.cons_append, List.append_assoc, List.append_assoc]
    exact readWhole_spelled true hw hf he hr
  | positive hw hf he =>
    have hread := readWhole_spelled false hw hf he hr
    obtain ⟨d, ds, rfl, hd, -, -⟩ := hw.cons
    rw [List.append_assoc, List.append_assoc, List.cons_append] at *
    rw [read.eq_def]
    split
    · rename_i heq
      obtain rfl := (List.cons.inj heq).1
      cases hd
    · exact hread

/-! #### Only what is spelled is read -/

theorem spells_of_exponent {mark : Char} {down : Bool} {sign ds : List Char}
    (hmark : mark = 'e' ∨ mark = 'E') (hsign : SignSpells down sign)
    (hne : ds.takeWhile Char.isDigit ≠ [])
    (h : Reading.complete ⟨negative, whole, fraction, some (down, ds.takeWhile Char.isDigit)⟩
      (ds.dropWhile Char.isDigit) = .complete n r) :
    ∃ exponent es, n = ⟨negative, whole, fraction, exponent⟩ ∧ ExponentSpells exponent es ∧
      mark :: (sign ++ ds) = es ++ r := by
  cases h
  refine ⟨_, _, rfl, .digits hmark hsign (digits_takeWhile hne), ?_⟩
  rw [List.cons_append, List.append_assoc, List.takeWhile_append_dropWhile]

theorem spells_of_readExponent (h : readExponent negative whole fraction cs = .complete n r) :
    ∃ exponent es, n = ⟨negative, whole, fraction, exponent⟩ ∧ ExponentSpells exponent es ∧
      cs = es ++ r := by
  rw [readExponent.eq_def] at h
  dsimp only at h
  split at h
  · rename_i c rest
    split at h
    · rename_i hmark
      split at h
      · split at h
        · cases h
        · rename_i hne
          exact spells_of_exponent hmark .plus hne h
      · split at h
        · cases h
        · rename_i hne
          exact spells_of_exponent hmark .minus hne h
      · split at h
        · cases h
        · rename_i hne
          exact spells_of_exponent hmark .absent hne h
    · cases h
      exact ⟨none, [], rfl, .absent, rfl⟩
  · cases h
    exact ⟨none, [], rfl, .absent, rfl⟩

theorem spells_of_readFraction (h : readFraction negative whole cs = .complete n r) :
    ∃ fraction exponent fs es, n = ⟨negative, whole, fraction, exponent⟩ ∧
      FractionSpells fraction fs ∧ ExponentSpells exponent es ∧ cs = fs ++ (es ++ r) := by
  rw [readFraction.eq_def] at h
  split at h
  · rename_i rest
    split at h
    · cases h
    · rename_i hne
      obtain ⟨exponent, es, rfl, he, hdrop⟩ := spells_of_readExponent h
      refine ⟨_, exponent, _, es, rfl, .digits (digits_takeWhile hne), he, ?_⟩
      rw [List.cons_append, ← hdrop, List.takeWhile_append_dropWhile]
  · obtain ⟨exponent, es, rfl, he, rfl⟩ := spells_of_readExponent h
    exact ⟨none, exponent, [], es, rfl, .absent, he, rfl⟩

theorem spells_of_readWhole (h : readWhole negative cs = .complete n r) :
    ∃ whole fraction exponent fs es, n = ⟨negative, whole, fraction, exponent⟩ ∧ Whole whole ∧
      FractionSpells fraction fs ∧ ExponentSpells exponent es ∧
      cs = whole ++ (fs ++ (es ++ r)) := by
  have hzero : Whole ['0'] :=
    ⟨⟨List.cons_ne_nil _ _, List.forall_mem_singleton.2 rfl⟩, fun _ => rfl⟩
  rw [readWhole.eq_def] at h
  split at h
  · cases h
  · split at h
    · obtain ⟨fraction, exponent, fs, es, rfl, hf, he, hrest⟩ := spells_of_readFraction h
      exact ⟨['0'], fraction, exponent, fs, es, rfl, hzero, hf, he, by rw [← hrest]; rfl⟩
    · split at h
      · cases h
      · obtain ⟨fraction, exponent, fs, es, rfl, hf, he, hrest⟩ := spells_of_readFraction h
        exact ⟨['0'], fraction, exponent, fs, es, rfl, hzero, hf, he, by rw [← hrest]; rfl⟩
  · rename_i c rest hnz
    split at h
    · rename_i hc
      obtain ⟨fraction, exponent, fs, es, rfl, hf, he, hrest⟩ := spells_of_readFraction h
      have hdigits : Digits (c :: rest.takeWhile Char.isDigit) := by
        refine ⟨List.cons_ne_nil _ _, ?_⟩
        intro d hd
        rcases List.mem_cons.1 hd with rfl | hd
        · exact hc
        · exact List.all_eq_true.1 List.all_takeWhile d hd
      refine ⟨_, fraction, exponent, fs, es, rfl, ⟨hdigits, ?_⟩, hf, he, ?_⟩
      · intro hhead
        exact absurd (Option.some.inj hhead) hnz
      · rw [List.cons_append, ← hrest, List.takeWhile_append_dropWhile]
    · cases h

/-- Only a numeral is read, and what is left comes after it. -/
theorem spells_of_read (h : read cs = .complete n r) : ∃ used, cs = used ++ r ∧ Spells n used := by
  rw [read.eq_def] at h
  split at h
  · obtain ⟨whole, fraction, exponent, fs, es, rfl, hw, hf, he, hrest⟩ := spells_of_readWhole h
    refine ⟨_, ?_, .negative hw hf he⟩
    rw [hrest, List.cons_append, List.append_assoc, List.append_assoc]
  · obtain ⟨whole, fraction, exponent, fs, es, rfl, hw, hf, he, hrest⟩ := spells_of_readWhole h
    refine ⟨_, ?_, .positive hw hf he⟩
    rw [hrest, List.append_assoc, List.append_assoc]

/-- A numeral begins with a minus sign or a digit. -/
theorem Spells.cons (h : Spells n cs) : ∃ c r, cs = c :: r ∧ (c = '-' ∨ c.isDigit = true) := by
  cases h with
  | negative hw hf he => exact ⟨'-', _, rfl, .inl rfl⟩
  | positive hw hf he =>
    obtain ⟨d, ds, rfl, hd, -, -⟩ := hw.cons
    exact ⟨d, _, rfl, .inr hd⟩

end Numeral

/-! ### Quoted texts -/

/-- The spelling of a part of a quoted text. -/
inductive Piece.Spells : Piece → List Char → Prop where
  | plain {c : Char} (hquote : c ≠ '"') (hslash : c ≠ '\\') (hprinted : 0x20 ≤ c.toNat) :
    Spells (.char c) [c]
  | letter {l c : Char} (h : Quoted.escapedChar? l = some c) : Spells (.char c) ['\\', l]
  | number {a b c d : Char} {n : Nat} (h : Quoted.unitValue? a b c d = some n) :
    Spells (.unit n) ['\\', 'u', a, b, c, d]

namespace Quoted

/-- The spelling of a quoted text after its opening quote. -/
inductive Spells : List Piece → List Char → Prop where
  | closed : Spells [] ['"']
  | piece {p : Piece} {ps : List Piece} {cs ds : List Char} (h : p.Spells cs)
    (rest : Spells ps ds) : Spells (p :: ps) (cs ++ ds)

variable {p : Piece} {ps : List Piece} {cs : List Char}

theorem read_piece (h : p.Spells cs) (r : List Char) : read (cs ++ r) = cons p (read r) := by
  cases h with
  | plain hquote hslash hprinted => exact read_plain hquote hslash (by omega) r
  | @letter l c h =>
    have hu : l ≠ 'u' := by
      rintro rfl
      cases h
    rw [List.cons_append, List.singleton_append, read.eq_def]
    split
    case h_5 heq _ => grind
    all_goals grind
  | number h => simp only [List.cons_append, List.nil_append, read, h]

theorem read_spelled (h : Spells ps cs) (r : List Char) :
    read (cs ++ r) = (⟨ps, .closed⟩, r) := by
  induction h with
  | closed => rfl
  | piece h rest ih =>
    rw [List.append_assoc, read_piece h, ih]
    rfl

/-- Only a quoted text is read to its closing quote, and what is left comes after it. -/
theorem spells_of_read (h : (read cs).1.ending = .closed) :
    ∃ used, cs = used ++ (read cs).2 ∧ Spells (read cs).1.pieces used := by
  fun_induction read cs with
  | case2 r => exact ⟨['"'], rfl, .closed⟩
  | case3 a b c d r n hn ih =>
    obtain ⟨used, hcs, hspells⟩ := ih h
    exact ⟨_, congrArg ('\\' :: 'u' :: a :: b :: c :: d :: ·) hcs, .piece (.number hn) hspells⟩
  | case6 c r _ _ e he ih =>
    obtain ⟨used, hcs, hspells⟩ := ih h
    exact ⟨_, congrArg ('\\' :: c :: ·) hcs, .piece (.letter he) hspells⟩
  | case10 c r hquote _ _ hescape hend hprinted ih =>
    obtain ⟨used, hcs, hspells⟩ := ih h
    have hslash : c ≠ '\\' := by
      rintro rfl
      cases hr : r with
      | nil => exact hend rfl hr
      | cons d ds => exact hescape d ds rfl hr
    exact ⟨_, congrArg (c :: ·) hcs, .piece (.plain hquote hslash (by omega)) hspells⟩
  | case5 r hfew =>
    rw [unitEnd] at h
    split at h <;> cases h
  | _ => cases h

end Quoted

end ChangeDesk.Json
