import ChangeDesk.Json.Value
import ChangeDesk.Proofs.Json.Spelling

/-!
# The grammar of documents

A tree of values has many spellings: there may be space around every value, and its numerals and
quoted texts are spelled in ways of their own. Reading takes one value from the front of a text, and
finds the one that is spelled there. A numeral goes on as long as it can, so what follows must not
go on with it; inside a list or an object a comma or a bracket follows.

Main statements: what is spelled is read (`Node.read_spelled`), and where a value shows its own end,
whatever follows it (`Node.read_enclosed`).
-/

namespace ChangeDesk.Json

/-! ### Space -/

/-- Nothing but space. -/
def Space (sp : List Char) : Prop := ∀ c ∈ sp, isSpace c = true

theorem space_nil : Space [] := by
  intro c hc
  cases hc

theorem skipSpace_cons {c : Char} (h : isSpace c = false) (r : List Char) :
    skipSpace (c :: r) = c :: r := by
  rw [skipSpace, List.dropWhile_cons_of_neg (by simp [h])]

theorem skipSpace_append {sp : List Char} (hs : Space sp) (cs : List Char) :
    skipSpace (sp ++ cs) = skipSpace cs := List.dropWhile_append_of_pos hs

theorem skipSpace_space {sp : List Char} (hs : Space sp) : skipSpace sp = [] := by
  have hskip := skipSpace_append hs []
  rwa [List.append_nil] at hskip

/-- The space in front of a text, and the text after it. -/
theorem exists_space (cs : List Char) : ∃ sp, Space sp ∧ cs = sp ++ skipSpace cs :=
  ⟨cs.takeWhile isSpace, List.all_eq_true.1 List.all_takeWhile,
    List.takeWhile_append_dropWhile.symm⟩

theorem skipSpace_skipSpace (cs : List Char) : skipSpace (skipSpace cs) = skipSpace cs := by
  obtain ⟨sp, hs, hcs⟩ := exists_space cs
  rw [← skipSpace_append hs, ← hcs]

theorem delimits_append_space {sp r : List Char} (hs : Space sp) (hr : Delimits r) :
    Delimits (sp ++ r) := by
  cases sp with
  | nil => exact hr
  | cons c sp =>
    have hspace := hs c (List.mem_cons_self ..)
    simp only [isSpace, Bool.or_eq_true, beq_iff_eq] at hspace
    refine delimits_cons ?_ _
    rcases hspace with ((rfl | rfl) | rfl) | rfl <;> decide

theorem Space.delimits {sp : List Char} (hs : Space sp) : Delimits sp := by
  have hend : Delimits [] := by
    intro c hc
    cases hc
  have hdelimits := delimits_append_space hs hend
  rwa [List.append_nil] at hdelimits

/-! ### Spellings -/

mutual

/-- The spelling of a value. -/
inductive Node.Spells : Node → List Char → Prop where
  | null : Spells .null ['n', 'u', 'l', 'l']
  | bool (b : Bool) : Spells (.bool b) (Value.boolChars b)
  | number {n : Numeral} {cs : List Char} (h : n.Spells cs) : Spells (.number n) cs
  | text {ps : List Piece} {cs : List Char} (h : Quoted.Spells ps cs) :
    Spells (.text ⟨ps, .closed⟩) ('"' :: cs)
  | emptyList {sp : List Char} (hs : Space sp) : Spells (.list [] .closed) ('[' :: (sp ++ [']']))
  | list {vs : List Node} {cs : List Char} (h : SpellsItems vs cs) :
    Spells (.list vs .closed) ('[' :: cs)
  | emptyObject {sp : List Char} (hs : Space sp) :
    Spells (.object [] .closed) ('\x7b' :: (sp ++ ['\x7d']))
  | object {ms : List (Node × Node)} {cs : List Char} (h : SpellsMembers ms cs) :
    Spells (.object ms .closed) ('\x7b' :: cs)

/-- The spelling of a value with space around it. -/
inductive Node.Padded : Node → List Char → Prop where
  | intro {v : Node} {sp cs sp' : List Char} (hs : Space sp) (h : Spells v cs) (hs' : Space sp') :
    Padded v (sp ++ (cs ++ sp'))

/-- The spelling of the items of a list, one at least, and the closing bracket. -/
inductive Node.SpellsItems : List Node → List Char → Prop where
  | last {v : Node} {cs : List Char} (h : Padded v cs) : SpellsItems [v] (cs ++ [']'])
  | more {v : Node} {vs : List Node} {cs ds : List Char} (h : Padded v cs)
    (rest : SpellsItems vs ds) : SpellsItems (v :: vs) (cs ++ ',' :: ds)

/-- The spelling of the members of an object, one at least, and the closing brace. -/
inductive Node.SpellsMembers : List (Node × Node) → List Char → Prop where
  | last {q : Quoted} {v : Node} {ks cs : List Char} (hk : Padded (.text q) ks)
    (hv : Padded v cs) : SpellsMembers [(.text q, v)] (ks ++ ':' :: (cs ++ ['\x7d']))
  | more {q : Quoted} {v : Node} {ms : List (Node × Node)} {ks cs ds : List Char}
    (hk : Padded (.text q) ks) (hv : Padded v cs) (rest : SpellsMembers ms ds) :
    SpellsMembers ((.text q, v) :: ms) (ks ++ ':' :: (cs ++ ',' :: ds))

end

/-- The characters with which a value may begin. -/
def Value.Opens (c : Char) : Prop :=
  c ∈ ['n', 't', 'f', '"', '[', '\x7b'] ∨ c = '-' ∨ c.isDigit = true

/-- What begins like a number is none of the other characters. -/
theorem Numeral.ne_of_start {c d : Char} (hc : c = '-' ∨ c.isDigit = true) (hminus : d ≠ '-')
    (hd : d.isDigit = false) : c ≠ d := by
  rintro rfl
  rcases hc with hc | hc
  · exact hminus hc
  · rw [hd] at hc
    cases hc

theorem Numeral.not_isSpace_of_start {c : Char} (hc : c = '-' ∨ c.isDigit = true) :
    isSpace c = false := by
  have hspace := ne_of_start (d := ' ') hc (by decide) rfl
  have hfeed := ne_of_start (d := '\n') hc (by decide) rfl
  have htab := ne_of_start (d := '\t') hc (by decide) rfl
  have hreturn := ne_of_start (d := '\r') hc (by decide) rfl
  simp only [isSpace, beq_eq_false_iff_ne.2 hspace, beq_eq_false_iff_ne.2 hfeed,
    beq_eq_false_iff_ne.2 htab, beq_eq_false_iff_ne.2 hreturn, Bool.or_self]

/-- A value is not taken for space, nor for the end of a list or an object. -/
theorem Value.Opens.plain {c : Char} (h : Opens c) : isSpace c = false ∧ c ≠ ']' ∧ c ≠ '\x7d' := by
  rcases h with h | h
  · simp only [List.mem_cons, List.not_mem_nil, or_false] at h
    rcases h with rfl | rfl | rfl | rfl | rfl | rfl <;> decide
  · exact ⟨Numeral.not_isSpace_of_start h, Numeral.ne_of_start h (by decide) rfl,
      Numeral.ne_of_start h (by decide) rfl⟩

namespace Node

variable {n : Nat} {v item key value : Node} {vs : List Node} {ms : List (Node × Node)}
  {cs r s : List Char}

theorem Spells.cons (h : Spells v cs) : ∃ c r, cs = c :: r ∧ Value.Opens c := by
  cases h with
  | null => exact ⟨'n', _, rfl, .inl (by decide)⟩
  | bool b =>
    cases b with
    | true => exact ⟨'t', _, rfl, .inl (by decide)⟩
    | false => exact ⟨'f', _, rfl, .inl (by decide)⟩
  | number h =>
    obtain ⟨c, r, hcs, hc⟩ := h.cons
    exact ⟨c, r, hcs, .inr hc⟩
  | text h => exact ⟨'"', _, rfl, .inl (by decide)⟩
  | emptyList hs => exact ⟨'[', _, rfl, .inl (by decide)⟩
  | list h => exact ⟨'[', _, rfl, .inl (by decide)⟩
  | emptyObject hs => exact ⟨'\x7b', _, rfl, .inl (by decide)⟩
  | object h => exact ⟨'\x7b', _, rfl, .inl (by decide)⟩

theorem Spells.padded (h : Spells v cs) : Padded v cs := by
  have hpadded := Padded.intro space_nil h space_nil
  rwa [List.nil_append, List.append_nil] at hpadded

theorem Padded.opens (h : Padded v cs) (r : List Char) :
    ∃ c s, skipSpace (cs ++ r) = c :: s ∧ Value.Opens c := by
  cases h with
  | intro hs h hs' =>
    obtain ⟨c, ds, rfl, hc⟩ := h.cons
    rw [List.append_assoc, skipSpace_append hs, List.cons_append, List.cons_append,
      skipSpace_cons hc.plain.1]
    exact ⟨c, _, rfl, hc⟩

theorem SpellsItems.opens (h : SpellsItems vs cs) (r : List Char) :
    ∃ c s, skipSpace (cs ++ r) = c :: s ∧ Value.Opens c := by
  cases h with
  | last h =>
    rw [List.append_assoc]
    exact h.opens _
  | more h rest =>
    rw [List.append_assoc]
    exact h.opens _

theorem SpellsMembers.opens (h : SpellsMembers ms cs) (r : List Char) :
    ∃ c s, skipSpace (cs ++ r) = c :: s ∧ Value.Opens c := by
  cases h with
  | last hk hv =>
    rw [List.append_assoc]
    exact hk.opens _
  | more hk hv rest =>
    rw [List.append_assoc]
    exact hk.opens _

/-! ### Reading one step -/

theorem readValue_skipSpace (n : Nat) (cs : List Char) :
    readValue n (skipSpace cs) = readValue n cs := by
  cases n with
  | zero => rfl
  | succ n => rw [readValue, readValue, skipSpace_skipSpace]

theorem readItems_skipSpace (n : Nat) (cs : List Char) :
    readItems n (skipSpace cs) = readItems n cs := by
  cases n with
  | zero => rfl
  | succ n => rw [readItems, readItems, readValue_skipSpace]

theorem readMembers_skipSpace (n : Nat) (cs : List Char) :
    readMembers n (skipSpace cs) = readMembers n cs := by
  cases n with
  | zero => rfl
  | succ n => rw [readMembers, readMembers, readValue_skipSpace]

theorem readValue_space (n : Nat) {sp : List Char} (hs : Space sp) (cs : List Char) :
    readValue n (sp ++ cs) = readValue n cs := by
  rw [← readValue_skipSpace, skipSpace_append hs, readValue_skipSpace]

theorem readValue_numeral (n : Nat) {c : Char} (hc : c = '-' ∨ c.isDigit = true)
    (cs : List Char) : readValue (n + 1) (c :: cs) = readNumber (c :: cs) := by
  rw [readValue, skipSpace_cons (Numeral.not_isSpace_of_start hc)]
  split
  · rename_i heq
    cases heq
  -- the first six forms begin with a character that begins no number
  all_goals
    rename_i heq
    rw [List.cons.injEq] at heq
  · exact absurd heq.1 (Numeral.ne_of_start hc (by decide) rfl)
  · exact absurd heq.1 (Numeral.ne_of_start hc (by decide) rfl)
  · exact absurd heq.1 (Numeral.ne_of_start hc (by decide) rfl)
  · exact absurd heq.1 (Numeral.ne_of_start hc (by decide) rfl)
  · exact absurd heq.1 (Numeral.ne_of_start hc (by decide) rfl)
  · exact absurd heq.1 (Numeral.ne_of_start hc (by decide) rfl)
  · rw [← heq.1, ← heq.2, if_pos hc]

theorem readValue_list (n : Nat) {c : Char} (hskip : skipSpace r = c :: s)
    (hc : Value.Opens c) :
    readValue (n + 1) ('[' :: r) =
      (.list (readItems n r).1 (readItems n r).2.1, (readItems n r).2.2) := by
  rw [readValue, skipSpace_cons rfl, ← readItems_skipSpace n r]
  simp only [hskip]
  split
  · rename_i heq
    cases heq
  · rename_i heq
    exact absurd (List.cons.inj heq).1 hc.plain.2.1
  · rfl

theorem readValue_object (n : Nat) {c : Char} (hskip : skipSpace r = c :: s)
    (hc : Value.Opens c) :
    readValue (n + 1) ('\x7b' :: r) =
      (.object (readMembers n r).1 (readMembers n r).2.1, (readMembers n r).2.2) := by
  rw [readValue, skipSpace_cons rfl, ← readMembers_skipSpace n r]
  simp only [hskip]
  split
  · rename_i heq
    cases heq
  · rename_i heq
    exact absurd (List.cons.inj heq).1 hc.plain.2.2
  · rfl

theorem readItems_last (hv : readValue n cs = (item, s)) (hs : skipSpace s = ']' :: r) :
    readItems (n + 1) cs = ([item], .closed, r) := by
  rw [readItems, hv]
  simp only [hs]

theorem readItems_comma {c : Char} {t : List Char} (hv : readValue n cs = (item, s))
    (hs : skipSpace s = ',' :: r) (hskip : skipSpace r = c :: t) (hc : Value.Opens c) :
    readItems (n + 1) cs =
      (item :: (readItems n r).1, (readItems n r).2.1, (readItems n r).2.2) := by
  rw [readItems, hv, ← readItems_skipSpace n r]
  simp only [hs, hskip]
  split
  · rename_i heq
    exact absurd (List.cons.inj heq).1 hc.plain.2.1
  · rfl

theorem readMembers_last {t u : List Char} (hk : readValue n cs = (key, s))
    (hs : skipSpace s = ':' :: r) (hv : readValue n r = (value, t))
    (ht : skipSpace t = '\x7d' :: u) :
    readMembers (n + 1) cs = ([(key, value)], .closed, u) := by
  rw [readMembers, hk]
  simp only [hs, hv, ht]

theorem readMembers_comma {c : Char} {t u w : List Char} (hk : readValue n cs = (key, s))
    (hs : skipSpace s = ':' :: r) (hv : readValue n r = (value, t))
    (ht : skipSpace t = ',' :: u) (hskip : skipSpace u = c :: w) (hc : Value.Opens c) :
    readMembers (n + 1) cs =
      ((key, value) :: (readMembers n u).1, (readMembers n u).2.1, (readMembers n u).2.2) := by
  rw [readMembers, hk, ← readMembers_skipSpace n u]
  simp only [hs, hv, ht, hskip]
  split
  · rename_i heq
    cases heq
  · rename_i heq
    exact absurd (List.cons.inj heq).1 hc.plain.2.2
  · rfl

/-! ### What is spelled is read -/

/-- With `n` steps, what is spelled with at most `n` characters is read. -/
def ReadsValues (n : Nat) : Prop :=
  ∀ (v : Node) (cs r : List Char), Spells v cs → Delimits r → cs.length ≤ n →
    readValue n (cs ++ r) = (v, r)

@[inherit_doc ReadsValues]
def ReadsItems (n : Nat) : Prop :=
  ∀ (vs : List Node) (cs r : List Char), SpellsItems vs cs → cs.length ≤ n →
    readItems n (cs ++ r) = (vs, .closed, r)

@[inherit_doc ReadsValues]
def ReadsMembers (n : Nat) : Prop :=
  ∀ (ms : List (Node × Node)) (cs r : List Char), SpellsMembers ms cs → cs.length ≤ n →
    readMembers n (cs ++ r) = (ms, .closed, r)

/-- A value that shows where it ends: a quoted text, a list or an object. -/
def Enclosed : Node → Prop
  | .text _ | .list _ _ | .object _ _ => True
  | _ => False

/-- Whatever follows does not go on with such a value. -/
theorem readValue_enclosed (hi : ReadsItems n) (hm : ReadsMembers n) (h : Spells v cs)
    (hv : v.Enclosed) (hlen : cs.length ≤ n + 1) (r : List Char) :
    readValue (n + 1) (cs ++ r) = (v, r) := by
  cases h with
  | null => exact hv.elim
  | bool b => exact hv.elim
  | number h => exact hv.elim
  | @text ps cs h =>
    show (Node.text (Quoted.read (cs ++ r)).1, (Quoted.read (cs ++ r)).2) = _
    rw [Quoted.read_spelled h]
  | @emptyList sp hs =>
    have hskip : skipSpace ((sp ++ [']']) ++ r) = ']' :: r := by
      rw [List.append_assoc, skipSpace_append hs]
      rfl
    rw [List.cons_append, readValue, skipSpace_cons rfl]
    simp only [hskip]
  | list h =>
    obtain ⟨c, s, hskip, hc⟩ := h.opens r
    rw [List.length_cons] at hlen
    rw [List.cons_append, readValue_list n hskip hc, hi _ _ r h (by omega)]
  | @emptyObject sp hs =>
    have hskip : skipSpace ((sp ++ ['\x7d']) ++ r) = '\x7d' :: r := by
      rw [List.append_assoc, skipSpace_append hs]
      rfl
    rw [List.cons_append, readValue, skipSpace_cons rfl]
    simp only [hskip]
  | object h =>
    obtain ⟨c, s, hskip, hc⟩ := h.opens r
    rw [List.length_cons] at hlen
    rw [List.cons_append, readValue_object n hskip hc, hm _ _ r h (by omega)]

theorem readsValues_succ (hi : ReadsItems n) (hm : ReadsMembers n) : ReadsValues (n + 1) := by
  intro v cs r h hr hlen
  have henclosed := readValue_enclosed hi hm h
  cases h with
  | null => rfl
  | bool b => cases b <;> rfl
  | number h =>
    obtain ⟨c, ds, rfl, hc⟩ := h.cons
    have hread := Numeral.read_spelled h hr
    rw [List.cons_append] at hread ⊢
    rw [readValue_numeral n hc, readNumber, hread]
  | text h => exact henclosed trivial hlen r
  | emptyList hs => exact henclosed trivial hlen r
  | list h => exact henclosed trivial hlen r
  | emptyObject hs => exact henclosed trivial hlen r
  | object h => exact henclosed trivial hlen r

/-- Space around a value does not keep it from being read. -/
theorem ReadsValues.padded (hv : ReadsValues n) (h : Padded v cs) (hr : Delimits r)
    (hlen : cs.length ≤ n) :
    ∃ s, readValue n (cs ++ r) = (v, s) ∧ skipSpace s = skipSpace r := by
  cases h with
  | @intro v sp ds sp' hs h hs' =>
    rw [List.length_append, List.length_append] at hlen
    refine ⟨sp' ++ r, ?_, skipSpace_append hs' r⟩
    rw [List.append_assoc, readValue_space n hs, List.append_assoc]
    exact hv v ds _ h (delimits_append_space hs' hr) (by omega)

theorem readsItems_succ (hv : ReadsValues n) (hi : ReadsItems n) : ReadsItems (n + 1) := by
  intro vs cs r h hlen
  cases h with
  | last h =>
    rw [List.length_append, List.length_singleton] at hlen
    have hr : Delimits (']' :: r) := delimits_cons (by decide) r
    obtain ⟨s, hread, hskip⟩ := hv.padded h hr (by omega)
    rw [List.append_assoc]
    exact readItems_last hread hskip
  | @more v vs cs ds h rest =>
    rw [List.length_append, List.length_cons] at hlen
    have hr : Delimits (',' :: (ds ++ r)) := delimits_cons (by decide) _
    obtain ⟨s, hread, hskip⟩ := hv.padded h hr (by omega)
    obtain ⟨c, t, hnext, hc⟩ := rest.opens r
    rw [List.append_assoc, List.cons_append, readItems_comma hread hskip hnext hc,
      hi vs ds r rest (by omega)]

theorem readsMembers_succ (hv : ReadsValues n) (hm : ReadsMembers n) :
    ReadsMembers (n + 1) := by
  intro ms cs r h hlen
  cases h with
  | @last q v ks cs hk hvalue =>
    rw [List.length_append, List.length_cons, List.length_append, List.length_singleton] at hlen
    have hcolon : Delimits (':' :: (cs ++ '\x7d' :: r)) := delimits_cons (by decide) _
    have hbrace : Delimits ('\x7d' :: r) := delimits_cons (by decide) r
    obtain ⟨s, hread, hskip⟩ := hv.padded hk hcolon (by omega)
    obtain ⟨s', hread', hskip'⟩ := hv.padded hvalue hbrace (by omega)
    rw [List.append_assoc, List.cons_append, List.append_assoc]
    exact readMembers_last hread hskip hread' hskip'
  | @more q v ms ks cs ds hk hvalue rest =>
    rw [List.length_append, List.length_cons, List.length_append, List.length_cons] at hlen
    have hcolon : Delimits (':' :: (cs ++ ',' :: (ds ++ r))) := delimits_cons (by decide) _
    have hcomma : Delimits (',' :: (ds ++ r)) := delimits_cons (by decide) _
    obtain ⟨s, hread, hskip⟩ := hv.padded hk hcolon (by omega)
    obtain ⟨s', hread', hskip'⟩ := hv.padded hvalue hcomma (by omega)
    obtain ⟨c, t, hnext, hc⟩ := rest.opens r
    rw [List.append_assoc, List.cons_append, List.append_assoc, List.cons_append,
      readMembers_comma hread hskip hread' hskip' hnext hc, hm ms ds r rest (by omega)]

theorem reads_spelled (n : Nat) : ReadsValues n ∧ ReadsItems n ∧ ReadsMembers n := by
  -- each reader passes one step less on, and what it passes on is shorter by a character at least
  induction n with
  | zero =>
    refine ⟨?_, ?_, ?_⟩
    · intro v cs r h _ hlen
      obtain ⟨c, ds, rfl, -⟩ := h.cons
      rw [List.length_cons] at hlen
      omega
    · intro vs cs r h hlen
      cases h <;> simp only [List.length_append, List.length_cons] at hlen <;> omega
    · intro ms cs r h hlen
      cases h <;> simp only [List.length_append, List.length_cons] at hlen <;> omega
  | succ n ih =>
    obtain ⟨hv, hi, hm⟩ := ih
    exact ⟨readsValues_succ hi hm, readsItems_succ hv hi, readsMembers_succ hv hm⟩

/-- A value is read, after any space, up to what follows it. -/
theorem read_spelled {sp : List Char} (hs : Space sp) (h : Spells v cs) (hr : Delimits r) :
    read (sp ++ (cs ++ r)) = (v, r) := by
  obtain ⟨hv, -, -⟩ := reads_spelled (2 * (sp ++ (cs ++ r)).length + 1)
  rw [read, readValue_space _ hs]
  refine hv v cs r h hr ?_
  simp only [List.length_append]
  omega

/-- An enclosed value is read up to what follows it, whatever that is. -/
theorem read_enclosed {sp : List Char} (hs : Space sp) (h : Spells v cs) (hv : v.Enclosed)
    (r : List Char) : read (sp ++ (cs ++ r)) = (v, r) := by
  obtain ⟨-, hi, hm⟩ := reads_spelled (2 * (sp ++ (cs ++ r)).length)
  rw [read, readValue_space _ hs]
  refine readValue_enclosed hi hm h hv ?_ r
  simp only [List.length_append]
  omega

end Node

end ChangeDesk.Json
