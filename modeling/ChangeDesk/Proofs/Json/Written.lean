import ChangeDesk.Proofs.Json.Grammar

/-!
# Reading what was written

The compact form of a value is a spelling of the node as which the value is read, so it is read back
whatever follows it.

Main statement: reading a written value (`Node.read_compact`).
-/

namespace ChangeDesk.Json

/-! ### Numerals -/

namespace Numeral

/-- A number has no zero in front of its digits. -/
theorem head_toDigits_ne {n : Nat} (h : 0 < n) {d : Char} {ds : List Char}
    (hds : Nat.toDigits 10 n = d :: ds) : d ≠ '0' := by
  induction n using Nat.strongRecOn generalizing d ds with
  | ind n ih =>
    by_cases hn : n < 10
    · rw [Nat.toDigits_of_lt_base hn, List.cons.injEq] at hds
      have hdigit : ∀ m < 10, 0 < m → Nat.digitChar m ≠ '0' := by decide
      rw [← hds.1]
      exact hdigit n hn h
    · obtain ⟨e, es, hes⟩ :=
        List.exists_cons_of_ne_nil (Nat.toDigits_ne_nil (n := n / 10) (b := 10))
      rw [Nat.toDigits_of_base_le (by decide) (by omega), hes, List.cons_append,
        List.cons.injEq] at hds
      rw [← hds.1]
      exact ih (n / 10) (by omega) (by omega) hes

theorem whole_toDigits (n : Nat) : Whole (Nat.toDigits 10 n) := by
  refine ⟨⟨Nat.toDigits_ne_nil, fun c hc => ?_⟩, fun hhead => ?_⟩
  · exact Nat.isDigit_of_mem_toDigits (by decide) (by decide) hc
  · by_cases hn : n = 0
    · rw [hn, Nat.toDigits_zero]
    · obtain ⟨d, ds, hds⟩ := List.exists_cons_of_ne_nil (Nat.toDigits_ne_nil (n := n) (b := 10))
      rw [hds, List.head?_cons, Option.some.injEq] at hhead
      exact absurd hhead (head_toDigits_ne (by omega) hds)

theorem spells_ofInt (i : Int) : Spells (ofInt i) (ofInt i).chars := by
  have hw := whole_toDigits i.natAbs
  by_cases hi : i < 0
  · have hspells := Spells.negative hw .absent .absent
    simpa [chars, ofInt, hi] using hspells
  · have hspells := Spells.positive hw .absent .absent
    simpa [chars, ofInt, hi] using hspells

end Numeral

/-! ### Quoted texts -/

/-- A text as it is written. -/
def Quoted.written (s : String) : Quoted := ⟨s.toList.map pieceOf, .closed⟩

namespace Quoted

theorem spells_escape (c : Char) : (pieceOf c).Spells (escape c) := by
  unfold escape pieceOf
  cases hl : letter? c with
  | some l =>
    simp only [reduceCtorEq, false_and, if_false]
    exact .letter (escapedChar?_of_letter? hl)
  | none =>
    by_cases hc : c.toNat < 0x20
    · simp only [hc, and_self, if_true]
      exact .number (unitValue?_control c.toNat hc)
    · simp only [hc, and_false, if_false]
      refine .plain (fun h => ?_) (fun h => ?_) (by omega)
      · rw [h] at hl
        cases hl
      · rw [h] at hl
        cases hl

theorem spells_body (cs : List Char) : Spells (cs.map pieceOf) (body cs) := by
  induction cs with
  | nil => exact .closed
  | cons c cs ih =>
    have hbody : body (c :: cs) = escape c ++ body cs := by simp [body]
    rw [hbody]
    exact .piece (spells_escape c) ih

end Quoted

/-! ### Nodes of written values -/

namespace Value

mutual

/-- The node as which a written value is read. -/
def node : Value → Node
  | .null => .null
  | .bool b => .bool b
  | .int i => .number (.ofInt i)
  | .text s => .text (.written s)
  | .list items => .list (nodes items) .closed
  | .object members => .object (memberNodes members) .closed

/-- The nodes of items. -/
def nodes : List Value → List Node
  | [] => []
  | v :: vs => node v :: nodes vs

/-- The nodes of members. -/
def memberNodes : List (String × Value) → List (Node × Node)
  | [] => []
  | (k, v) :: ms => (.text (.written k), node v) :: memberNodes ms

end

theorem memberNodes_eq_map (ms : List (String × Value)) :
    memberNodes ms = ms.map fun m => (Node.text (.written m.1), m.2.node) := by
  induction ms with
  | nil => rfl
  | cons m ms ih => rw [memberNodes, ih, List.map_cons]

theorem memberNodes_append (ms ls : List (String × Value)) :
    memberNodes (ms ++ ls) = memberNodes ms ++ memberNodes ls := by
  rw [memberNodes_eq_map, memberNodes_eq_map, memberNodes_eq_map, List.map_append]

theorem padded_quote (k : String) : Node.Padded (.text (.written k)) (Quoted.quote k) :=
  (Node.Spells.text (Quoted.spells_body k.toList)).padded

mutual

/-- The compact form is a spelling of the node. -/
theorem spells_compact : (v : Value) → Node.Spells v.node v.compact
  | .null => .null
  | .bool b => .bool b
  | .int i => .number (Numeral.spells_ofInt i)
  | .text s => .text (Quoted.spells_body s.toList)
  | .list [] => .emptyList space_nil
  | .list (v :: vs) => .list (spells_compactItems vs (spells_compact v).padded)
  | .object [] => .emptyObject space_nil
  | .object ((k, v) :: ms) => .object (spells_compactMembers ms k (spells_compact v).padded)

theorem spells_compactItems {v : Node} {cs : List Char} :
    (vs : List Value) → Node.Padded v cs →
      Node.SpellsItems (v :: nodes vs) (cs ++ compactItems vs)
  | [], h => .last h
  | w :: ws, h => .more h (spells_compactItems ws (spells_compact w).padded)

theorem spells_compactMembers {v : Node} {cs : List Char} :
    (ms : List (String × Value)) → (k : String) → Node.Padded v cs →
      Node.SpellsMembers ((.text (.written k), v) :: memberNodes ms)
        (Quoted.quote k ++ ':' :: (cs ++ compactMembers ms))
  | [], k, h => .last (padded_quote k) h
  | (l, w) :: ms, k, h =>
    .more (padded_quote k) h (spells_compactMembers ms l (spells_compact w).padded)

end

theorem compact_cons (v : Value) : ∃ c cs, v.compact = c :: cs ∧ Opens c :=
  v.spells_compact.cons

end Value

/-- What was written of a value, after any space, is read as its node up to what follows. -/
theorem Node.read_compact {sp : List Char} (hs : Space sp) (v : Value) {r : List Char}
    (hr : Delimits r) : read (sp ++ (v.compact ++ r)) = (v.node, r) :=
  read_spelled hs v.spells_compact hr

end ChangeDesk.Json
