import ChangeDesk.Dict

/-!
# Tables of a configuration text

What a configuration text says is one table. Tables come to be in four ways: by a header, as a
step on the way to another header, by a key with dots, or between braces. The rules below say
which of them may still be added to, so that nothing is defined twice.

Main statement: a key that was set by a definition holds its value (`lookup_setMember`).
-/

namespace ChangeDesk.Toml

/-- How a table came to be. -/
inductive Origin where
  | header
  | implied
  | dotted
  | inline
deriving DecidableEq, Repr

/-- What a key stands for. Numbers, truth values and dates are not told apart. -/
inductive Item where
  | text (s : String)
  | scalar
  | list (items : List Item)
  | table (origin : Origin) (members : List (String × Item))
  | tables (elements : List (List (String × Item)))
deriving Repr, Inhabited

/-- The members of a table. -/
abbrev Members := List (String × Item)

/-- The members with a key set, in its place or at the end. -/
def setMember (key : String) (item : Item) : Members → Members
  | [] => [(key, item)]
  | m :: ms => if m.1 = key then (key, item) :: ms else m :: setMember key item ms

theorem lookup_setMember (key : String) (item : Item) (ms : Members) (x : String) :
    (setMember key item ms).lookup x = if x = key then some item else ms.lookup x := by
  induction ms with
  | nil => rw [setMember, Dict.lookup_cons_eq]
  | cons m ms ih =>
    rw [setMember]
    split
    · rename_i hm
      rw [Dict.lookup_cons_eq, Dict.lookup_cons_eq, hm]
      split <;> rfl
    · rename_i hm
      rw [Dict.lookup_cons_eq, Dict.lookup_cons_eq, ih]
      by_cases h : x = m.1
      · have hk : ¬x = key := fun hx => hm (h.symm.trans hx)
        rw [if_pos h, if_neg hk, if_pos h]
      · rw [if_neg h, if_neg h]

/-- Changes the table at the end of a path. Missing tables on the way are made; a list of tables
stands for its last one. A path of dots may only go through tables that were made on the way to
others or by dots. -/
def changeAt (dots : Bool) (change : Origin → Members → Option Members) :
    List String → Origin → Members → Option Members
  | [], origin, ms => change origin ms
  | k :: ks, _, ms =>
    match ms.lookup k with
    | none => do
      let made := if dots then Origin.dotted else .implied
      let inner ← changeAt dots change ks made []
      return setMember k (.table made inner) ms
    | some (.table origin inner) =>
      if origin = .inline ∨ (dots ∧ origin = .header) then none
      else do
        let inner ← changeAt dots change ks origin inner
        return setMember k (.table origin inner) ms
    | some (.tables elements) => do
      let last ← elements.getLast?
      let last ← changeAt dots change ks .header last
      return setMember k (.tables (elements.dropLast ++ [last])) ms
    | some _ => none

/-- Adds a key that is not there yet. A table may be added to by keys of dots, or by plain keys,
but not by both. -/
def addKey (dots : Bool) (key : String) (item : Item) (origin : Origin) (ms : Members) :
    Option Members :=
  if (origin = .dotted) ≠ dots then none
  else if (ms.lookup key).isSome then none
  else some (setMember key item ms)

/-- Defines a key, perhaps with dots, in a table. -/
def define (path : List String) (key : String) (item : Item) :
    Origin → Members → Option Members :=
  changeAt true (addKey (!path.isEmpty) key item) path

/-- Defines a table by a header. One that was only a step to another may still be defined. -/
def openTable (path : List String) (key : String) : Members → Option Members :=
  changeAt false (fun _ ms =>
    match ms.lookup key with
    | none => some (setMember key (.table .header []) ms)
    | some (.table .implied inner) => some (setMember key (.table .header inner) ms)
    | some _ => none) path .header

/-- Adds a table to a list of tables by a header. -/
def openElement (path : List String) (key : String) : Members → Option Members :=
  changeAt false (fun _ ms =>
    match ms.lookup key with
    | none => some (setMember key (.tables [[]]) ms)
    | some (.tables elements) => some (setMember key (.tables (elements ++ [[]])) ms)
    | some _ => none) path .header

end ChangeDesk.Toml
