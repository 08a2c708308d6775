/-!
# Dictionaries

Finite maps from strings, kept as a list of entries in ascending order of their keys by code
point. The order is part of the type, so a dictionary has one form and its entries come out
sorted.

Main statements: what an insertion does to every look-up (`get?_insert`), that look-ups determine
the dictionary (`ext_get?`), and hence that insertions at different keys commute
(`insert_comm`).
-/

namespace ChangeDesk

/-- A finite map from strings. -/
structure Dict (α : Type) where
  entries : List (String × α)
  sorted : entries.Pairwise (fun a b => a.1 < b.1)
deriving DecidableEq

namespace Dict

variable {α β : Type}

/-- The dictionary without entries. -/
def empty : Dict α := ⟨[], .nil⟩

instance : EmptyCollection (Dict α) := ⟨empty⟩
instance : Inhabited (Dict α) := ⟨empty⟩

def isEmpty (d : Dict α) : Bool := d.entries.isEmpty

/-- The keys, ascending. -/
def keys (d : Dict α) : List String := d.entries.map (·.1)

/-- The value at a key. -/
def get? (d : Dict α) (k : String) : Option α := d.entries.lookup k

/-- The entries with the key's value set, in place or at its place in the order. -/
def insertEntry (k : String) (v : α) : List (String × α) → List (String × α)
  | [] => [(k, v)]
  | e :: es =>
    if k < e.1 then (k, v) :: e :: es
    else if e.1 < k then e :: insertEntry k v es
    else (k, v) :: es

theorem mem_insertEntry {k : String} {v : α} {es : List (String × α)} {p : String × α}
    (h : p ∈ insertEntry k v es) : p = (k, v) ∨ p ∈ es := by
  induction es with
  | nil => simpa [insertEntry] using h
  | cons e es ih =>
    rw [insertEntry] at h
    split at h
    · simpa using h
    · split at h
      · rcases List.mem_cons.1 h with h | h
        · exact .inr (by simp [h])
        · rcases ih h with h | h
          · exact .inl h
          · exact .inr (List.mem_cons_of_mem _ h)
      · rcases List.mem_cons.1 h with h | h
        · exact .inl h
        · exact .inr (List.mem_cons_of_mem _ h)

theorem sorted_insertEntry (k : String) (v : α) {es : List (String × α)}
    (h : es.Pairwise (fun a b => a.1 < b.1)) :
    (insertEntry k v es).Pairwise (fun a b => a.1 < b.1) := by
  induction es with
  | nil => simp [insertEntry]
  | cons e es ih =>
    obtain ⟨hle, hes⟩ := List.pairwise_cons.1 h
    rw [insertEntry]
    split
    · rename_i hk
      refine List.pairwise_cons.2 ⟨fun p hp => ?_, h⟩
      rcases List.mem_cons.1 hp with rfl | hp
      · exact hk
      · exact String.lt_trans hk (hle p hp)
    · split
      · rename_i hk
        refine List.pairwise_cons.2 ⟨fun p hp => ?_, ih hes⟩
        rcases mem_insertEntry hp with rfl | hp
        · exact hk
        · exact hle p hp
      · rename_i h₁ h₂
        have hk : k = e.1 := String.le_antisymm (String.not_lt.1 h₂) (String.not_lt.1 h₁)
        exact List.pairwise_cons.2 ⟨fun p hp => hk ▸ hle p hp, hes⟩

/-- The dictionary with the key's value set. -/
def insert (d : Dict α) (k : String) (v : α) : Dict α :=
  ⟨insertEntry k v d.entries, sorted_insertEntry k v d.sorted⟩

/-- The dictionary of a list of entries; of two with one key the later counts. -/
def ofList (es : List (String × α)) : Dict α :=
  es.foldl (fun d e => d.insert e.1 e.2) empty

/-- A look-up takes the first entry with the key. -/
theorem lookup_cons_eq (e : String × α) (es : List (String × α)) (x : String) :
    (e :: es).lookup x = if x = e.1 then some e.2 else es.lookup x := by
  obtain ⟨k, v⟩ := e
  rw [List.lookup_cons]
  by_cases h : x = k
  · simp [h]
  · have hb : (x == k) = false := by simp [h]
    rw [hb, if_neg h]

theorem lookup_insertEntry (k : String) (v : α) (es : List (String × α)) (x : String) :
    (insertEntry k v es).lookup x = if x = k then some v else es.lookup x := by
  induction es with
  | nil => rw [insertEntry, lookup_cons_eq]
  | cons e es ih =>
    rw [insertEntry]
    split
    · rw [lookup_cons_eq]
    · split
      · rename_i hk
        rw [lookup_cons_eq, lookup_cons_eq, ih]
        by_cases hx : x = e.1
        · have hne : ¬x = k := fun he => String.lt_irrefl k (by rwa [← hx, he] at hk)
          rw [if_pos hx, if_neg hne, if_pos hx]
        · rw [if_neg hx, if_neg hx]
      · rename_i h₁ h₂
        have hk : k = e.1 := String.le_antisymm (String.not_lt.1 h₂) (String.not_lt.1 h₁)
        rw [lookup_cons_eq, lookup_cons_eq, ← hk]
        split <;> rfl

@[simp] theorem get?_empty (k : String) : (empty : Dict α).get? k = none := rfl

/-- A look-up after an insertion. -/
@[simp] theorem get?_insert (d : Dict α) (k : String) (v : α) (x : String) :
    (d.insert k v).get? x = if x = k then some v else d.get? x :=
  lookup_insertEntry k v d.entries x

theorem lookup_eq_none_of_lt {es : List (String × α)} {x : String}
    (h : ∀ p ∈ es, x < p.1) : es.lookup x = none := by
  induction es with
  | nil => rfl
  | cons e es ih =>
    have hx : ¬x = e.1 := fun he =>
      String.lt_irrefl x (by have := h e (by simp); rwa [← he] at this)
    rw [lookup_cons_eq, if_neg hx]
    exact ih fun p hp => h p (List.mem_cons_of_mem _ hp)

theorem not_lt_of_lookup {a b : String × α} {as bs : List (String × α)}
    (hb : ∀ p ∈ bs, b.1 < p.1) (h : (a :: as).lookup a.1 = (b :: bs).lookup a.1) :
    ¬a.1 < b.1 := by
  intro hlt
  have hn : (b :: bs).lookup a.1 = none := lookup_eq_none_of_lt fun p hp => by
    rcases List.mem_cons.1 hp with rfl | hp
    · exact hlt
    · exact String.lt_trans hlt (hb p hp)
  rw [hn, lookup_cons_eq, if_pos rfl] at h
  simp at h

theorem eq_of_lookup {as bs : List (String × α)}
    (ha : as.Pairwise (fun a b => a.1 < b.1)) (hb : bs.Pairwise (fun a b => a.1 < b.1))
    (h : ∀ x, as.lookup x = bs.lookup x) : as = bs := by
  induction as generalizing bs with
  | nil =>
    cases bs with
    | nil => rfl
    | cons b bs =>
      have := h b.1
      rw [lookup_cons_eq, if_pos rfl] at this
      simp at this
  | cons a as ih =>
    cases bs with
    | nil =>
      have := h a.1
      rw [lookup_cons_eq, if_pos rfl] at this
      simp at this
    | cons b bs =>
      obtain ⟨ha₁, ha₂⟩ := List.pairwise_cons.1 ha
      obtain ⟨hb₁, hb₂⟩ := List.pairwise_cons.1 hb
      have hk : a.1 = b.1 := String.le_antisymm
        (String.not_lt.1 (not_lt_of_lookup ha₁ (h b.1).symm))
        (String.not_lt.1 (not_lt_of_lookup hb₁ (h a.1)))
      have hv : a.2 = b.2 := by
        have := h a.1
        rwa [lookup_cons_eq, lookup_cons_eq, if_pos rfl, if_pos hk, Option.some.injEq] at this
      have hrest : as = bs := ih ha₂ hb₂ fun x => by
        by_cases hx : x = a.1
        · rw [lookup_eq_none_of_lt fun p hp => hx ▸ ha₁ p hp,
            lookup_eq_none_of_lt fun p hp => hx ▸ hk ▸ hb₁ p hp]
        · have := h x
          rwa [lookup_cons_eq, lookup_cons_eq, if_neg hx, if_neg (hk ▸ hx)] at this
      rw [hrest, Prod.ext hk hv]

/-- Look-ups determine the dictionary. -/
theorem ext_get? {d e : Dict α} (h : ∀ x, d.get? x = e.get? x) : d = e := by
  have := eq_of_lookup d.sorted e.sorted h
  cases d
  cases e
  simpa using this

/-- A key above all others comes last. -/
theorem insertEntry_of_lt {k : String} {a : α} {es : List (String × α)}
    (h : ∀ p ∈ es, p.1 < k) : insertEntry k a es = es ++ [(k, a)] := by
  induction es with
  | nil => rfl
  | cons e es ih =>
    have he : e.1 < k := h e (List.mem_cons_self ..)
    rw [insertEntry, if_neg (String.lt_asymm he), if_pos he,
      ih fun p hp => h p (List.mem_cons_of_mem _ hp), List.cons_append]

theorem foldl_insert_entries {d e : Dict α} {es : List (String × α)}
    (h : e.entries = d.entries ++ es) :
    es.foldl (fun d x => d.insert x.1 x.2) d = e := by
  induction es generalizing d with
  | nil =>
    rw [List.append_nil] at h
    cases d
    cases e
    cases h
    rfl
  | cons x es ih =>
    have hsorted := e.sorted
    rw [h, List.pairwise_append] at hsorted
    have hinsert : (d.insert x.1 x.2).entries = d.entries ++ [x] :=
      insertEntry_of_lt fun p hp => hsorted.2.2 p hp x (List.mem_cons_self ..)
    apply ih
    rw [h, hinsert, List.append_assoc]
    rfl

/-- A dictionary is that of its entries. -/
theorem ofList_entries (d : Dict α) : ofList d.entries = d := foldl_insert_entries rfl

theorem lookup_eq_some_iff {es : List (String × α)} (h : es.Pairwise (fun a b => a.1 < b.1))
    {k : String} {a : α} : es.lookup k = some a ↔ (k, a) ∈ es := by
  induction es with
  | nil => simp
  | cons e es ih =>
    obtain ⟨hle, hes⟩ := List.pairwise_cons.1 h
    rw [lookup_cons_eq, List.mem_cons]
    by_cases hk : k = e.1
    · subst hk
      have hnot : (e.1, a) ∉ es := fun hmem => String.lt_irrefl e.1 (hle (e.1, a) hmem)
      rw [if_pos rfl, Option.some.injEq, Prod.ext_iff]
      simp [hnot, eq_comm]
    · have hne : (k, a) ≠ e := fun he => hk (congrArg Prod.fst he)
      rw [if_neg hk, ih hes]
      simp [hne]

/-- The entries are the keys with their values. -/
theorem mem_entries_iff (d : Dict α) (k : String) (a : α) :
    (k, a) ∈ d.entries ↔ d.get? k = some a := (lookup_eq_some_iff d.sorted).symm

/-- Insertions at different keys commute. -/
theorem insert_comm (d : Dict α) {k l : String} (h : k ≠ l) (v w : α) :
    (d.insert k v).insert l w = (d.insert l w).insert k v := by
  refine ext_get? fun x => ?_
  simp only [get?_insert]
  by_cases hl : x = l
  · have hk : ¬x = k := fun hk => h (hk.symm.trans hl)
    rw [if_pos hl, if_neg hk, if_pos hl]
  · rw [if_neg hl, if_neg hl]

end Dict

end ChangeDesk
