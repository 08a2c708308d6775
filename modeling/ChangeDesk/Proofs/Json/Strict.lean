import Mathlib.Data.List.Forall2
import ChangeDesk.Json.Record
import ChangeDesk.Proofs.Json.Reading

/-!
# Sound values and strict codecs

There are three ways to go through a value, and they ask for more or less of it. A sound value is
complete, its numbers are in range and its numbered escapes are paired: it passes the check as any
value at all if it is not nested too deep. What passes the check can be passed over, and so can
whatever a strict codec takes a value out of. Codecs made of strict ones are strict.

Main statements: the check of sound values (`Node.Sound.check`), and that what passes it can be
passed over (`Node.skip_of_check`).
-/

namespace ChangeDesk.Json

variable {α β γ ρ : Type}

theorem mapM_ok {ε : Type} {f : α → Except ε β} {xs : List α} {ys : List β} :
    xs.mapM f = .ok ys ↔ List.Forall₂ (fun x y => f x = .ok y) xs ys := by
  induction xs generalizing ys with
  | nil =>
    rw [List.mapM_nil, List.forall₂_nil_left_iff]
    constructor
    · intro h
      cases h
      rfl
    · rintro rfl
      rfl
  | cons x xs ih =>
    rw [List.mapM_cons, bind_ok, List.forall₂_cons_left_iff]
    constructor
    · rintro ⟨y, hy, hrest⟩
      obtain ⟨zs, hzs, heq⟩ := bind_ok.1 hrest
      cases heq
      exact ⟨y, zs, hy, ih.1 hzs, rfl⟩
    · rintro ⟨y, zs, hy, hzs, rfl⟩
      exact ⟨y, hy, bind_ok.2 ⟨zs, ih.2 hzs, rfl⟩⟩

/-! ### Paired units -/

namespace Quoted

/-- Numbered escapes of the first and the second half of a character come in pairs. -/
inductive Paired : List Piece → Prop where
  | nil : Paired []
  | char (c : Char) {ps : List Piece} (rest : Paired ps) : Paired (.char c :: ps)
  | unit {n : Nat} {ps : List Piece} (hlead : isLead n = false) (htrail : isTrail n = false)
    (rest : Paired ps) : Paired (.unit n :: ps)
  | pair {n m : Nat} {ps : List Piece} (hlead : isLead n = true) (htrail : isTrail m = true)
    (rest : Paired ps) : Paired (.unit n :: .unit m :: ps)

theorem Paired.exists_chars {ps : List Piece} (h : Paired ps) :
    ∃ cs, charsOf .closed ps = .ok cs := by
  induction h with
  | nil => exact ⟨[], rfl⟩
  | char c rest ih =>
    obtain ⟨cs, hcs⟩ := ih
    exact ⟨c :: cs, by rw [charsOf, hcs]; rfl⟩
  | @unit n ps hlead htrail rest ih =>
    obtain ⟨cs, hcs⟩ := ih
    refine ⟨Char.ofNat n :: cs, ?_⟩
    rw [charsOf.eq_def]
    simp only [hlead, htrail, hcs, Bool.false_eq_true, if_false]
    rfl
  | @pair n m ps hlead htrail rest ih =>
    obtain ⟨cs, hcs⟩ := ih
    have hfirst : isTrail n = false := by
      simp only [isLead, isTrail, Bool.and_eq_true, decide_eq_true_eq] at hlead ⊢
      simp only [Bool.and_eq_false_imp, decide_eq_true_eq, decide_eq_false_iff_not]
      omega
    refine ⟨pairChar n m :: cs, ?_⟩
    rw [charsOf.eq_def]
    simp only [hlead, hfirst, htrail, hcs, Bool.false_eq_true, if_true, if_false]
    rfl

theorem closed_of_charsOf {ending : QuoteEnd} {ps : List Piece} {cs : List Char}
    (h : charsOf ending ps = .ok cs) : ending = .closed := by
  fun_induction charsOf ending ps generalizing cs with
  | case1 hnone => cases ending <;> first | rfl | cases hnone
  | case2 f hsome => cases h
  | case3 _ _ ih =>
    obtain ⟨ds, hds, -⟩ := map_ok.1 h
    exact ih hds
  | case7 _ _ _ _ _ _ ih =>
    obtain ⟨ds, hds, -⟩ := map_ok.1 h
    exact ih hds
  | case9 _ _ _ _ ih =>
    obtain ⟨ds, hds, -⟩ := map_ok.1 h
    exact ih hds
  | _ => cases h

end Quoted

/-! ### Sound values -/

namespace Node

mutual

/-- How deep lists and objects are nested in a value. -/
def height : Node → Nat
  | .list items _ => heightItems items + 1
  | .object members _ => heightMembers members + 1
  | _ => 0

/-- How deep lists and objects are nested in the items of a list. -/
def heightItems : List Node → Nat
  | [] => 0
  | v :: vs => max (height v) (heightItems vs)

/-- How deep lists and objects are nested in the members of an object. -/
def heightMembers : List (Node × Node) → Nat
  | [] => 0
  | (_, v) :: ms => max (height v) (heightMembers ms)

end

/-- A value that is complete, its numbers in range and its units paired. -/
inductive Sound : Node → Prop where
  | null : Sound .null
  | bool (b : Bool) : Sound (.bool b)
  | number {n : Numeral} (h : n.inRange = true) : Sound (.number n)
  | text {ps : List Piece} (h : Quoted.Paired ps) : Sound (.text ⟨ps, .closed⟩)
  | list {vs : List Node} (h : ∀ v ∈ vs, Sound v) : Sound (.list vs .closed)
  | object {ms : List (Node × Node)}
    (hkeys : ∀ m ∈ ms, ∃ ps, m.1 = .text ⟨ps, .closed⟩ ∧ Quoted.Paired ps)
    (h : ∀ m ∈ ms, Sound m.2) : Sound (.object ms .closed)

variable {v key : Node} {vs : List Node} {ms : List (Node × Node)} {levels : Nat}

theorem height_le_items (h : v ∈ vs) : v.height ≤ heightItems vs := by
  induction vs with
  | nil => cases h
  | cons w vs ih =>
    rw [heightItems]
    rcases List.mem_cons.1 h with rfl | h
    · omega
    · have hle := ih h
      omega

theorem height_le_members {m : Node × Node} (h : m ∈ ms) : m.2.height ≤ heightMembers ms := by
  induction ms with
  | nil => cases h
  | cons l ms ih =>
    rw [heightMembers]
    rcases List.mem_cons.1 h with rfl | h
    · omega
    · have hle := ih h
      omega

theorem enter_ok {inner : Nat} : enter levels = .ok inner ↔ 1 < levels ∧ inner = levels - 1 := by
  rw [enter]
  split
  · exact ⟨nofun, by omega⟩
  · rw [Except.ok.injEq]
    omega

theorem keyText_of_paired {ps : List Piece} (h : Quoted.Paired ps) :
    ∃ name, keyText (.text ⟨ps, .closed⟩) = .ok name := by
  obtain ⟨cs, hcs⟩ := h.exists_chars
  refine ⟨String.ofList cs, ?_⟩
  rw [keyText, Quoted.text, hcs]
  rfl

theorem closed_of_text {q : Quoted} {s : String} (h : q.text = .ok s) : q.ending = .closed := by
  obtain ⟨cs, hcs, -⟩ := map_ok.1 h
  exact Quoted.closed_of_charsOf hcs

theorem closed_of_keyText {name : String} (h : key.keyText = .ok name) :
    ∃ ps, key = .text ⟨ps, .closed⟩ := by
  cases key with
  | text q =>
    obtain ⟨ps, ending⟩ := q
    obtain rfl := closed_of_text h
    exact ⟨ps, rfl⟩
  | _ => cases h

theorem checkItems_ok : checkItems levels vs = .ok () ↔ ∀ v ∈ vs, check levels v = .ok () := by
  induction vs with
  | nil => exact ⟨fun _ => nofun, fun _ => rfl⟩
  | cons v vs ih => rw [checkItems, seq_ok, ih, List.forall_mem_cons]

theorem checkMembers_ok :
    checkMembers levels ms = .ok () ↔
      ∀ m ∈ ms, (∃ name, m.1.keyText = .ok name) ∧ check levels m.2 = .ok () := by
  induction ms with
  | nil => exact ⟨fun _ => nofun, fun _ => rfl⟩
  | cons m ms ih =>
    obtain ⟨k, v⟩ := m
    rw [checkMembers, bind_ok, List.forall_mem_cons]
    constructor
    · rintro ⟨name, hname, hrest⟩
      obtain ⟨hv, hms⟩ := seq_ok.1 hrest
      exact ⟨⟨⟨name, hname⟩, hv⟩, ih.1 hms⟩
    · rintro ⟨⟨⟨name, hname⟩, hv⟩, hms⟩
      exact ⟨name, hname, seq_ok.2 ⟨hv, ih.2 hms⟩⟩

/-- A sound value passes the check if it is not nested too deep. -/
theorem Sound.check (h : Sound v) (hv : v.height < levels) : check levels v = .ok () := by
  induction h generalizing levels with
  | null => rfl
  | bool b => rfl
  | number h => rw [Node.check, if_pos h]
  | text h =>
    obtain ⟨name, hname⟩ := keyText_of_paired h
    exact bind_ok.2 ⟨name, hname, rfl⟩
  | @list vs h ih =>
    rw [height] at hv
    refine bind_ok.2 ⟨levels - 1, enter_ok.2 ⟨by omega, rfl⟩, seq_ok.2 ⟨?_, rfl⟩⟩
    refine checkItems_ok.2 fun v hmem => ih v hmem ?_
    have hle := height_le_items hmem
    omega
  | @object ms hkeys h ih =>
    rw [height] at hv
    refine bind_ok.2 ⟨levels - 1, enter_ok.2 ⟨by omega, rfl⟩, seq_ok.2 ⟨?_, rfl⟩⟩
    refine checkMembers_ok.2 fun m hmem => ⟨?_, ih m hmem ?_⟩
    · obtain ⟨ps, hkey, hps⟩ := hkeys m hmem
      rw [hkey]
      exact keyText_of_paired hps
    · have hle := height_le_members hmem
      omega

mutual

/-- What passes the check can be passed over. -/
theorem skip_of_check :
    (v : Node) → (levels : Nat) → v.check levels = .ok () → v.skip = .ok ()
  | .gap _, _, h => by cases h
  | .null, _, _ => rfl
  | .bool _, _, _ => rfl
  | .number _, _, _ => rfl
  | .text q, _, h => by
    obtain ⟨s, hs, -⟩ := bind_ok.1 h
    exact skip_text.2 (closed_of_text hs)
  | .list items ending, _, h => by
    obtain ⟨inner, -, hrest⟩ := bind_ok.1 h
    obtain ⟨hitems, hend⟩ := seq_ok.1 hrest
    refine skip_list.2 ⟨skipItems_of_check items inner hitems, ?_⟩
    cases ending <;> first | rfl | cases hend
  | .object members ending, _, h => by
    obtain ⟨inner, -, hrest⟩ := bind_ok.1 h
    obtain ⟨hmembers, hend⟩ := seq_ok.1 hrest
    refine skip_object.2 ⟨skipMembers_of_check members inner hmembers, ?_⟩
    cases ending <;> first | rfl | cases hend

theorem skipItems_of_check :
    (vs : List Node) → (levels : Nat) → checkItems levels vs = .ok () → skipItems vs = .ok ()
  | [], _, _ => rfl
  | v :: vs, levels, h => by
    obtain ⟨hv, hvs⟩ := seq_ok.1 h
    exact skipItems_cons.2 ⟨skip_of_check v levels hv, skipItems_of_check vs levels hvs⟩

theorem skipMembers_of_check :
    (ms : List (Node × Node)) → (levels : Nat) → checkMembers levels ms = .ok () →
      skipMembers ms = .ok ()
  | [], _, _ => rfl
  | (_, v) :: ms, levels, h => by
    obtain ⟨name, hname, hrest⟩ := bind_ok.1 h
    obtain ⟨hv, hms⟩ := seq_ok.1 hrest
    exact skipMembers_cons.2 ⟨closed_of_keyText hname, skip_of_check v levels hv,
      skipMembers_of_check ms levels hms⟩

end

theorem Sound.skip (h : Sound v) : v.skip = .ok () :=
  skip_of_check v (v.height + 1) (h.check (Nat.lt_succ_self _))

end Node

/-! ### Strict codecs -/

theorem ListEnd.raise_ok {e : ListEnd} : Fault.raise? e.fault? = .ok () ↔ e = .closed := by
  rw [Json.raise_ok]
  cases e <;> simp [fault?]

theorem ObjectEnd.raise_ok {e : ObjectEnd} : Fault.raise? e.fault? = .ok () ↔ e = .closed := by
  rw [Json.raise_ok]
  cases e <;> simp [fault?]

/-- What the codec reads can be passed over. -/
def Codec.Strict (c : Codec α) : Prop :=
  ∀ ⦃levels : Nat⦄ ⦃v : Node⦄ ⦃a : α⦄, c.read levels v = .ok a → v.skip = .ok ()

namespace Codec

variable {c : Codec α}

@[simp] theorem text_strict : text.Strict := by
  intro levels v s h
  cases v with
  | text q => exact Node.skip_text.2 (Node.closed_of_text h)
  | _ => cases h

@[simp] theorem boolean_strict : boolean.Strict := by
  intro levels v b h
  cases v with
  | bool b => rfl
  | _ => cases h

theorem integer_strict (expected : Expected) (low high : Int) :
    (integer expected low high).Strict := by
  intro levels v i h
  cases v with
  | number n => rfl
  | _ => cases h

theorem Strict.imap (hc : c.Strict) (into : α → β) (back : β → α) :
    (c.imap into back).Strict := by
  intro levels v b h
  obtain ⟨a, ha, -⟩ := map_ok.1 h
  exact hc ha

@[simp] theorem uint64_strict : uint64.Strict := (integer_strict _ _ _).imap _ _

@[simp] theorem uint32_strict : uint32.Strict := (integer_strict _ _ _).imap _ _

@[simp] theorem int32_strict : int32.Strict := (integer_strict _ _ _).imap _ _

@[simp] theorem enumeration_strict (n : Names α) : (enumeration n).Strict := by
  intro levels v a h
  cases v with
  | text q =>
    obtain ⟨s, hs, -⟩ := bind_ok.1 h
    exact Node.skip_text.2 (Node.closed_of_text hs)
  | object members ending =>
    obtain ⟨inner, -, hobject⟩ := bind_ok.1 h
    -- the object form is a single member with the value null
    rcases members with _ | ⟨⟨k, v⟩, rest⟩
    · cases hobject
    · obtain ⟨name, hname, hpick⟩ := bind_ok.1 hobject
      obtain ⟨b, -, hnull⟩ := bind_ok.1 hpick
      obtain ⟨ps, rfl⟩ := Node.closed_of_keyText hname
      cases v with
      | null =>
        cases rest with
        | nil =>
          cases ending with
          | closed => rfl
          | _ => cases hnull
        | cons m rest => cases ending <;> cases hnull
      | _ => cases hnull
  | gap g => cases g <;> cases h
  | _ => cases h

theorem Strict.skipItems (hc : c.Strict) {levels : Nat} {vs : List Node} {as : List α}
    (h : vs.mapM (c.read levels) = .ok as) : Node.skipItems vs = .ok () := by
  induction mapM_ok.1 h with
  | nil => rfl
  | cons hv hvs ih => exact Node.skipItems_cons.2 ⟨hc hv, ih (mapM_ok.2 hvs)⟩

theorem list_ok {levels : Nat} {vs : List Node} {ending : ListEnd} {as : List α} :
    c.list.read levels (.list vs ending) = .ok as ↔
      1 < levels ∧ vs.mapM (c.read (levels - 1)) = .ok as ∧ ending = .closed := by
  constructor
  · intro h
    obtain ⟨inner, henter, h⟩ := bind_ok.1 h
    obtain ⟨bs, hbs, h⟩ := bind_ok.1 h
    obtain ⟨hend, h⟩ := seq_ok.1 h
    cases h
    obtain ⟨hlevels, rfl⟩ := Node.enter_ok.1 henter
    exact ⟨hlevels, hbs, ListEnd.raise_ok.1 hend⟩
  · rintro ⟨hlevels, has, rfl⟩
    have henter := Node.enter_ok.2 ⟨hlevels, rfl⟩
    exact bind_ok.2 ⟨_, henter, bind_ok.2 ⟨as, has, rfl⟩⟩

@[simp] theorem Strict.list (hc : c.Strict) : c.list.Strict := by
  intro levels v as h
  cases v with
  | list items ending =>
    obtain ⟨-, hitems, hend⟩ := list_ok.1 h
    exact Node.skip_list.2 ⟨hc.skipItems hitems, hend⟩
  | _ => cases h

theorem Strict.skipMembers (hc : c.Strict) {levels : Nat} {ms : List (Node × Node)}
    {d e : Dict α} (h : readEntries (c.read levels) d ms = .ok e) :
    Node.skipMembers ms = .ok () := by
  induction ms generalizing d with
  | nil => rfl
  | cons m ms ih =>
    obtain ⟨k, v⟩ := m
    obtain ⟨key, hkey, hvalue⟩ := bind_ok.1 h
    obtain ⟨a, ha, hrest⟩ := bind_ok.1 hvalue
    exact Node.skipMembers_cons.2 ⟨Node.closed_of_keyText hkey, hc ha, ih hrest⟩

theorem dict_ok {levels : Nat} {ms : List (Node × Node)} {ending : ObjectEnd} {d : Dict α} :
    c.dict.read levels (.object ms ending) = .ok d ↔
      1 < levels ∧ readEntries (c.read (levels - 1)) .empty ms = .ok d ∧ ending = .closed := by
  constructor
  · intro h
    obtain ⟨inner, henter, h⟩ := bind_ok.1 h
    obtain ⟨e, he, h⟩ := bind_ok.1 h
    obtain ⟨hend, h⟩ := seq_ok.1 h
    cases h
    obtain ⟨hlevels, rfl⟩ := Node.enter_ok.1 henter
    exact ⟨hlevels, he, ObjectEnd.raise_ok.1 hend⟩
  · rintro ⟨hlevels, hd, rfl⟩
    have henter := Node.enter_ok.2 ⟨hlevels, rfl⟩
    exact bind_ok.2 ⟨_, henter, bind_ok.2 ⟨d, hd, rfl⟩⟩

@[simp] theorem Strict.dict (hc : c.Strict) : c.dict.Strict := by
  intro levels v d h
  cases v with
  | object members ending =>
    obtain ⟨-, hmembers, hend⟩ := dict_ok.1 h
    exact Node.skip_object.2 ⟨hc.skipMembers hmembers, hend⟩
  | _ => cases h

end Codec

/-! ### Strict records -/

/-- How a field is made: the codec of its values, and the part of a record that it sets. -/
inductive Field.Made : {α γ ρ : Type} → Field ρ → Codec α → (γ → ρ → ρ) → Prop where
  | plain {α ρ : Type} (name : String) (c : Codec α) (get : ρ → α) (set : α → ρ → ρ) :
    Made (.plain name c get set) c set
  | needed {α ρ : Type} (name : String) (c : Codec α) (get : ρ → α) (set : α → ρ → ρ) :
    Made (.needed name c get set) c set
  | optional {α ρ : Type} (name : String) (c : Codec α) (get : ρ → Option α)
    (set : Option α → ρ → ρ) : Made (.optional name c get set) c set
  | nonempty {α ρ : Type} (name : String) (c : Codec α) (get : ρ → List α)
    (set : List α → ρ → ρ) : Made (.nonempty name c get set) c.list set

/-- Null unsets a field that may be unset, and it is set to what its codec reads. -/
theorem Field.optional_ok {name : String} {c : Codec α} {get : ρ → Option α}
    {set : Option α → ρ → ρ} {levels : Nat} {v : Node} {s : ρ → ρ}
    (h : (optional name c get set).read levels v = .ok s) :
    (v = .null ∧ s = set none) ∨
      (v ≠ .null ∧ ∃ a, c.read levels v = .ok a ∧ s = set (some a)) := by
  cases v with
  | null =>
    cases h
    exact .inl ⟨rfl, rfl⟩
  | gap g =>
    cases g with
    | brokenNull cutOff => cases h
    | _ =>
      obtain ⟨a, ha, rfl⟩ := map_ok.1 h
      exact .inr ⟨nofun, a, ha, rfl⟩
  | _ =>
    obtain ⟨a, ha, rfl⟩ := map_ok.1 h
    exact .inr ⟨nofun, a, ha, rfl⟩

/-- What the field takes can be passed over. -/
def Field.Strict (f : Field ρ) : Prop :=
  ∀ ⦃levels : Nat⦄ ⦃v : Node⦄ ⦃s : ρ → ρ⦄, f.read levels v = .ok s → v.skip = .ok ()

theorem Field.Made.strict {f : Field ρ} {c : Codec α} {set : γ → ρ → ρ} (h : f.Made c set)
    (hc : c.Strict) : f.Strict := by
  intro levels v s hread
  cases h with
  | optional name c get set =>
    obtain ⟨rfl, -⟩ | ⟨-, a, ha, -⟩ := optional_ok hread
    · rfl
    · exact hc ha
  | _ =>
    obtain ⟨a, ha, -⟩ := map_ok.1 hread
    exact hc ha

namespace Field

variable {name : String} {c : Codec α}

@[simp] theorem plain_strict {get : ρ → α} {set : α → ρ → ρ} (hc : c.Strict) :
    (plain name c get set).Strict := (Made.plain name c get set).strict hc

@[simp] theorem needed_strict {get : ρ → α} {set : α → ρ → ρ} (hc : c.Strict) :
    (needed name c get set).Strict := (Made.needed name c get set).strict hc

@[simp] theorem optional_strict {get : ρ → Option α} {set : Option α → ρ → ρ} (hc : c.Strict) :
    (optional name c get set).Strict := (Made.optional name c get set).strict hc

@[simp] theorem nonempty_strict {get : ρ → List α} {set : List α → ρ → ρ} (hc : c.Strict) :
    (nonempty name c get set).Strict := (Made.nonempty name c get set).strict hc.list

end Field

namespace Record

variable {t : Record ρ} {levels : Nat}

theorem skip_of_readMember {seen : List String} {r : ρ} {name : String} {v : Node}
    {p : List String × ρ} (ht : ∀ f ∈ t.fields, f.Strict)
    (h : t.readMember levels seen r name v = .ok p) : v.skip = .ok () := by
  rw [readMember] at h
  split at h
  · exact (seq_ok.1 h).1
  · rename_i f hf
    split at h
    · cases h
    · obtain ⟨s, hs, -⟩ := bind_ok.1 h
      exact ht f (List.mem_of_find?_eq_some hf) hs

theorem skipMembers_of_readMembers {seen : List String} {r : ρ} {ms : List (Node × Node)}
    {p : List String × ρ} (ht : ∀ f ∈ t.fields, f.Strict)
    (h : t.readMembers levels seen r ms = .ok p) : Node.skipMembers ms = .ok () := by
  induction ms generalizing seen r with
  | nil => rfl
  | cons m ms ih =>
    obtain ⟨k, v⟩ := m
    obtain ⟨name, hname, h⟩ := bind_ok.1 h
    obtain ⟨q, hq, h⟩ := bind_ok.1 h
    exact Node.skipMembers_cons.2 ⟨Node.closed_of_keyText hname, skip_of_readMember ht hq, ih h⟩

theorem skipItems_of_readFields {ending : ListEnd} {r r' : ρ} {index : Nat}
    {fs : List (Field ρ)} {vs : List Node} (ht : ∀ f ∈ fs, f.Strict)
    (h : t.readFields levels ending r index fs vs = .ok r') :
    Node.skipItems vs = .ok () ∧ ending = .closed := by
  induction fs generalizing r index vs with
  | nil =>
    obtain ⟨hend, -⟩ := seq_ok.1 h
    cases vs with
    | nil => cases ending <;> first | exact ⟨rfl, rfl⟩ | cases hend
    | cons v vs => cases ending <;> cases hend
  | cons f fs ih =>
    cases vs with
    | nil =>
      obtain ⟨hend, -⟩ := seq_ok.1 h
      exact ⟨rfl, ListEnd.raise_ok.1 hend⟩
    | cons v vs =>
      obtain ⟨s, hs, h⟩ := bind_ok.1 h
      obtain ⟨hvs, hend⟩ := ih (fun g hg => ht g (List.mem_cons_of_mem _ hg)) h
      exact ⟨Node.skipItems_cons.2 ⟨ht f (List.mem_cons_self ..) hs, hvs⟩, hend⟩

theorem object_ok {ms : List (Node × Node)} {ending : ObjectEnd} {r : ρ} :
    t.codec.read levels (.object ms ending) = .ok r ↔
      1 < levels ∧ ending = .closed ∧ ∃ names,
        t.readMembers (levels - 1) [] t.blank ms = .ok (names, r) ∧ t.missing? names = none := by
  constructor
  · intro h
    obtain ⟨inner, henter, h⟩ := bind_ok.1 h
    obtain ⟨p, hp, h⟩ := bind_ok.1 h
    obtain ⟨hend, h⟩ := seq_ok.1 h
    obtain ⟨hmissing, h⟩ := seq_ok.1 h
    cases h
    obtain ⟨hlevels, rfl⟩ := Node.enter_ok.1 henter
    exact ⟨hlevels, ObjectEnd.raise_ok.1 hend, p.1, hp, raise_ok.1 hmissing⟩
  · rintro ⟨hlevels, rfl, names, hread, hmissing⟩
    have henter := Node.enter_ok.2 ⟨hlevels, rfl⟩
    refine bind_ok.2 ⟨_, henter, bind_ok.2 ⟨_, hread, ?_⟩⟩
    exact seq_ok.2 ⟨rfl, seq_ok.2 ⟨raise_ok.2 hmissing, rfl⟩⟩

theorem codec_strict (ht : ∀ f ∈ t.fields, f.Strict) : t.codec.Strict := by
  intro levels v r h
  cases v with
  | object members ending =>
    obtain ⟨-, hend, names, hread, -⟩ := object_ok.1 h
    exact Node.skip_object.2 ⟨skipMembers_of_readMembers ht hread, hend⟩
  | list items ending =>
    obtain ⟨inner, -, h⟩ := bind_ok.1 h
    exact Node.skip_list.2 (skipItems_of_readFields ht h)
  | _ => cases h

end Record

end ChangeDesk.Json
