import Mathlib.Data.Option.Basic
import ChangeDesk.Proofs.Json.Members

/-!
# Parts of values

A record that was read has in each field what stands at the place of the field in the value: in an
object the member with its name, in a list the item at its position. Where nothing stands there, the
field is blank. A dictionary has under each key what the last member with this key holds.

Main statements: the fields of a record and the parts of the value (`Record.Holds.optional`,
`Record.Holds.plain`), and the entries of a dictionary (`Codec.entry_of_read`).
-/

namespace ChangeDesk.Json

variable {α γ ρ : Type}

/-! ### Places -/

/-- What the last member with a key holds. -/
def Node.member? (key : String) : List (Node × Node) → Option Node
  | [] => none
  | m :: ms => (member? key ms).or (if m.1.keyText.toOption = some key then some m.2 else none)

/-- What an object holds under a key. -/
def Node.entry? (key : String) : Node → Option Node
  | .object ms _ => member? key ms
  | _ => none

/-- What a value holds at the place of a field of a record. -/
def Record.part? (t : Record ρ) (name : String) : Node → Option Node
  | .object ms _ => Node.member? name ms
  | .list items _ => ((t.fields.map Field.name).zip items).lookup name
  | _ => none

def Node.isNull : Node → Bool
  | .null => true
  | _ => false

/-- What a value holds at the place of a field that may be unset, for which null is nothing. -/
def Record.given? (t : Record ρ) (name : String) (v : Node) : Option Node :=
  (t.part? name v).filter fun w => !w.isNull

theorem Node.toOption_of_keyText {k : Node} {name : String} (h : k.keyText = .ok name) :
    k.keyText.toOption = some name := by
  rw [h]
  rfl

theorem Codec.text_ok {levels : Nat} {v : Node} {s : String} :
    text.read levels v = .ok s ↔ v.keyText = .ok s := by
  cases v with
  | text q => exact Iff.rfl
  | _ => exact ⟨nofun, nofun⟩

theorem Node.member?_cons_of_ne {k v : Node} {ms : List (Node × Node)} {name key : String}
    (h : k.keyText = .ok name) (hne : name ≠ key) :
    member? key ((k, v) :: ms) = member? key ms := by
  have hoption : k.keyText.toOption ≠ some key := by
    rw [toOption_of_keyText h]
    simpa using hne
  rw [member?, if_neg hoption, Option.or_none]

theorem Node.member?_cons_of_eq {k v : Node} {ms : List (Node × Node)} {key : String}
    (h : k.keyText = .ok key) : member? key ((k, v) :: ms) = (member? key ms).or (some v) := by
  rw [member?, if_pos (toOption_of_keyText h)]

/-! ### Fields of a record -/

namespace Record

/-- A part of the records is set by one field of them and by no other. -/
structure Holds (t : Record ρ) (f : Field ρ) (get : ρ → γ) : Prop where
  mem : f ∈ t.fields
  others : ∀ g ∈ t.fields, g.name ≠ f.name → ∀ levels w s, g.read levels w = .ok s →
    ∀ x, get (s x) = get x

/-- The part of a record is what was read from a value, or blank if there was none. -/
inductive Holds.Taken (f : Field ρ) (get : ρ → γ) (levels : Nat) (start : γ) :
    Option Node → γ → Prop where
  | absent : Taken f get levels start none start
  | present {w : Node} {s : ρ → ρ} (hs : f.read levels w = .ok s) (x : ρ) :
    Taken f get levels start (some w) (get (s x))

namespace Holds

variable {t : Record ρ} {f : Field ρ} {get : ρ → γ} {levels : Nat} {seen : List String}
  {r : ρ} {q : List String × ρ} {ms : List (Node × Node)} {v : Node}

theorem readMembers_seen (h : t.Holds f get) (hseen : f.name ∈ seen)
    (hread : t.readMembers levels seen r ms = .ok q) :
    Node.member? f.name ms = none ∧ get q.2 = get r := by
  induction ms generalizing seen r with
  | nil =>
    cases hread
    exact ⟨rfl, rfl⟩
  | cons m ms ih =>
    obtain ⟨p, hstep, hrest⟩ := readMembers_cons.1 hread
    cases hstep with
    | @passed _ k v name hk hnone hv =>
      have hne : name ≠ f.name := by
        rintro rfl
        exact List.find?_eq_none.1 hnone f h.mem (beq_self_eq_true f.name)
      obtain ⟨habsent, hget⟩ := ih hseen hrest
      exact ⟨(Node.member?_cons_of_ne hk hne).trans habsent, hget⟩
    | @taken _ _ k v g s hk hg hnew hs =>
      have hne : g.name ≠ f.name := by
        intro heq
        rw [heq] at hnew
        exact hnew hseen
      obtain ⟨habsent, hget⟩ := ih (List.mem_cons_of_mem _ hseen) hrest
      refine ⟨(Node.member?_cons_of_ne hk hne).trans habsent, ?_⟩
      rw [hget]
      exact h.others g (mem_of_field? hg) hne _ _ s hs r

theorem readMembers (h : t.Holds f get) (ht : t.Orderly) (hseen : f.name ∉ seen)
    (hread : t.readMembers levels seen r ms = .ok q) :
    Taken f get levels (get r) (Node.member? f.name ms) (get q.2) := by
  induction ms generalizing seen r with
  | nil =>
    cases hread
    exact .absent
  | cons m ms ih =>
    obtain ⟨p, hstep, hrest⟩ := readMembers_cons.1 hread
    cases hstep with
    | @passed _ k v name hk hnone hv =>
      have hne : name ≠ f.name := by
        rintro rfl
        exact List.find?_eq_none.1 hnone f h.mem (beq_self_eq_true f.name)
      rw [Node.member?_cons_of_ne hk hne]
      exact ih hseen hrest
    | @taken _ _ k v g s hk hg hnew hs =>
      by_cases heq : g.name = f.name
      · -- after its own member nothing is read into the part any more
        have hfield := find?_name ht.names h.mem
        rw [field?, heq, hfield] at hg
        obtain rfl := Option.some.inj hg
        obtain ⟨habsent, hget⟩ := h.readMembers_seen (List.mem_cons_self ..) hrest
        rw [Node.member?_cons_of_eq hk, habsent, hget]
        exact .present hs r
      · have hrest' := ih (fun hmem => (List.mem_cons.1 hmem).elim (Ne.symm heq) hseen) hrest
        rw [h.others g (mem_of_field? hg) heq _ _ s hs r] at hrest'
        rw [Node.member?_cons_of_ne hk heq]
        exact hrest'

theorem readFields (h : t.Holds f get) {fields : List (Field ρ)} (hfields : fields ⊆ t.fields)
    (hnames : (fields.map Field.name).Nodup) (hunique : ∀ g ∈ fields, g.name = f.name → g = f)
    {items : List Node} {ending : ListEnd} {index : Nat} {x : ρ}
    (hread : t.readFields levels ending r index fields items = .ok x) :
    Taken f get levels (get r) (((fields.map Field.name).zip items).lookup f.name) (get x) := by
  induction fields generalizing items r index with
  | nil =>
    obtain ⟨-, hx⟩ := seq_ok.1 hread
    cases hx
    exact .absent
  | cons g fields ih =>
    obtain ⟨hg, hrestfields⟩ := List.cons_subset.1 hfields
    rw [List.map_cons, List.nodup_cons] at hnames
    cases items with
    | nil =>
      obtain ⟨-, hx⟩ := seq_ok.1 hread
      split at hx
      · cases hx
      · cases hx
        exact .absent
    | cons w items =>
      obtain ⟨s, hs, hrest⟩ := bind_ok.1 hread
      have hrest' := ih hrestfields hnames.2
        (fun g' hg' => hunique g' (List.mem_cons_of_mem _ hg')) hrest
      rw [List.map_cons, List.zip_cons_cons, Dict.lookup_cons_eq]
      by_cases heq : f.name = g.name
      · obtain rfl := hunique g (List.mem_cons_self ..) heq.symm
        have habsent : ((fields.map Field.name).zip items).lookup g.name = none := by
          rw [List.lookup_eq_none_iff]
          intro p hp
          have hmem := List.of_mem_zip hp
          have hne : g.name ≠ p.1 := fun hname => hnames.1 (hname ▸ hmem.1)
          simpa using hne
        rw [habsent] at hrest'
        rw [if_pos rfl]
        generalize get x = y at hrest' ⊢
        cases hrest'
        exact .present hs r
      · rw [if_neg heq]
        rw [h.others g hg (Ne.symm heq) _ _ s hs r] at hrest'
        exact hrest'

theorem read (h : t.Holds f get) (ht : t.Orderly) {x : ρ} (hread : t.codec.read levels v = .ok x) :
    Taken f get (levels - 1) (get t.blank) (t.part? f.name v) (get x) := by
  cases v with
  | object ms ending =>
    obtain ⟨-, -, names, hms, -⟩ := object_ok.1 hread
    exact h.readMembers ht List.not_mem_nil hms
  | list items ending =>
    obtain ⟨inner, henter, hitems⟩ := bind_ok.1 hread
    obtain ⟨-, rfl⟩ := Node.enter_ok.1 henter
    have hunique : ∀ g ∈ t.fields, g.name = f.name → g = f := by
      intro g hg heq
      have hfind := find?_name ht.names hg
      rw [heq, find?_name ht.names h.mem] at hfind
      exact (Option.some.inj hfind).symm
    exact h.readFields (List.Subset.refl _) ht.names hunique hitems
  | _ => cases hread

/-- A field that may be unset has what is given for it. -/
theorem optional {c : Codec α} {name : String} {get' : ρ → Option α} {set : Option α → ρ → ρ}
    {get : ρ → Option α} (h : t.Holds (.optional name c get' set) get)
    (hset : ∀ a x, get (set a x) = a) (hblank : get t.blank = none) (ht : t.Orderly) {x : ρ}
    (hread : t.codec.read levels v = .ok x) :
    Option.Rel (fun w a => c.read (levels - 1) w = .ok a) (t.given? name v) (get x) := by
  have htaken : Taken _ get (levels - 1) (get t.blank) (t.part? name v) (get x) := h.read ht hread
  rw [hblank] at htaken
  rw [given?]
  generalize t.part? name v = part at htaken
  generalize get x = y at htaken
  cases htaken with
  | absent => exact .none
  | @present w s hs x' =>
    obtain ⟨rfl, rfl⟩ | ⟨hnull, a, ha, rfl⟩ := Field.optional_ok hs
    · rw [hset]
      exact .none
    · have hgiven : w.isNull = false := by cases w <;> first | rfl | exact absurd rfl hnull
      rw [hset, Option.filter_some, if_pos (by rw [hgiven]; rfl)]
      exact .some ha

/-- A field that is always set has what stands at its place, or is blank. -/
theorem plain {c : Codec α} {name : String} {get' : ρ → α} {set : α → ρ → ρ} {get : ρ → α}
    (h : t.Holds (.plain name c get' set) get) (hset : ∀ a x, get (set a x) = a)
    (ht : t.Orderly) {x : ρ} (hread : t.codec.read levels v = .ok x) :
    (t.part? name v = none ∧ get x = get t.blank) ∨
      ∃ w, t.part? name v = some w ∧ c.read (levels - 1) w = .ok (get x) := by
  have htaken : Taken _ get (levels - 1) (get t.blank) (t.part? name v) (get x) := h.read ht hread
  generalize t.part? name v = part at htaken ⊢
  generalize get x = y at htaken ⊢
  cases htaken with
  | absent => exact .inl ⟨rfl, rfl⟩
  | @present w s hs x' =>
    obtain ⟨a, ha, rfl⟩ := map_ok.1 hs
    rw [hset]
    exact .inr ⟨w, rfl, ha⟩

end Holds

end Record

/-! ### Entries of a dictionary -/

namespace Codec

variable {c : Codec α} {levels : Nat} {v : Node}

theorem get?_of_readEntries {read : Node → Except Fault α} {d e : Dict α}
    {ms : List (Node × Node)} (h : readEntries read d ms = .ok e) (key : String) :
    (Node.member? key ms = none ∧ e.get? key = d.get? key) ∨
      ∃ w a, Node.member? key ms = some w ∧ read w = .ok a ∧ e.get? key = some a := by
  induction ms generalizing d with
  | nil =>
    cases h
    exact .inl ⟨rfl, rfl⟩
  | cons m ms ih =>
    obtain ⟨k, v⟩ := m
    obtain ⟨name, hname, h⟩ := bind_ok.1 h
    obtain ⟨a, ha, hrest⟩ := bind_ok.1 h
    obtain ⟨habsent, hget⟩ | ⟨w, b, hmember, hb, hget⟩ := ih hrest
    · by_cases heq : name = key
      · subst heq
        right
        refine ⟨v, a, ?_, ha, ?_⟩
        · rw [Node.member?_cons_of_eq hname, habsent, Option.none_or]
        · rw [hget, Dict.get?_insert, if_pos rfl]
      · left
        refine ⟨?_, ?_⟩
        · rw [Node.member?_cons_of_ne hname heq, habsent]
        · rw [hget, Dict.get?_insert, if_neg (Ne.symm heq)]
    · right
      refine ⟨w, b, ?_, hb, hget⟩
      rw [Node.member?, hmember, Option.some_or]

theorem entry_of_read {d : Dict α} (h : c.dict.read levels v = .ok d) (key : String) :
    Option.Rel (fun w a => c.read (levels - 1) w = .ok a) (v.entry? key) (d.get? key) := by
  cases v with
  | object ms ending =>
    obtain ⟨-, hentries, -⟩ := dict_ok.1 h
    rw [Node.entry?]
    obtain ⟨habsent, hget⟩ | ⟨w, a, hmember, ha, hget⟩ := get?_of_readEntries hentries key
    · rw [habsent, hget]
      exact .none
    · rw [hmember, hget]
      exact .some ha
  | _ => cases h

end Codec

end ChangeDesk.Json
