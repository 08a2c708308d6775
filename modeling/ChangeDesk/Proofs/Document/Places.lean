import ChangeDesk.Proofs.Document.Restated
import ChangeDesk.Proofs.Json.Exact
import ChangeDesk.Proofs.Json.Parts

/-!
# Places in documents

A place is what surrounds a value in a document: a function from the value there to the value of the
document. A field of a record has a place in an object and one in a list, and lists and dictionaries
have places too. What is read of the whole has what is read at the place, and the whole can be read
with another value there if this can be read.

Main statements: the value at the place of a field (`Record.At.of_read`) and its replacement
(`Record.At.serves`).
-/

namespace ChangeDesk

namespace Json

variable {ε α β γ ρ : Type}

/-! ### Places in records -/

/-- How a field is filled: the codec of its values, and what it is for a record to have one. -/
inductive Field.Fills : {α ρ : Type} → Field ρ → Codec α → (ρ → α → Prop) → Prop where
  | plain {α ρ : Type} (name : String) (c : Codec α) (get : ρ → α) (set : α → ρ → ρ)
    (hset : ∀ a x, get (set a x) = a) : Fills (.plain name c get set) c fun x a => get x = a
  | optional {α ρ : Type} (name : String) (c : Codec α) (get : ρ → Option α)
    (set : Option α → ρ → ρ) (hset : ∀ a x, get (set a x) = a) :
    Fills (.optional name c get set) c fun x a => get x = some a

namespace Field.Fills

variable {f : Field ρ} {c : Codec α} {has : ρ → α → Prop} {levels : Nat} {v : Node} {n : Numeral}
  {s : ρ → ρ} {low high : Int} {value : α → Int}

theorem made (h : f.Fills c has) : ∃ (γ : Type) (set : γ → ρ → ρ), f.Made c set := by
  cases h with
  | plain name c get set _ => exact ⟨_, _, .plain name c get set⟩
  | optional name c get set _ => exact ⟨_, _, .optional name c get set⟩

/-- Other values than null are read by the codec, and a record that agrees with one where the field
was set has what was read. -/
theorem of_read (h : f.Fills c has) (hv : v ≠ .null) (hread : f.read levels v = .ok s) {x y : ρ}
    (hhas : has x = has (s y)) : ∃ a, c.read levels v = .ok a ∧ has x a := by
  rw [hhas]
  cases h with
  | plain name c get set hset =>
    obtain ⟨a, ha, rfl⟩ := map_ok.1 hread
    exact ⟨a, ha, hset a y⟩
  | optional name c get set hset =>
    obtain ⟨hnull, -⟩ | ⟨-, a, ha, rfl⟩ := optional_ok hread
    · exact absurd hnull hv
    · exact ⟨a, ha, hset (some a) y⟩

theorem value_of_read (h : f.Fills c has) (hc : c.Exact low high value)
    (hread : f.read levels (.number n) = .ok s) {x y : ρ} (hhas : has x = has (s y)) :
    ∃ i, n.integer? = some i ∧ low ≤ i ∧ i ≤ high ∧ ∃ a, has x a ∧ value a = i := by
  have hnull : Node.number n ≠ .null := nofun
  obtain ⟨a, ha, hx⟩ := h.of_read hnull hread hhas
  obtain ⟨i, hi, hlow, hhigh, hvalue⟩ := hc.value_of_read ha
  exact ⟨i, hi, hlow, hhigh, a, hx, hvalue⟩

theorem takes (h : f.Fills c has) (hc : c.Exact low high value) {i : Int}
    (hi : n.integer? = some i) (hlow : low ≤ i) (hhigh : i ≤ high) (levels : Nat) :
    ∃ s, f.read levels (.number n) = .ok s := by
  obtain ⟨a, ha⟩ := hc.takes hi hlow hhigh levels
  cases h with
  | plain name c get set _ => exact ⟨_, map_ok.2 ⟨a, ha, rfl⟩⟩
  | optional name c get set _ => exact ⟨_, map_ok.2 ⟨a, ha, rfl⟩⟩

end Field.Fills

namespace Record

variable {t : Record ρ} {f : Field ρ} {get : ρ → γ} {levels : Nat} {k v v' : Node}
  {before after : List (Node × Node)} {seen : List String} {r x : ρ} {q : List String × ρ}
  {name : String} {outer : Node → Node}

theorem Holds.member?_of_readMembers (h : t.Holds f get) (ht : t.Orderly)
    (hk : k.keyText = .ok f.name)
    (hread : t.readMembers levels seen r (before ++ (k, v) :: after) = .ok q) :
    Node.member? f.name (before ++ (k, v) :: after) = some v := by
  induction before generalizing seen r with
  | nil =>
    obtain ⟨p, hstep, hrest⟩ := readMembers_cons.1 hread
    rw [List.nil_append, Node.member?_cons_of_eq hk]
    have hfind := find?_name ht.names h.mem
    cases hstep with
    | passed hk' hnone _ =>
      cases hk.symm.trans hk'
      cases hnone.symm.trans hfind
    | @taken _ _ _ _ g s hk' _ _ _ =>
      -- the field is read once, so no later member has its name
      have heq := Except.ok.inj (hk.symm.trans hk')
      rw [(h.readMembers_seen (by rw [heq]; exact List.mem_cons_self ..) hrest).1, Option.none_or]
  | cons m before ih =>
    obtain ⟨p, -, hrest⟩ := readMembers_cons.1 hread
    rw [List.cons_append, Node.member?, ih hrest, Option.some_or]

theorem Holds.of_readMembers (h : t.Holds f get) (ht : t.Orderly) (hk : k.keyText = .ok f.name)
    (hseen : f.name ∉ seen)
    (hread : t.readMembers levels seen r (before ++ (k, v) :: after) = .ok q) :
    ∃ s y, f.read levels v = .ok s ∧ get q.2 = get (s y) := by
  have htaken := h.readMembers ht hseen hread
  rw [h.member?_of_readMembers ht hk hread] at htaken
  generalize get q.2 = y at htaken ⊢
  cases htaken with
  | present hs x => exact ⟨_, x, hs, rfl⟩

/-- What is passed over may be replaced by anything that can be passed over. -/
theorem readMembers_passed (hk : k.keyText = .ok name) (hnone : t.field? name = none)
    (hv' : v'.skip = .ok ())
    (hread : t.readMembers levels seen r (before ++ (k, v) :: after) = .ok q) :
    t.readMembers levels seen r (before ++ (k, v') :: after) = .ok q := by
  induction before generalizing seen r with
  | nil =>
    obtain ⟨p, hstep, hrest⟩ := readMembers_cons.1 hread
    cases hstep with
    | passed _ _ _ => exact readMembers_cons.2 ⟨_, .passed hk hnone hv', hrest⟩
    | taken hk' hf _ _ =>
      cases hk.symm.trans hk'
      cases hnone.symm.trans hf
  | cons m before ih =>
    obtain ⟨p, hstep, hrest⟩ := readMembers_cons.1 hread
    exact readMembers_cons.2 ⟨p, hstep, ih hrest⟩

/-- Where the value of a field stands in a record, as a function from this value: in a member with
the name of the field, or at its position in a list. -/
inductive At (t : Record ρ) (f : Field ρ) : (Node → Node) → Prop where
  | member {k : Node} (before after : List (Node × Node)) (hk : k.keyText = .ok f.name) :
    At t f fun v => .object (before ++ (k, v) :: after) .closed
  | position {fields fs : List (Field ρ)} (before after : List Node)
    (hf : t.fields = fields ++ f :: fs) (hplace : fields.length = before.length) :
    At t f fun v => .list (before ++ v :: after) .closed

namespace At

theorem nested (h : t.At f outer) (v : Node) : (outer v).Nested := by
  cases h <;> trivial

theorem serves (h : t.At f outer) (ht : t.Orderly) (hf : f ∈ t.fields)
    (hread : Serves (f.read (levels - 1) v) (f.read (levels - 1) v')) :
    Serves (t.codec.read levels (outer v)) (t.codec.read levels (outer v')) := by
  cases h with
  | member before after hk => exact serves_field ht hf hk hread .closed
  | position before after hfields hplace => exact serves_position hread hfields hplace .closed

theorem lookup_zip {names names' : List String} {before after : List Node}
    (hlen : names.length = before.length) (hname : name ∉ names) :
    ((names ++ name :: names').zip (before ++ v :: after)).lookup name = some v := by
  rw [List.zip_append hlen, List.zip_cons_cons, List.lookup_append]
  have habsent : (names.zip before).lookup name = none := by
    rw [List.lookup_eq_none_iff]
    intro p hp
    have hne : name ≠ p.1 := fun heq => hname (heq ▸ (List.of_mem_zip hp).1)
    simpa using hne
  rw [habsent, Dict.lookup_cons_eq, if_pos rfl, Option.none_or]

/-- The value there is what is read into the field. -/
theorem of_read (h : t.At f outer) (ht : t.Orderly) (hf : t.Holds f get)
    (hread : t.codec.read levels (outer v) = .ok x) :
    ∃ s y, f.read (levels - 1) v = .ok s ∧ get x = get (s y) := by
  cases h with
  | member before after hk =>
    obtain ⟨-, -, names, hms, -⟩ := object_ok.1 hread
    exact hf.of_readMembers ht hk List.not_mem_nil hms
  | @position fields fs before after hfields hplace =>
    have htaken := hf.read ht hread
    have hname : f.name ∉ fields.map Field.name := by
      have hnames := ht.names
      rw [hfields, List.map_append, List.nodup_append] at hnames
      exact fun hmem => hnames.2.2 _ hmem _ (List.mem_cons_self ..) rfl
    have hpart : t.part? f.name (.list (before ++ v :: after) .closed) = some v := by
      rw [part?, hfields, List.map_append, List.map_cons]
      exact lookup_zip ((List.length_map _).trans hplace) hname
    rw [hpart] at htaken
    generalize get x = y at htaken ⊢
    cases htaken with
    | present hs x => exact ⟨_, x, hs, rfl⟩

end At

end Record

/-! ### Places in lists and dictionaries -/

theorem mapM_at {f : α → Except ε β} {x : α} {before after : List α} {ys : List β}
    (h : (before ++ x :: after).mapM f = .ok ys) :
    ∃ y, f x = .ok y ∧ ys[before.length]? = some y := by
  induction before generalizing ys with
  | nil =>
    rw [List.nil_append, List.mapM_cons] at h
    obtain ⟨y, hy, h⟩ := bind_ok.1 h
    obtain ⟨zs, -, h⟩ := bind_ok.1 h
    cases h
    exact ⟨y, hy, rfl⟩
  | cons z before ih =>
    rw [List.cons_append, List.mapM_cons] at h
    obtain ⟨w, -, h⟩ := bind_ok.1 h
    obtain ⟨zs, hzs, h⟩ := bind_ok.1 h
    cases h
    obtain ⟨y, hy, hplace⟩ := ih hzs
    exact ⟨y, hy, by rw [List.length_cons, List.getElem?_cons_succ, hplace]⟩

theorem Node.member?_eq_none {key : String} {ms : List (Node × Node)}
    (h : ∀ m ∈ ms, m.1.keyText ≠ .ok key) : member? key ms = none := by
  induction ms with
  | nil => rfl
  | cons m ms ih =>
    obtain ⟨hm, hms⟩ := List.forall_mem_cons.1 h
    rw [member?, ih hms, Option.none_or, if_neg]
    intro hkey
    cases hname : m.1.keyText with
    | error fault =>
      rw [hname] at hkey
      cases hkey
    | ok name =>
      rw [hname] at hkey
      cases hkey
      exact hm hname

theorem Node.member?_last {k v : Node} {key : String} (hk : k.keyText = .ok key)
    {after : List (Node × Node)} (hlast : ∀ m ∈ after, m.1.keyText ≠ .ok key)
    (before : List (Node × Node)) : member? key (before ++ (k, v) :: after) = some v := by
  induction before with
  | nil => rw [List.nil_append, member?_cons_of_eq hk, member?_eq_none hlast, Option.none_or]
  | cons m before ih => rw [List.cons_append, member?, ih, Option.some_or]

namespace Codec

variable {c : Codec α} {levels : Nat} {k v v' : Node} {key : String}

theorem list_at {before after : List Node} {as : List α}
    (h : c.list.read levels (.list (before ++ v :: after) .closed) = .ok as) :
    ∃ a, c.read (levels - 1) v = .ok a ∧ as[before.length]? = some a :=
  mapM_at (list_ok.1 h).2.1

theorem serves_item (h : Serves (c.read (levels - 1) v) (c.read (levels - 1) v'))
    (before after : List Node) :
    Serves (c.list.read levels (.list (before ++ v :: after) .closed))
      (c.list.read levels (.list (before ++ v' :: after) .closed)) := by
  intro hread
  obtain ⟨as, has⟩ := hread
  obtain ⟨hlevels, hitems, hend⟩ := list_ok.1 has
  obtain ⟨as', has'⟩ := h.mapM before after ⟨as, hitems⟩
  exact ⟨as', list_ok.2 ⟨hlevels, has', hend⟩⟩

/-- An entry is read, and if no later one has its key the dictionary has it. -/
theorem dict_at {before after : List (Node × Node)} {d : Dict α} (hk : k.keyText = .ok key)
    (h : c.dict.read levels (.object (before ++ (k, v) :: after) .closed) = .ok d) :
    ∃ a, c.read (levels - 1) v = .ok a ∧
      ((∀ m ∈ after, m.1.keyText ≠ .ok key) → d.get? key = some a) := by
  obtain ⟨-, hentries, -⟩ := dict_ok.1 h
  obtain ⟨es, hes, -⟩ := readEntries_ok.1 hentries
  obtain ⟨e, he, -⟩ := mapM_at hes
  obtain ⟨name, -, he⟩ := bind_ok.1 he
  obtain ⟨a, ha, -⟩ := bind_ok.1 he
  refine ⟨a, ha, fun hlast => ?_⟩
  have hentry := entry_of_read h key
  rw [Node.entry?, Node.member?_last hk hlast] at hentry
  generalize d.get? key = entry at hentry ⊢
  cases hentry with
  | some hread =>
    rw [ha] at hread
    rw [Except.ok.inj hread]

end Codec

end Json

end ChangeDesk
