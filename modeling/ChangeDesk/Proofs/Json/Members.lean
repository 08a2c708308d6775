import Mathlib.Data.List.Nodup
import Mathlib.Data.List.Pairwise
import Mathlib.Data.List.Perm.Basic
import ChangeDesk.Proofs.Json.Lawful
import ChangeDesk.Proofs.Json.Strict

/-!
# Members that do not count

An object is read member by member, and each takes its part in the result. The parts of different
fields of a record do not get in each other's way, and neither do the entries of a dictionary with
different keys, so the order of the members does not count. A member whose name is unknown is passed
over, and null in a field that may be unset leaves the field as it is.

Main statements: edits of the members of an object that a record does not notice
(`Record.Orderly.keeps_edit`), the order of the entries of a dictionary (`Codec.keeps_dict_perm`),
and that a part may be replaced by another of which the same is read.
-/

namespace ChangeDesk.Json

variable {ε α β γ δ ρ : Type}

/-! ### Results that are kept -/

/-- Where the first succeeds the second does, with the same result. -/
def Keeps (x y : Except ε α) : Prop := ∀ a, x = .ok a → y = .ok a

theorem Keeps.refl (x : Except ε α) : Keeps x x := fun _ h => h

theorem Keeps.bind {x y : Except ε α} {f g : α → Except ε β} (hx : Keeps x y)
    (hf : ∀ a, Keeps (f a) (g a)) : Keeps (x >>= f) (y >>= g) := by
  intro b h
  obtain ⟨a, ha, hb⟩ := bind_ok.1 h
  exact bind_ok.2 ⟨a, hx a ha, hf a b hb⟩

theorem Keeps.map {x y : Except ε α} (hx : Keeps x y) (f : α → β) : Keeps (f <$> x) (f <$> y) := by
  intro b h
  obtain ⟨a, ha, hb⟩ := map_ok.1 h
  exact map_ok.2 ⟨a, hx a ha, hb⟩

theorem Keeps.mapM {f : α → Except ε β} {x y : α} (h : Keeps (f x) (f y)) (before after : List α) :
    Keeps ((before ++ x :: after).mapM f) ((before ++ y :: after).mapM f) := by
  induction before with
  | nil =>
    rw [List.nil_append, List.nil_append, List.mapM_cons, List.mapM_cons]
    exact h.bind fun _ => .refl _
  | cons z before ih =>
    rw [List.cons_append, List.cons_append, List.mapM_cons, List.mapM_cons]
    exact .bind (.refl _) fun _ => ih.bind fun _ => .refl _

/-! ### Edits of objects -/

/-- No two members have the same name. -/
def Distinct (ms : List (Node × Node)) : Prop := (ms.map fun m => m.1.keyText).Nodup

/-- An edit of the members of an object: their order is changed, a sound member with an unknown name
is added, or null for a name that may be missing and is. The members are at a place where `levels`
may still be entered. -/
inductive MembersEdit (known mayLack : String → Prop) (levels : Nat) :
    List (Node × Node) → List (Node × Node) → Prop where
  | permuted {ms ms' : List (Node × Node)} (h : ms.Perm ms') :
    MembersEdit known mayLack levels ms ms'
  | unknown (before after : List (Node × Node)) {k v : Node} {name : String}
    (hk : k.keyText = .ok name) (hname : ¬known name) (hv : v.Sound) (hdepth : v.height < levels) :
    MembersEdit known mayLack levels (before ++ after) (before ++ (k, v) :: after)
  | unset (before after : List (Node × Node)) {k : Node} {name : String}
    (hk : k.keyText = .ok name) (hname : mayLack name)
    (habsent : ∀ m ∈ before ++ after, m.1.keyText ≠ .ok name) :
    MembersEdit known mayLack levels (before ++ after) (before ++ (k, .null) :: after)

/-! ### Fields -/

/-- What is set by one field and by the other can be set in any order. -/
def Field.Commutes (f g : Field ρ) : Prop :=
  ∀ levels levels' v v' s s', f.read levels v = .ok s → g.read levels' v' = .ok s' →
    ∀ r, s (s' r) = s' (s r)

instance : Std.Symm (@Field.Commutes ρ) where
  symm _ _ h levels levels' v v' s s' hs hs' r := (h levels' levels v' v s' s hs' hs r).symm

/-- The node is a list or an object. -/
def Node.Nested : Node → Prop
  | .list _ _ => True
  | .object _ _ => True
  | _ => False

namespace Field.Made

variable {f g : Field ρ} {c : Codec α} {set : γ → ρ → ρ} {levels : Nat} {v v' : Node}

theorem exists_set (h : f.Made c set) {s : ρ → ρ} (hread : f.read levels v = .ok s) :
    ∃ a, s = set a := by
  cases h with
  | optional name c get set =>
    obtain ⟨-, rfl⟩ | ⟨-, a, -, rfl⟩ := optional_ok hread
    · exact ⟨none, rfl⟩
    · exact ⟨some a, rfl⟩
  | _ =>
    obtain ⟨a, -, rfl⟩ := map_ok.1 hread
    exact ⟨a, rfl⟩

theorem commutes (hf : f.Made c set) {d : Codec β} {set' : δ → ρ → ρ} (hg : g.Made d set')
    (h : ∀ a b r, set a (set' b r) = set' b (set a r)) : f.Commutes g := by
  intro levels levels' v v' s s' hs hs' r
  obtain ⟨a, rfl⟩ := hf.exists_set hs
  obtain ⟨b, rfl⟩ := hg.exists_set hs'
  exact h a b r

/-- Null and what begins like it are not offered to the codec, so a part that is replaced must be a
list or an object before and after. -/
theorem keeps_read (hf : f.Made c set) (hv : v.Nested) (hv' : v'.Nested)
    (h : Keeps (c.read levels v) (c.read levels v')) :
    Keeps (f.read levels v) (f.read levels v') := by
  cases hf with
  | optional name c get set =>
    cases v with
    | list items ending => cases v' <;> first | exact h.map _ | cases hv'
    | object members ending => cases v' <;> first | exact h.map _ | cases hv'
    | _ => cases hv
  | _ => exact h.map _

end Field.Made

/-! ### Records -/

namespace Record

/-- The name of a field. -/
def Knows (t : Record ρ) (name : String) : Prop := ∃ f ∈ t.fields, f.name = name

/-- The name of a field that may be unset. -/
def MayLack (t : Record ρ) (name : String) : Prop :=
  ∃ (α : Type) (c : Codec α) (get : ρ → Option α) (set : Option α → ρ → ρ),
    Field.optional name c get set ∈ t.fields

/-- The fields of a record do not get in each other's way, and null leaves those that may be unset
as they are in the blank record. -/
structure Orderly (t : Record ρ) : Prop where
  names : (t.fields.map Field.name).Nodup
  commutes : t.fields.Pairwise Field.Commutes
  unset : ∀ f ∈ t.fields, ∀ levels s, f.read levels .null = .ok s → s t.blank = t.blank

/-- What a member does to the names that are seen and to the record: it is passed over, or it sets a
field that is not seen yet. -/
inductive Step (t : Record ρ) (levels : Nat) :
    List String × ρ → Node × Node → List String × ρ → Prop where
  | passed {p : List String × ρ} {k v : Node} {name : String} (hk : k.keyText = .ok name)
    (hnone : t.field? name = none) (hv : v.skip = .ok ()) : Step t levels p (k, v) p
  | taken {seen : List String} {r : ρ} {k v : Node} {f : Field ρ} {s : ρ → ρ}
    (hk : k.keyText = .ok f.name) (hf : t.field? f.name = some f) (hnew : f.name ∉ seen)
    (hs : f.read levels v = .ok s) : Step t levels (seen, r) (k, v) (f.name :: seen, s r)

variable {t : Record ρ} {levels : Nat} {seen seen' : List String} {r : ρ}
  {p q : List String × ρ} {m n : Node × Node} {ms ms' : List (Node × Node)} {name : String}
  {f : Field ρ}

theorem name_of_field? (h : t.field? name = some f) : f.name = name := by
  have hname := List.find?_some h
  exact beq_iff_eq.1 hname

theorem mem_of_field? (h : t.field? name = some f) : f ∈ t.fields := List.mem_of_find?_eq_some h

theorem field?_of_not_knows (h : ¬t.Knows name) : t.field? name = none := by
  refine List.find?_eq_none.2 fun f hf hname => h ⟨f, hf, ?_⟩
  exact beq_iff_eq.1 hname

theorem readMember_ok {k v : Node} :
    (k.keyText >>= fun name => t.readMember levels seen r name v) = .ok p ↔
      t.Step levels (seen, r) (k, v) p := by
  rw [bind_ok]
  constructor
  · rintro ⟨name, hk, h⟩
    rw [readMember] at h
    split at h
    · rename_i hnone
      obtain ⟨hv, hp⟩ := seq_ok.1 h
      cases hp
      exact .passed hk hnone hv
    · rename_i f hf
      obtain rfl := name_of_field? hf
      split at h
      · cases h
      · rename_i hnew
        obtain ⟨s, hs, hp⟩ := bind_ok.1 h
        cases hp
        exact .taken hk hf (fun hmem => hnew (List.contains_iff_mem.2 hmem)) hs
  · intro h
    cases h with
    | passed hk hnone hv =>
      refine ⟨_, hk, ?_⟩
      rw [readMember, hnone]
      exact seq_ok.2 ⟨hv, rfl⟩
    | @taken _ _ _ _ f s hk hf hnew hs =>
      refine ⟨_, hk, ?_⟩
      have hunseen : ¬seen.contains f.name = true := fun h => hnew (List.contains_iff_mem.1 h)
      rw [readMember, hf]
      show (if seen.contains f.name = true then _ else _) = _
      rw [if_neg hunseen]
      exact bind_ok.2 ⟨s, hs, rfl⟩

theorem readMembers_cons :
    t.readMembers levels seen r (m :: ms) = .ok q ↔
      ∃ p, t.Step levels (seen, r) m p ∧ t.readMembers levels p.1 p.2 ms = .ok q := by
  obtain ⟨k, v⟩ := m
  rw [readMembers, bind_ok]
  constructor
  · rintro ⟨name, hk, h⟩
    obtain ⟨p, hp, hrest⟩ := bind_ok.1 h
    exact ⟨p, readMember_ok.1 (bind_ok.2 ⟨name, hk, hp⟩), hrest⟩
  · rintro ⟨p, hstep, hrest⟩
    obtain ⟨name, hk, hp⟩ := bind_ok.1 (readMember_ok.2 hstep)
    exact ⟨name, hk, bind_ok.2 ⟨p, hp, hrest⟩⟩

/-! ### Edits that a record does not notice -/

/-- Members are read in the same way if more names are seen, but none of these members'. -/
theorem readMembers_seen {seen seen' : List String} {r : ρ} (hsub : seen ⊆ seen')
    (hfresh : ∀ m ∈ ms, ∀ name, m.1.keyText = .ok name → name ∈ seen' → name ∈ seen)
    (h : t.readMembers levels seen r ms = .ok q) :
    ∃ names, t.readMembers levels seen' r ms = .ok (names, q.2) ∧ q.1 ⊆ names := by
  induction ms generalizing seen seen' r with
  | nil =>
    cases h
    exact ⟨seen', rfl, hsub⟩
  | cons m ms ih =>
    obtain ⟨p, hstep, hrest⟩ := readMembers_cons.1 h
    obtain ⟨hm, hms⟩ := List.forall_mem_cons.1 hfresh
    cases hstep with
    | passed hk hnone hv =>
      obtain ⟨names, hrest', hq⟩ := ih hsub hms hrest
      exact ⟨names, readMembers_cons.2 ⟨_, .passed hk hnone hv, hrest'⟩, hq⟩
    | @taken _ _ _ _ f s hk hf hnew hs =>
      have hfresh' : ∀ m ∈ ms, ∀ name, m.1.keyText = .ok name → name ∈ f.name :: seen' →
          name ∈ f.name :: seen := by
        intro m hmem name hname hseen'
        rcases List.mem_cons.1 hseen' with rfl | hseen'
        · exact List.mem_cons_self ..
        · exact List.mem_cons_of_mem _ (hms m hmem name hname hseen')
      obtain ⟨names, hrest', hq⟩ := ih (List.cons_subset_cons _ hsub) hfresh' hrest
      have hnew' : f.name ∉ seen' := fun hmem => hnew (hm _ hk hmem)
      exact ⟨names, readMembers_cons.2 ⟨_, .taken hk hf hnew' hs, hrest'⟩, hq⟩

namespace Orderly

/-- Two members may change places. -/
theorem swap (ht : t.Orderly) (hm : t.Step levels p m q) {q' : List String × ρ}
    (hn : t.Step levels q n q') :
    ∃ o names, t.Step levels p n o ∧ t.Step levels o m (names, q'.2) ∧ names.Perm q'.1 := by
  cases hm with
  | passed hk hnone hv => exact ⟨q', q'.1, hn, .passed hk hnone hv, .refl _⟩
  | @taken seen r _ _ f s hk hf hnew hs =>
    cases hn with
    | passed hk' hnone hv =>
      exact ⟨(seen, r), f.name :: seen, .passed hk' hnone hv, .taken hk hf hnew hs, .refl _⟩
    | @taken _ _ _ _ g s' hk' hg hnew' hs' =>
      obtain ⟨hne, hfresh⟩ := not_or.1 fun h => hnew' (List.mem_cons.2 h)
      have hgf : g ≠ f := fun h => hne (congrArg Field.name h)
      have hcomm := ht.commutes.forall (mem_of_field? hg) (mem_of_field? hf) hgf levels levels _ _
        s' s hs' hs r
      refine ⟨(g.name :: seen, s' r), f.name :: g.name :: seen, .taken hk' hg hfresh hs', ?_,
        .swap ..⟩
      rw [hcomm]
      refine .taken hk hf (fun hmem => ?_) hs
      rcases List.mem_cons.1 hmem with heq | hmem
      · exact hne heq.symm
      · exact hnew hmem

theorem readMembers_perm (ht : t.Orderly) (h : ms.Perm ms') {seen : List String} {r : ρ}
    (hread : t.readMembers levels seen r ms = .ok q) :
    ∃ names, t.readMembers levels seen r ms' = .ok (names, q.2) ∧ q.1 ⊆ names := by
  -- after a swap the names were seen in another order, which the rest does not notice
  induction h generalizing seen r q with
  | nil => exact ⟨q.1, hread, List.Subset.refl _⟩
  | cons m _ ih =>
    obtain ⟨p, hstep, hrest⟩ := readMembers_cons.1 hread
    obtain ⟨names, hrest', hq⟩ := ih hrest
    exact ⟨names, readMembers_cons.2 ⟨p, hstep, hrest'⟩, hq⟩
  | swap m n ms =>
    obtain ⟨p, hn, hread⟩ := readMembers_cons.1 hread
    obtain ⟨p', hm, hrest⟩ := readMembers_cons.1 hread
    obtain ⟨o, seen', hm', hn', hperm⟩ := ht.swap hn hm
    obtain ⟨names, hrest', hq⟩ := readMembers_seen hperm.symm.subset
      (fun _ _ _ _ hmem => hperm.subset hmem) hrest
    refine ⟨names, ?_, hq⟩
    exact readMembers_cons.2 ⟨o, hm', readMembers_cons.2 ⟨_, hn', hrest'⟩⟩
  | trans _ _ ih ih' =>
    obtain ⟨names, hread', hq⟩ := ih hread
    obtain ⟨names', hread'', hq'⟩ := ih' hread'
    exact ⟨names', hread'', List.Subset.trans hq hq'⟩

/-- What an edit leaves of a reading from the start: the record, and the names that were seen. -/
theorem readMembers_edit (ht : t.Orderly) (h : MembersEdit t.Knows t.MayLack levels ms ms')
    (hread : t.readMembers levels [] t.blank ms = .ok q) :
    ∃ names, t.readMembers levels [] t.blank ms' = .ok (names, q.2) ∧ q.1 ⊆ names := by
  cases h with
  | permuted h => exact ht.readMembers_perm h hread
  | @unknown before after k v name hk hname hv hdepth =>
    have hstep : t.Step levels ([], t.blank) (k, v) ([], t.blank) :=
      .passed hk (field?_of_not_knows hname) hv.skip
    exact ht.readMembers_perm List.perm_middle.symm (readMembers_cons.2 ⟨_, hstep, hread⟩)
  | @unset before after k name hk hname habsent =>
    obtain ⟨α, c, get, set, hf⟩ := hname
    -- at the front null finds the blank record, which it leaves as it is
    have hnull : (Field.optional name c get set).read levels .null = .ok (set none) := rfl
    have hstep : t.Step levels ([], t.blank) (k, .null) ([name], set none t.blank) :=
      .taken hk (find?_name ht.names hf) List.not_mem_nil hnull
    rw [ht.unset _ hf levels _ hnull] at hstep
    have hfresh : ∀ m ∈ before ++ after, ∀ n, m.1.keyText = .ok n → n ∈ [name] → n ∈ [] := by
      intro m hm n hn hmem
      rw [List.mem_singleton.1 hmem] at hn
      exact absurd hn (habsent m hm)
    obtain ⟨names, hrest, hq⟩ := readMembers_seen (List.nil_subset _) hfresh hread
    obtain ⟨names', hread', hq'⟩ := ht.readMembers_perm List.perm_middle.symm
      (readMembers_cons.2 ⟨_, hstep, hrest⟩)
    exact ⟨names', hread', List.Subset.trans hq hq'⟩

theorem missing?_of_subset {seen seen' : List String} (hsub : seen ⊆ seen')
    (h : t.missing? seen = none) : t.missing? seen' = none := by
  rw [missing?, Option.map_eq_none_iff, List.find?_eq_none] at h ⊢
  intro f hf hmissing
  obtain ⟨hrequired, hunseen⟩ := Bool.and_eq_true_iff.1 hmissing
  refine h f hf (Bool.and_eq_true_iff.2 ⟨hrequired, ?_⟩)
  rw [Bool.not_eq_true', ← Bool.not_eq_true, List.contains_iff_mem] at hunseen ⊢
  exact fun hmem => hunseen (hsub hmem)

/-- An edit of the members of a record does not count. -/
theorem keeps_edit (ht : t.Orderly) (h : MembersEdit t.Knows t.MayLack (levels - 1) ms ms')
    (ending : ObjectEnd) :
    Keeps (t.codec.read levels (.object ms ending)) (t.codec.read levels (.object ms' ending)) := by
  intro r hread
  obtain ⟨hlevels, hend, names, hms, hmissing⟩ := object_ok.1 hread
  obtain ⟨names', hms', hsub⟩ := ht.readMembers_edit h hms
  exact object_ok.2 ⟨hlevels, hend, names', hms', missing?_of_subset hsub hmissing⟩

/-! ### Parts that are replaced -/

theorem keeps_readMembers (ht : t.Orderly) (hf : f ∈ t.fields) {k v v' : Node}
    (hk : k.keyText = .ok f.name) (h : Keeps (f.read levels v) (f.read levels v'))
    (before after : List (Node × Node)) (seen : List String) (r : ρ) :
    Keeps (t.readMembers levels seen r (before ++ (k, v) :: after))
      (t.readMembers levels seen r (before ++ (k, v') :: after)) := by
  induction before generalizing seen r with
  | nil =>
    intro q hread
    obtain ⟨p, hstep, hrest⟩ := readMembers_cons.1 hread
    refine readMembers_cons.2 ⟨p, ?_, hrest⟩
    have hfind := find?_name ht.names hf
    cases hstep with
    | passed hk' hnone _ =>
      cases hk.symm.trans hk'
      cases hnone.symm.trans hfind
    | taken hk' hf' hnew hs =>
      obtain heq := Except.ok.inj (hk.symm.trans hk')
      rw [← heq] at hf' hnew ⊢
      cases hfind.symm.trans hf'
      exact .taken hk hf' hnew (h _ hs)
  | cons m before ih =>
    intro q hread
    obtain ⟨p, hstep, hrest⟩ := readMembers_cons.1 hread
    exact readMembers_cons.2 ⟨p, hstep, ih p.1 p.2 q hrest⟩

/-- The value of a field may be replaced by one that is read in the same way. -/
theorem keeps_field (ht : t.Orderly) (hf : f ∈ t.fields) {k v v' : Node}
    (hk : k.keyText = .ok f.name)
    (h : Keeps (f.read (levels - 1) v) (f.read (levels - 1) v'))
    (before after : List (Node × Node)) (ending : ObjectEnd) :
    Keeps (t.codec.read levels (.object (before ++ (k, v) :: after) ending))
      (t.codec.read levels (.object (before ++ (k, v') :: after) ending)) := by
  intro r hread
  obtain ⟨hlevels, hend, names, hms, hmissing⟩ := object_ok.1 hread
  have hms' := ht.keeps_readMembers hf hk h before after [] t.blank _ hms
  exact object_ok.2 ⟨hlevels, hend, names, hms', hmissing⟩

end Orderly

theorem keeps_readFields {v v' : Node} (h : Keeps (f.read levels v) (f.read levels v'))
    {fields fs : List (Field ρ)} {before after : List Node} (hlen : fields.length = before.length)
    (ending : ListEnd) (r : ρ) (index : Nat) :
    Keeps (t.readFields levels ending r index (fields ++ f :: fs) (before ++ v :: after))
      (t.readFields levels ending r index (fields ++ f :: fs) (before ++ v' :: after)) := by
  induction fields generalizing before r index with
  | nil =>
    obtain rfl := List.length_eq_zero_iff.1 hlen.symm
    exact h.bind fun _ => .refl _
  | cons g fields ih =>
    cases before with
    | nil => cases hlen
    | cons w before =>
      exact .bind (.refl _) fun _ => ih (Nat.succ.inj hlen) _ _

/-- The value at the place of a field may be replaced by one that is read in the same way. -/
theorem keeps_position {v v' : Node}
    (h : Keeps (f.read (levels - 1) v) (f.read (levels - 1) v')) {fields fs : List (Field ρ)}
    (ht : t.fields = fields ++ f :: fs) {before after : List Node}
    (hlen : fields.length = before.length) (ending : ListEnd) :
    Keeps (t.codec.read levels (.list (before ++ v :: after) ending))
      (t.codec.read levels (.list (before ++ v' :: after) ending)) := by
  intro r hread
  obtain ⟨inner, henter, hread⟩ := bind_ok.1 hread
  obtain rfl := (Node.enter_ok.1 henter).2
  refine bind_ok.2 ⟨_, henter, ?_⟩
  rw [ht] at hread ⊢
  exact keeps_readFields h hlen ending t.blank 0 r hread

end Record

/-! ### Lists and dictionaries -/

namespace Codec

variable {c : Codec α} {levels : Nat} {v v' : Node}

theorem keeps_list (h : Keeps (c.read (levels - 1) v) (c.read (levels - 1) v'))
    (before after : List Node) (ending : ListEnd) :
    Keeps (c.list.read levels (.list (before ++ v :: after) ending))
      (c.list.read levels (.list (before ++ v' :: after) ending)) := by
  intro as hread
  obtain ⟨hlevels, has, hend⟩ := list_ok.1 hread
  exact list_ok.2 ⟨hlevels, h.mapM before after as has, hend⟩

/-- Reads an entry of a dictionary. -/
def readEntry (read : Node → Except Fault α) (m : Node × Node) : Except Fault (String × α) := do
  let key ← m.1.keyText
  let a ← read m.2
  return (key, a)

theorem readEntries_ok {read : Node → Except Fault α} {d e : Dict α} {ms : List (Node × Node)} :
    readEntries read d ms = .ok e ↔
      ∃ es, ms.mapM (readEntry read) = .ok es ∧ es.foldl (fun d e => d.insert e.1 e.2) d = e := by
  induction ms generalizing d with
  | nil =>
    constructor
    · intro h
      cases h
      exact ⟨[], rfl, rfl⟩
    · rintro ⟨es, hes, rfl⟩
      cases hes
      rfl
  | cons m ms ih =>
    obtain ⟨k, v⟩ := m
    rw [List.mapM_cons]
    constructor
    · intro h
      obtain ⟨key, hkey, h⟩ := bind_ok.1 h
      obtain ⟨a, ha, h⟩ := bind_ok.1 h
      obtain ⟨es, hes, hd⟩ := ih.1 h
      refine ⟨(key, a) :: es, bind_ok.2 ⟨(key, a), ?_, bind_ok.2 ⟨es, hes, rfl⟩⟩, hd⟩
      exact bind_ok.2 ⟨key, hkey, bind_ok.2 ⟨a, ha, rfl⟩⟩
    · rintro ⟨es', hes', hd⟩
      obtain ⟨x, hx, h⟩ := bind_ok.1 hes'
      obtain ⟨key, hkey, h'⟩ := bind_ok.1 hx
      obtain ⟨a, ha, hp⟩ := bind_ok.1 h'
      obtain ⟨es, hes, hcons⟩ := bind_ok.1 h
      cases hp
      cases hcons
      exact bind_ok.2 ⟨key, hkey, bind_ok.2 ⟨a, ha, ih.2 ⟨es, hes, hd⟩⟩⟩

theorem keeps_entry (h : Keeps (c.read (levels - 1) v) (c.read (levels - 1) v')) (k : Node)
    (before after : List (Node × Node)) (ending : ObjectEnd) :
    Keeps (c.dict.read levels (.object (before ++ (k, v) :: after) ending))
      (c.dict.read levels (.object (before ++ (k, v') :: after) ending)) := by
  have hentries : ∀ d, Keeps (readEntries (c.read (levels - 1)) d (before ++ (k, v) :: after))
      (readEntries (c.read (levels - 1)) d (before ++ (k, v') :: after)) := by
    induction before with
    | nil => exact fun d => .bind (.refl _) fun _ => h.bind fun _ => .refl _
    | cons m before ih => exact fun d => .bind (.refl _) fun _ => .bind (.refl _) fun _ => ih _
  intro d hread
  obtain ⟨hlevels, hd, hend⟩ := dict_ok.1 hread
  exact dict_ok.2 ⟨hlevels, hentries _ d hd, hend⟩

end Codec

theorem mapM_perm {f : α → Except ε β} {xs xs' : List α} {ys : List β} (hperm : xs.Perm xs')
    (h : xs.mapM f = .ok ys) : ∃ ys', xs'.mapM f = .ok ys' ∧ ys.Perm ys' := by
  obtain ⟨ys', hys', hperm'⟩ := List.perm_comp_forall₂ hperm.symm (mapM_ok.1 h)
  exact ⟨ys', mapM_ok.2 hys', hperm'.symm⟩

theorem Distinct.keys {read : Node → Except Fault α} {ms : List (Node × Node)}
    {es : List (String × α)} (hd : Distinct ms) (h : ms.mapM (Codec.readEntry read) = .ok es) :
    (es.map Prod.fst).Nodup := by
  have hkeys : ms.map (fun m => m.1.keyText) = (es.map Prod.fst).map Except.ok := by
    clear hd
    induction mapM_ok.1 h with
    | nil => rfl
    | @cons m e ms es hm hms ih =>
      obtain ⟨key, hkey, hm⟩ := bind_ok.1 hm
      obtain ⟨a, -, he⟩ := bind_ok.1 hm
      cases he
      rw [List.map_cons, List.map_cons, List.map_cons, hkey, ih (mapM_ok.2 hms)]
  rw [Distinct, hkeys] at hd
  exact hd.of_map

theorem foldl_insert_perm {es es' : List (String × α)} (h : es.Perm es')
    (hd : (es.map Prod.fst).Nodup) (d : Dict α) :
    es.foldl (fun d e => d.insert e.1 e.2) d = es'.foldl (fun d e => d.insert e.1 e.2) d := by
  refine h.foldl_eq' (fun x hx y hy d => ?_) d
  by_cases hxy : x = y
  · rw [hxy]
  · exact d.insert_comm (fun hkey => hxy (List.inj_on_of_nodup_map hd hx hy hkey)) x.2 y.2

/-- The order of the entries of a dictionary does not count. -/
theorem Codec.keeps_dict_perm {c : Codec α} {levels : Nat} {ms ms' : List (Node × Node)}
    (hd : Distinct ms) (hperm : ms.Perm ms') (ending : ObjectEnd) :
    Keeps (c.dict.read levels (.object ms ending)) (c.dict.read levels (.object ms' ending)) := by
  intro d hread
  obtain ⟨hlevels, hread, hend⟩ := dict_ok.1 hread
  obtain ⟨es, hes, rfl⟩ := readEntries_ok.1 hread
  obtain ⟨es', hes', hperm'⟩ := mapM_perm hperm hes
  rw [foldl_insert_perm hperm' (hd.keys hes)]
  exact dict_ok.2 ⟨hlevels, readEntries_ok.2 ⟨es', hes', rfl⟩, hend⟩

end ChangeDesk.Json
