import Mathlib.Logic.Relation
import ChangeDesk.Proofs.Document.Records

/-!
# Documents with another key status

The server names how far it trusts the key of a push. Whatever text stands there, the document can
be read if it can with some other status, or without one: a name that is not known is a status like
the others.

Main statement: a document keeps its form when a status at any depth is replaced by any text, or
added (`Restated.serves`).
-/

namespace ChangeDesk

namespace Json

variable {ε α β γ ρ : Type}

/-- Where the first succeeds the second does. -/
def Serves (x y : Except ε α) : Prop := (∃ a, x = .ok a) → ∃ b, y = .ok b

theorem Serves.map {x y : Except ε α} (h : Serves x y) (f : α → β) :
    Serves (f <$> x) (f <$> y) := by
  intro hx
  obtain ⟨b, hb⟩ := hx
  obtain ⟨a, ha, -⟩ := map_ok.1 hb
  obtain ⟨a', ha'⟩ := h ⟨a, ha⟩
  exact ⟨f a', map_ok.2 ⟨a', ha', rfl⟩⟩

theorem Serves.mapM {f : α → Except ε β} {a a' : α} (h : Serves (f a) (f a'))
    (before after : List α) :
    Serves ((before ++ a :: after).mapM f) ((before ++ a' :: after).mapM f) := by
  intro hread
  obtain ⟨bs, hbs⟩ := hread
  induction before generalizing bs with
  | nil =>
    rw [List.nil_append, List.mapM_cons] at hbs
    obtain ⟨b, hb, hrest⟩ := bind_ok.1 hbs
    obtain ⟨bs', hbs', -⟩ := bind_ok.1 hrest
    obtain ⟨b', hb'⟩ := h ⟨b, hb⟩
    refine ⟨b' :: bs', ?_⟩
    rw [List.nil_append, List.mapM_cons]
    exact bind_ok.2 ⟨b', hb', bind_ok.2 ⟨bs', hbs', rfl⟩⟩
  | cons x before ih =>
    rw [List.cons_append, List.mapM_cons] at hbs
    obtain ⟨b, hb, hrest⟩ := bind_ok.1 hbs
    obtain ⟨bs', hbs', -⟩ := bind_ok.1 hrest
    obtain ⟨bs'', hbs''⟩ := ih bs' hbs'
    refine ⟨b :: bs'', ?_⟩
    rw [List.cons_append, List.mapM_cons]
    exact bind_ok.2 ⟨b, hb, bind_ok.2 ⟨bs'', hbs'', rfl⟩⟩

/-- As for results that are kept, a part of an optional field must be a list or an object. -/
theorem Field.Made.serves_read {f : Field ρ} {c : Codec α} {set : γ → ρ → ρ} {levels : Nat}
    {v v' : Node} (hf : f.Made c set) (hv : v.Nested) (hv' : v'.Nested)
    (h : Serves (c.read levels v) (c.read levels v')) :
    Serves (f.read levels v) (f.read levels v') := by
  cases hf with
  | optional name c get set =>
    cases v with
    | list items ending => cases v' <;> first | exact h.map _ | cases hv'
    | object members ending => cases v' <;> first | exact h.map _ | cases hv'
    | _ => cases hv
  | _ => exact h.map _

namespace Record

variable {t : Record ρ} {f : Field ρ} {levels : Nat} {k v v' : Node} {r : ρ} {seen : List String}
  {q : List String × ρ} {ms before after : List (Node × Node)}

/-- Which names are seen does not depend on the record that is filled. -/
theorem readMembers_any (h : t.readMembers levels seen r ms = .ok q) (x : ρ) :
    ∃ y, t.readMembers levels seen x ms = .ok (q.1, y) := by
  induction ms generalizing seen r x with
  | nil =>
    cases h
    exact ⟨x, rfl⟩
  | cons m ms ih =>
    obtain ⟨p, hstep, hrest⟩ := readMembers_cons.1 h
    cases hstep with
    | passed hk hnone hv =>
      obtain ⟨y, hy⟩ := ih hrest x
      exact ⟨y, readMembers_cons.2 ⟨_, .passed hk hnone hv, hy⟩⟩
    | @taken _ _ _ _ g s hk hg hnew hs =>
      obtain ⟨y, hy⟩ := ih hrest (s x)
      exact ⟨y, readMembers_cons.2 ⟨_, .taken hk hg hnew hs, hy⟩⟩

theorem readMembers_replaced (ht : t.Orderly) (hf : f ∈ t.fields) (hk : k.keyText = .ok f.name)
    (h : Serves (f.read levels v) (f.read levels v'))
    (hread : t.readMembers levels seen r (before ++ (k, v) :: after) = .ok q) :
    ∃ y, t.readMembers levels seen r (before ++ (k, v') :: after) = .ok (q.1, y) := by
  induction before generalizing seen r with
  | nil =>
    obtain ⟨p, hstep, hrest⟩ := readMembers_cons.1 hread
    have hfind := find?_name ht.names hf
    cases hstep with
    | passed hk' hnone _ =>
      cases hk.symm.trans hk'
      cases hnone.symm.trans hfind
    | @taken _ _ _ _ g s hk' hf' hnew hs =>
      have heq := Except.ok.inj (hk.symm.trans hk')
      rw [← heq] at hf' hnew hrest
      cases hfind.symm.trans hf'
      obtain ⟨s', hs'⟩ := h ⟨s, hs⟩
      obtain ⟨y, hy⟩ := readMembers_any hrest (s' r)
      exact ⟨y, readMembers_cons.2 ⟨_, .taken hk hfind hnew hs', hy⟩⟩
  | cons m before ih =>
    obtain ⟨p, hstep, hrest⟩ := readMembers_cons.1 hread
    obtain ⟨y, hy⟩ := ih hrest
    exact ⟨y, readMembers_cons.2 ⟨p, hstep, hy⟩⟩

/-- The value of a field may be replaced by another that the field takes. -/
theorem serves_field (ht : t.Orderly) (hf : f ∈ t.fields) (hk : k.keyText = .ok f.name)
    (h : Serves (f.read (levels - 1) v) (f.read (levels - 1) v')) (ending : ObjectEnd) :
    Serves (t.codec.read levels (.object (before ++ (k, v) :: after) ending))
      (t.codec.read levels (.object (before ++ (k, v') :: after) ending)) := by
  intro hread
  obtain ⟨x, hx⟩ := hread
  obtain ⟨hlevels, hend, names, hms, hmissing⟩ := object_ok.1 hx
  obtain ⟨y, hy⟩ := readMembers_replaced ht hf hk h hms
  exact ⟨y, object_ok.2 ⟨hlevels, hend, names, hy, hmissing⟩⟩

/-- A field that is missing may be added with a value that it takes. -/
theorem serves_added (ht : t.Orderly) (hf : f ∈ t.fields) (hk : k.keyText = .ok f.name)
    {s : ρ → ρ} (hs : f.read (levels - 1) v = .ok s)
    (habsent : ∀ m ∈ before ++ after, m.1.keyText ≠ .ok f.name) (ending : ObjectEnd) :
    Serves (t.codec.read levels (.object (before ++ after) ending))
      (t.codec.read levels (.object (before ++ (k, v) :: after) ending)) := by
  intro hread
  obtain ⟨x, hx⟩ := hread
  obtain ⟨hlevels, hend, names, hms, hmissing⟩ := object_ok.1 hx
  have hfresh : ∀ m ∈ before ++ after, ∀ n, m.1.keyText = .ok n → n ∈ [f.name] → n ∈ [] := by
    intro m hm n hn hmem
    rw [List.mem_singleton.1 hmem] at hn
    exact absurd hn (habsent m hm)
  -- the member is read first, into the blank record, and moved to its place afterwards
  obtain ⟨y, hy⟩ := readMembers_any hms (s t.blank)
  obtain ⟨names', hseen, hsub⟩ := readMembers_seen (List.nil_subset [f.name]) hfresh hy
  have hfront : t.readMembers (levels - 1) [] t.blank ((k, v) :: (before ++ after)) =
      .ok (names', y) :=
    readMembers_cons.2 ⟨_, .taken hk (find?_name ht.names hf) List.not_mem_nil hs, hseen⟩
  obtain ⟨names'', hread', hsub'⟩ := ht.readMembers_perm List.perm_middle.symm hfront
  have hmissing' := Orderly.missing?_of_subset (List.Subset.trans hsub hsub') hmissing
  exact ⟨y, object_ok.2 ⟨hlevels, hend, names'', hread', hmissing'⟩⟩

theorem readFields_any {fs : List (Field ρ)} {items : List Node} {ending : ListEnd}
    {index index' : Nat} {x : ρ} (h : t.readFields levels ending r index fs items = .ok x) (y : ρ) :
    ∃ z, t.readFields levels ending y index' fs items = .ok z := by
  induction fs generalizing items r y index index' with
  | nil =>
    obtain ⟨hend, -⟩ := seq_ok.1 h
    exact ⟨y, seq_ok.2 ⟨hend, rfl⟩⟩
  | cons f fs ih =>
    cases items with
    | nil =>
      obtain ⟨hend, hx⟩ := seq_ok.1 h
      split at hx
      · cases hx
      · rename_i hrequired
        refine ⟨y, seq_ok.2 ⟨hend, ?_⟩⟩
        rw [hrequired]
        rfl
    | cons w items =>
      obtain ⟨s, hs, hrest⟩ := bind_ok.1 h
      obtain ⟨z, hz⟩ := ih hrest (s y)
      exact ⟨z, bind_ok.2 ⟨s, hs, hz⟩⟩

theorem readFields_replaced (h : Serves (f.read levels v) (f.read levels v'))
    {fields fs : List (Field ρ)} {before after : List Node} (hlen : fields.length = before.length)
    (ending : ListEnd) (r : ρ) (index : Nat) :
    Serves (t.readFields levels ending r index (fields ++ f :: fs) (before ++ v :: after))
      (t.readFields levels ending r index (fields ++ f :: fs) (before ++ v' :: after)) := by
  intro hread
  obtain ⟨x, hx⟩ := hread
  induction fields generalizing before r index with
  | nil =>
    obtain rfl := List.length_eq_zero_iff.1 hlen.symm
    obtain ⟨s, hs, hrest⟩ := bind_ok.1 hx
    obtain ⟨s', hs'⟩ := h ⟨s, hs⟩
    obtain ⟨z, hz⟩ := readFields_any hrest (s' r)
    exact ⟨z, bind_ok.2 ⟨s', hs', hz⟩⟩
  | cons g fields ih =>
    cases before with
    | nil => cases hlen
    | cons w before =>
      obtain ⟨s, hs, hrest⟩ := bind_ok.1 hx
      obtain ⟨z, hz⟩ := ih (Nat.succ.inj hlen) (s r) (index + 1) hrest
      exact ⟨z, bind_ok.2 ⟨s, hs, hz⟩⟩

/-- The value at the place of a field may be replaced by another that the field takes. -/
theorem serves_position (h : Serves (f.read (levels - 1) v) (f.read (levels - 1) v'))
    {fields fs : List (Field ρ)} (ht : t.fields = fields ++ f :: fs) {before after : List Node}
    (hlen : fields.length = before.length) (ending : ListEnd) :
    Serves (t.codec.read levels (.list (before ++ v :: after) ending))
      (t.codec.read levels (.list (before ++ v' :: after) ending)) := by
  intro hread
  obtain ⟨x, hx⟩ := hread
  obtain ⟨inner, henter, hx⟩ := bind_ok.1 hx
  obtain rfl := (Node.enter_ok.1 henter).2
  rw [ht] at hx
  obtain ⟨y, hy⟩ := readFields_replaced h hlen ending t.blank 0 ⟨x, hx⟩
  rw [← ht] at hy
  exact ⟨y, bind_ok.2 ⟨_, henter, hy⟩⟩

end Record

theorem Codec.serves_entry {c : Codec α} {levels : Nat} {v v' : Node}
    (h : Serves (c.read (levels - 1) v) (c.read (levels - 1) v')) (k : Node)
    (before after : List (Node × Node)) (ending : ObjectEnd) :
    Serves (c.dict.read levels (.object (before ++ (k, v) :: after) ending))
      (c.dict.read levels (.object (before ++ (k, v') :: after) ending)) := by
  have hentry : Serves (readEntry (c.read (levels - 1)) (k, v))
      (readEntry (c.read (levels - 1)) (k, v')) := by
    intro hread
    obtain ⟨e, he⟩ := hread
    obtain ⟨key, hkey, hvalue⟩ := bind_ok.1 he
    obtain ⟨a, ha, -⟩ := bind_ok.1 hvalue
    obtain ⟨a', ha'⟩ := h ⟨a, ha⟩
    exact ⟨(key, a'), bind_ok.2 ⟨key, hkey, bind_ok.2 ⟨a', ha', rfl⟩⟩⟩
  intro hread
  obtain ⟨d, hd⟩ := hread
  obtain ⟨hlevels, hentries, hend⟩ := dict_ok.1 hd
  obtain ⟨es, hes, -⟩ := readEntries_ok.1 hentries
  obtain ⟨es', hes'⟩ := hentry.mapM before after ⟨es, hes⟩
  exact ⟨_, dict_ok.2 ⟨hlevels, readEntries_ok.2 ⟨es', hes', rfl⟩, hend⟩⟩

end Json

open Json (Node Codec Record Serves bind_ok)

def statusField : Json.Field SigningKey :=
  .optional "status" KeyStatus.codec SigningKey.status fun v k => { k with status := v }

theorem statusField_mem : statusField ∈ SigningKey.record.fields :=
  List.mem_cons_of_mem _ (List.mem_cons_of_mem _ (List.mem_cons_self ..))

theorem pick_status (name : String) : ∃ status, Codec.Names.pick
    ⟨[.bad, .ok, .trusted, .unknown], KeyStatus.name, some .unknown⟩ name = .ok status := by
  rw [Codec.Names.pick]
  split
  · exact ⟨_, rfl⟩
  · exact ⟨_, rfl⟩

/-- Every text is a status. -/
theorem statusField_text {q : Json.Quoted} {name : String} (h : q.text = .ok name) (levels : Nat) :
    ∃ s, statusField.read levels (.text q) = .ok s := by
  obtain ⟨status, hstatus⟩ := pick_status name
  exact ⟨_, Json.map_ok.2 ⟨status, bind_ok.2 ⟨name, h, hstatus⟩, rfl⟩⟩

/-- In a value that is read with a codec where `levels` may be entered, the status of one key is
given as a text: in the place of another value, or added in the object form of a key, or at the end
of the list form. -/
inductive Restated : {α : Type} → Codec α → Nat → Node → Node → Prop where
  | replaced {levels : Nat} {k v : Node} {q : Json.Quoted} {name : String}
    (before after : List (Node × Node)) (hk : k.keyText = .ok "status") (hq : q.text = .ok name) :
    Restated SigningKey.codec levels (.object (before ++ (k, v) :: after) .closed)
      (.object (before ++ (k, .text q) :: after) .closed)
  | added {levels : Nat} {k : Node} {q : Json.Quoted} {name : String}
    (before after : List (Node × Node)) (hk : k.keyText = .ok "status") (hq : q.text = .ok name)
    (habsent : ∀ m ∈ before ++ after, m.1.keyText ≠ .ok "status") :
    Restated SigningKey.codec levels (.object (before ++ after) .closed)
      (.object (before ++ (k, .text q) :: after) .closed)
  | placed {levels : Nat} {v : Node} {q : Json.Quoted} {name : String} (before after : List Node)
    (hplace : before.length = 2) (hq : q.text = .ok name) :
    Restated SigningKey.codec levels (.list (before ++ v :: after) .closed)
      (.list (before ++ .text q :: after) .closed)
  | appended {levels : Nat} {q : Json.Quoted} {name : String} (before : List Node)
    (hplace : before.length = 2) (hq : q.text = .ok name) :
    Restated SigningKey.codec levels (.list before .closed)
      (.list (before ++ [.text q]) .closed)
  | field {ρ α γ : Type} {t : Record ρ} {f : Json.Field ρ} {c : Codec α} {set : γ → ρ → ρ}
    {levels : Nat} {k v v' : Node} (before after : List (Node × Node)) (ht : DocumentRecord t)
    (hf : f ∈ t.fields) (hc : f.Made c set) (hk : k.keyText = .ok f.name)
    (h : Restated c (levels - 1) v v') :
    Restated t.codec levels (.object (before ++ (k, v) :: after) .closed)
      (.object (before ++ (k, v') :: after) .closed)
  | position {ρ α γ : Type} {t : Record ρ} {f : Json.Field ρ} {c : Codec α} {set : γ → ρ → ρ}
    {levels : Nat} {v v' : Node} {fields fs : List (Json.Field ρ)} (before after : List Node)
    (hf : t.fields = fields ++ f :: fs) (hc : f.Made c set) (hplace : fields.length = before.length)
    (h : Restated c (levels - 1) v v') :
    Restated t.codec levels (.list (before ++ v :: after) .closed)
      (.list (before ++ v' :: after) .closed)
  | entry {α : Type} {c : Codec α} {levels : Nat} {k v v' : Node}
    (before after : List (Node × Node)) (h : Restated c (levels - 1) v v') :
    Restated c.dict levels (.object (before ++ (k, v) :: after) .closed)
      (.object (before ++ (k, v') :: after) .closed)

namespace Restated

variable {α : Type} {c : Codec α} {levels : Nat} {v v' : Node}

theorem nested (h : Restated c levels v v') : v.Nested ∧ v'.Nested := by
  cases h <;> exact ⟨trivial, trivial⟩

theorem serves_appended {before : List Node} (hplace : before.length = 2) {q : Json.Quoted}
    {name : String} (hq : q.text = .ok name) :
    Serves (SigningKey.codec.read levels (.list before .closed))
      (SigningKey.codec.read levels (.list (before ++ [.text q]) .closed)) := by
  obtain ⟨v, w, rfl⟩ := List.length_eq_two.1 hplace
  intro hread
  obtain ⟨x, hx⟩ := hread
  obtain ⟨inner, henter, hx⟩ := bind_ok.1 hx
  obtain ⟨s, hs, hx⟩ := bind_ok.1 hx
  obtain ⟨s', hs', -⟩ := bind_ok.1 hx
  obtain ⟨s'', hs''⟩ := statusField_text hq inner
  exact ⟨_, bind_ok.2 ⟨inner, henter, bind_ok.2 ⟨s, hs, bind_ok.2 ⟨s', hs',
    bind_ok.2 ⟨s'', hs'', rfl⟩⟩⟩⟩⟩

/-- What is read with some status is read with any other. -/
theorem serves (h : Restated c levels v v') : Serves (c.read levels v) (c.read levels v') := by
  induction h with
  | replaced before after hk hq =>
    exact Record.serves_field DocumentRecord.signingKey.orderly statusField_mem hk
      (fun _ => statusField_text hq _) .closed
  | added before after hk hq habsent =>
    obtain ⟨s, hs⟩ := statusField_text hq _
    exact Record.serves_added DocumentRecord.signingKey.orderly statusField_mem hk hs habsent
      .closed
  | @placed levels v q name before after hplace hq =>
    have hfields : SigningKey.record.fields =
        SigningKey.record.fields.take 2 ++ statusField :: SigningKey.record.fields.drop 3 := rfl
    exact Record.serves_position (fun _ => statusField_text hq _) hfields hplace.symm .closed
  | appended before hplace hq => exact serves_appended hplace hq
  | field before after ht hf hc hk h ih =>
    obtain ⟨hv, hv'⟩ := h.nested
    exact Record.serves_field ht.orderly hf hk (hc.serves_read hv hv' ih) .closed
  | position before after hf hc hplace h ih =>
    obtain ⟨hv, hv'⟩ := h.nested
    exact Record.serves_position (hc.serves_read hv hv' ih) hf hplace .closed
  | entry before after h ih => exact Codec.serves_entry ih _ before after .closed

theorem serves_all (h : Relation.ReflTransGen (Restated c levels) v v') :
    Serves (c.read levels v) (c.read levels v') := by
  intro hread
  induction h with
  | refl => exact hread
  | tail _ hstep ih => exact hstep.serves ih

end Restated

end ChangeDesk
