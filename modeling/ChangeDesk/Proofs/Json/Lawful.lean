import ChangeDesk.Json.Record
import ChangeDesk.Proofs.Json.Written

/-!
# Lawful codecs

A codec is lawful if it reads back whatever it writes, as long as the levels of nesting that it
needs may be entered. Codecs made of lawful ones are lawful. Of a record this is said field by
field: a field is either written, and then read back into its place, or left out, and then the
record in the making is blank there.
-/

namespace ChangeDesk

namespace Json

variable {α β ρ : Type}

/-- What the codec writes it reads back where `depth` levels may be entered. Null is kept for
fields that are not set. -/
structure Codec.Lawful (c : Codec α) (depth : Nat) : Prop where
  read_write : ∀ levels, depth < levels → ∀ a, c.read levels (c.write a).node = .ok a
  write_ne_null : ∀ a, c.write a ≠ .null

theorem ok_bind {ε : Type} (a : α) (f : α → Except ε β) : (Except.ok a >>= f) = f a := rfl

theorem Node.enter_of_lt {levels : Nat} (h : 1 < levels) :
    Node.enter levels = .ok (levels - 1) := by
  rw [Node.enter, if_neg (by omega)]

namespace Codec

variable {c : Codec α} {depth : Nat}

/-! ### Scalars -/

theorem text_lawful : text.Lawful 0 where
  read_write := by
    intro levels _ s
    exact Quoted.text_written s
  write_ne_null := by
    intro s h
    cases h

theorem boolean_lawful : boolean.Lawful 0 where
  read_write := by
    intro levels _ b
    rfl
  write_ne_null := by
    intro b h
    cases h

theorem Lawful.map_read_write (hc : c.Lawful depth) {levels : Nat} (hd : depth < levels)
    (set : α → β) (a : α) : set <$> c.read levels (c.write a).node = .ok (set a) := by
  rw [hc.read_write levels hd a]
  rfl

theorem Lawful.imap (hc : c.Lawful depth) {into : α → β} {back : β → α}
    (hinto : ∀ b, into (back b) = b) : (c.imap into back).Lawful depth where
  read_write := by
    intro levels hl b
    show into <$> c.read levels (c.write (back b)).node = .ok b
    rw [hc.read_write levels hl (back b)]
    show Except.ok (into (back b)) = .ok b
    rw [hinto]
  write_ne_null := fun b => hc.write_ne_null (back b)

/-- Numbers of a type of at most 64 bits. -/
theorem integer_lawful (expected : Expected) {low high : Int} {into : Int → α} {back : α → Int}
    (hlow : ∀ a, low ≤ back a) (hhigh : ∀ a, back a ≤ high)
    (hmin : Int64.minValue.toInt ≤ low) (hmax : high < UInt64.size)
    (hinto : ∀ a, into (back a) = a) :
    ((integer expected low high).imap into back).Lawful 0 where
  read_write := by
    intro levels _ a
    have hl := hlow a
    have hh := hhigh a
    have hi : (Numeral.ofInt (back a)).integer? = some (back a) :=
      Numeral.integer?_ofInt (by omega) (by omega)
    simp only [imap, integer, Value.node, hi, hl, hh, and_self, if_true]
    show Except.ok (into (back a)) = .ok a
    rw [hinto]
  write_ne_null := by
    intro a h
    cases h

theorem uint64_lawful : uint64.Lawful 0 := by
  have hbound : ∀ n : UInt64, n.toNat < UInt64.size := fun n => n.toNat_lt_size
  refine integer_lawful _ (fun n => by omega) (fun n => ?_) (by decide) (by omega) fun n => ?_
  · have hn := hbound n
    omega
  · show UInt64.ofNat n.toNat = n
    rw [UInt64.ofNat_toNat]

theorem uint32_lawful : uint32.Lawful 0 := by
  have hbound : ∀ n : UInt32, n.toNat < UInt32.size := fun n => n.toNat_lt_size
  refine integer_lawful _ (fun n => by omega) (fun n => ?_) (by decide) (by decide) fun n => ?_
  · have hn := hbound n
    omega
  · show UInt32.ofNat n.toNat = n
    rw [UInt32.ofNat_toNat]

theorem int32_lawful : int32.Lawful 0 :=
  integer_lawful _ Int32.minValue_le_toInt Int32.toInt_le (by decide) (by decide)
    fun n => Int32.ofInt_toInt n

theorem enumeration_lawful {n : Names α} (hn : ∀ a, n.pick (n.name a) = .ok a) :
    (enumeration n).Lawful 0 where
  read_write := by
    intro levels _ a
    have htext := Quoted.text_written (n.name a)
    show (Quoted.written (n.name a)).text >>= n.pick = .ok a
    rw [Quoted.written, htext]
    exact hn a
  write_ne_null := by
    intro a h
    cases h

/-! ### Lists and dictionaries -/

theorem Lawful.mapM_read_write (hc : c.Lawful depth) (levels : Nat) (hl : depth < levels)
    (as : List α) : (Value.nodes (as.map c.write)).mapM (c.read levels) = .ok as := by
  induction as with
  | nil => rfl
  | cons a as ih =>
    rw [List.map_cons, Value.nodes, List.mapM_cons, hc.read_write levels hl a, ih]
    rfl

theorem Lawful.list (hc : c.Lawful depth) : c.list.Lawful (depth + 1) where
  read_write := by
    intro levels hl as
    have hread := hc.mapM_read_write (levels - 1) (by omega) as
    show (do
      let inner ← Node.enter levels
      let as ← (Value.nodes (as.map c.write)).mapM (c.read inner)
      Fault.raise? ListEnd.closed.fault?
      return as) = Except.ok as
    rw [Node.enter_of_lt (by omega), ok_bind, hread]
    rfl
  write_ne_null := by
    intro as h
    cases h

theorem Lawful.readEntries_write (hc : c.Lawful depth) (levels : Nat) (hl : depth < levels)
    {d e : Dict α} {es : List (String × α)} (he : e.entries = d.entries ++ es) :
    readEntries (c.read levels) d (Value.memberNodes (es.map fun x => (x.1, c.write x.2))) =
      .ok e := by
  induction es generalizing d with
  | nil =>
    rw [List.append_nil] at he
    cases d
    cases e
    cases he
    rfl
  | cons x es ih =>
    obtain ⟨k, a⟩ := x
    have hkey : (Node.text (.written k)).keyText = .ok k := Quoted.text_written k
    have hsorted := e.sorted
    rw [he, List.pairwise_append] at hsorted
    -- the entries are written in the order of their keys, so each is inserted at the end
    have hinsert : (d.insert k a).entries = d.entries ++ [(k, a)] :=
      Dict.insertEntry_of_lt fun p hp => hsorted.2.2 p hp (k, a) (List.mem_cons_self ..)
    have hrest := ih (d := d.insert k a) (by rw [he, hinsert, List.append_assoc]; rfl)
    rw [List.map_cons, Value.memberNodes, readEntries, hkey]
    show (c.read levels (c.write a).node >>= fun a => readEntries (c.read levels) (d.insert k a) _) = _
    rw [hc.read_write levels hl a]
    exact hrest

theorem Lawful.dict (hc : c.Lawful depth) : c.dict.Lawful (depth + 1) where
  read_write := by
    intro levels hl d
    have hentries : d.entries = (Dict.empty : Dict α).entries ++ d.entries := rfl
    have hread := hc.readEntries_write (levels - 1) (by omega) hentries
    show (do
      let inner ← Node.enter levels
      let d ← readEntries (c.read inner) .empty
        (Value.memberNodes (d.entries.map fun x => (x.1, c.write x.2)))
      Fault.raise? ObjectEnd.closed.fault?
      return d) = Except.ok d
    rw [Node.enter_of_lt (by omega), ok_bind, hread]
    rfl
  write_ne_null := by
    intro d h
    cases h

end Codec

/-! ### Records -/

namespace Record

/-- Reading what the fields write of the record `r` makes `r` of the record `x`. -/
inductive Restores (levels : Nat) (r : ρ) : ρ → List (Field ρ) → Prop where
  | done : Restores levels r r []
  | written {x : ρ} {f : Field ρ} {fs : List (Field ρ)} {v : Value} {set : ρ → ρ}
      (hw : f.write r = some v) (hr : f.read levels v.node = .ok set)
      (rest : Restores levels r (set x) fs) : Restores levels r x (f :: fs)
  | omitted {x : ρ} {f : Field ρ} {fs : List (Field ρ)} (hw : f.write r = none)
      (hf : f.required = false) (rest : Restores levels r x fs) : Restores levels r x (f :: fs)

namespace Restores

variable {levels depth : Nat} {r x : ρ} {fs : List (Field ρ)} {c : Codec α} {name : String}

theorem plain {get : ρ → α} {set : α → ρ → ρ} (hc : c.Lawful depth) (hd : depth < levels)
    (rest : Restores levels r (set (get r) x) fs) :
    Restores levels r x (.plain name c get set :: fs) :=
  .written rfl (hc.map_read_write hd set (get r)) rest

theorem needed {get : ρ → α} {set : α → ρ → ρ} (hc : c.Lawful depth) (hd : depth < levels)
    (rest : Restores levels r (set (get r) x) fs) :
    Restores levels r x (.needed name c get set :: fs) :=
  .written rfl (hc.map_read_write hd set (get r)) rest

theorem optional {get : ρ → Option α} {set : Option α → ρ → ρ} (hc : c.Lawful depth)
    (hd : depth < levels) (blank : set none x = x)
    (rest : Restores levels r (set (get r) x) fs) :
    Restores levels r x (.optional name c get set :: fs) := by
  cases hget : get r with
  | none =>
    rw [hget, blank] at rest
    refine .omitted ?_ rfl rest
    show (get r).map c.write = none
    rw [hget, Option.map_none]
  | some a =>
    rw [hget] at rest
    have hw : (Field.optional name c get set).write r = some (c.write a) := by
      show (get r).map c.write = some (c.write a)
      rw [hget, Option.map_some]
    refine .written hw ?_ rest
    have hread := hc.read_write levels hd a
    have hnull := hc.write_ne_null a
    -- no written value is read as a gap, and only null as null
    cases hv : c.write a with
    | null => exact absurd hv hnull
    | _ =>
      rw [hv] at hread
      show (fun a => set (some a)) <$> c.read levels _ = .ok (set (some a))
      rw [hread]
      rfl

theorem nonempty {get : ρ → List α} {set : List α → ρ → ρ} (hc : c.Lawful depth)
    (hd : depth + 1 < levels) (blank : set [] x = x)
    (rest : Restores levels r (set (get r) x) fs) :
    Restores levels r x (.nonempty name c get set :: fs) := by
  cases hget : get r with
  | nil =>
    rw [hget, blank] at rest
    refine .omitted ?_ rfl rest
    show (if (get r).isEmpty then none else some (c.list.write (get r))) = none
    rw [hget]
    rfl
  | cons a as =>
    rw [hget] at rest
    have hw : (Field.nonempty name c get set).write r = some (c.list.write (a :: as)) := by
      show (if (get r).isEmpty then none else some (c.list.write (get r))) = _
      rw [hget]
      rfl
    exact .written hw (hc.list.map_read_write hd set (a :: as)) rest

/-- The members written of fields that are not yet seen are read back. All fields that a document
must have are among them. -/
theorem readMembers {t : Record ρ} (h : Restores levels r x fs) {seen : List String}
    (hfind : ∀ f ∈ fs, t.field? f.name = some f) (hseen : ∀ f ∈ fs, f.name ∉ seen)
    (hnames : (fs.map Field.name).Nodup) :
    ∃ seen', t.readMembers levels seen x (Value.memberNodes
        (fs.filterMap fun f => (f.write r).map fun v => (f.name, v))) = .ok (seen', r) ∧
      (∀ n ∈ seen, n ∈ seen') ∧ ∀ f ∈ fs, f.required = true → f.name ∈ seen' := by
  -- along the fields: a field that is left out leaves `seen` as it is, so it must not be required
  induction h generalizing seen with
  | done =>
    refine ⟨seen, rfl, fun n hn => hn, ?_⟩
    intro f hf
    cases hf
  | @written x f fs v set hw hr rest ih =>
    rw [List.map_cons, List.nodup_cons] at hnames
    have hfresh : ∀ g ∈ fs, g.name ∉ f.name :: seen := by
      intro g hg hmem
      rcases List.mem_cons.1 hmem with heq | hmem
      · exact hnames.1 (heq ▸ List.mem_map_of_mem hg)
      · exact hseen g (List.mem_cons_of_mem _ hg) hmem
    obtain ⟨seen', hread, hkeep, hneed⟩ := ih
      (fun g hg => hfind g (List.mem_cons_of_mem _ hg)) hfresh hnames.2
    refine ⟨seen', ?_, fun n hn => hkeep n (List.mem_cons_of_mem _ hn), ?_⟩
    · have hkey : (Node.text (.written f.name)).keyText = .ok f.name :=
        Quoted.text_written f.name
      have hnew : seen.contains f.name = false := by
        have hf := hseen f (List.mem_cons_self ..)
        rw [List.contains_eq_mem]
        exact decide_eq_false hf
      have hmember : t.readMember levels seen x f.name v.node =
          .ok (f.name :: seen, set x) := by
        rw [readMember, hfind f (List.mem_cons_self ..)]
        simp only [hnew, Bool.false_eq_true, if_false, hr]
        rfl
      rw [List.filterMap_cons_some (by rw [hw]; rfl), Value.memberNodes, Record.readMembers,
        hkey]
      show (t.readMember levels seen x f.name v.node >>= fun p =>
        Record.readMembers t levels p.1 p.2 _) = _
      rw [hmember]
      exact hread
    · intro g hg hrequired
      rcases List.mem_cons.1 hg with rfl | hg
      · exact hkeep _ (List.mem_cons_self ..)
      · exact hneed g hg hrequired
  | @omitted x f fs hw hf rest ih =>
    rw [List.map_cons, List.nodup_cons] at hnames
    obtain ⟨seen', hread, hkeep, hneed⟩ := ih
      (fun g hg => hfind g (List.mem_cons_of_mem _ hg))
      (fun g hg => hseen g (List.mem_cons_of_mem _ hg)) hnames.2
    refine ⟨seen', ?_, hkeep, ?_⟩
    · rw [List.filterMap_cons_none (by rw [hw]; rfl)]
      exact hread
    · intro g hg hrequired
      rcases List.mem_cons.1 hg with rfl | hg
      · rw [hf] at hrequired
        cases hrequired
      · exact hneed g hg hrequired

end Restores

variable {t : Record ρ} {depth : Nat}

theorem find?_name {fs : List (Field ρ)} (hnames : (fs.map Field.name).Nodup) {f : Field ρ}
    (hf : f ∈ fs) : (fs.find? fun g => g.name == f.name) = some f := by
  induction fs with
  | nil => cases hf
  | cons g fs ih =>
    rw [List.map_cons, List.nodup_cons] at hnames
    rcases List.mem_cons.1 hf with rfl | hf
    · rw [List.find?_cons_of_pos (by simp)]
    · have hne : g.name ≠ f.name := by
        intro heq
        exact hnames.1 (heq ▸ List.mem_map_of_mem hf)
      rw [List.find?_cons_of_neg (by simp [hne]), ih hnames.2 hf]

theorem codec_lawful (hnames : (t.fields.map Field.name).Nodup)
    (h : ∀ levels, depth < levels → ∀ r, Restores levels r t.blank t.fields) :
    t.codec.Lawful (depth + 1) where
  read_write := by
    intro levels hl r
    have hunseen : ∀ f ∈ t.fields, f.name ∉ ([] : List String) := fun f _ => List.not_mem_nil
    obtain ⟨seen, hread, -, hneed⟩ := (h (levels - 1) (by omega) r).readMembers
      (fun f hf => find?_name hnames hf) hunseen hnames
    have hmissing : t.missing? seen = none := by
      have hfind : (t.fields.find? fun f => f.required && !seen.contains f.name) = none := by
        rw [List.find?_eq_none]
        intro f hf
        cases hrequired : f.required with
        | false => simp
        | true => simp [hneed f hf hrequired]
      rw [missing?, hfind, Option.map_none]
    show t.read levels (.object (Value.memberNodes (t.members r)) .closed) = .ok r
    rw [read, Node.enter_of_lt (by omega), ok_bind, members, hread, ok_bind]
    show (Fault.raise? (t.missing? seen) >>= fun _ => pure r) = Except.ok r
    rw [hmissing]
    rfl
  write_ne_null := by
    intro r h
    cases h

end Record

end Json

end ChangeDesk
