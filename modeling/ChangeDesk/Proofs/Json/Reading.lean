import ChangeDesk.Proofs.Json.Grammar

/-!
# What reading takes and leaves

Reading goes from left to right. A value that can be passed over is read only where one is spelled,
and whatever the text is, what reading leaves is the end of what it was given. So what is read
inside a list or an object is shorter than what surrounds it, the bound on the number of steps is
never reached, and it does not matter how large it is.

Main statements: only what is spelled is read (`Node.spells_of_read`), and space in front of a value
does not count (`Node.read_space`).
-/

namespace ChangeDesk.Json

/-! ### Results that are no fault -/

section

variable {ε α β : Type}

theorem bind_ok {x : Except ε α} {f : α → Except ε β} {b : β} :
    (x >>= f) = .ok b ↔ ∃ a, x = .ok a ∧ f a = .ok b := by
  cases x with
  | error e => exact ⟨nofun, nofun⟩
  | ok a =>
    constructor
    · intro h
      exact ⟨a, rfl, h⟩
    · rintro ⟨a', ha, h⟩
      cases ha
      exact h

theorem seq_ok {x : Except ε Unit} {y : Except ε β} {b : β} :
    (x >>= fun _ => y) = .ok b ↔ x = .ok () ∧ y = .ok b := by
  rw [bind_ok]
  constructor
  · rintro ⟨_, hx, hy⟩
    exact ⟨hx, hy⟩
  · rintro ⟨hx, hy⟩
    exact ⟨(), hx, hy⟩

theorem map_ok {x : Except ε α} {f : α → β} {b : β} :
    f <$> x = .ok b ↔ ∃ a, x = .ok a ∧ f a = b := by
  cases x with
  | error e => exact ⟨nofun, nofun⟩
  | ok a =>
    show Except.ok (f a) = Except.ok b ↔ _
    simp

end

theorem raise_ok {f : Option Fault} : Fault.raise? f = .ok () ↔ f = none := by
  cases f with
  | none => exact ⟨fun _ => rfl, fun _ => rfl⟩
  | some f => exact ⟨nofun, nofun⟩

namespace Node

variable {n m : Nat} {v key : Node} {vs : List Node} {ms : List (Node × Node)} {cs r : List Char}

/-! ### Only what is spelled is read -/

theorem skip_text {q : Quoted} : skip (.text q) = .ok () ↔ q.ending = .closed := by
  obtain ⟨ps, ending⟩ := q
  cases ending <;> simp [skip, Quoted.skip, QuoteEnd.fault?]

theorem skip_list {e : ListEnd} :
    skip (.list vs e) = .ok () ↔ skipItems vs = .ok () ∧ e = .closed := by
  rw [skip, seq_ok, raise_ok]
  cases e <;> simp [ListEnd.skipFault?, ListEnd.fault?]

theorem skip_object {e : ObjectEnd} :
    skip (.object ms e) = .ok () ↔ skipMembers ms = .ok () ∧ e = .closed := by
  rw [skip, seq_ok, raise_ok]
  cases e <;> simp [ObjectEnd.skipFault?, ObjectEnd.fault?]

theorem skipItems_cons :
    skipItems (v :: vs) = .ok () ↔ skip v = .ok () ∧ skipItems vs = .ok () := by
  rw [skipItems, seq_ok]

theorem skipMembers_cons :
    skipMembers ((key, v) :: ms) = .ok () ↔
      (∃ ps, key = .text ⟨ps, .closed⟩) ∧ skip v = .ok () ∧ skipMembers ms = .ok () := by
  cases key with
  | text q =>
    obtain ⟨ps, ending⟩ := q
    rw [skipMembers, seq_ok, seq_ok]
    cases ending <;> simp [Quoted.skip, QuoteEnd.fault?]
  | _ => simp [skipMembers, seq_ok]

/-- With `n` steps, a value that can be passed over is read only where it is spelled, after any
space. -/
def SpellsValues (n : Nat) : Prop :=
  ∀ (cs r : List Char) (v : Node), readValue n cs = (v, r) → skip v = .ok () →
    ∃ sp ds, Space sp ∧ Spells v ds ∧ cs = sp ++ (ds ++ r)

@[inherit_doc SpellsValues]
def SpellsAllItems (n : Nat) : Prop :=
  ∀ (cs r : List Char) (vs : List Node), readItems n cs = (vs, .closed, r) →
    skipItems vs = .ok () → ∃ ds, SpellsItems vs ds ∧ cs = ds ++ r

@[inherit_doc SpellsValues]
def SpellsAllMembers (n : Nat) : Prop :=
  ∀ (cs r : List Char) (ms : List (Node × Node)), readMembers n cs = (ms, .closed, r) →
    skipMembers ms = .ok () → ∃ ds, SpellsMembers ms ds ∧ cs = ds ++ r

theorem spells_of_readWord {node : Node} {broken : Bool → Gap} {w : List Char}
    (h : readWord node broken w cs = (v, r)) (hv : skip v = .ok ()) : v = node ∧ cs = w ++ r := by
  induction w generalizing cs with
  | nil =>
    cases h
    exact ⟨rfl, rfl⟩
  | cons c w ih =>
    cases cs with
    | nil =>
      cases h
      cases hv
    | cons d ds =>
      rw [readWord] at h
      split at h
      · rename_i hcd
        obtain ⟨rfl, rfl⟩ := ih h
        exact ⟨rfl, by rw [hcd]; rfl⟩
      · cases h
        cases hv

theorem spellsValues_succ (hi : SpellsAllItems n) (hm : SpellsAllMembers n) :
    SpellsValues (n + 1) := by
  intro cs r v h hv
  obtain ⟨sp, hs, hcs⟩ := exists_space cs
  suffices ∃ ds, Spells v ds ∧ skipSpace cs = ds ++ r by
    obtain ⟨ds, hspells, hskip⟩ := this
    exact ⟨sp, ds, hs, hspells, by rw [← hskip]; exact hcs⟩
  rw [readValue] at h
  split at h
  · cases h
    cases hv
  · rename_i rest hrest
    rcases hread : Quoted.read rest with ⟨⟨ps, ending⟩, left⟩
    rw [hread] at h
    cases h
    obtain rfl := skip_text.1 hv
    have hclosed : (Quoted.read rest).1.ending = .closed := by rw [hread]
    obtain ⟨used, hused, hspells⟩ := Quoted.spells_of_read hclosed
    rw [hread] at hused hspells
    exact ⟨_, .text hspells, by rw [hrest, hused]; rfl⟩
  · rename_i rest hrest
    obtain ⟨rfl, rfl⟩ := spells_of_readWord h hv
    exact ⟨_, .null, hrest⟩
  · rename_i rest hrest
    obtain ⟨rfl, rfl⟩ := spells_of_readWord h hv
    exact ⟨_, .bool true, hrest⟩
  · rename_i rest hrest
    obtain ⟨rfl, rfl⟩ := spells_of_readWord h hv
    exact ⟨_, .bool false, hrest⟩
  · rename_i rest hrest
    split at h
    · cases h
      cases (skip_list.1 hv).2
    · rename_i rest' hrest'
      cases h
      obtain ⟨sp', hs', hcs'⟩ := exists_space rest
      refine ⟨_, .emptyList hs', ?_⟩
      rw [hrest, hcs', hrest', List.cons_append, List.append_assoc]
      rfl
    · rcases hitems : readItems n (skipSpace rest) with ⟨vs, ending, left⟩
      rw [hitems] at h
      cases h
      obtain ⟨hskip, rfl⟩ := skip_list.1 hv
      rw [readItems_skipSpace] at hitems
      obtain ⟨ds, hspells, rfl⟩ := hi _ _ _ hitems hskip
      exact ⟨_, .list hspells, hrest⟩
  · rename_i rest hrest
    split at h
    · cases h
      cases (skip_object.1 hv).2
    · rename_i rest' hrest'
      cases h
      obtain ⟨sp', hs', hcs'⟩ := exists_space rest
      refine ⟨_, .emptyObject hs', ?_⟩
      rw [hrest, hcs', hrest', List.cons_append, List.append_assoc]
      rfl
    · rcases hmembers : readMembers n (skipSpace rest) with ⟨ms, ending, left⟩
      rw [hmembers] at h
      cases h
      obtain ⟨hskip, rfl⟩ := skip_object.1 hv
      rw [readMembers_skipSpace] at hmembers
      obtain ⟨ds, hspells, rfl⟩ := hm _ _ _ hmembers hskip
      exact ⟨_, .object hspells, hrest⟩
  · rename_i c rest _ _ _ _ _ _ hrest
    split at h
    · rw [readNumber] at h
      cases hread : Numeral.read (c :: rest) with
      | complete k left =>
        rw [hread] at h
        cases h
        obtain ⟨used, hused, hspells⟩ := Numeral.spells_of_read hread
        exact ⟨_, .number hspells, hrest.trans hused⟩
      | broken cutOff =>
        rw [hread] at h
        cases h
        cases hv
    · cases h
      cases hv

theorem spellsAllItems_succ (hv : SpellsValues n) (hi : SpellsAllItems n) :
    SpellsAllItems (n + 1) := by
  intro cs r vs h hskip
  rcases hread : readValue n cs with ⟨item, s⟩
  rw [readItems, hread] at h
  dsimp only at h
  obtain ⟨sp', hs', hs⟩ := exists_space s
  split at h
  · cases h
  · rename_i rest hrest
    cases h
    obtain ⟨hitem, -⟩ := skipItems_cons.1 hskip
    obtain ⟨sp, ds, hsp, hspells, rfl⟩ := hv cs s item hread hitem
    refine ⟨_, .last (.intro hsp hspells hs'), ?_⟩
    rw [hs, hrest]
    simp only [List.append_assoc, List.singleton_append]
  · rename_i rest hrest
    split at h
    · cases h
    · rcases hitems : readItems n (skipSpace rest) with ⟨vs', ending, left⟩
      rw [hitems] at h
      cases h
      rw [readItems_skipSpace] at hitems
      obtain ⟨hitem, hskip'⟩ := skipItems_cons.1 hskip
      obtain ⟨sp, ds, hsp, hspells, rfl⟩ := hv cs s item hread hitem
      obtain ⟨es, hrest', rfl⟩ := hi _ _ _ hitems hskip'
      refine ⟨_, .more (.intro hsp hspells hs') hrest', ?_⟩
      rw [hs, hrest]
      simp only [List.append_assoc, List.cons_append]
  · cases h

theorem spellsAllMembers_succ (hv : SpellsValues n) (hm : SpellsAllMembers n) :
    SpellsAllMembers (n + 1) := by
  intro cs r ms h hskip
  rcases hread : readValue n cs with ⟨key, s⟩
  rw [readMembers, hread] at h
  dsimp only at h
  obtain ⟨sp', hs', hs⟩ := exists_space s
  split at h
  · rename_i rest hrest
    rcases hread' : readValue n rest with ⟨value, t⟩
    rw [hread'] at h
    dsimp only at h
    obtain ⟨sq', ht', ht⟩ := exists_space t
    have hspelled : ∀ ms', skipMembers ((key, value) :: ms') = .ok () →
        ∃ q ks vs, key = .text q ∧ Padded key ks ∧ Padded value vs ∧
          cs = ks ++ ':' :: (vs ++ skipSpace t) ∧ skipMembers ms' = .ok () := by
      intro ms' hskip
      obtain ⟨⟨ps, rfl⟩, hvalue, hskip'⟩ := skipMembers_cons.1 hskip
      have hkey : skip (.text ⟨ps, .closed⟩) = .ok () := rfl
      obtain ⟨sp, ds, hsp, hspells, rfl⟩ := hv cs s _ hread hkey
      obtain ⟨sq, es, hsq, hspells', rfl⟩ := hv rest t value hread' hvalue
      refine ⟨_, _, _, rfl, .intro hsp hspells hs', .intro hsq hspells' ht', ?_, hskip'⟩
      rw [hs, hrest]
      simp only [List.append_assoc]
      rw [← ht]
    split at h
    · cases h
    · rename_i rest' hrest'
      cases h
      obtain ⟨q, ks, vs, rfl, hk, hvalue, rfl, -⟩ := hspelled [] hskip
      refine ⟨_, .last hk hvalue, ?_⟩
      rw [hrest']
      simp only [List.append_assoc, List.cons_append, List.nil_append]
    · rename_i rest' hrest'
      split at h
      · cases h
      · cases h
      · rcases hmembers : readMembers n (skipSpace rest') with ⟨ms', ending, left⟩
        rw [hmembers] at h
        cases h
        rw [readMembers_skipSpace] at hmembers
        obtain ⟨q, ks, vs, rfl, hk, hvalue, rfl, hskip'⟩ := hspelled ms' hskip
        obtain ⟨es, hrest'', rfl⟩ := hm _ _ _ hmembers hskip'
        refine ⟨_, .more hk hvalue hrest'', ?_⟩
        rw [hrest']
        simp only [List.append_assoc, List.cons_append]
    · cases h
  · cases h

theorem spells_all (n : Nat) : SpellsValues n ∧ SpellsAllItems n ∧ SpellsAllMembers n := by
  induction n with
  -- without steps a gap is read, which cannot be passed over, or no ending
  | zero =>
    refine ⟨?_, ?_, ?_⟩
    · intro cs r v h hv
      cases h
      cases hv
    · intro cs r vs h
      cases h
    · intro cs r ms h
      cases h
  | succ n ih =>
    obtain ⟨hv, hi, hm⟩ := ih
    exact ⟨spellsValues_succ hi hm, spellsAllItems_succ hv hi, spellsAllMembers_succ hv hm⟩

/-- A value that is read and can be passed over was spelled, after any space. -/
theorem spells_of_read (h : read cs = (v, r)) (hv : skip v = .ok ()) :
    ∃ sp ds, Space sp ∧ Spells v ds ∧ cs = sp ++ (ds ++ r) :=
  (spells_all _).1 cs r v h hv

end Node

theorem skipSpace_suffix (cs : List Char) : skipSpace cs <:+ cs := List.dropWhile_suffix _

theorem Quoted.read_suffix (cs : List Char) : (read cs).2 <:+ cs := by
  fun_induction read cs with
  | case1 => exact List.suffix_rfl
  | case2 r => exact List.suffix_cons ..
  | case3 a b c d r n hn ih =>
    have htail : r <:+ '\\' :: 'u' :: a :: b :: c :: d :: r := ⟨['\\', 'u', a, b, c, d], rfl⟩
    exact ih.trans htail
  | case6 c r _ _ e he ih =>
    have htail : r <:+ '\\' :: c :: r := ⟨['\\', c], rfl⟩
    exact ih.trans htail
  | case10 c r _ _ _ _ _ _ ih => exact ih.trans (List.suffix_cons ..)
  | _ => exact List.nil_suffix

namespace Node

variable {n m : Nat} {cs r : List Char}

/-! ### How far reading goes -/

theorem readWord_suffix (node : Node) (broken : Bool → Gap) (w cs : List Char) :
    (readWord node broken w cs).2 <:+ cs := by
  induction w generalizing cs with
  | nil => exact List.suffix_rfl
  | cons c w ih =>
    cases cs with
    | nil => exact List.nil_suffix
    | cons d r =>
      rw [readWord]
      split
      · exact (ih r).trans (List.suffix_cons ..)
      · exact List.nil_suffix

theorem readNumber_suffix (cs : List Char) : (readNumber cs).2 <:+ cs := by
  rw [readNumber]
  cases hread : Numeral.read cs with
  | complete n r =>
    obtain ⟨used, hcs, -⟩ := Numeral.spells_of_read hread
    exact ⟨used, hcs.symm⟩
  | broken cutOff => exact List.nil_suffix

/-- What follows the first character after the space is shorter than the text. -/
theorem suffix_of_skipSpace {c : Char} (h : skipSpace cs = c :: r) :
    r <:+ cs ∧ r.length < cs.length := by
  have hskip := skipSpace_suffix cs
  rw [h] at hskip
  exact ⟨(List.suffix_cons c r).trans hskip, hskip.length_le⟩

theorem readValue_suffix_succ (hi : ∀ cs, (readItems n cs).2.2 <:+ cs)
    (hm : ∀ cs, (readMembers n cs).2.2 <:+ cs) (cs : List Char) :
    (readValue (n + 1) cs).2 <:+ cs := by
  rw [readValue]
  split
  · exact List.nil_suffix
  · rename_i r hr
    exact (Quoted.read_suffix r).trans (suffix_of_skipSpace hr).1
  · rename_i r hr
    exact (readWord_suffix ..).trans (suffix_of_skipSpace hr).1
  · rename_i r hr
    exact (readWord_suffix ..).trans (suffix_of_skipSpace hr).1
  · rename_i r hr
    exact (readWord_suffix ..).trans (suffix_of_skipSpace hr).1
  · rename_i r hr
    refine List.IsSuffix.trans ?_ (suffix_of_skipSpace hr).1
    split
    · exact List.nil_suffix
    · rename_i r' hr'
      exact (suffix_of_skipSpace hr').1
    · exact (hi _).trans (skipSpace_suffix r)
  · rename_i r hr
    refine List.IsSuffix.trans ?_ (suffix_of_skipSpace hr).1
    split
    · exact List.nil_suffix
    · rename_i r' hr'
      exact (suffix_of_skipSpace hr').1
    · exact (hm _).trans (skipSpace_suffix r)
  · rename_i c r _ _ _ _ _ _ hr
    split
    · have hskip := skipSpace_suffix cs
      rw [hr] at hskip
      exact (readNumber_suffix _).trans hskip
    · exact List.nil_suffix

theorem readItems_suffix_succ (hv : ∀ cs, (readValue n cs).2 <:+ cs)
    (hi : ∀ cs, (readItems n cs).2.2 <:+ cs) (cs : List Char) :
    (readItems (n + 1) cs).2.2 <:+ cs := by
  rw [readItems]
  dsimp only
  refine List.IsSuffix.trans ?_ (hv cs)
  split
  · exact List.nil_suffix
  · rename_i r hr
    exact (suffix_of_skipSpace hr).1
  · rename_i r hr
    refine List.IsSuffix.trans ?_ (suffix_of_skipSpace hr).1
    split
    · exact List.nil_suffix
    · exact (hi _).trans (skipSpace_suffix r)
  · exact List.nil_suffix

theorem readMembers_suffix_succ (hv : ∀ cs, (readValue n cs).2 <:+ cs)
    (hm : ∀ cs, (readMembers n cs).2.2 <:+ cs) (cs : List Char) :
    (readMembers (n + 1) cs).2.2 <:+ cs := by
  rw [readMembers]
  dsimp only
  refine List.IsSuffix.trans ?_ (hv cs)
  split
  · rename_i r hr
    refine List.IsSuffix.trans ?_ ((hv r).trans (suffix_of_skipSpace hr).1)
    split
    · exact List.nil_suffix
    · rename_i s hs
      exact (suffix_of_skipSpace hs).1
    · rename_i s hs
      refine List.IsSuffix.trans ?_ (suffix_of_skipSpace hs).1
      split
      · exact List.nil_suffix
      · exact List.nil_suffix
      · exact (hm _).trans (skipSpace_suffix s)
    · exact List.nil_suffix
  · exact List.nil_suffix

/-- What reading leaves is the end of what it was given. -/
theorem read_suffix_steps (n : Nat) : (∀ cs, (readValue n cs).2 <:+ cs) ∧
    (∀ cs, (readItems n cs).2.2 <:+ cs) ∧ ∀ cs, (readMembers n cs).2.2 <:+ cs := by
  induction n with
  | zero => exact ⟨fun _ => List.nil_suffix, fun _ => List.nil_suffix, fun _ => List.nil_suffix⟩
  | succ n ih =>
    obtain ⟨hv, hi, hm⟩ := ih
    exact ⟨readValue_suffix_succ hi hm, readItems_suffix_succ hv hi,
      readMembers_suffix_succ hv hm⟩

theorem length_readValue_le (n : Nat) (cs : List Char) : (readValue n cs).2.length ≤ cs.length :=
  ((read_suffix_steps n).1 cs).length_le

theorem readValue_congr (hi : ∀ r, r.length < cs.length → readItems n r = readItems m r)
    (hm : ∀ r, r.length < cs.length → readMembers n r = readMembers m r) :
    readValue (n + 1) cs = readValue (m + 1) cs := by
  have hinner : ∀ {c : Char} {r}, skipSpace cs = c :: r → (skipSpace r).length < cs.length := by
    intro c r hr
    have hlt := (suffix_of_skipSpace hr).2
    have hle := (skipSpace_suffix r).length_le
    omega
  rw [readValue, readValue]
  split
  case h_6 r hr =>
    have hitems := hi _ (hinner hr)
    generalize skipSpace r = r' at hitems
    dsimp only
    split
    case h_3 => rw [hitems]
    all_goals rfl
  case h_7 r hr =>
    have hmembers := hm _ (hinner hr)
    -- the empty object is told apart by what follows the space, so that text is named first
    generalize skipSpace r = r' at hmembers
    dsimp only
    split
    case h_3 => rw [hmembers]
    all_goals rfl
  all_goals rfl

theorem readItems_congr (hv : readValue n cs = readValue m cs)
    (hi : ∀ r, r.length < cs.length → readItems n r = readItems m r) :
    readItems (n + 1) cs = readItems (m + 1) cs := by
  have hle := length_readValue_le m cs
  rw [readItems, readItems, hv]
  dsimp only
  split
  case h_3 r hr =>
    have hlt := (suffix_of_skipSpace hr).2
    have hskip := (skipSpace_suffix r).length_le
    have hitems := hi (skipSpace r) (by omega)
    generalize skipSpace r = r' at hitems
    split
    case h_2 => rw [hitems]
    all_goals rfl
  all_goals rfl

theorem readMembers_congr (hv : ∀ r, r.length ≤ cs.length → readValue n r = readValue m r)
    (hm : ∀ r, r.length < cs.length → readMembers n r = readMembers m r) :
    readMembers (n + 1) cs = readMembers (m + 1) cs := by
  have hle := length_readValue_le m cs
  rw [readMembers, readMembers, hv cs (Nat.le_refl _)]
  dsimp only
  split
  case h_1 r hr =>
    have hlt := (suffix_of_skipSpace hr).2
    have hvalue := length_readValue_le m r
    rw [hv r (by omega)]
    split
    case h_3 s hs =>
      have hlt' := (suffix_of_skipSpace hs).2
      have hskip := (skipSpace_suffix s).length_le
      have hmembers := hm (skipSpace s) (by omega)
      generalize skipSpace s = s' at hmembers
      split
      case h_3 => rw [hmembers]
      all_goals rfl
    all_goals rfl
  all_goals rfl

/-- Two bounds on the steps make no difference where both are large enough for the text. -/
theorem read_settled (k : Nat) :
    (∀ cs n m, cs.length < k → 2 * cs.length < n → 2 * cs.length < m →
      readValue n cs = readValue m cs) ∧
    (∀ cs n m, cs.length < k → 2 * cs.length + 1 < n → 2 * cs.length + 1 < m →
      readItems n cs = readItems m cs) ∧
    ∀ cs n m, cs.length < k → 2 * cs.length + 1 < n → 2 * cs.length + 1 < m →
      readMembers n cs = readMembers m cs := by
  -- the induction bounds the texts, not the steps: all that is read inside of one is shorter
  induction k with
  | zero => exact ⟨fun _ _ _ h => by omega, fun _ _ _ h => by omega, fun _ _ _ h => by omega⟩
  | succ k ih =>
    obtain ⟨-, hi, hm⟩ := ih
    have hvalue : ∀ cs n m, cs.length < k + 1 → 2 * cs.length < n → 2 * cs.length < m →
        readValue n cs = readValue m cs := by
      intro cs n m hk hn hm'
      obtain ⟨n, rfl⟩ := Nat.exists_eq_add_one_of_ne_zero (show n ≠ 0 by omega)
      obtain ⟨m, rfl⟩ := Nat.exists_eq_add_one_of_ne_zero (show m ≠ 0 by omega)
      exact readValue_congr (fun r hr => hi r n m (by omega) (by omega) (by omega))
        fun r hr => hm r n m (by omega) (by omega) (by omega)
    refine ⟨hvalue, ?_, ?_⟩
    · intro cs n m hk hn hm'
      obtain ⟨n, rfl⟩ := Nat.exists_eq_add_one_of_ne_zero (show n ≠ 0 by omega)
      obtain ⟨m, rfl⟩ := Nat.exists_eq_add_one_of_ne_zero (show m ≠ 0 by omega)
      exact readItems_congr (hvalue cs n m hk (by omega) (by omega))
        fun r hr => hi r n m (by omega) (by omega) (by omega)
    · intro cs n m hk hn hm'
      obtain ⟨n, rfl⟩ := Nat.exists_eq_add_one_of_ne_zero (show n ≠ 0 by omega)
      obtain ⟨m, rfl⟩ := Nat.exists_eq_add_one_of_ne_zero (show m ≠ 0 by omega)
      exact readMembers_congr (fun r hr => hvalue r n m (by omega) (by omega) (by omega))
        fun r hr => hm r n m (by omega) (by omega) (by omega)

theorem readValue_eq_read {n : Nat} {cs : List Char} (h : 2 * cs.length < n) :
    readValue n cs = read cs :=
  (read_settled (cs.length + 1)).1 cs n _ (by omega) h (by omega)

theorem read_space {sp : List Char} (hs : Space sp) (cs : List Char) :
    read (sp ++ cs) = read cs := by
  have hlength : (sp ++ cs).length = sp.length + cs.length := List.length_append
  have hsteps : readValue (2 * (sp ++ cs).length + 1) cs = read cs :=
    readValue_eq_read (by omega)
  rw [← hsteps, read, readValue_space _ hs]

theorem read_skipSpace (cs : List Char) : read (skipSpace cs) = read cs := by
  obtain ⟨sp, hs, hcs⟩ := exists_space cs
  rw [← read_space hs, ← hcs]

end Node
end ChangeDesk.Json
