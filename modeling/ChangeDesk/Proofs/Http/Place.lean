import Mathlib.Data.List.TakeWhile
import ChangeDesk.Http.Url

/-!
# Places on a server

Whether an address can be asked is decided before its path begins. So of the addresses of plain
places on one server either all can be asked or none.

Main statement: an address stays one when its place is exchanged (`Url.read_place`).
-/

namespace ChangeDesk.Http.Url

variable {c d : Char} {cs base p p' : List Char} {secure : Bool}

/-! ### Plain characters -/

/-- A slash, and names of letters and digits with slashes between them, two at least. -/
structure Place (p : List Char) : Prop where
  segments : ∃ name rest, p = '/' :: (name ++ '/' :: rest) ∧ name ≠ [] ∧
    ∀ c ∈ name, c.isAlphanum = true
  plain : ∀ c ∈ p, c.isAlphanum = true ∨ c = '/'

theorem isAlphanum_ne (hc : c.isAlphanum = true) (hd : d.isAlphanum = false) : c ≠ d := by
  rintro rfl
  rw [hc] at hd
  cases hd

theorem contains_of_isAlphanum {marks : List Char} (hc : c.isAlphanum = true)
    (hmarks : marks.any Char.isAlphanum = false) : marks.contains c = false := by
  rw [List.contains_eq_mem]
  refine decide_eq_false ?_
  intro hmem
  exact List.any_eq_false.1 hmarks c hmem hc

theorem lt_of_isAlphanum (hc : c.isAlphanum = true) : 0x20 < c.toNat := by
  by_contra hle
  have hbelow : (List.range 33).any (fun n => (Char.ofNat n).isAlphanum) = false := by decide
  have hmem : c.toNat ∈ List.range 33 := List.mem_range.2 (by omega)
  have hnot := List.any_eq_false.1 hbelow c.toNat hmem
  rw [Char.ofNat_toNat] at hnot
  exact hnot hc

theorem plain_of_all (h : cs.all (fun c => c.isAlphanum || c == '/') = true) :
    ∀ c ∈ cs, c.isAlphanum = true ∨ c = '/' := by
  simpa using h

namespace Place

theorem ne (h : Place p) (hd : d.isAlphanum = false) (hslash : d ≠ '/') : d ∉ p := by
  intro hmem
  obtain halnum | rfl := h.plain d hmem
  · exact isAlphanum_ne halnum hd rfl
  · exact hslash rfl

theorem named {name rest : List Char} (hname : name ≠ [])
    (halnum : ∀ c ∈ name, c.isAlphanum = true)
    (hrest : ∀ c ∈ rest, c.isAlphanum = true ∨ c = '/') :
    Place ('/' :: (name ++ '/' :: rest)) where
  segments := ⟨name, rest, rfl, hname, halnum⟩
  plain := by
    intro c hc
    rw [List.mem_cons, List.mem_append, List.mem_cons] at hc
    obtain rfl | hc | rfl | hc := hc
    · exact .inr rfl
    · exact .inl (halnum c hc)
    · exact .inr rfl
    · exact hrest c hc

theorem below {name : List Char} (h : Place p) (hname : name ≠ [])
    (halnum : ∀ c ∈ name, c.isAlphanum = true) : Place ('/' :: (name ++ p)) := by
  obtain ⟨first, rest, rfl, -, -⟩ := h.segments
  refine named hname halnum ?_
  intro c hc
  exact h.plain c (List.mem_cons_of_mem _ hc)

theorem ne_nil (h : Place p) : p ≠ [] := by
  obtain ⟨name, rest, rfl, -, -⟩ := h.segments
  nofun

theorem lt (h : Place p) (hc : c ∈ p) : 0x20 < c.toNat := by
  obtain halnum | rfl := h.plain c hc
  · exact lt_of_isAlphanum halnum
  · decide

end Place

/-! ### The scheme -/

/-- What is read of an address: no spaces and controls around it and no line breaks in it. -/
def sifted (cs : List Char) : List Char :=
  let inner (cs : List Char) := cs.dropWhile fun c => c.toNat ≤ 0x20
  (inner (inner cs).reverse).reverse.filter fun c => c != '\t' && c != '\n' && c != '\r'

def isSlash (c : Char) : Bool := c == '/' || c == '\\'

theorem cut_append {q : Char → Bool} {name tail : List Char} (hname : ∀ c ∈ name, q c = false)
    (hd : q d = true) : cut q (name ++ d :: tail) = (name, d :: tail) := by
  have hnot : ∀ c ∈ name, (!q c) = true := by
    intro c hc
    rw [hname c hc, Bool.not_false]
  rw [cut, List.takeWhile_append_of_pos hnot, List.dropWhile_append_of_pos hnot,
    List.takeWhile_cons_of_neg (by simp [hd]), List.dropWhile_cons_of_neg (by simp [hd]),
    List.append_nil]

theorem cut_none {q : Char → Bool} (h : ∀ c ∈ cs, q c = false) : cut q cs = (cs, []) := by
  have hnot : ∀ c ∈ cs, (!q c) = true := by
    intro c hc
    rw [h c hc, Bool.not_false]
  rw [cut, List.takeWhile_eq_self_iff.2 hnot, List.dropWhile_eq_nil_iff.2 hnot]

theorem read_of_cut {s : String} {name rest : List Char}
    (h : cut (· == ':') (sifted s.toList) = (name, rest)) :
    read s =
      if rest.isEmpty ∨ !(name.head?.any Char.isAlpha) ∨ !(name.all isSchemeChar) then
        .error .noScheme
      else
        match String.ofList (name.map Char.toLower) with
        | "http" => readRest false ((rest.drop 1).dropWhile isSlash)
        | "https" => readRest true ((rest.drop 1).dropWhile isSlash)
        | _ => .error (.otherScheme (String.ofList (sifted s.toList))) := by
  unfold sifted at h
  dsimp only at h
  unfold read
  dsimp only
  rw [h]
  rfl

theorem colon_of_read {s : String} {u : Url} (h : read s = .ok u) : ':' ∈ sifted s.toList := by
  by_contra hcolon
  have hnot : ∀ c ∈ sifted s.toList, (c == ':') = false := by
    intro c hc
    have hne : c ≠ ':' := ne_of_mem_of_not_mem hc hcolon
    exact beq_eq_false_iff_ne.2 hne
  rw [read_of_cut (cut_none hnot)] at h
  cases h

theorem dropWhile_append_place {q : Char → Bool} (h : ∀ c ∈ p, q c = false) (hp : p ≠ [])
    (cs : List Char) : (cs ++ p).dropWhile q = cs.dropWhile q ++ p := by
  have hself : p.dropWhile q = p := by
    obtain ⟨c, p, rfl⟩ := List.exists_cons_of_ne_nil hp
    exact List.dropWhile_cons_of_neg (by simp [h c (List.mem_cons_self ..)])
  rw [List.dropWhile_append, hself]
  split
  · rename_i hempty
    rw [List.isEmpty_iff.1 hempty, List.nil_append]
  · rfl

/-- What is left of an address does not depend on the place at its end. -/
theorem exists_sifted (cs : List Char) : ∃ ds, ∀ p, Place p → sifted (cs ++ p) = ds ++ p := by
  refine ⟨(cs.dropWhile fun c => c.toNat ≤ 0x20).filter fun c =>
    c != '\t' && c != '\n' && c != '\r', ?_⟩
  intro p hp
  have hne : p ≠ [] := hp.ne_nil
  have hgap : ∀ c ∈ p, decide (c.toNat ≤ 0x20) = false := by
    intro c hc
    have hlt := hp.lt hc
    exact decide_eq_false (by omega)
  have hkept : p.filter (fun c => c != '\t' && c != '\n' && c != '\r') = p := by
    rw [List.filter_eq_self]
    intro c hc
    have hlt := hp.lt hc
    have htab : c ≠ '\t' := by rintro rfl; revert hlt; decide
    have hfeed : c ≠ '\n' := by rintro rfl; revert hlt; decide
    have hreturn : c ≠ '\r' := by rintro rfl; revert hlt; decide
    simp [htab, hfeed, hreturn]
  have hend : ∀ ds : List Char, ((ds ++ p).reverse.dropWhile fun c => c.toNat ≤ 0x20).reverse =
      ds ++ p := by
    intro ds
    obtain ⟨c, cs, hreverse⟩ := List.exists_cons_of_ne_nil (mt List.reverse_eq_nil_iff.1 hne)
    have hc : c ∈ p := List.mem_reverse.1 (hreverse ▸ List.mem_cons_self ..)
    rw [List.reverse_append, hreverse, List.cons_append,
      List.dropWhile_cons_of_neg (by simp [hgap c hc]), ← List.cons_append, ← hreverse,
      ← List.reverse_append, List.reverse_reverse]
  rw [sifted]
  dsimp only
  rw [dropWhile_append_place hgap hne, hend, List.filter_append, hkept]

/-! ### The host -/

def endsHost (c : Char) : Bool := ['/', '\\', '?', '#'].contains c

def hostOf (after : List Char) : List Char :=
  ((cut endsHost after).1.reverse.takeWhile (· != '@')).reverse

theorem readRest_ok {after : List Char} :
    (∃ u, readRest secure after = .ok u) ↔ ∃ host, readHost secure (hostOf after) = .ok host := by
  show (∃ u, (readHost secure (hostOf after) >>= _) = .ok u) ↔ _
  cases readHost secure (hostOf after) with
  | error f =>
    constructor
    · rintro ⟨u, h⟩
      cases h
    · rintro ⟨host, h⟩
      cases h
  | ok host => exact ⟨fun _ => ⟨host, rfl⟩, fun _ => ⟨_, rfl⟩⟩

theorem hostOf_append (hp : Place p) (cs : List Char) : hostOf (cs ++ p) = hostOf cs := by
  obtain ⟨name, rest, rfl, -, -⟩ := hp.segments
  have hcut : (cut endsHost (cs ++ '/' :: (name ++ '/' :: rest))).1 = (cut endsHost cs).1 := by
    rw [cut, cut, List.takeWhile_append]
    split
    · rename_i hlength
      have hall : cs.takeWhile (!endsHost ·) = cs :=
        (List.takeWhile_prefix _).eq_of_length hlength
      rw [List.takeWhile_cons_of_neg (by decide), List.append_nil, hall]
    · rfl
  rw [hostOf, hostOf, hcut]

theorem hostOf_place (hp : Place p) :
    ∃ name, hostOf (p.dropWhile isSlash) = name ∧ name ≠ [] ∧
      ∀ c ∈ name, c.isAlphanum = true := by
  obtain ⟨name, rest, rfl, hname, halnum⟩ := hp.segments
  have hstart : ('/' :: (name ++ '/' :: rest)).dropWhile isSlash = name ++ '/' :: rest := by
    obtain ⟨c, name, rfl⟩ := List.exists_cons_of_ne_nil hname
    have hc := halnum c (List.mem_cons_self ..)
    have hslash : isSlash c = false := by
      simp [isSlash, isAlphanum_ne hc (d := '/') rfl, isAlphanum_ne hc (d := '\\') rfl]
    rw [List.dropWhile_cons_of_pos rfl, List.cons_append,
      List.dropWhile_cons_of_neg (by simp [hslash])]
  have hends : ∀ c ∈ name, endsHost c = false := by
    intro c hc
    exact contains_of_isAlphanum (halnum c hc) (by decide)
  have huser : ∀ c ∈ name.reverse, (c != '@') = true := by
    intro c hc
    exact bne_iff_ne.2 (isAlphanum_ne (halnum c (List.mem_reverse.1 hc)) rfl)
  refine ⟨name, ?_, hname, halnum⟩
  rw [hstart, hostOf, cut_append hends rfl, List.takeWhile_eq_self_iff.2 huser,
    List.reverse_reverse]

/-- A name of letters and digits is a host. -/
theorem readHost_name {name : List Char} (hname : name ≠ [])
    (halnum : ∀ c ∈ name, c.isAlphanum = true) :
    readHost secure name = .ok (name.map Char.toLower, none) := by
  have hfirst : name.head? ≠ some '[' := by
    intro h
    exact isAlphanum_ne (halnum '[' (List.mem_of_head? h)) rfl rfl
  have hcolon : ∀ c ∈ name, (c == ':') = false := by
    intro c hc
    exact beq_eq_false_iff_ne.2 (isAlphanum_ne (halnum c hc) rfl)
  have hempty : name.isEmpty = false := List.isEmpty_eq_false_iff.2 hname
  have hgood : name.any badInHost = false := by
    rw [List.any_eq_false]
    intro c hc
    have hlt := lt_of_isAlphanum (halnum c hc)
    have hdelete : c.toNat ≠ 0x7f := by
      intro h
      exact isAlphanum_ne (halnum c hc) (d := '\x7f') rfl (Char.toNat_inj.1 h)
    have hplain : ['"', '#', '%', '/', ':', '<', '>', '?', '@', '[', '\\', ']', '^', '`', '\x7b',
        '|', '\x7d'].contains c = false :=
      contains_of_isAlphanum (halnum c hc) (by decide)
    simp only [badInHost, hplain, Bool.or_false, Bool.or_eq_true, decide_eq_true_eq, beq_iff_eq]
    omega
  rw [readHost, if_neg hfirst, cut_none hcolon]
  have hbare : ¬ (name.head? ≠ some '[' ∧ false = true) := fun h => nomatch h.2
  simp only [hempty, hgood, if_neg hbare]
  rfl

/-! ### Exchanging the place -/

/-- The place does not decide whether what follows a scheme can be asked. -/
theorem readRest_place (hp : Place p) (hp' : Place p') {u : Url}
    (h : readRest secure ((cs ++ p).dropWhile isSlash) = .ok u) :
    ∃ u', readRest secure ((cs ++ p').dropWhile isSlash) = .ok u' := by
  rw [readRest_ok]
  obtain ⟨host, hhost⟩ := readRest_ok.1 ⟨u, h⟩
  rw [List.dropWhile_append] at hhost ⊢
  cases hempty : (cs.dropWhile isSlash).isEmpty with
  | true =>
    -- then the first name of the place is taken for the host
    obtain ⟨name, hname, hne, halnum⟩ := hostOf_place hp'
    rw [if_pos rfl, hname]
    exact ⟨_, readHost_name hne halnum⟩
  | false =>
    rw [hempty, if_neg nofun, hostOf_append hp] at hhost
    rw [if_neg nofun, hostOf_append hp']
    exact ⟨host, hhost⟩

/-- Of two plain places behind one text, the one is an address if the other is. -/
theorem read_place {base p p' : String} (hp : Place p.toList) (hp' : Place p'.toList) {u : Url}
    (h : read (base ++ p) = .ok u) : ∃ u', read (base ++ p') = .ok u' := by
  obtain ⟨ds, hsifted⟩ := exists_sifted base.toList
  have hread : sifted (base ++ p).toList = ds ++ p.toList := by
    rw [String.toList_append]
    exact hsifted _ hp
  have hread' : sifted (base ++ p').toList = ds ++ p'.toList := by
    rw [String.toList_append]
    exact hsifted _ hp'
  have hcolon : ':' ∈ ds := by
    have hmem := colon_of_read h
    rw [hread, List.mem_append] at hmem
    exact hmem.resolve_right (hp.ne rfl (by decide))
  obtain ⟨name, rest, rfl, hname⟩ := List.eq_append_cons_of_mem hcolon
  have hbefore : ∀ c ∈ name, (c == ':') = false := by
    intro c hc
    have hne : c ≠ ':' := ne_of_mem_of_not_mem hc hname
    exact beq_eq_false_iff_ne.2 hne
  have hcut {q : String} (hq : sifted (base ++ q).toList = name ++ ':' :: rest ++ q.toList) :
      cut (· == ':') (sifted (base ++ q).toList) = (name, ':' :: (rest ++ q.toList)) := by
    rw [hq, List.append_assoc, List.cons_append]
    exact cut_append hbefore rfl
  rw [read_of_cut (hcut hread)] at h
  rw [read_of_cut (hcut hread')]
  simp only [List.isEmpty_cons, List.drop_succ_cons, List.drop_zero] at h ⊢
  split at h
  · cases h
  · rename_i hscheme
    rw [if_neg hscheme]
    split at h
    · exact readRest_place hp hp' h
    · exact readRest_place hp hp' h
    · cases h

end ChangeDesk.Http.Url
