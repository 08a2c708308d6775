import ChangeDesk.Dict

/-!
# The order of texts and of their bytes

The entries of a dictionary ascend by code points. Their keys ascend by the bytes of their encoding
as well: a character with a larger number has a larger byte at the first place where the encodings
differ, and none is the beginning of another.

Main statement: texts are ordered as their bytes are (`Text.bytes_lt_bytes`).
-/

namespace ChangeDesk

namespace Text

def bytes (s : String) : List UInt8 := s.toUTF8.data.toList

theorem bytes_eq (s : String) : bytes s = s.toList.flatMap String.utf8EncodeChar := by
  rw [bytes, String.toUTF8, ← String.utf8Encode_toList, List.utf8Encode, List.data_toByteArray]

/-- At the first place where two lists differ both have an item, and that of the first is less. -/
def Diverges : List UInt8 → List UInt8 → Prop
  | x :: xs, y :: ys => x < y ∨ (x = y ∧ Diverges xs ys)
  | _, _ => False

theorem Diverges.append_lt {xs ys : List UInt8} (h : Diverges xs ys) (us vs : List UInt8) :
    xs ++ us < ys ++ vs := by
  induction xs generalizing ys with
  | nil => cases h
  | cons x xs ih =>
    cases ys with
    | nil => cases h
    | cons y ys =>
      rw [List.cons_append, List.cons_append, List.cons_lt_cons_iff]
      obtain hlt | ⟨heq, hrest⟩ := h
      · exact .inl hlt
      · exact .inr ⟨heq, ih hrest⟩

theorem diverges_ofNat {m n : Nat} {xs ys : List UInt8} (hm : m < 256) (hn : n < 256) :
    Diverges (UInt8.ofNat m :: xs) (UInt8.ofNat n :: ys) ↔ m < n ∨ (m = n ∧ Diverges xs ys) := by
  rw [Diverges, UInt8.lt_iff_toNat_lt, ← UInt8.toNat_inj, UInt8.toNat_ofNat', UInt8.toNat_ofNat',
    Nat.mod_eq_of_lt hm, Nat.mod_eq_of_lt hn]

/-- Encodings are compared number by number, and the more bytes there are, the larger is the
first. -/
theorem diverges_encode {c d : Char} (h : c < d) :
    Diverges (String.utf8EncodeChar c) (String.utf8EncodeChar d) := by
  have hlt : c.val.toNat < d.val.toNat := UInt32.lt_iff_toNat_lt.1 (Char.lt_def.1 h)
  have hbound : d.val.toNat < 0x110000 := by
    have hvalid := d.valid
    simp only [UInt32.isValidChar, Nat.isValidChar] at hvalid
    omega
  unfold String.utf8EncodeChar
  generalize c.val.toNat = v at hlt
  generalize d.val.toNat = w at hlt hbound
  have hdigits : ∀ n, n / 64 / 64 = n / 4096 ∧ n / 4096 / 64 = n / 262144 := by
    intro n
    omega
  have hv := hdigits v
  have hw := hdigits w
  have hlead : v / 262144 % 8 = v / 262144 ∧ w / 262144 % 8 = w / 262144 := by omega
  dsimp only
  -- one case for each number of bytes on either side
  repeat' split
  all_goals
    simp (disch := omega) only [diverges_ofNat]
    omega

theorem encode_ne_nil (c : Char) : String.utf8EncodeChar c ≠ [] := by
  unfold String.utf8EncodeChar
  dsimp only
  repeat' split
  all_goals nofun

theorem encoded_lt {cs ds : List Char} (h : cs < ds) :
    cs.flatMap String.utf8EncodeChar < ds.flatMap String.utf8EncodeChar := by
  induction cs generalizing ds with
  | nil =>
    cases ds with
    | nil => cases h
    | cons d ds =>
      rw [List.flatMap_nil, List.flatMap_cons]
      cases hencode : String.utf8EncodeChar d with
      | nil => exact absurd hencode (encode_ne_nil d)
      | cons x xs => exact List.nil_lt_cons x _
  | cons c cs ih =>
    cases ds with
    | nil => cases h
    | cons d ds =>
      rw [List.flatMap_cons, List.flatMap_cons]
      obtain hlt | ⟨rfl, hrest⟩ := List.cons_lt_cons_iff.1 h
      · exact (diverges_encode hlt).append_lt _ _
      · exact List.append_left_lt (ih hrest)

theorem bytes_lt {s t : String} (h : s < t) : bytes s < bytes t := by
  rw [bytes_eq, bytes_eq]
  exact encoded_lt (String.lt_iff.1 h)

/-- Texts are ordered as their bytes are. -/
theorem bytes_lt_bytes {s t : String} : bytes s < bytes t ↔ s < t := by
  constructor
  · intro h
    by_cases hst : s < t
    · exact hst
    · by_cases hts : t < s
      · exact absurd h (List.lt_asymm (bytes_lt hts))
      · have heq : s = t := String.le_antisymm (String.not_lt.1 hts) (String.not_lt.1 hst)
        rw [heq] at h
        exact absurd h (List.lt_irrefl _)
  · exact bytes_lt

end Text

end ChangeDesk
