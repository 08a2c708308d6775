import ChangeDesk.Proofs.Document.Kinds

/-!
# Documents are read back

A value of any kind of document is read back from its compact form, also with blanks in front of
it, and with the guard after them.

Main statement: the round trip of every kind (`DocumentKind.decode_encode`).
-/

namespace ChangeDesk

namespace Json

open Text (isBlank trimStart)

theorem Value.Opens.not_blank {c : Char} (h : Value.Opens c) : isBlank c = false ∧ c ≠ ')' := by
  rcases h with h | h
  · simp only [List.mem_cons, List.not_mem_nil, or_false] at h
    rcases h with rfl | rfl | rfl | rfl | rfl | rfl <;> decide
  · refine ⟨?_, Numeral.ne_of_start h (by decide) rfl⟩
    rcases h with rfl | h
    · decide
    · have hrange : 48 ≤ c.toNat ∧ c.toNat ≤ 57 := by
        simpa [Char.isDigit, UInt32.le_iff_toNat_le] using h
      simp [isBlank]
      omega

namespace Document

theorem payload_opens {c : Char} (h : Value.Opens c) (cs : List Char) :
    payload (c :: cs) = c :: cs := by
  obtain ⟨hblank, hguard⟩ := h.not_blank
  rw [payload, Text.trimStart_cons hblank]
  split
  · rename_i heq
    rw [List.cons.injEq] at heq
    exact absurd heq.1 hguard
  · rfl

/-- A written value is its own payload. -/
theorem payload_compact (v : Value) (r : List Char) :
    payload (v.compact ++ r) = v.compact ++ r := by
  obtain ⟨c, cs, hcs, hc⟩ := v.compact_cons
  rw [hcs, List.cons_append, payload_opens hc]

theorem payload_guarded {bs : List Char} (hb : ∀ c ∈ bs, isBlank c = true) (cs : List Char) :
    payload (bs ++ (guardChars ++ cs)) = cs := by
  rw [payload_blank hb, payload_guard]

end Document

/-! ### Space around a value -/

variable {α : Type} {c : Codec α} {depth : Nat}

/-- What a lawful codec writes is read back from a text that holds only space besides. -/
theorem Codec.Lawful.readWhole_write (hc : c.Lawful depth) (hd : depth < Document.levels)
    {sp r : List Char} (hs : Space sp) (hr : Space r) (a : α) :
    Document.readWhole (c.read Document.levels) (sp ++ ((c.write a).compact ++ r)) = .ok a := by
  have hnode := Node.read_compact hs (c.write a) hr.delimits
  rw [Document.readWhole, hnode]
  show (c.read Document.levels (c.write a).node >>= fun a =>
    if (skipSpace r).isEmpty then return a else .error .trailingText) = _
  rw [hc.read_write _ hd, skipSpace_space hr]
  rfl

/-- Blanks in front of a document do not count, with the guard after them or without. -/
theorem Codec.Lawful.decode_blanks (hc : c.Lawful depth) (hd : depth < Document.levels)
    {blanks : String} (hb : Text.allBlank blanks = true) (a : α) :
    Document.decode c (blanks ++ Document.encode c a) = .ok a ∧
    Document.decode c (blanks ++ (String.ofList Document.guardChars ++ "\n" ++
      Document.encode c a)) = .ok a := by
  have hall : ∀ c ∈ blanks.toList, isBlank c = true := List.all_eq_true.1 hb
  have htext : (Document.encode c a).toList = (c.write a).compact := String.toList_ofList
  have hline : Space ['\n'] := by simp [Space, isSpace]
  constructor
  · have hpayload := Document.payload_compact (c.write a) []
    rw [List.append_nil] at hpayload
    have hread := hc.readWhole_write hd space_nil space_nil a
    rw [List.nil_append, List.append_nil] at hread
    rw [Document.decode, String.toList_append, Document.payload_blank hall, htext, hpayload]
    exact hread
  · have hread := hc.readWhole_write hd hline space_nil a
    rw [List.append_nil] at hread
    have hguard : (String.ofList Document.guardChars ++ "\n" ++ Document.encode c a).toList =
        Document.guardChars ++ (['\n'] ++ (c.write a).compact) := by
      rw [String.toList_append, String.toList_append, String.toList_ofList, htext,
        List.append_assoc]
      rfl
    rw [Document.decode, String.toList_append, hguard, Document.payload_guarded hall]
    exact hread

end Json

namespace DocumentKind

open Json.Document in
/-- A value of any kind is read back from its document, with any blanks in front of it, and with
the guard on a line of its own between them. -/
theorem decode_encode (k : DocumentKind) (a : k.Content) {blanks : String}
    (hb : Text.allBlank blanks = true) :
    decode k.codec (encode k.codec a) = .ok a ∧
    decode k.codec (blanks ++ encode k.codec a) = .ok a ∧
    decode k.codec (blanks ++ (")]\x7d'\n" ++ encode k.codec a)) = .ok a := by
  obtain ⟨depth, hdepth, hc⟩ := k.codec_lawful
  have hd : depth < levels := Nat.lt_of_le_of_lt hdepth (by decide)
  have hempty : Text.allBlank "" = true := rfl
  have hplain := (hc.decode_blanks hd hempty a).1
  rw [String.empty_append] at hplain
  obtain ⟨hblank, hguard⟩ := hc.decode_blanks hd hb a
  exact ⟨hplain, hblank, hguard⟩

open Json.Document in
/-- A label with a vote, after an ideographic space and a line feed. -/
theorem decode_encode_label :
    let vote : Approval := ⟨.withEmail "\u0001\"é\\", some (-2147483648)⟩
    let label : Label := ⟨[vote], 2147483647, [" 0", "+1"], none, some .blank, some false⟩
    Text.allBlank "\u3000\n" = true ∧
    decode Label.codec ("\u3000\n" ++ (")]\x7d'\n" ++ encode Label.codec label)) = .ok label := by
  intro vote label
  have hb : Text.allBlank "\u3000\n" = true := by decide
  exact ⟨hb, (decode_encode .label label hb).2.2⟩

end DocumentKind

end ChangeDesk
