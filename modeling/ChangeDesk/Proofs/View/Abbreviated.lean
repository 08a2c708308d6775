import ChangeDesk.View.Report

/-!
# Abbreviations

A revision is abbreviated by cutting its text at an offset in bytes, a parent of a commit by taking
characters of its text. Both give the same, whatever characters the text is made of, because the
offset is one at which a character begins.

Main statement: what the abbreviation of a revision is, and where a report shows it
(`RevisionId.short_abbreviates`).
-/

namespace ChangeDesk

namespace Report

variable {c : Change} {m : Metadata} {i : Nat} {p : Parent}

theorem parentLines_isInfix (c : Change) (m : Metadata) : parentLines m <:+: lines c m := by
  rw [lines, List.append_assoc _ (linkLines m)]
  exact ⟨_, _, rfl⟩

/-- The line of a parent comes after the heading and the lines of the parents before it. -/
theorem getElem?_parentLines (h : m.parents[i]? = some p) :
    (parentLines m)[i + 1]? = some s!"  {String.ofList (p.commit.toList.take 7)} {p.subject}" := by
  unfold parentLines
  split
  case h_1 hnone =>
    rw [hnone] at h
    cases h
  case h_2 => rw [List.getElem?_cons_succ, List.getElem?_map, h, Option.map_some]

end Report

namespace RevisionId

variable {id : RevisionId}

theorem short_eq (id : RevisionId) : id.short = String.ofList (id.text.toList.take 7) := by
  rw [← id.toList_short, String.ofList_toList]

theorem short_append (id : RevisionId) :
    id.text = id.short ++ String.ofList (id.text.toList.drop 7) := by
  rw [short_eq, ← String.ofList_append, List.take_append_drop, String.ofList_toList]

theorem length_short (id : RevisionId) : id.short.length = min 7 id.text.length := by
  rw [← String.length_toList, toList_short, List.length_take, String.length_toList]

theorem shortEnd_eq (id : RevisionId) : id.shortEnd = id.short.utf8ByteSize := by
  rw [shortEnd, Text.startOf_eq, short_eq]

theorem short_short (id : RevisionId) : (mk id.short).short = id.short := by
  rw [short_eq, short_eq, String.toList_ofList, List.take_take]
  rfl

/-- For every text of a revision: the place where it is cut lies between two characters, which makes
the abbreviation its first seven characters, or all of them if there are fewer. The abbreviation
begins the text, ends at the place and is its own abbreviation. A parent whose commit has the same
text is shown by it in every report, in the line that belongs to the parent. -/
theorem short_abbreviates (id : RevisionId) :
    (String.Pos.Raw.mk id.shortEnd).IsValid id.text ∧
    id.short.toList = id.text.toList.take (min 7 id.text.length) ∧
    id.short.length = min 7 id.text.length ∧
    (∃ rest, id.text = id.short ++ rest ∧ id.shortEnd = id.short.utf8ByteSize) ∧
    (mk id.short).short = id.short ∧
    ∀ c m, Report.parentLines m <:+: Report.lines c m ∧
      ∀ i p, m.parents[i]? = some p → p.commit = id.text →
        (Report.parentLines m)[i + 1]? = some s!"  {id.short} {p.subject}" := by
  have hfirst : id.short.toList = id.text.toList.take (min 7 id.text.length) := by
    rw [toList_short, List.take_eq_take_min, String.length_toList]
  refine ⟨id.isValid_shortEnd, hfirst, id.length_short, ⟨_, id.short_append, id.shortEnd_eq⟩,
    id.short_short, fun c m => ⟨Report.parentLines_isInfix c m, fun i p hp hcommit => ?_⟩⟩
  have hline := Report.getElem?_parentLines hp
  rwa [hcommit, ← short_eq] at hline

end RevisionId

end ChangeDesk
