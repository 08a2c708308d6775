import ChangeDesk.Profile
import ChangeDesk.Proofs.Toml.Sections

/-!
# Stored profiles are read back

The configuration text of profiles has one section for each, in which only the texts stand that
are known.

Main statement: profiles that are written are read back (`Profiles.ofText?_toText`).
-/

namespace ChangeDesk

namespace Profile

/-- The texts that stand in the section of a profile. -/
def texts (p : Profile) : List (String × String) := (p.toSection defaultName).texts

theorem nodup_texts (p : Profile) : (p.texts.map (·.1)).Nodup := by
  obtain ⟨baseUrl, username, httpPassword, token⟩ := p
  cases username <;> cases httpPassword <;> cases token <;> simp [texts, toSection]

theorem ofItem?_textTable (p : Profile) : ofItem? (Toml.textTable p.texts) = some p := by
  obtain ⟨baseUrl, username, httpPassword, token⟩ := p
  cases username <;> cases httpPassword <;> cases token <;> rfl

end Profile

namespace Profiles

/-- The sections of profiles, as tables of texts. -/
def tables (entries : List (String × Profile)) : Toml.TextTables :=
  entries.map fun e => (e.1, e.2.texts)

theorem distinct_tables (ps : Profiles) : Toml.Distinct (tables ps.entries) := by
  constructor
  · rw [tables, List.map_map]
    apply List.Pairwise.map _ _ ps.sorted
    intro a b hlt heq
    rw [show a.1 = b.1 from heq] at hlt
    exact String.lt_irrefl _ hlt
  · intro e hmem
    obtain ⟨x, -, rfl⟩ := List.mem_map.1 hmem
    exact x.2.nodup_texts

theorem mapM_ofItem? (entries : List (String × Profile)) :
    ((tables entries).map fun e => (e.1, Toml.textTable e.2)).mapM
      (fun e => (Profile.ofItem? e.2).map fun p => (e.1, p)) = some entries := by
  induction entries with
  | nil => rfl
  | cons e entries ih =>
    have hrest : tables (e :: entries) = (e.1, e.2.texts) :: tables entries := rfl
    rw [hrest, List.map_cons, List.mapM_cons, Profile.ofItem?_textTable, ih]
    rfl

/-- Profiles that are written are read back. -/
theorem ofText?_toText (ps : Profiles) : ofText? (some ps.toText) = some ps := by
  have hread := Toml.read_write_tables "profiles" (distinct_tables ps)
  rw [tables, List.map_map] at hread
  have hwritten : Toml.read ps.toText = some (Toml.grouped "profiles" (tables ps.entries)) := hread
  simp only [ofText?, hwritten, Option.bind_eq_bind, Option.bind_some]
  rw [Toml.grouped]
  cases hentries : ps.entries with
  | nil =>
    have hempty : ps = .empty := Dict.ext_get? fun x => by rw [Dict.get?, hentries]; rfl
    rw [hempty]
    rfl
  | cons e entries =>
    have hmapM := mapM_ofItem? (e :: entries)
    have hofList : Dict.ofList (e :: entries) = ps := by rw [← hentries, Dict.ofList_entries]
    rw [if_neg (by simp [tables]), Dict.lookup_cons_eq, if_pos rfl]
    dsimp only
    rw [hmapM]
    show some (Dict.ofList (e :: entries)) = some ps
    rw [hofList]

end Profiles

end ChangeDesk
