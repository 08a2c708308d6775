import Mathlib.Data.List.Forall2
import ChangeDesk.Proofs.Profile.History

/-!
# Nothing secret is shown

A profile may have a password and a token. The program looks at both to say how one identifies
oneself, and it writes both into the text of the profiles; but what it prints depends on no more
than whether they are there. So profiles that differ in the contents of secrets alone are shown and
listed alike, and to set such profiles prints the same.

The secrets of a profile are veiled by leaving them empty. Profiles are alike if they are the same
once they are veiled; what is printed of profiles is printed of the veiled ones.

Main statements: texts that differ in secrets alone hold profiles that are alike
(`Profiles.map_veiled_ofText?`), and what calls print of them is the same
(`Invocation.secrets_concealed`).
-/

namespace ChangeDesk

theorem Dict.lookup_map {α β : Type} (f : String → α → β) (es : List (String × α)) (x : String) :
    (es.map fun e => (e.1, f e.1 e.2)).lookup x = (es.lookup x).map (f x) := by
  induction es with
  | nil => rfl
  | cons e es ih =>
    rw [List.map_cons, lookup_cons_eq, lookup_cons_eq, ih]
    by_cases hx : x = e.1
    · rw [if_pos hx, if_pos hx, hx, Option.map_some]
    · rw [if_neg hx, if_neg hx]

namespace Profile

/-- The profile with its secrets left empty. That they are there remains. -/
def veiled (p : Profile) : Profile :=
  { p with httpPassword := p.httpPassword.map fun _ => "", token := p.token.map fun _ => "" }

theorem authentication_veiled (p : Profile) : p.veiled.authentication = p.authentication := by
  rw [authentication, authentication, veiled, Option.isSome_map, Option.isSome_map]

theorem lines_veiled (name : String) (p : Profile) : p.veiled.lines name = p.lines name := by
  rw [lines, lines, authentication_veiled]
  rfl

end Profile

namespace Profiles

/-- The profiles with their secrets left empty. -/
def veiled (ps : Profiles) : Profiles where
  entries := ps.entries.map fun e => (e.1, e.2.veiled)
  sorted := ps.sorted.map _ fun _ _ h => h

theorem get?_veiled (ps : Profiles) (name : String) :
    ps.veiled.get? name = (ps.get? name).map Profile.veiled :=
  Dict.lookup_map (fun _ => Profile.veiled) ps.entries name

theorem isEmpty_veiled (ps : Profiles) : ps.veiled.isEmpty = ps.isEmpty :=
  List.isEmpty_map

theorem veiled_set (ps : Profiles) (name : String) (p : Profile) :
    (ps.set name p).veiled = ps.veiled.set name p.veiled := by
  refine Dict.ext_get? fun x => ?_
  rw [get?_veiled, get?_set, get?_set, get?_veiled]
  by_cases hx : x = name
  · rw [if_pos hx, if_pos hx, Option.map_some]
  · rw [if_neg hx, if_neg hx]

theorem veiled_ofList (es : List (String × Profile)) :
    Profiles.veiled (Dict.ofList es) = Dict.ofList (es.map fun e => (e.1, e.2.veiled)) := by
  -- the entries are set one after the other, so what is set already is not fixed
  have hset : ∀ ps : Profiles, veiled (es.foldl (fun d e => d.insert e.1 e.2) ps) =
      es.foldl (fun d e => d.insert e.1 e.2.veiled) ps.veiled := by
    induction es with
    | nil => exact fun _ => rfl
    | cons e es ih =>
      intro ps
      rw [List.foldl_cons, List.foldl_cons, ih]
      congr 1
      exact veiled_set ps e.1 e.2
  rw [Dict.ofList, Dict.ofList, List.foldl_map]
  exact hset .empty

end Profiles

/-! ### Texts that differ in secrets alone -/

namespace Profile

/-- A text left empty; what is no text is no secret. -/
def veiledText : Toml.Item → Toml.Item
  | .text _ => .text ""
  | item => item

/-- What a profile has at a key, left empty if the key is that of a secret. -/
def veiledAt (key : String) (item : Toml.Item) : Toml.Item :=
  if key = "http_password" ∨ key = "token" then veiledText item else item

/-- The profile in a configuration with its secrets left empty. In a list they are the third and the
fourth item. -/
def veiledItem : Toml.Item → Toml.Item
  | .table origin ms => .table origin (ms.map fun m => (m.1, veiledAt m.1 m.2))
  | .list items => .list (items.take 2 ++ (items.drop 2).map veiledText)
  | item => item

theorem textAt_veiled (ms : Toml.Members) (key : String) :
    textAt (ms.map fun m => (m.1, veiledAt m.1 m.2)) key =
      if key = "http_password" ∨ key = "token" then (textAt ms key).map (Option.map fun _ => "")
      else textAt ms key := by
  rw [textAt, textAt, Dict.lookup_map veiledAt]
  unfold veiledAt
  by_cases hkey : key = "http_password" ∨ key = "token"
  · rw [if_pos hkey]
    simp only [if_pos hkey]
    cases ms.lookup key with
    | none => rfl
    | some item => cases item <;> rfl
  · rw [if_neg hkey]
    simp only [if_neg hkey, Option.map_id']

theorem textsOf_veiled (items : List Toml.Item) :
    textsOf (items.map veiledText) = (textsOf items).map (List.map fun _ => "") := by
  induction items with
  | nil => rfl
  | cons item items ih =>
    cases item with
    | text s =>
      rw [List.map_cons, veiledText, textsOf, textsOf, ih]
      cases textsOf items <;> rfl
    | scalar => rfl
    | list => rfl
    | table => rfl
    | tables => rfl

/-- A profile is read with its secrets left empty where they were left empty in its configuration,
and none is read where none was. -/
theorem ofItem?_veiled (item : Toml.Item) :
    ofItem? (veiledItem item) = (ofItem? item).map veiled := by
  cases item with
  | text => rfl
  | scalar => rfl
  | tables => rfl
  | table origin ms =>
    rw [veiledItem, ofItem?, ofItem?]
    simp only [textAt_veiled]
    cases textAt ms "base_url" with
    | none => rfl
    | some baseUrl =>
      cases textAt ms "username" with
      | none => cases baseUrl <;> rfl
      | some username =>
        cases textAt ms "http_password" with
        | none => cases baseUrl <;> rfl
        | some httpPassword =>
          cases textAt ms "token" <;> cases baseUrl <;> rfl
  | list items =>
    rcases items with _ | ⟨baseUrl, _ | ⟨username, secrets⟩⟩
    · rfl
    · cases baseUrl <;> rfl
    · have hread := textsOf_veiled (secrets.take 2)
      rw [List.map_take] at hread
      cases baseUrl with
      | text baseUrl =>
        cases username with
        | text username =>
          simp only [veiledItem, ofItem?, List.take_succ_cons, List.take_zero, List.drop_succ_cons,
            List.drop_zero, List.cons_append, List.nil_append, textsOf, hread]
          cases textsOf (secrets.take 2) with
          | none => rfl
          | some texts =>
            show some (Profile.mk baseUrl (some username) (texts.map fun _ => "")[0]?
              (texts.map fun _ => "")[1]?) = _
            rw [List.getElem?_map, List.getElem?_map]
            rfl
        | _ => rfl
      | _ => rfl

end Profile

namespace Profiles

/-- What a configuration has at a key, with the secrets of the profiles left empty. -/
def veiledAt (key : String) (item : Toml.Item) : Toml.Item :=
  if key = "profiles" then
    match item with
    | .table origin es => .table origin (es.map fun e => (e.1, Profile.veiledItem e.2))
    | item => item
  else item

/-- A configuration with the secrets of its profiles left empty. -/
def veiledMembers (ms : Toml.Members) : Toml.Members := ms.map fun m => (m.1, veiledAt m.1 m.2)

/-- The profiles in a configuration. -/
def ofMembers? (ms : Toml.Members) : Option Profiles :=
  match ms.lookup "profiles" with
  | none => some .empty
  | some (.table _ es) =>
    Dict.ofList <$> es.mapM fun e => (Profile.ofItem? e.2).map fun p => (e.1, p)
  | some _ => none

theorem ofText?_of_read {s : String} {ms : Toml.Members} (h : Toml.read s = some ms) :
    ofText? (some s) = ofMembers? ms := by
  rw [ofText?, h]
  rfl

theorem mapM_veiled (es : List (String × Toml.Item)) :
    (es.map fun e => (e.1, Profile.veiledItem e.2)).mapM
        (fun e => (Profile.ofItem? e.2).map fun p => (e.1, p)) =
      (es.mapM fun e => (Profile.ofItem? e.2).map fun p => (e.1, p)).map
        (List.map fun e => (e.1, e.2.veiled)) := by
  induction es with
  | nil => rfl
  | cons e es ih =>
    rw [List.map_cons, List.mapM_cons, List.mapM_cons, ih, Profile.ofItem?_veiled]
    cases Profile.ofItem? e.2 with
    | none => rfl
    | some p =>
      generalize es.mapM (fun e => (Profile.ofItem? e.2).map fun p => (e.1, p)) = rest
      cases rest <;> rfl

theorem ofMembers?_veiled (ms : Toml.Members) :
    ofMembers? (veiledMembers ms) = (ofMembers? ms).map veiled := by
  rw [ofMembers?, ofMembers?, veiledMembers, Dict.lookup_map veiledAt]
  cases ms.lookup "profiles" with
  | none => rfl
  | some item =>
    cases item with
    | table origin es =>
      show Dict.ofList <$> (es.map fun e => (e.1, Profile.veiledItem e.2)).mapM
        (fun e => (Profile.ofItem? e.2).map fun p => (e.1, p)) = _
      rw [mapM_veiled]
      dsimp only
      generalize es.mapM (fun e => (Profile.ofItem? e.2).map fun p => (e.1, p)) = read
      cases read with
      | none => rfl
      | some entries => exact congrArg some (veiled_ofList entries).symm
    | _ => rfl

/-- Two texts that say the same but for the contents of secrets: profiles are read from both or from
neither, and they are alike. -/
theorem map_veiled_ofText? {s s' : String} {ms ms' : Toml.Members} (h : Toml.read s = some ms)
    (h' : Toml.read s' = some ms') (same : veiledMembers ms = veiledMembers ms') :
    (ofText? (some s)).map veiled = (ofText? (some s')).map veiled := by
  rw [ofText?_of_read h, ofText?_of_read h', ← ofMembers?_veiled, ← ofMembers?_veiled, same]

end Profiles

/-! ### What calls print -/

namespace ProfileCommand

/-- The command with the secrets that it sets left empty. -/
def veiled : ProfileCommand → ProfileCommand
  | .set name p => .set name p.veiled
  | .describe name => .describe name
  | .list => .list

theorem lines_run_veiled (ps : Profiles) (command : ProfileCommand) :
    (command.veiled.run ps.veiled).map Outcome.lines = (command.run ps).map Outcome.lines := by
  cases command with
  | set name p => rfl
  | describe name =>
    rw [veiled, run, run, Profiles.get?_veiled]
    cases ps.get? name with
    | none => rfl
    | some p => exact congrArg Except.ok (p.lines_veiled name)
  | list =>
    rw [veiled, run, run, Profiles.isEmpty_veiled]
    cases ps.isEmpty with
    | true => rfl
    | false =>
      simp only [Bool.false_eq_true, if_false, Profiles.veiled, List.map_map]
      rfl

theorem lines_run_alike {ps ps' : Profiles} {command command' : ProfileCommand}
    (alike : ps.veiled = ps'.veiled) (same : command.veiled = command'.veiled) :
    (command.run ps).map Outcome.lines = (command'.run ps').map Outcome.lines :=
  calc (command.run ps).map Outcome.lines
      = (command.veiled.run ps.veiled).map Outcome.lines := (lines_run_veiled ps command).symm
    _ = (command'.veiled.run ps'.veiled).map Outcome.lines := by rw [alike, same]
    _ = (command'.run ps').map Outcome.lines := lines_run_veiled ps' command'

end ProfileCommand

/-- The end of a command as it is seen: without what is stored. -/
def Ending.seen (e : Ending) : Ending := { e with stored := none }

theorem Ending.seen_eq {e : Ending} (h : e.stored = none) : e.seen = e := by
  rw [seen, ← h]

theorem Ending.seen_ofResult {r r' : Except CommandFault Outcome}
    (h : r.map Outcome.lines = r'.map Outcome.lines) :
    (Ending.ofResult r).seen = (Ending.ofResult r').seen := by
  cases r with
  | error fault =>
    cases r' with
    | error fault' => rw [Except.error.inj h]
    | ok outcome' => cases h
  | ok outcome =>
    cases r' with
    | error fault' => cases h
    | ok outcome' =>
      have hlines : outcome.lines = outcome'.lines := Except.ok.inj h
      rw [ofResult, ofResult, seen, seen, Outcome.text, Outcome.text, hlines]

namespace ProfileCommand

/-- The profiles after a command. -/
def applied (ps : Profiles) : ProfileCommand → Profiles
  | .set name p => ps.set name p
  | _ => ps

theorem veiled_applied (ps : Profiles) (command : ProfileCommand) :
    (command.applied ps).veiled = command.veiled.applied ps.veiled := by
  cases command with
  | set name p => exact ps.veiled_set name p
  | describe name => rfl
  | list => rfl

end ProfileCommand

namespace Invocation

/-- Both calls give the same command, except that they may set different secrets. -/
def Same (i i' : Invocation) : Prop :=
  ∃ command command', i.Gives command ∧ i'.Gives command' ∧ command.veiled = command'.veiled

/-- In both places profiles are stored, and they are alike. -/
def Alike (stored stored' : ProfileText) : Prop :=
  ∃ ps ps', Holds stored ps ∧ Holds stored' ps' ∧ ps.veiled = ps'.veiled

variable {stored stored' : ProfileText} {ps : Profiles} {i i' : Invocation}
  {command : ProfileCommand} {history history' : List Invocation}

theorem Holds.applied (h : Holds stored ps) (gives : i.Gives command) :
    Holds (i.after stored) (command.applied ps) := by
  have hafter := h.after i
  rw [set?, gives] at hafter
  cases command with
  | set name p => exact hafter
  | describe name => exact hafter
  | list => exact hafter

/-- One call in each of two places where alike profiles are stored: what is seen is the same, and
the profiles are alike still. -/
theorem Alike.step (h : Alike stored stored') (same : i.Same i') :
    (i.ending stored).seen = (i'.ending stored').seen ∧
      Alike (i.after stored) (i'.after stored') := by
  obtain ⟨ps, ps', hholds, hholds', alike⟩ := h
  obtain ⟨command, command', hgives, hgives', hsame⟩ := same
  constructor
  · rw [hholds.ending hgives, hholds'.ending hgives']
    exact Ending.seen_ofResult (ProfileCommand.lines_run_alike alike hsame)
  · refine ⟨_, _, hholds.applied hgives, hholds'.applied hgives', ?_⟩
    rw [ProfileCommand.veiled_applied, ProfileCommand.veiled_applied, alike, hsame]

theorem Alike.run (h : Alike stored stored') (same : List.Forall₂ Same history history') :
    Alike (run stored history) (run stored' history') := by
  -- each call finds what the calls before it left, and that is alike
  induction same generalizing stored stored' with
  | nil => exact h
  | cons hcall _ ih => exact ih (h.step hcall).2

/-- Whatever is stored, also if it is not read: what is seen of two commands that set a profile is
the same if the profiles differ in secrets alone. -/
theorem seen_of_set {name : String} {p p' : Profile} (gives : i.Gives (.set name p))
    (gives' : i'.Gives (.set name p')) (alike : p.veiled = p'.veiled) (stored : ProfileText) :
    (i.ending stored).seen = (i'.ending stored).seen := by
  have hsame : i.Same i' :=
    ⟨_, _, gives, gives', by rw [ProfileCommand.veiled, ProfileCommand.veiled, alike]⟩
  by_cases hholds : ∃ ps, Holds stored ps
  · obtain ⟨ps, hps⟩ := hholds
    exact (Alike.step ⟨ps, ps, hps, hps, rfl⟩ hsame).1
  · rw [ending_of_gives gives, ending_of_gives gives']
    cases hread : (⟨stored, i.file⟩ : Surroundings).storedProfiles with
    | ok ps => exact absurd ⟨ps, holds_of_storedProfiles hread⟩ hholds
    | error fault =>
      have hread' : (⟨stored, i'.file⟩ : Surroundings).storedProfiles = .error fault := hread
      rw [hread']
      rfl

theorem stored_of_other (gives : i.Gives command) (other : ∀ name p, command ≠ .set name p)
    (stored : ProfileText) : (i.ending stored).stored = none := by
  rw [ending_of_gives gives]
  exact stored_of_profiles ⟨stored, i.file⟩ other i.replies

theorem after_of_other (gives : i.Gives command) (other : ∀ name p, command ≠ .set name p)
    (stored : ProfileText) : i.after stored = stored := by
  rw [after, stored_of_other gives other]

/-- Nothing that is printed tells a secret. Take two texts of profiles that are read and differ in
nothing but the contents of passwords and tokens that both have. Each call that shows a profile, or
the want of one, or lists the profiles, ends in the same way with both: with the same code, output
and report; and it leaves both texts as they were. Two calls that set a profile and differ in
nothing but the contents of its secrets are the same to see, whatever the text of the profiles is.
The same goes for each call of two series of calls on the profiles, if they differ in secrets
alone. -/
theorem secrets_concealed {text text' : Option String} {ps ps' : Profiles}
    (loads : Profiles.ofText? text = some ps) (loads' : Profiles.ofText? text' = some ps')
    (alike : ps.veiled = ps'.veiled) :
    (∀ (i i' : Invocation) (command : ProfileCommand), i.Gives command → i'.Gives command →
      (∀ name p, command ≠ .set name p) →
        i.ending (.ok text) = i'.ending (.ok text') ∧
        i.after (.ok text) = .ok text ∧ i'.after (.ok text') = .ok text') ∧
    (∀ (i i' : Invocation) (name : String) (p p' : Profile), i.Gives (.set name p) →
      i'.Gives (.set name p') → p.veiled = p'.veiled →
        ∀ stored, (i.ending stored).seen = (i'.ending stored).seen) ∧
    (∀ history history' : List Invocation, List.Forall₂ Same history history' →
      ∀ i i' : Invocation, i.Same i' →
        (i.ending (run (.ok text) history)).seen = (i'.ending (run (.ok text') history')).seen) := by
  have halike : Alike (.ok text) (.ok text') :=
    ⟨ps, ps', ⟨text, rfl, loads⟩, ⟨text', rfl, loads'⟩, alike⟩
  refine ⟨?_, ?_, ?_⟩
  · intro i i' command gives gives' other
    have hseen := (halike.step ⟨command, command, gives, gives', rfl⟩).1
    rw [Ending.seen_eq (stored_of_other gives other _),
      Ending.seen_eq (stored_of_other gives' other _)] at hseen
    exact ⟨hseen, after_of_other gives other _, after_of_other gives' other _⟩
  · intro i i' name p p' gives gives' hp stored
    exact seen_of_set gives gives' hp stored
  · intro history history' same i i' hcall
    exact ((halike.run same).step hcall).1

/-- Two profiles whose passwords differ are shown alike. -/
theorem secrets_concealed_password :
    let call : Invocation :=
      ⟨["profile", "show"], fun _ => .error .missing, fun _ _ => .error .unreachable⟩
    let kept (password : String) : Profiles :=
      Dict.empty.insert "default" ⟨"https://r", some "ann", some password, none⟩
    (kept "p").veiled = (kept "q\"").veiled ∧ kept "p" ≠ kept "q\"" ∧
    call.Gives (.describe "default") ∧
    call.ending (.ok (some (kept "p").toText)) = call.ending (.ok (some (kept "q\"").toText)) := by
  intro call kept
  have hveiled : (kept "p").veiled = (kept "q\"").veiled := rfl
  have hne : kept "p" ≠ kept "q\"" := by decide
  have hgives : call.Gives (.describe "default") := rfl
  have hconcealed := secrets_concealed (Profiles.ofText?_toText (kept "p"))
    (Profiles.ofText?_toText (kept "q\"")) hveiled
  exact ⟨hveiled, hne, hgives,
    (hconcealed.1 call call (.describe "default") hgives hgives (by nofun)).1⟩

end Invocation

end ChangeDesk
