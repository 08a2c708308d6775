import ChangeDesk.Proofs.Command.Gate
import ChangeDesk.Proofs.Profile.Stored
import ChangeDesk.Proofs.Profile.Words
import ChangeDesk.Proofs.Text.ByteOrder

/-!
# Histories of the stored profiles

The program is called again and again, and between two calls nothing is left of it but the text of
the profiles. Each call reads the whole text, and one that sets a profile writes it anew. Yet the
text is a map: under each name stands what was last set there, whole, or else what stood there at
the beginning, and a call that fails changes nothing.

Main statements: what one call makes of profiles that are stored (`Invocation.holds_after`), and
what calls print after any history (`Invocation.profiles_kept`).
-/

namespace ChangeDesk

/-- The text of the profiles as a call finds it. -/
abbrev ProfileText : Type := Except FileFault (Option String)

/-- One call of the program: its words, and what it finds besides the profiles. -/
structure Invocation where
  words : List String
  file : String → Except FileFault String
  replies : Http.Replies

namespace Invocation

/-- How the program ends. -/
def ending (i : Invocation) (stored : ProfileText) : Ending :=
  match Command.ofWords i.words with
  | .error fault => .misused fault.message
  | .ok command => .ofResult ((command.run ⟨stored, i.file⟩).converse i.replies).2

/-- The text of the profiles after the call. -/
def after (i : Invocation) (stored : ProfileText) : ProfileText :=
  match (i.ending stored).stored with
  | some text => .ok (some text)
  | none => stored

def run (stored : ProfileText) (history : List Invocation) : ProfileText :=
  history.foldl (fun stored i => i.after stored) stored

def Gives (i : Invocation) (command : ProfileCommand) : Prop :=
  Command.ofWords i.words = .ok (.profiles command)

/-- What the call sets, and under which name. -/
def set? (i : Invocation) : Option (String × Profile) :=
  match Command.ofWords i.words with
  | .ok (.profiles (.set name p)) => some (name, p)
  | _ => none

/-- What was last set under a name. -/
def lastSet? (name : String) : List Invocation → Option Profile
  | [] => none
  | i :: history =>
    (lastSet? name history).or ((i.set?.filter fun e => e.1 = name).map (·.2))

/-- The profiles are stored. -/
def Holds (stored : ProfileText) (ps : Profiles) : Prop :=
  ∃ text, stored = .ok text ∧ Profiles.ofText? text = some ps

variable {stored : ProfileText} {ps : Profiles} {i : Invocation}

/-! ### Commands on the profiles -/

theorem ending_of_gives {command : ProfileCommand} (h : i.Gives command) :
    i.ending stored = .ofResult
      ((⟨stored, i.file⟩ : Surroundings).storedProfiles >>= fun ps => command.run ps) := by
  rw [ending, h]
  rfl

theorem Holds.storedProfiles (h : Holds stored ps) (file : String → Except FileFault String) :
    (⟨stored, file⟩ : Surroundings).storedProfiles = .ok ps := by
  obtain ⟨text, rfl, hread⟩ := h
  exact Surroundings.storedProfiles_of_read rfl hread

theorem holds_of_storedProfiles {file : String → Except FileFault String}
    (h : (⟨stored, file⟩ : Surroundings).storedProfiles = .ok ps) : Holds stored ps := by
  cases stored with
  | error f => cases h
  | ok text =>
    refine ⟨text, rfl, ?_⟩
    rw [Surroundings.storedProfiles] at h
    dsimp only at h
    cases hread : Profiles.ofText? text with
    | none =>
      rw [hread] at h
      cases h
    | some ps' =>
      rw [hread] at h
      rw [Except.ok.inj h]

theorem Holds.ending (h : Holds stored ps) {command : ProfileCommand} (gives : i.Gives command) :
    i.ending stored = .ofResult (command.run ps) := by
  rw [ending_of_gives gives, h.storedProfiles]
  rfl

theorem ending_of_not_holds (h : ∀ ps, ¬ Holds stored ps) {command : ProfileCommand}
    (gives : i.Gives command) : ∃ fault, i.ending stored = .ofResult (.error fault) := by
  rw [ending_of_gives gives]
  cases hread : (⟨stored, i.file⟩ : Surroundings).storedProfiles with
  | error fault => exact ⟨fault, rfl⟩
  | ok ps => exact absurd (holds_of_storedProfiles hread) (h ps)

/-- Calls can give every command on the profiles that sets no password without a user name. -/
theorem gives_iff (command : ProfileCommand) :
    (∃ i : Invocation, i.Gives command) ↔ command.Paired := by
  rw [← Command.words_iff]
  constructor
  · intro h
    obtain ⟨i, hgives⟩ := h
    exact ⟨i.words, hgives⟩
  · intro h
    obtain ⟨words, hwords⟩ := h
    exact ⟨⟨words, fun _ => .error .missing, fun _ _ => .error .unreachable⟩, hwords⟩

/-! ### Commands that store nothing -/

theorem stored_of_runEdit (s : Surroundings) (n : ChangeNumber) (edit : FieldEdit)
    (profile : String) (replies : Http.Replies) :
    (Ending.ofResult ((Command.runEdit s n edit profile).converse replies).2).stored = none := by
  unfold Command.runEdit
  cases edit.normal with
  | error fault => rfl
  | ok sent =>
    cases s.client profile with
    | error fault => rfl
    | ok client =>
      dsimp only
      rw [Dialogue.converse_bind]
      cases ((client.openSession n).converse replies).2 with
      | error fault => rfl
      | ok session =>
        dsimp only
        cases sent.refusal? n session with
        | some fault => rfl
        | none =>
          dsimp only
          rw [Dialogue.converse_bind]
          generalize (Dialogue.converse _ (client.run (sent.apply n session))).2 = applied
          cases applied <;> rfl

theorem stored_of_view (s : Surroundings) (source : ChangeSource) (options : ViewOptions)
    (asDocument : Bool) (replies : Http.Replies) :
    (Ending.ofResult ((Command.run s (.view source options asDocument)).converse
      replies).2).stored = none := by
  rw [Command.run, Dialogue.converse_bind]
  cases ((source.load s).converse replies).2 with
  | error fault => rfl
  | ok shown => rfl

theorem stored_of_profiles (s : Surroundings) {command : ProfileCommand}
    (other : ∀ name p, command ≠ .set name p) (replies : Http.Replies) :
    (Ending.ofResult ((Command.run s (.profiles command)).converse replies).2).stored = none := by
  show (Ending.ofResult (s.storedProfiles >>= fun ps => command.run ps)).stored = none
  cases s.storedProfiles with
  | error fault => rfl
  | ok ps =>
    show (Ending.ofResult (command.run ps)).stored = none
    cases command with
    | set name p => exact absurd rfl (other name p)
    | describe name =>
      rw [ProfileCommand.run]
      cases ps.get? name <;> rfl
    | list =>
      rw [ProfileCommand.run]
      cases ps.isEmpty <;> rfl

theorem after_of_set?_none (h : i.set? = none) (stored : ProfileText) :
    i.after stored = stored := by
  have hnone : (i.ending stored).stored = none := by
    unfold ending
    unfold set? at h
    cases hwords : Command.ofWords i.words with
    | error fault => rfl
    | ok command =>
      cases command with
      | view source options asDocument => exact stored_of_view _ source options asDocument _
      | edit n edit profile => exact stored_of_runEdit _ n edit profile _
      | profiles command =>
        apply stored_of_profiles
        rintro name p rfl
        rw [hwords] at h
        cases h
  rw [after, hnone]

theorem gives_of_set? {name : String} {p : Profile} (h : i.set? = some (name, p)) :
    i.Gives (.set name p) := by
  unfold set? at h
  split at h
  · rename_i hwords
    cases h
    exact hwords
  · cases h

/-! ### One call and many -/

theorem Holds.after_set (h : Holds stored ps) {name : String} {p : Profile}
    (gives : i.Gives (.set name p)) :
    (i.ending stored).code = 0 ∧ Holds (i.after stored) (ps.set name p) := by
  have hending : i.ending stored =
      ⟨0, (Outcome.printed [s!"Saved profile '{name}'"]).text, "", some (ps.set name p).toText⟩ :=
    h.ending gives
  rw [after, hending]
  exact ⟨rfl, _, rfl, Profiles.ofText?_toText _⟩

/-- One call where profiles are stored: a profile that it sets is set, and nothing else happens to
them. -/
theorem Holds.after (h : Holds stored ps) (i : Invocation) :
    Holds (i.after stored) (i.set?.elim ps fun e => ps.set e.1 e.2) := by
  cases hset : i.set? with
  | none =>
    rw [after_of_set?_none hset]
    exact h
  | some e => exact (h.after_set (gives_of_set? hset)).2

/-- Many calls: under each name stands what was set last, or else what stood there. -/
theorem Holds.run (h : Holds stored ps) (history : List Invocation) :
    ∃ ps', Holds (run stored history) ps' ∧
      ∀ name, ps'.get? name = (lastSet? name history).or (ps.get? name) := by
  induction history generalizing stored ps with
  | nil => exact ⟨ps, h, fun name => rfl⟩
  | cons i history ih =>
    obtain ⟨ps', hholds, hget⟩ := ih (h.after i)
    refine ⟨ps', hholds, ?_⟩
    intro name
    -- the first call counts only under names that no later call sets
    rw [hget, lastSet?, Option.or_assoc]
    congr 1
    cases i.set? with
    | none => rfl
    | some e =>
      rw [Option.elim_some, Profiles.get?_set, Option.filter_some]
      by_cases hname : e.1 = name
      · simp [hname]
      · simp [hname, Ne.symm hname]

/-! ### What calls show -/

/-- The end of a call that shows a profile, or the want of one. -/
def shown (name : String) : Option Profile → Ending
  | some p => ⟨0, (Outcome.printed (p.lines name)).text, "", none⟩
  | none => ⟨1, "", (CommandFault.noSuchProfile name).text ++ "\n", none⟩

/-- The end of a call that lists profiles. -/
def listed (entries : List (String × Profile)) : Ending :=
  let lines := entries.map fun e => e.1 ++ "\t" ++ e.2.baseUrl
  ⟨0, (Outcome.printed (if lines = [] then ["No profiles configured"] else lines)).text, "", none⟩

/-- Calls show the profiles as a map: each by itself, and all that are known, once and in the order
of their names by bytes. -/
structure Shows (stored : ProfileText) (known : String → Option Profile) : Prop where
  describe : ∀ (i : Invocation) (name : String), i.Gives (.describe name) →
    i.ending stored = shown name (known name)
  list : ∃ entries : List (String × Profile),
    entries.Pairwise (fun a b => Text.bytes a.1 < Text.bytes b.1) ∧
    (∀ name p, (name, p) ∈ entries ↔ known name = some p) ∧
    ∀ i : Invocation, i.Gives .list → i.ending stored = listed entries

theorem Holds.shows (h : Holds stored ps) : Shows stored ps.get? where
  describe := by
    intro i name gives
    rw [h.ending gives, ProfileCommand.run]
    cases ps.get? name <;> rfl
  list := by
    refine ⟨ps.entries, ps.sorted.imp Text.bytes_lt, ps.mem_entries_iff, ?_⟩
    intro i gives
    rw [h.ending gives, ProfileCommand.run, Dict.isEmpty, listed]
    cases ps.entries <;> rfl

theorem after_of_code (i : Invocation) (stored : ProfileText) (h : (i.ending stored).code ≠ 0) :
    i.after stored = stored := by
  have hnone : (i.ending stored).stored = none := by
    revert h
    unfold ending
    cases Command.ofWords i.words with
    | error fault => exact fun _ => rfl
    | ok command =>
      dsimp only
      generalize ((command.run ⟨stored, i.file⟩).converse i.replies).2 = result
      cases result with
      | error fault => exact fun _ => rfl
      | ok outcome => exact fun h => absurd rfl h
  rw [after, hnone]

end Invocation

end ChangeDesk
