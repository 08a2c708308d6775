import ChangeDesk.Command.Line
import ChangeDesk.Proofs.Json.Reading

/-!
# Words for commands on profiles

Any text can be the value of an option, behind an equals sign, and after two hyphens any text can be
a position. So words can name every profile and give it any address, user name, password and token,
as long as there is a user name to the password.

Main statement: the commands on profiles for which there are words (`Command.words_iff`).
-/

namespace ChangeDesk

open Json (bind_ok)

/-- The word of an option with its value. -/
def optionWord (name value : String) : String := "--" ++ name ++ "=" ++ value

theorem Word.ofText_optionWord {name : String} (h : '=' ∉ name.toList) (value : String) :
    Word.ofText (optionWord name value) = .option name (some value) := by
  have hword : (optionWord name value).toList =
      '-' :: '-' :: (name.toList ++ '=' :: value.toList) := by
    simp [optionWord, String.toList_append]
  have hname : ∀ c ∈ name.toList, (c != '=') = true := by
    intro c hc
    have hne : c ≠ '=' := by
      intro heq
      rw [heq] at hc
      exact h hc
    simpa using hne
  rw [Word.ofText, hword]
  split
  · rename_i heq
    simp at heq
  · rename_i cs _ heq
    obtain rfl : name.toList ++ '=' :: value.toList = cs := by simpa using heq
    rw [List.takeWhile_append_of_pos hname, List.dropWhile_append_of_pos hname]
    simp
  · rename_i hletter heq
    exact absurd (List.cons.inj (List.cons.inj heq).2).1.symm hletter
  · rename_i hdashes _
    exact absurd rfl (hdashes _)

namespace Matching

variable {σ : Type}

/-- An option of any text, if it is given. -/
theorem meetAll_text (ps : Parameters σ) (name : String) (s s' : σ) (value : Option String)
    {get : σ → Option String} {set : String → σ → σ} (hname : '=' ∉ name.toList)
    (known : ps.options.find? (·.name == name) = some (.text name get set)) (absent : get s = none)
    (taken : value.elim s (fun v => set v s) = s') (free : List (Parameter σ)) (ws : List String) :
    meetAll ps true ⟨s, none, free⟩ ((value.map (optionWord name)).toList ++ ws) =
      meetAll ps true ⟨s', none, free⟩ ws := by
  cases value with
  | none =>
    obtain rfl : s = s' := taken
    rfl
  | some v =>
    obtain rfl : set v s = s' := taken
    have htake : (Parameter.text name get set).take (some v) s = .ok (set v s) := by
      simp [Parameter.take, Parameter.text, absent]
    have hmeet : (⟨s, none, free⟩ : Matching σ).meet (.text name get set) (some v) =
        .ok ⟨set v s, none, free⟩ := by
      unfold meet
      simp only [Parameter.text, settle]
      exact bind_ok.2 ⟨s, rfl, bind_ok.2 ⟨set v s, htake, rfl⟩⟩
    simp only [Option.map_some, Option.toList_some, List.singleton_append, meetAll,
      Word.ofText_optionWord hname, meetOption, known, hmeet]
    rfl

end Matching

namespace ProfileCommand

def words : ProfileCommand → List String
  | .set name p =>
    "profile" :: "set" :: optionWord "profile" name ::
      ((p.username.map (optionWord "username")).toList ++
        ((p.httpPassword.map (optionWord "http-password")).toList ++
          ((p.token.map (optionWord "token")).toList ++ ["--", p.baseUrl])))
  | .describe name => ["profile", "show", optionWord "profile" name]
  | .list => ["profile", "list"]

/-- There is a user name to a password that is set. -/
def Paired : ProfileCommand → Prop
  | .set _ p => p.httpPassword.isSome = true → p.username.isSome = true
  | _ => True

end ProfileCommand

open Matching (meetAll_text)

namespace ProfileArguments

theorem setParameters_read (name : String) (p : Profile) :
    setParameters.read default ((ProfileCommand.set name p).words.drop 2) =
      .ok ⟨some p.baseUrl, some name, p.username, p.httpPassword, p.token⟩ := by
  have hprofile := meetAll_text setParameters "profile" default
    ⟨none, some name, none, none, none⟩ (some name) (by decide) rfl rfl rfl setParameters.positions
  have husername := meetAll_text setParameters "username" ⟨none, some name, none, none, none⟩
    ⟨none, some name, p.username, none, none⟩ p.username (by decide) rfl rfl
    (by cases p.username <;> rfl) setParameters.positions
  have hpassword := meetAll_text setParameters "http-password"
    ⟨none, some name, p.username, none, none⟩ ⟨none, some name, p.username, p.httpPassword, none⟩
    p.httpPassword (by decide) rfl rfl (by cases p.httpPassword <;> rfl) setParameters.positions
  have htoken := meetAll_text setParameters "token"
    ⟨none, some name, p.username, p.httpPassword, none⟩
    ⟨none, some name, p.username, p.httpPassword, p.token⟩ p.token (by decide) rfl rfl
    (by cases p.token <;> rfl) setParameters.positions
  -- each option starts from what those before it have left
  exact (hprofile _).trans ((husername _).trans ((hpassword _).trans ((htoken _).trans rfl)))

theorem showParameters_read (name : String) :
    showParameters.read default [optionWord "profile" name] =
      .ok ⟨none, some name, none, none, none⟩ :=
  meetAll_text showParameters "profile" default _ (some name) (by decide) rfl rfl rfl [] []

theorem setCommand_of_paired (name : String) {p : Profile}
    (h : (ProfileCommand.set name p).Paired) :
    setCommand ⟨some p.baseUrl, some name, p.username, p.httpPassword, p.token⟩ =
      .ok (.profiles (.set name p)) := by
  obtain ⟨baseUrl, username, password, token⟩ := p
  cases password with
  | none => rfl
  | some password =>
    cases username with
    | none => cases h rfl
    | some username => rfl

theorem paired_of_setCommand {a : ProfileArguments} {c : ProfileCommand}
    (h : a.setCommand = .ok (.profiles c)) : c.Paired := by
  obtain ⟨baseUrl, -, h⟩ := bind_ok.1 h
  split at h
  · obtain ⟨username, husername, h⟩ := bind_ok.1 h
    cases h
    intro _
    show a.username.isSome = true
    cases hnone : a.username with
    | none =>
      rw [hnone] at husername
      cases husername
    | some _ => rfl
  · rename_i hpassword
    cases h
    exact fun h => absurd h hpassword

end ProfileArguments

namespace Command

theorem ofWords_set (ws : List String) : ofWords ("profile" :: "set" :: ws) =
    (ProfileArguments.setParameters.read default ws >>= ProfileArguments.setCommand) := rfl

theorem ofWords_describe (ws : List String) : ofWords ("profile" :: "show" :: ws) =
    (ProfileArguments.showParameters.read default ws >>= fun a =>
      .ok (.profiles (.describe a.name))) := rfl

theorem ofWords_words {c : ProfileCommand} (h : c.Paired) : ofWords c.words = .ok (.profiles c) := by
  cases c with
  | set name p =>
    have hread := ProfileArguments.setParameters_read name p
    exact (ofWords_set _).trans (bind_ok.2 ⟨_, hread, ProfileArguments.setCommand_of_paired name h⟩)
  | describe name =>
    exact (ofWords_describe _).trans (bind_ok.2 ⟨_, ProfileArguments.showParameters_read name, rfl⟩)
  | list => rfl

theorem command_ne_profiles (a : EditArguments) (edit : FieldEdit) (c : ProfileCommand) :
    a.command edit ≠ .ok (.profiles c) := by
  intro h
  obtain ⟨n, -, h⟩ := bind_ok.1 h
  cases h

theorem paired_of_ofProfileWords {ws : List String} {c : ProfileCommand}
    (h : ofProfileWords ws = .ok (.profiles c)) : c.Paired := by
  obtain ⟨chosen, -, h⟩ := bind_ok.1 h
  split at h
  · obtain ⟨a, -, h⟩ := bind_ok.1 h
    exact ProfileArguments.paired_of_setCommand h
  · obtain ⟨a, -, h⟩ := bind_ok.1 h
    cases h
    trivial
  · obtain ⟨a, -, h⟩ := bind_ok.1 h
    cases h
    trivial
  · cases h

theorem paired_of_ofWords {words : List String} {c : ProfileCommand}
    (h : ofWords words = .ok (.profiles c)) : c.Paired := by
  obtain ⟨chosen, -, h⟩ := bind_ok.1 h
  split at h
  · obtain ⟨a, -, h⟩ := bind_ok.1 h
    obtain ⟨source, -, h⟩ := bind_ok.1 h
    cases h
  · obtain ⟨a, -, h⟩ := bind_ok.1 h
    obtain ⟨value, -, h⟩ := bind_ok.1 h
    exact absurd h (command_ne_profiles _ _ _)
  · obtain ⟨a, -, h⟩ := bind_ok.1 h
    obtain ⟨value, -, h⟩ := bind_ok.1 h
    exact absurd h (command_ne_profiles _ _ _)
  · obtain ⟨a, -, h⟩ := bind_ok.1 h
    obtain ⟨value, -, h⟩ := bind_ok.1 h
    exact absurd h (command_ne_profiles _ _ _)
  · exact paired_of_ofProfileWords h
  · cases h

/-- There are words for a command on profiles if and only if it sets no password without a user
name. -/
theorem words_iff (c : ProfileCommand) :
    (∃ words, ofWords words = .ok (.profiles c)) ↔ c.Paired := by
  constructor
  · intro h
    obtain ⟨words, hwords⟩ := h
    exact paired_of_ofWords hwords
  · intro h
    exact ⟨c.words, ofWords_words h⟩

end Command

end ChangeDesk
