import ChangeDesk.Dict
import ChangeDesk.Http.Client
import ChangeDesk.Toml.Printer
import ChangeDesk.Toml.Reader

/-!
# Profiles

A profile says where a review server is and how to identify oneself to it. Profiles have names and
are kept in one configuration text.

Main statement: setting a profile gives its name the new one and leaves the others alone
(`Profiles.get?_set`).
-/

namespace ChangeDesk

/-- A server and what is known to identify by. -/
structure Profile where
  baseUrl : String
  username : Option String
  httpPassword : Option String
  token : Option String
deriving DecidableEq, Repr, Inhabited

namespace Profile

/-- The name of the profile that is meant where none is named. -/
def defaultName : String := "default"

/-- What a client of the server identifies itself by: a token, else a user name and a password
where both are known. -/
def credentials (p : Profile) : Option Http.Credentials :=
  match p.token, p.username, p.httpPassword with
  | some token, _, _ => some (.bearer token)
  | none, some username, some password => some (.basic username password)
  | none, _, _ => none

/-- A client of the server. -/
def client (p : Profile) : Http.Client := .ofAddress p.baseUrl p.credentials

/-- The words for the kind of identification, in which nothing secret appears. -/
def authentication (p : Profile) : String :=
  if p.token.isSome then "bearer token"
  else if p.httpPassword.isSome then "http password"
  else "anonymous"

/-- The lines that show a profile. -/
def lines (name : String) (p : Profile) : List String :=
  [s!"Profile:  {name}", s!"Base URL: {p.baseUrl}"] ++
    (p.username.map fun u => s!"Username: {u}").toList ++ [s!"Auth:     {p.authentication}"]

/-- The text at a key, if there is one; anything else there is a fault. -/
def textAt (ms : Toml.Members) (key : String) : Option (Option String) :=
  match ms.lookup key with
  | none => some none
  | some (.text s) => some (some s)
  | some _ => none

/-- The texts of a list, if all its items are texts. -/
def textsOf : List Toml.Item → Option (List String)
  | [] => some []
  | .text s :: items => (s :: ·) <$> textsOf items
  | _ :: _ => none

/-- The profile in a configuration: a table, in which unknown keys do not count, or a list of the
values in their order. -/
def ofItem? : Toml.Item → Option Profile
  | .table _ ms => do
    let baseUrl ← ← textAt ms "base_url"
    let username ← textAt ms "username"
    let httpPassword ← textAt ms "http_password"
    let token ← textAt ms "token"
    return ⟨baseUrl, username, httpPassword, token⟩
  | .list items => do
    match ← textsOf (items.take 4) with
    | [] => none
    | baseUrl :: others => some ⟨baseUrl, others[0]?, others[1]?, others[2]?⟩
  | _ => none

/-- The section of a profile in a configuration. -/
def toSection (name : String) (p : Profile) : Toml.Section where
  path := ["profiles", name]
  texts :=
    [("base_url", p.baseUrl)] ++ (p.username.map fun s => ("username", s)).toList ++
      (p.httpPassword.map fun s => ("http_password", s)).toList ++
      (p.token.map fun s => ("token", s)).toList

end Profile

/-- The profiles by their names. -/
abbrev Profiles : Type := Dict Profile

namespace Profiles

/-- The profiles in a configuration text. No text holds none; other keys than theirs do not
count. -/
def ofText? : Option String → Option Profiles
  | none => some .empty
  | some s => do
    let ms ← Toml.read s
    match ms.lookup "profiles" with
    | none => some .empty
    | some (.table _ entries) =>
      Dict.ofList <$> entries.mapM fun e => (Profile.ofItem? e.2).map fun p => (e.1, p)
    | some _ => none

/-- The configuration text of profiles. -/
def toText (ps : Profiles) : String :=
  Toml.write (ps.entries.map fun e => e.2.toSection e.1)

/-- Creates a profile or replaces it. -/
def set (ps : Profiles) (name : String) (p : Profile) : Profiles := ps.insert name p

theorem get?_set (ps : Profiles) (name : String) (p : Profile) (x : String) :
    (ps.set name p).get? x = if x = name then some p else ps.get? x := Dict.get?_insert ps name p x

end Profiles

end ChangeDesk
