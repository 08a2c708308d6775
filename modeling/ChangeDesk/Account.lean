import ChangeDesk.Identifier
import ChangeDesk.Json.Record

/-!
# Accounts

An account of the review server, or the bare identity of a commit's author, who often has a name
and an email only.
-/

namespace ChangeDesk

/-- An account, or the identity in a commit. -/
structure Account where
  id : Option AccountId
  email : Option String
  name : Option String
  username : Option String
deriving DecidableEq, Repr, Inhabited

namespace Account

/-- The account of which nothing is known. -/
def blank : Account := ⟨none, none, none, none⟩

def withId (id : AccountId) : Account := { blank with id := some id }

def withEmail (email : String) : Account := { blank with email := some email }

def withUsername (username : String) : Account := { blank with username := some username }

/-- Numbers decide where both accounts have one; otherwise the emails must agree, and two missing
emails do. -/
def sameIdentity (a b : Account) : Bool :=
  match a.id, b.id with
  | some i, some j => i == j
  | _, _ => a.email == b.email

/-- What to call an account: its name, else its email, else its number. -/
def displayName (a : Account) : String :=
  match a.name, a.email, a.id with
  | some name, _, _ => name
  | none, some email, _ => email
  | none, none, some id => s!"account {id.text}"
  | none, none, none => "anonymous"

theorem sameIdentity_comm (a b : Account) : a.sameIdentity b = b.sameIdentity a := by
  unfold sameIdentity
  cases a.id <;> cases b.id <;> simp only [Bool.beq_comm]

theorem sameIdentity_self (a : Account) : a.sameIdentity a = true := by
  unfold sameIdentity
  cases a.id <;> simp

/-- The account that a person names on a command line: a number if the text is one, an email if
there is an at sign in it, else a user name. -/
def ofReference (reference : String) : Account :=
  match AccountId.ofText reference with
  | .ok id => withId id
  | .error _ =>
    if reference.toList.contains '@' then withEmail reference else withUsername reference

/-- The text by which the server is told of an account: its number, else its email, else its user
name. -/
def reference? (a : Account) : Option String :=
  match a.id with
  | some id => some id.text
  | none => a.email <|> a.username

/-- The members of an account in a document. -/
def record : Json.Record Account where
  name := "Account"
  blank := blank
  fields :=
    [.optional "_account_id" AccountId.codec Account.id fun v a => { a with id := v },
     .optional "email" Json.Codec.text Account.email fun v a => { a with email := v },
     .optional "name" Json.Codec.text Account.name fun v a => { a with name := v },
     .optional "username" Json.Codec.text Account.username fun v a => { a with username := v }]

def codec : Json.Codec Account := record.codec

end Account

end ChangeDesk
