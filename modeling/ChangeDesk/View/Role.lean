import ChangeDesk.Change

/-!
# Roles

Who pushed, wrote and committed the current revision. A role is shown only if its account is not
the owner of the change.
-/

namespace ChangeDesk

/-- A part that an account played in a revision. -/
inductive Role where
  | uploader
  | author
  | committer
deriving DecidableEq, Repr

namespace Role

def all : List Role := [.uploader, .author, .committer]

def name : Role → String
  | .uploader => "uploader"
  | .author => "author"
  | .committer => "committer"

/-- The account that played the role in a revision. -/
def account? (r : Revision) : Role → Option Account
  | .uploader => r.uploader
  | .author => r.commit.bind Commit.author
  | .committer => r.commit.bind Commit.committer

end Role

/-- The account that played a role in the current revision, if it is not the owner. -/
def Change.nonOwner? (c : Change) (role : Role) : Option Account :=
  (c.currentRevision?.bind fun r => role.account? r).filter fun a => !a.sameIdentity c.owner

/-- The style class of the row of a role: rows without an account are hidden. -/
def Change.roleClass (c : Change) (role : Role) : String :=
  if (c.nonOwner? role).isSome then "" else "hideDisplay"

end ChangeDesk
