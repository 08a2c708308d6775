import ChangeDesk.Account
import ChangeDesk.WebLink

/-!
# Commits

What the server tells of a commit: who wrote it, its parents, its message and its links. The list
of parents may be missing, which is not the same as there being none.
-/

namespace ChangeDesk

/-- A parent of a commit. -/
structure Parent where
  commit : String
  subject : String
deriving DecidableEq, Repr, Inhabited

/-- The members of a parent in a document. -/
def Parent.record : Json.Record Parent where
  name := "ParentCommit"
  blank := ⟨"", ""⟩
  fields :=
    [.needed "commit" Json.Codec.text Parent.commit fun v p => { p with commit := v },
     .plain "subject" Json.Codec.text Parent.subject fun v p => { p with subject := v }]

def Parent.codec : Json.Codec Parent := record.codec

/-- A commit. -/
structure Commit where
  commit : Option String
  author : Option Account
  committer : Option Account
  parents : Option (List Parent)
  subject : String
  message : Option String
  webLinks : List WebLink
deriving DecidableEq, Repr, Inhabited

namespace Commit

/-- The members of a commit in a document. -/
def record : Json.Record Commit where
  name := "CommitInfo"
  blank := ⟨none, none, none, none, "", none, []⟩
  fields :=
    [.optional "commit" Json.Codec.text Commit.commit fun v c => { c with commit := v },
     .optional "author" Account.codec Commit.author fun v c => { c with author := v },
     .optional "committer" Account.codec Commit.committer fun v c => { c with committer := v },
     .optional "parents" Parent.codec.list Commit.parents fun v c => { c with parents := v },
     .plain "subject" Json.Codec.text Commit.subject fun v c => { c with subject := v },
     .optional "message" Json.Codec.text Commit.message fun v c => { c with message := v },
     .nonempty "web_links" WebLink.codec Commit.webLinks fun v c => { c with webLinks := v }]

def codec : Json.Codec Commit := record.codec

end Commit

end ChangeDesk
