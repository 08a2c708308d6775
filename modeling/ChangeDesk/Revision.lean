import ChangeDesk.Certificate
import ChangeDesk.Commit

/-!
# Revisions

A revision of a change, also called a patch set: who pushed it and the commit that was pushed.
-/

namespace ChangeDesk

/-- A revision of a change. -/
structure Revision where
  number : UInt32
  uploader : Option Account
  commit : Option Commit
  certificate : Option Certificate
  ref : Option String
deriving DecidableEq, Repr, Inhabited

namespace Revision

/-- The parents of the revision's commit, if it carries a list of them. -/
def parents? (r : Revision) : Option (List Parent) := r.commit.bind Commit.parents

/-- The members of a revision in a document. -/
def record : Json.Record Revision where
  name := "Revision"
  blank := ⟨0, none, none, none, none⟩
  fields :=
    [.plain "_number" Json.Codec.uint32 Revision.number fun v r => { r with number := v },
     .optional "uploader" Account.codec Revision.uploader fun v r => { r with uploader := v },
     .optional "commit" Commit.codec Revision.commit fun v r => { r with commit := v },
     .optional "push_certificate" Certificate.codec Revision.certificate
        fun v r => { r with certificate := v },
     .optional "ref" Json.Codec.text Revision.ref fun v r => { r with ref := v }]

def codec : Json.Codec Revision := record.codec

end Revision

end ChangeDesk
