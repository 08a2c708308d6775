import ChangeDesk.Change

/-!
# Parents

The parents to show: those of the selected revision if its commit lists them, otherwise those of
the change's current revision. A lineage holds a change and a selected revision, and its parents
follow every replacement of either.
-/

namespace ChangeDesk

/-- The parents to show for a change and a selected revision. -/
def shownParents (change : Option Change) (selected : Option Revision) : List Parent :=
  match selected.bind Revision.parents? with
  | some parents => parents
  | none => ((change.bind Change.currentRevision?).bind Revision.parents?).getD []

/-- The heading of a list of parents. -/
def parentsLabel (parents : List Parent) : String :=
  if parents.length = 1 then "Parent" else "Parents"

/-- The style class of a list of parents. -/
def parentsClass (parents : List Parent) (current : Bool) : String :=
  let kind := if 1 < parents.length then "merge" else "nonMerge"
  let place := if current then "current" else "notCurrent"
  s!"parentList {kind} {place}"

/-- A change and the revision of it that is selected. -/
structure Lineage where
  change : Option Change
  selected : Option Revision
deriving DecidableEq

namespace Lineage

/-- The lineage of a change with nothing selected. -/
def ofChange (change : Option Change) : Lineage := ⟨change, none⟩

def setChange (l : Lineage) (change : Option Change) : Lineage := { l with change := change }

def select (l : Lineage) (revision : Option Revision) : Lineage := { l with selected := revision }

/-- Selects the revision of the change that has the key, or none. -/
def selectKey (l : Lineage) (id : RevisionId) : Lineage :=
  l.select (l.change.bind fun c => c.revision? id)

/-- The parents to show. -/
def parents (l : Lineage) : List Parent := shownParents l.change l.selected

end Lineage

end ChangeDesk
