import SolutionWatch.Reasons
import SolutionWatch.Solution

/-!
# Work items

A work item asks for one part of a solution to be looked at again: a scope, the reasons, and the
snapshot in which to look. Work items with one scope and one set of reasons are the same when their
snapshots have the same fingerprint, whatever the versions of those snapshots.
-/

namespace SolutionWatch

/-- The part of a solution that a work item is about. -/
inductive Scope where
  /-- Everything. -/
  | solution
  /-- One project with all its documents. -/
  | project (id : ProjectId)
  /-- One document. -/
  | document (id : DocumentId)
  deriving DecidableEq, Repr

/-- A request to look at one part of a solution again. -/
structure WorkItem where
  /-- The part to look at. -/
  scope : Scope
  /-- Why to look at it. -/
  reasons : Reasons
  /-- The snapshot to look in. -/
  solution : Solution
  deriving DecidableEq, Repr

namespace Scope

/-- The written form of a scope. -/
def text : Scope → String
  | .solution => "solution"
  | .project id => id.text
  | .document id => id.text

/-- The written form of a scope with its structure spelled out. -/
def outline : Scope → String
  | .solution => "WholeSolution"
  | .project id => "Project(ProjectId(" ++ decimal id.raw.toNat ++ "))"
  | .document id =>
    "Document(DocumentId \x7b project: ProjectId(" ++ decimal id.project.raw.toNat ++
      "), index: " ++ decimal id.index.toNat ++ " \x7d)"

end Scope

namespace WorkItem

/-- Whether two items ask for the same work. -/
def same (a b : WorkItem) : Bool :=
  a.scope == b.scope && a.reasons == b.reasons &&
    decide (a.solution.fingerprint = b.solution.fingerprint)

/-- The written form of an item with its structure spelled out. -/
def outline (item : WorkItem) : String :=
  "WorkItem \x7b scope: " ++ item.scope.outline ++ ", reasons: " ++ item.reasons.text ++
    ", solution_version: " ++ decimal item.solution.version ++ " \x7d"

end WorkItem

end SolutionWatch
