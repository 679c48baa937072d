import SolutionWatch.Solution

/-!
# Derivations

A derivation is a step from one snapshot of a workspace to the next, as a value: what `Solution`
can do to a snapshot, with everything that it needs except the snapshot itself.
-/

namespace SolutionWatch

/-- A step from a snapshot to the next one. -/
inductive Derivation where
  /-- Nothing but the version moves on. -/
  | touch
  /-- Every project goes. -/
  | clear
  /-- A project comes, or takes the place of one. -/
  | withProject (project : Project)
  /-- A project goes. -/
  | withoutProject (id : ProjectId)
  /-- A project becomes what `update` makes of it. -/
  | updateProject (id : ProjectId) (update : Project → Project)
  /-- A document comes, or takes the place of one. -/
  | withDocument (document : Document)
  /-- A document goes. -/
  | withoutDocument (id : DocumentId)
  /-- A document gets a version. -/
  | withVersion (id : DocumentId) (version : Version)
  /-- A document is edited. -/
  | edit (id : DocumentId)

namespace Derivation

/-- Takes a step from a snapshot. -/
def apply (derivation : Derivation) (solution : Solution) : Except Failure Solution :=
  match derivation with
  | .touch => .ok solution.touched
  | .clear => .ok solution.cleared
  | .withProject project => .ok (solution.withProject project)
  | .withoutProject id => solution.withoutProject id
  | .updateProject id update => solution.updateProject id update
  | .withDocument document => solution.withDocument document
  | .withoutDocument id => solution.withoutDocument id
  | .withVersion id version => solution.withVersion id version
  | .edit id => solution.withEdit id

end Derivation

end SolutionWatch
