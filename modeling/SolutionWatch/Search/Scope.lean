import SolutionWatch.Solution
import SolutionWatch.TextSpan

/-!
# Where a search looks

A search looks at the whole solution, at given documents, or at given ranges. Its targets are the
documents that it visits, in order, each with the ranges that its findings have to intersect.
Documents that the solution does not have are passed over, and a document that is named twice is
visited once, at its first place.
-/

namespace SolutionWatch

/-- Where a search looks. -/
inductive SearchScope where
  /-- At every source document of the solution. -/
  | everything
  /-- At these documents. -/
  | documents (ids : List DocumentId)
  /-- At what intersects these ranges. -/
  | spans (ranges : List DocumentSpan)
  deriving DecidableEq, Repr

/-- A document that a search visits. -/
structure SearchTarget where
  /-- The document. -/
  document : DocumentId
  /-- The ranges that findings have to intersect, if they are restricted. -/
  spans : Option (List TextSpan)
  deriving DecidableEq, Repr

namespace SearchTarget

/-- Whether a finding at a range belongs to the target. -/
def keeps (target : SearchTarget) (span : TextSpan) : Bool :=
  match target.spans with
  | none => true
  | some spans => spans.any fun s => s.intersects span

end SearchTarget

namespace SearchScope

/-- The documents that cascading has to stay within, if it is restricted. -/
def restriction : SearchScope → Option (List DocumentId)
  | .everything => none
  | .documents ids => some ids
  | .spans ranges => some (ranges.map DocumentSpan.document)

/-- Takes up a document, unless it was taken up before. -/
def takeUp (seen : List DocumentId) (id : DocumentId) : List DocumentId :=
  if id ∈ seen then seen else seen ++ [id]

/-- Takes up a range: into the entry of its document, or with a new entry at the end. -/
def gather : List (DocumentId × List TextSpan) → DocumentSpan → List (DocumentId × List TextSpan)
  | [], range => [(range.document, [range.span])]
  | entry :: rest, range =>
    if entry.1 = range.document then (entry.1, entry.2 ++ [range.span]) :: rest
    else entry :: gather rest range

/-- The documents that a scope names, each at its first place, in a given solution. -/
def candidates (scope : SearchScope) (solution : Solution) : List SearchTarget :=
  match scope with
  | .everything =>
    solution.allProjects.flatMap fun project => project.sources.map fun d => ⟨d.id, none⟩
  | .documents ids => (ids.foldl takeUp []).map fun d => ⟨d, none⟩
  | .spans ranges => (ranges.foldl gather []).map fun entry => ⟨entry.1, some entry.2⟩

/-- The documents that a search visits, in order. -/
def targets (scope : SearchScope) (solution : Solution) : List SearchTarget :=
  (scope.candidates solution).filter fun target => solution.containsDocument target.document

end SearchScope

end SolutionWatch
