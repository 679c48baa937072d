import SolutionWatch.Project

/-!
# Kinds of change

A change concerns a whole solution, a project, or a document of one of the three document kinds.
Changes of projects and documents name the project; only changes of source documents name the
document as well, because the other documents are read by the whole project.
-/

namespace SolutionWatch

/-- What can happen to a whole solution. -/
inductive SolutionAction where
  | changed
  | added
  | removed
  | cleared
  | reloaded
  deriving DecidableEq, Repr

/-- What can happen to a project or a document. -/
inductive EntityAction where
  | added
  | removed
  | changed
  | reloaded
  deriving DecidableEq, Repr

/-- What a change is about and what happened to it. -/
inductive ChangeKind where
  /-- Something happened to the solution as a whole. -/
  | solution (action : SolutionAction)
  /-- Something happened to a project. -/
  | project (action : EntityAction)
  /-- Something happened to a document of the given kind. -/
  | document (kind : DocumentKind) (action : EntityAction)
  deriving DecidableEq, Repr

/-- The written form of what happened to a solution. -/
def SolutionAction.text : SolutionAction → String
  | .changed => "Changed"
  | .added => "Added"
  | .removed => "Removed"
  | .cleared => "Cleared"
  | .reloaded => "Reloaded"

/-- The written form of what happened to a project or a document. -/
def EntityAction.text : EntityAction → String
  | .added => "Added"
  | .removed => "Removed"
  | .changed => "Changed"
  | .reloaded => "Reloaded"

namespace ChangeKind

/-- Whether a change of this kind has to name a project. -/
def needsProject : ChangeKind → Bool
  | .solution _ => false
  | .project _ => true
  | .document _ _ => true

/-- Whether a change of this kind has to name a document. -/
def needsDocument : ChangeKind → Bool
  | .document .source _ => true
  | _ => false

/-- The written form of a kind of change. -/
def text : ChangeKind → String
  | .solution action => "Solution" ++ action.text
  | .project action => "Project" ++ action.text
  | .document .source action => "Document" ++ action.text
  | .document .additional action => "AdditionalDocument" ++ action.text
  | .document .analyzerConfig action => "AnalyzerConfigDocument" ++ action.text

/-- What can happen to a solution, in the order of the written list of kinds. -/
def solutionActions : List SolutionAction := [.changed, .added, .removed, .cleared, .reloaded]

/-- What can happen to a project or a document. -/
def entityActions : List EntityAction := [.added, .removed, .reloaded, .changed]

/-- Every kind of change, each once. -/
def all : List ChangeKind :=
  solutionActions.map .solution ++ entityActions.map .project ++
    entityActions.map (.document .source) ++ entityActions.map (.document .additional) ++
    entityActions.map (.document .analyzerConfig)

/-- The kind of change with the given written form. -/
def ofText? (text : String) : Option ChangeKind := all.find? fun kind => kind.text = text

/-- Every kind of change is listed. -/
theorem mem_all (kind : ChangeKind) : kind ∈ all := by
  rcases kind with a | a | ⟨k, a⟩
  · cases a <;> decide
  · cases a <;> decide
  · cases k <;> cases a <;> decide

end ChangeKind

end SolutionWatch
