import SolutionWatch.Solution

/-!
# Events

An event is what a workspace tells its observers: that it moved from one snapshot to the next, or
that a document was opened or closed. An event can only be made if it carries what its kind needs:
both snapshots of a change belong to one workspace, and the change names the project and the
document that it is about. An opened or closed document exists in the event's snapshot.
-/

namespace SolutionWatch

/-- A move of a workspace from one snapshot to the next. -/
structure Change where
  /-- What the change is about and what happened. -/
  kind : ChangeKind
  /-- The snapshot before the change. -/
  old : Solution
  /-- The snapshot after the change. -/
  new : Solution
  /-- The project that the change is about, if it is about one. -/
  project : Option ProjectId
  /-- The document that the change is about, if it is about one. -/
  document : Option DocumentId
  /-- Whether both snapshots are one object. -/
  sharing : Solution.Sharing old new
  /-- Both snapshots belong to one workspace. -/
  sameWorkspace : old.workspace = new.workspace
  /-- The project is named if the kind needs it. -/
  projectGiven : kind.needsProject = true → project.isSome = true
  /-- The document is named if the kind needs it. -/
  documentGiven : kind.needsDocument = true → document.isSome = true

namespace Change

/-- Makes a change. The owner of a named document stands in for a project that is not named. -/
def make (kind : ChangeKind) (old new : Solution) (project : Option ProjectId)
    (document : Option DocumentId) (sharing : Solution.Sharing old new) : Except Failure Change :=
  if sameWorkspace : old.workspace = new.workspace then
    if projectGiven : kind.needsProject = true →
        (project.or (document.map DocumentId.project)).isSome = true then
      if documentGiven : kind.needsDocument = true → document.isSome = true then
        .ok { kind := kind, old := old, new := new
              project := project.or (document.map DocumentId.project), document := document
              sharing := sharing
              sameWorkspace := sameWorkspace, projectGiven := projectGiven
              documentGiven := documentGiven }
      else .error (.missingDocumentId kind)
    else .error (.missingProjectId kind)
  else .error (.workspaceMismatch old.workspace new.workspace)

/-- The project of a change whose kind needs one. -/
def projectId (change : Change) (h : change.kind.needsProject = true) : ProjectId :=
  change.project.get (change.projectGiven h)

/-- The document of a change whose kind needs one. -/
def documentId (change : Change) (h : change.kind.needsDocument = true) : DocumentId :=
  change.document.get (change.documentGiven h)

end Change

/-- A document in a given snapshot that was opened or closed. -/
structure DocumentEvent where
  /-- The snapshot. -/
  solution : Solution
  /-- The document. -/
  document : DocumentId
  /-- The document exists in the snapshot. -/
  known : solution.containsDocument document = true

/-- Names a document of a snapshot. -/
def DocumentEvent.make (solution : Solution) (document : DocumentId) :
    Except Failure DocumentEvent :=
  if known : solution.containsDocument document = true then
    .ok ⟨solution, document, known⟩
  else .error (.documentNotFound document)

/-- What a workspace tells its observers. -/
inductive Event where
  /-- The workspace moved to another snapshot. -/
  | changed (change : Change)
  /-- A document was opened. -/
  | opened (event : DocumentEvent)
  /-- A document was closed. -/
  | closed (event : DocumentEvent)

namespace Event

/-- The snapshot that an event was raised against; for a change it is the old one. -/
def solution : Event → Solution
  | .changed change => change.old
  | .opened event => event.solution
  | .closed event => event.solution

/-- The workspace that raised an event. -/
def workspace (event : Event) : WorkspaceId := event.solution.workspace

end Event

end SolutionWatch
