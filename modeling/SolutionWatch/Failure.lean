import SolutionWatch.ChangeKind
import SolutionWatch.Content

/-!
# Failures

Every operation that can fail says why by a `Failure`. Being cancelled is one of them, but it is an
outcome that callers ask for: nothing went wrong.
-/

namespace SolutionWatch

/-- Why an operation failed. -/
inductive Failure where
  /-- Two snapshots do not belong to the same workspace. -/
  | workspaceMismatch (old new : WorkspaceId)
  /-- A change of this kind has to name a project and does not. -/
  | missingProjectId (kind : ChangeKind)
  /-- A change of this kind has to name a document and does not. -/
  | missingDocumentId (kind : ChangeKind)
  /-- The solution has no such project. -/
  | projectNotFound (id : ProjectId)
  /-- The solution has no such document. -/
  | documentNotFound (id : DocumentId)
  /-- The solution has such a project already. -/
  | projectAlreadyExists (id : ProjectId)
  /-- An observer tried to change the workspace whose change it was being told about. -/
  | reentrantMutation
  /-- The worker does not know the snapshot. -/
  | snapshotNotFound (address : Address)
  /-- The worker went away before it answered. -/
  | workerDisconnected
  /-- The worker answered with an error of its own. -/
  | remote (text : String)
  /-- A task that ran in the background broke down. -/
  | taskFailed (text : String)
  /-- A message could not be read. -/
  | serialization (text : String)
  /-- The caller asked for the operation to stop. -/
  | cancelled
  deriving DecidableEq, Repr

namespace Failure

/-- Whether a failure is the outcome of a cancellation. -/
def isCancelled : Failure → Bool
  | .cancelled => true
  | _ => false

/-- The message of a failure. A snapshot that is named by its fingerprint has no digits to show. -/
def message : Failure → String
  | .workspaceMismatch old new =>
    "snapshots belong to different workspaces (" ++ old.text ++ " vs " ++ new.text ++ ")"
  | .missingProjectId kind => kind.text ++ " event requires a project id"
  | .missingDocumentId kind => kind.text ++ " event requires a document id"
  | .projectNotFound id => "project " ++ id.text ++ " not found in solution"
  | .documentNotFound id => "document " ++ id.text ++ " not found in solution"
  | .projectAlreadyExists id => "project " ++ id.text ++ " already exists in solution"
  | .reentrantMutation => "workspace mutated from inside an observer callback"
  | .snapshotNotFound (.checksum checksum) =>
    "snapshot " ++ checksum.text ++ " is not known to the remote side"
  | .snapshotNotFound (.fingerprint _) => "snapshot is not known to the remote side"
  | .workerDisconnected => "remote worker disconnected"
  | .remote text => "remote call failed: " ++ text
  | .taskFailed text => "background task failed: " ++ text
  | .serialization text => "Serialization error: " ++ text
  | .cancelled => "operation cancelled"

end Failure

end SolutionWatch
