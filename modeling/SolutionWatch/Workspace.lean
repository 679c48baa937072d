import SolutionWatch.Event

/-!
# Workspaces

A workspace owns the current snapshot, the set of open documents and the list of subscriptions of
its observers. A command is carried out in two halves. `Workspace.begin` checks it, installs the
next snapshot and returns the event that the observers subscribed at that moment are to be told.
`Workspace.finish` ends the notification and does what the command does afterwards: documents
that went away with it are no longer open.

Between the halves the workspace is notifying, and every command on it fails without a trace. An
observer that breaks down cuts the notification short: `Workspace.interrupt` ends it, the new
snapshot stays, and nothing is done afterwards.
-/

namespace SolutionWatch

/-- What a workspace can be asked to do. -/
inductive Command where
  /-- Add a project that the solution does not have. -/
  | addProject (project : Project)
  /-- Remove a project. -/
  | removeProject (id : ProjectId)
  /-- Replace a project by what `update` makes of it. -/
  | changeProject (id : ProjectId) (update : Project → Project)
  /-- Add a document to its project, or replace it. -/
  | addDocument (document : Document)
  /-- Record an edit of a document. -/
  | editDocument (id : DocumentId)
  /-- Remove a document. -/
  | removeDocument (id : DocumentId)
  /-- Remove every project. -/
  | clear
  /-- Replace the whole solution. -/
  | replace (solution : Solution)
  /-- Move to what `next` makes of the current snapshot, and report it as a change of this kind. -/
  | apply (kind : ChangeKind) (project : Option ProjectId) (document : Option DocumentId)
      (next : Solution → Except Failure Solution)
  /-- Open a document. -/
  | openDocument (id : DocumentId)
  /-- Close a document. -/
  | closeDocument (id : DocumentId)

/-- A host for the snapshots of one workspace. -/
structure Workspace where
  /-- The identity of the workspace. -/
  id : WorkspaceId
  /-- The current snapshot. -/
  current : Solution
  /-- The subscriptions of the observers, oldest first. -/
  subscriptions : List Nat := []
  /-- The number that the next subscription gets. -/
  nextSubscription : Nat := 1
  /-- The documents that are open. -/
  openDocuments : List DocumentId := []
  /-- Whether observers are being told about a change. -/
  notifying : Bool := false

/-- A step from snapshot to snapshot and how it is reported. -/
structure Mutation where
  /-- The kind of change that is reported. -/
  kind : ChangeKind
  /-- The project that is reported. -/
  project : Option ProjectId
  /-- The document that is reported. -/
  document : Option DocumentId
  /-- The snapshot after the step. -/
  next : Solution → Except Failure Solution

namespace Mutation

/-- A step about one document. Only source documents are reported by identity. -/
def ofDocument (kind : DocumentKind) (action : EntityAction) (id : DocumentId)
    (next : Solution → Except Failure Solution) : Mutation where
  kind := .document kind action
  project := some id.project
  document := if (ChangeKind.document kind action).needsDocument then some id else none
  next := next

end Mutation

namespace Command

/-- Whether a document is no longer open once the command is done. -/
def forgets : Command → DocumentId → Bool
  | .clear, _ => true
  | .removeProject id, document => document.project = id
  | .removeDocument id, document => document = id
  | _, _ => false

end Command

namespace Workspace

/-- A workspace with its empty snapshot, without observers and open documents. -/
def initial (id : WorkspaceId) : Workspace := { id := id, current := .initial id }

/-- Whether a document is open. -/
def isOpen (workspace : Workspace) (id : DocumentId) : Bool := workspace.openDocuments.contains id

/-- Adds a subscription and returns its number. -/
def subscribe (workspace : Workspace) : Nat × Workspace :=
  (workspace.nextSubscription,
    { workspace with
      subscriptions := workspace.subscriptions ++ [workspace.nextSubscription]
      nextSubscription := workspace.nextSubscription + 1 })

/-- Ends a subscription. -/
def unsubscribe (workspace : Workspace) (subscription : Nat) : Workspace :=
  { workspace with subscriptions := workspace.subscriptions.filter (· ≠ subscription) }

/-- Takes a step and reports it; the workspace is notifying afterwards. -/
def apply (workspace : Workspace) (mutation : Mutation) : Except Failure (Workspace × Event) :=
  if workspace.notifying then .error .reentrantMutation
  else do
    let new ← mutation.next workspace.current
    let change ←
      Change.make mutation.kind workspace.current new mutation.project mutation.document .separate
    return ({ workspace with current := new, notifying := true }, .changed change)

/-- Opens or closes a document. There is nothing to report if it is open or closed already. -/
def setOpen (workspace : Workspace) (id : DocumentId) (isOpen : Bool) :
    Except Failure (Workspace × Option Event) :=
  if workspace.notifying then .error .reentrantMutation
  else do
    let event ← DocumentEvent.make workspace.current id
    if workspace.isOpen id = isOpen then return (workspace, none)
    else if isOpen then
      return ({ workspace with openDocuments := id :: workspace.openDocuments, notifying := true },
        some (.opened event))
    else
      return ({ workspace with
          openDocuments := workspace.openDocuments.filter (· ≠ id), notifying := true },
        some (.closed event))

/-- The step of a command other than opening or closing. The kind of a document that is edited or
removed is looked up in the current snapshot first. -/
def mutationOf (workspace : Workspace) : Command → Except Failure Mutation
  | .addProject project =>
    .ok ⟨.project .added, some project.id, none, fun old =>
      if old.containsProject project.id then .error (.projectAlreadyExists project.id)
      else .ok (old.withProject project)⟩
  | .removeProject id =>
    .ok ⟨.project .removed, some id, none, fun old => old.withoutProject id⟩
  | .changeProject id update =>
    .ok ⟨.project .changed, some id, none, fun old => old.updateProject id update⟩
  | .addDocument document =>
    .ok (.ofDocument document.kind .added document.id fun old => old.withDocument document)
  | .editDocument id => do
    let document ← workspace.current.requireDocument id
    return .ofDocument document.kind .changed id fun old => old.withEdit id
  | .removeDocument id => do
    let document ← workspace.current.requireDocument id
    return .ofDocument document.kind .removed id fun old => old.withoutDocument id
  | .clear => .ok ⟨.solution .cleared, none, none, fun old => .ok old.cleared⟩
  | .replace solution => .ok ⟨.solution .changed, none, none, fun _ => .ok solution⟩
  | .apply kind project document next => .ok ⟨kind, project, document, next⟩
  | .openDocument _ => .ok ⟨.solution .changed, none, none, .ok⟩
  | .closeDocument _ => .ok ⟨.solution .changed, none, none, .ok⟩

/-- The first half of a command: the workspace with the command's effect, and the event that its
subscribers are to be told. -/
def begin (workspace : Workspace) (command : Command) :
    Except Failure (Workspace × Option Event) :=
  match command with
  | .openDocument id => workspace.setOpen id true
  | .closeDocument id => workspace.setOpen id false
  | command => do
    let mutation ← workspace.mutationOf command
    let (workspace, event) ← workspace.apply mutation
    return (workspace, some event)

/-- The second half of a command, after every subscriber was told. -/
def finish (workspace : Workspace) (command : Command) : Workspace :=
  { workspace with
    notifying := false
    openDocuments := workspace.openDocuments.filter fun id => !command.forgets id }

/-- Ends a notification in which an observer broke down. -/
def interrupt (workspace : Workspace) : Workspace := { workspace with notifying := false }

/-- Both halves of a command whose notification goes by without a further command. -/
def run (workspace : Workspace) (command : Command) :
    Except Failure (Workspace × Option Event) := do
  let (workspace, event) ← workspace.begin command
  return (workspace.finish command, event)

end Workspace

end SolutionWatch
