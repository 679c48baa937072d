import SolutionWatch.Event
import SolutionWatch.WorkItem

/-!
# Differences between snapshots

`Solution.diff` compares two snapshots of one workspace and lists what has to be looked at again:
first the added projects, then for each project in both snapshots its own item and the items of its
added, changed and removed source documents, and last the removed projects. A removed entity is
looked for in the old snapshot, anything else in the new one.

A project has an item of its own exactly when `Project.changeReasons` is not empty. Documents that
are not source documents never have items: they count as part of their project.

What both snapshots hold as one object has not changed, so it is not looked at: neither a snapshot
that is both, nor a project that both hold.

`Event.diff` lists the same for one event. Where the event already says what happened it is
believed, so no comparison of whole snapshots is needed.
-/

namespace SolutionWatch

/-- Whether one list has a member that the other lacks. -/
def differAsSets {α : Type} [DecidableEq α] (old new : List α) : Bool :=
  !(old.all (fun a => a ∈ new) && new.all (fun a => a ∈ old))

namespace Project

/-- What is compared of the documents that are not source documents. -/
def nonSources (project : Project) : List (DocumentId × DocumentKind × Version) :=
  (project.allDocuments.filter fun d => !d.isSource).map fun d => (d.id, d.kind, d.version)

/-- Whether the configuration, the references as sets, or the analysis switch differ. -/
def configurationDiffers (old new : Project) : Bool :=
  decide (old.config.normal ≠ new.config.normal) ||
    differAsSets old.references.metadata new.references.metadata ||
    differAsSets old.references.projects new.references.projects ||
    differAsSets old.references.analyzers new.references.analyzers ||
    old.runAnalyzers != new.runAnalyzers

/-- The reasons that a project as such gives for looking at it again. -/
def changeReasons (old new : Project) : Reasons :=
  (Reasons.onlyIf (decide (old.config.parseOptions ≠ new.config.parseOptions))
      .parseOptionsChanged).union
    ((Reasons.onlyIf (configurationDiffers old new) .configurationChanged).union
      (Reasons.onlyIf (differAsSets old.nonSources new.nonSources) .additionalDocumentChanged))

/-- The source documents of `new` that `old` has no document of any kind for. -/
def addedSources (old new : Project) : List DocumentId :=
  (new.sources.filter fun d => !old.containsDocument d.id).map Document.id

/-- The source documents of `new` that `old` has a document of another version for. -/
def changedSources (old new : Project) : List DocumentId :=
  (new.sources.filter fun d =>
    match old.document? d.id with
    | some before => before.version != d.version
    | none => false).map Document.id

/-- The source documents of `old` that `new` has no document of any kind for. -/
def removedSources (old new : Project) : List DocumentId :=
  (old.sources.filter fun d => !new.containsDocument d.id).map Document.id

/-- The items for a project that is in both snapshots. -/
def diff (oldSolution newSolution : Solution) (old new : Project) : List WorkItem :=
  let reasons := changeReasons old new
  (if reasons.isEmpty then [] else [⟨.project new.id, reasons, newSolution⟩]) ++
    (addedSources old new).map (fun id => ⟨.document id, .documentAdded, newSolution⟩) ++
    (changedSources old new).map (fun id => ⟨.document id, .documentChanged, newSolution⟩) ++
    (removedSources old new).map (fun id => ⟨.document id, .documentRemoved, oldSolution⟩)

end Project

namespace Solution

/-- The projects of `new` whose identity `old` files nothing under. -/
def addedProjects (old new : Solution) : List ProjectId :=
  (new.allProjects.filter fun p => !old.containsProject p.id).map Project.id

/-- The items of the projects of `new` whose identity `old` files a project under. -/
def keptProjects (old new : Solution) (sharing : Sharing old new) : List WorkItem :=
  new.projects.entries.flatMap fun e =>
    match old.project? e.2.id with
    | some before =>
      if sharing.holds e.2.id e.1 then [] else Project.diff old new before e.2
    | none => []

/-- The items that tell `new` from `old`, by comparing the two. -/
def structuralDiff (old new : Solution) (sharing : Sharing old new) : List WorkItem :=
  (addedProjects old new).map (fun id => ⟨.project id, .documentAdded, new⟩) ++
    keptProjects old new sharing ++
    (addedProjects new old).map (fun id => ⟨.project id, .documentRemoved, old⟩)

/-- The items that tell `new` from `old`, two snapshots of one workspace. A snapshot does not
differ from itself, so one that is both is not looked at. -/
def diff (old new : Solution) (sharing : Sharing old new) : Except Failure (List WorkItem) :=
  if old.workspace = new.workspace then
    match sharing with
    | .shared _ => .ok []
    | _ => .ok (structuralDiff old new sharing)
  else .error (.workspaceMismatch old.workspace new.workspace)

end Solution

namespace Change

/-- The items for a change. -/
def diff (change : Change) : Except Failure (List WorkItem) :=
  match h : change.kind with
  | .solution .added => .ok [⟨.solution, .documentAdded, change.new⟩]
  | .solution .removed => .ok [⟨.solution, .solutionRemoved, change.old⟩]
  | .solution .cleared => .ok [⟨.solution, .solutionRemoved, change.old⟩]
  | .solution .changed => Solution.diff change.old change.new change.sharing
  | .solution .reloaded => Solution.diff change.old change.new change.sharing
  | .project action => do
    let id := change.projectId (by rw [h]; rfl)
    match action with
    | .added => return [⟨.project id, .documentAdded, change.new⟩]
    | .removed => return [⟨.project id, .documentRemoved, change.old⟩]
    | .changed | .reloaded =>
      let old ← change.old.requireProject id
      let new ← change.new.requireProject id
      if change.sharing.holds id id then return []
      else return Project.diff change.old change.new old new
  | .document .source action => do
    let id := change.documentId (by rw [h]; rfl)
    match action with
    | .added => return [⟨.document id, .documentAdded, change.new⟩]
    | .removed => return [⟨.document id, .documentRemoved, change.old⟩]
    | .changed | .reloaded =>
      let old ← change.old.requireDocument id
      let new ← change.new.requireDocument id
      if old.version = new.version then return []
      else return [⟨.document id, .documentChanged, change.new⟩]
  | .document .additional _ =>
    .ok [⟨.project (change.projectId (by rw [h]; rfl)), .additionalDocumentChanged, change.new⟩]
  | .document .analyzerConfig _ =>
    .ok [⟨.project (change.projectId (by rw [h]; rfl)), .additionalDocumentChanged, change.new⟩]

end Change

/-- The items for one event, in the order in which they are to be delivered. -/
def Event.diff : Event → Except Failure (List WorkItem)
  | .changed change => change.diff
  | .opened event => .ok [⟨.document event.document, .documentOpened, event.solution⟩]
  | .closed event => .ok [⟨.document event.document, .documentClosed, event.solution⟩]

end SolutionWatch
