import SolutionWatch.Proofs.Workspace.Agreement

/-!
# When an event says what happened

A change is truthful if what its kind says of the project or document that it names is what became of it
between the two snapshots, and if nothing else became of anything (`Change.Truthful`). A change of a
document that is not a source document names the project only, and says something about one document of
it.

The kind of a change is chosen before the step is taken, so each step has to do what its kind says.
Adding a project is refused where there is one, but adding a document puts it in the place of another one
and is still reported as an addition. That is the only untruth: a command that goes through raises a
truthful event exactly if it adds no document that is there already
(`Workspace.change_truthful_iff`, `Workspace.replacement_reported_as_addition`).
-/

namespace SolutionWatch

/-- Two states of a project that are the same, in the same order, apart from one document. -/
structure Project.SameBut (id : DocumentId) (old new : Project) : Prop extends
    AgreeBut id old new where
  /-- The other documents are the same, in the same order. -/
  sameOthers : new.documents.erase id = old.documents.erase id

namespace Project

/-- Adding a document changes nothing else. -/
theorem sameBut_withDocument (project : Project) (document : Document) :
    SameBut document.id project (project.withDocument document) := by
  refine ⟨project.agreeBut_withDocument document, ?_⟩
  unfold withDocument
  split
  · exact Catalog.erase_insert _ _ _
  · rfl

/-- Removing a document changes nothing else. -/
theorem sameBut_withoutDocument (project : Project) (id : DocumentId) :
    SameBut id project (project.withoutDocument id) :=
  ⟨project.agreeBut_withoutDocument id, Catalog.erase_erase _ _⟩

end Project

namespace Solution

variable {old new : Solution}

/-- Two snapshots that are the same, in the same order, apart from what is filed under one identity. -/
structure SameButProject (id : ProjectId) (old new : Solution) : Prop where
  /-- They belong to one workspace. -/
  workspace : new.workspace = old.workspace
  /-- The other projects are the same, in the same order. -/
  others : new.projects.erase id = old.projects.erase id

/-- Two snapshots that are the same, in the same order, apart from one document. -/
structure SameButDocument (id : DocumentId) (old new : Solution) : Prop extends
    SameButProject id.project old new where
  /-- The projects are filed in the same order. -/
  order : new.projectIds = old.projectIds
  /-- The project of the document is the same apart from it. -/
  project : ∃ before after, old.project? id.project = some before ∧
    new.project? id.project = some after ∧ Project.SameBut id before after

/-- What a change says became of a project. -/
def BecomesOfProject (id : ProjectId) (old new : Solution) : EntityAction → Prop
  | .added => old.containsProject id = false ∧ new.containsProject id = true
  | .removed => old.containsProject id = true ∧ new.containsProject id = false
  | .changed | .reloaded => old.containsProject id = true ∧ new.containsProject id = true ∧
      new.projectIds = old.projectIds

/-- What a change says became of a document of some kind. -/
def BecomesOfDocument (kind : DocumentKind) (id : DocumentId) (old new : Solution) :
    EntityAction → Prop
  | .added => old.document? id = none ∧ ∃ after, new.document? id = some after ∧ after.kind = kind
  | .removed => (∃ before, old.document? id = some before ∧ before.kind = kind) ∧
      new.document? id = none
  | .changed | .reloaded => ∃ before after, old.document? id = some before ∧
      new.document? id = some after ∧ before.kind = kind ∧ after.kind = kind ∧
      before.version ≠ after.version

/-- Filing a project changes nothing else. -/
theorem sameButProject_insert (solution : Solution) (id : ProjectId) (project : Project) :
    SameButProject id solution (solution.derive (solution.projects.insert id project)) :=
  ⟨rfl, Catalog.erase_insert _ _ _⟩

/-- Removing a project changes nothing else. -/
theorem sameButProject_erase (solution : Solution) (id : ProjectId) :
    SameButProject id solution (solution.derive (solution.projects.erase id)) :=
  ⟨rfl, Catalog.erase_erase _ _⟩

/-- An update of a project leaves the order in which projects are filed. -/
theorem projectIds_updateProject {id : ProjectId} {update : Project → Project}
    (hnew : old.updateProject id update = .ok new) : new.projectIds = old.projectIds := by
  obtain ⟨before, hbefore, rfl⟩ := updateProject_eq_ok_iff.mp hnew
  exact (Catalog.keys_insert _ _ _).trans (if_pos (Catalog.mem_keys_iff.mpr ⟨before, hbefore⟩))

/-- An update that changes nothing but a document of a project changes nothing else of the snapshot. -/
theorem sameButDocument_of_updateProject {id : DocumentId} {update : Project → Project}
    (hupdate : ∀ project, Project.SameBut id project (update project))
    (hnew : old.updateProject id.project update = .ok new) : SameButDocument id old new := by
  have horder := projectIds_updateProject hnew
  obtain ⟨before, hbefore, rfl⟩ := updateProject_eq_ok_iff.mp hnew
  exact ⟨old.sameButProject_insert id.project (update before), horder, before, update before,
    hbefore, old.project?_derive_insert id.project (update before), hupdate before⟩

/-- Adding a document changes nothing else. -/
theorem sameButDocument_withDocument {document : Document}
    (hnew : old.withDocument document = .ok new) : SameButDocument document.id old new :=
  sameButDocument_of_updateProject (fun project => project.sameBut_withDocument document) hnew

/-- Removing a document changes nothing else. -/
theorem sameButDocument_withoutDocument {id : DocumentId}
    (hnew : old.withoutDocument id = .ok new) : SameButDocument id old new :=
  sameButDocument_of_updateProject (fun project => project.sameBut_withoutDocument id)
    (updateProject_of_withoutDocument hnew)

/-- Snapshots that are the same apart from one document find the same under every other identity of the
same project. -/
theorem SameButDocument.document?_eq {id other : DocumentId} (h : SameButDocument id old new)
    (hproject : other.project = id.project) (hother : other ≠ id) :
    new.document? other = old.document? other := by
  obtain ⟨before, after, hbefore, hafter, hsame⟩ := h.project
  rw [document?, document?, hproject, hbefore, hafter]
  exact hsame.sameElsewhere other hother

end Solution

/-- What the kind of a change says of the project or document that the change names is what became of it,
and nothing else became of anything. A change of a document that is not a source document names only the
project and says something about one of its documents. -/
def Change.Truthful (change : Change) : Prop :=
  match change.kind with
  | .solution .cleared => change.new.projectIds = []
  | .solution _ => True
  | .project action => ∃ id, change.project = some id ∧ change.document = none ∧
      Solution.BecomesOfProject id change.old change.new action ∧
      Solution.SameButProject id change.old change.new
  | .document kind action => ∃ id : DocumentId, change.project = some id.project ∧
      change.document = (if (ChangeKind.document kind action).needsDocument then some id else none) ∧
      Solution.BecomesOfDocument kind id change.old change.new action ∧
      Solution.SameButDocument id change.old change.new

namespace Mutation

/-- What the mutation reports of a snapshot is truthful. -/
def TruthfulAt (mutation : Mutation) (old : Solution) : Prop :=
  ∀ new, mutation.next old = .ok new → ∀ hw hp hd,
    Change.Truthful ⟨mutation.kind, old, new,
      mutation.project.or (mutation.document.map DocumentId.project), mutation.document, .separate,
      hw, hp, hd⟩

variable {old : Solution}

/-- A project that is reported as added was added. -/
theorem truthfulAt_projectAdded (project : Project) :
    TruthfulAt ⟨.project .added, some project.id, none, fun old =>
      if old.containsProject project.id then .error (.projectAlreadyExists project.id)
      else .ok (old.withProject project)⟩ old := by
  intro new hnew _ _ _
  simp only at hnew
  split at hnew
  · contradiction
  · next habsent =>
    obtain rfl := Except.ok.inj hnew
    have hafter := old.project?_derive_insert project.id project
    exact ⟨project.id, rfl, rfl,
      ⟨eq_false_of_ne_true habsent, Solution.containsProject_eq_true_iff.mpr ⟨project, hafter⟩⟩,
      old.sameButProject_insert project.id project⟩

/-- A project that is reported as removed was removed. -/
theorem truthfulAt_projectRemoved (id : ProjectId) :
    TruthfulAt ⟨.project .removed, some id, none, fun old => old.withoutProject id⟩ old := by
  intro new hnew _ _ _
  obtain ⟨hcontains, rfl⟩ := Solution.withoutProject_eq_ok_iff.mp hnew
  have hafter := Solution.containsProject_eq_false_iff.mpr (old.project?_derive_erase id)
  exact ⟨id, rfl, rfl, ⟨hcontains, hafter⟩, old.sameButProject_erase id⟩

/-- A project that is reported as changed was there and is there, in its place. -/
theorem truthfulAt_projectChanged (id : ProjectId) (update : Project → Project) :
    TruthfulAt ⟨.project .changed, some id, none, fun old => old.updateProject id update⟩ old := by
  intro new hnew _ _ _
  have hafter := containsProject_of_updateProject hnew
  have horder := Solution.projectIds_updateProject hnew
  obtain ⟨before, hbefore, rfl⟩ := Solution.updateProject_eq_ok_iff.mp hnew
  have hcontains := Solution.containsProject_eq_true_iff.mpr ⟨before, hbefore⟩
  exact ⟨id, rfl, rfl, ⟨hcontains, hafter, horder⟩, old.sameButProject_insert id (update before)⟩

/-- A document that is reported as added was added, if there was none. -/
theorem truthfulAt_documentAdded (ho : old.Filed) {document : Document}
    (hfresh : old.document? document.id = none) :
    (ofDocument document.kind .added document.id fun old => old.withDocument document).TruthfulAt
      old := by
  intro new hnew _ _ _
  have hafter := ho.document?_withDocument hnew
  exact ⟨document.id, rfl, rfl, ⟨hfresh, document, hafter, rfl⟩,
    Solution.sameButDocument_withDocument hnew⟩

/-- A document that is reported as added was not, if there was one in its place. -/
theorem not_truthful_documentAdded {document before : Document}
    (hbefore : old.document? document.id = some before) {new : Solution}
    (hnew : old.withDocument document = .ok new) (hw hp hd) :
    ¬Change.Truthful ⟨.document document.kind .added, old, new, some document.id.project,
      (ofDocument document.kind .added document.id fun old => old.withDocument document).document,
      .separate, hw, hp, hd⟩ := by
  rintro ⟨id, hproject, -, ⟨hfresh, after, hafter, -⟩, -⟩
  -- No other document of the project is found in one snapshot and not in the other.
  have hid : id = document.id := by
    by_contra hne
    have hsame := (Solution.sameButDocument_withDocument hnew).document?_eq
      (Option.some.inj hproject).symm hne
    exact nomatch hafter.symm.trans (hsame.trans hfresh)
  rw [hid, hbefore] at hfresh
  contradiction

/-- A document that is reported as removed was removed. -/
theorem truthfulAt_documentRemoved {id : DocumentId} {document : Document}
    (hdocument : old.document? id = some document) :
    (ofDocument document.kind .removed id fun old => old.withoutDocument id).TruthfulAt old := by
  intro new hnew _ _ _
  have hafter := Solution.document?_withoutDocument hnew
  exact ⟨id, rfl, rfl, ⟨⟨document, hdocument, rfl⟩, hafter⟩,
    Solution.sameButDocument_withoutDocument hnew⟩

/-- A document that is reported as changed has another version. -/
theorem truthfulAt_documentChanged (ho : old.Filed) {id : DocumentId} {document : Document}
    (hdocument : old.document? id = some document) :
    (ofDocument document.kind .changed id fun old => old.withEdit id).TruthfulAt old := by
  intro new hnew _ _ _
  -- An edit puts the document with the next version in its own place.
  obtain rfl : document.id = id := Solution.id_of_document? hdocument
  obtain ⟨edited, hedited, hedit⟩ := Solution.withDocument_of_withEdit hnew
  obtain rfl : document = edited := Option.some.inj (hdocument.symm.trans hedited)
  have hafter := ho.document?_withDocument hedit
  have hversion : document.version ≠ document.version.next := document.version.next_ne.symm
  have hsame := Solution.sameButDocument_withDocument hedit
  exact ⟨document.id, rfl, rfl, ⟨document, _, hdocument, hafter, rfl, rfl, hversion⟩, hsame⟩

end Mutation

namespace Command

/-- A command that moves the workspace to another snapshot and chooses itself how that is reported. -/
def IsTyped : Command → Prop
  | .apply _ _ _ _ | .openDocument _ | .closeDocument _ => False
  | _ => True

/-- The command adds a document that is there already. -/
def Overwrites (current : Solution) : Command → Prop
  | .addDocument document => current.containsDocument document.id = true
  | _ => False

end Command

namespace Workspace

variable {workspace next : Workspace}

/-- The step of a command that adds no document in the place of another one is reported truthfully. -/
theorem truthfulAt_mutationOf (hfiled : workspace.current.Filed) {command : Command}
    (htyped : command.IsTyped) (hfresh : ¬command.Overwrites workspace.current) {mutation : Mutation}
    (hm : workspace.mutationOf command = .ok mutation) : mutation.TruthfulAt workspace.current := by
  cases command with
  | addProject project =>
    obtain rfl := Except.ok.inj hm
    exact Mutation.truthfulAt_projectAdded project
  | removeProject id =>
    obtain rfl := Except.ok.inj hm
    exact Mutation.truthfulAt_projectRemoved id
  | changeProject id update =>
    obtain rfl := Except.ok.inj hm
    exact Mutation.truthfulAt_projectChanged id update
  | addDocument document =>
    obtain rfl := Except.ok.inj hm
    have hnone := Option.not_isSome_iff_eq_none.mp hfresh
    exact Mutation.truthfulAt_documentAdded hfiled hnone
  | editDocument id =>
    obtain ⟨document, hdocument, rfl⟩ := mutation_of_document hm
    exact Mutation.truthfulAt_documentChanged hfiled hdocument
  | removeDocument id =>
    obtain ⟨document, hdocument, rfl⟩ := mutation_of_document hm
    exact Mutation.truthfulAt_documentRemoved hdocument
  | clear =>
    obtain rfl := Except.ok.inj hm
    intro new hnew _ _ _
    obtain rfl := Except.ok.inj hnew
    rfl
  | replace solution =>
    obtain rfl := Except.ok.inj hm
    exact fun _ _ _ _ _ => trivial
  | apply | openDocument | closeDocument => exact htyped.elim

/-- The step of a command that adds a document in the place of another one is not. -/
theorem not_truthful_of_overwrites {command : Command} (hover : command.Overwrites workspace.current)
    {mutation : Mutation} (hm : workspace.mutationOf command = .ok mutation) {new : Solution}
    (hnew : mutation.next workspace.current = .ok new) (hw hp hd) :
    ¬Change.Truthful ⟨mutation.kind, workspace.current, new,
      mutation.project.or (mutation.document.map DocumentId.project), mutation.document, .separate,
      hw, hp, hd⟩ := by
  cases command with
  | addDocument document =>
    obtain rfl := Except.ok.inj hm
    obtain ⟨before, hbefore⟩ := Solution.containsDocument_eq_true_iff.mp hover
    exact Mutation.not_truthful_documentAdded hbefore hnew hw hp hd
  | addProject | removeProject | changeProject | editDocument | removeDocument | clear | replace
  | apply | openDocument | closeDocument => exact hover.elim

/-- A typed command takes a step and reports it. -/
theorem begin_of_isTyped {command : Command} (htyped : command.IsTyped) :
    workspace.begin command = (do
      let mutation ← workspace.mutationOf command
      let (workspace, event) ← workspace.apply mutation
      return (workspace, some event)) := by
  cases command with
  | openDocument | closeDocument | apply => exact htyped.elim
  | addProject | removeProject | changeProject | addDocument | editDocument | removeDocument
  | clear | replace => rfl

/-- A typed command that goes through, in a workspace whose projects are filed under their own identities,
raises one event, of the change from the snapshot before to the snapshot after. What the event says is
what happened, and nothing else happened, unless the command adds a document that is there already. Then
the event says that the document was added, and it was not. -/
theorem change_truthful_iff {command : Command} {told : Option Event}
    (hfiled : workspace.current.Filed) (htyped : command.IsTyped)
    (hbegin : workspace.begin command = .ok (next, told)) :
    ∃ change, told = some (.changed change) ∧ change.old = workspace.current ∧
      change.new = next.current ∧ (change.Truthful ↔ ¬command.Overwrites workspace.current) := by
  rw [begin_of_isTyped htyped] at hbegin
  obtain ⟨mutation, event, hm, happly, rfl⟩ := eq_of_mutation hbegin
  obtain ⟨new, hw, hp, hd, hnew, rfl, rfl⟩ := eq_of_apply happly
  refine ⟨_, rfl, rfl, rfl, fun htruthful hover => ?_, fun hfresh => ?_⟩
  · exact not_truthful_of_overwrites hover hm hnew hw hp hd htruthful
  · exact truthfulAt_mutationOf hfiled htyped hfresh hm new hnew hw hp hd

/-- An edit of a document of the generated solution says what happened. -/
theorem change_truthful_of_edit :
    let command : Command := .editDocument (Fixture.documentId 0 1)
    ofTwoProjects.current.Filed ∧ command.IsTyped ∧
      ∃ next told, ofTwoProjects.begin command = .ok (next, told) ∧
        ∃ change, told = some (.changed change) ∧ change.old = ofTwoProjects.current ∧
          change.new = next.current ∧
          (change.Truthful ↔ ¬command.Overwrites ofTwoProjects.current) := by
  intro command
  have hfiled : ofTwoProjects.current.Filed := by decide
  have hbegin : ∃ next told, ofTwoProjects.begin command = .ok (next, told) := ⟨_, _, rfl⟩
  obtain ⟨next, told, hbegin⟩ := hbegin
  exact ⟨hfiled, trivial, next, told, hbegin, change_truthful_iff hfiled trivial hbegin⟩

/-- A document takes the place of one that was there already, and that is reported as the addition of the
document. -/
theorem replacement_reported_as_addition :
    let id : DocumentId := ⟨⟨1⟩, 1⟩
    let workspace := [.addProject (.named ⟨1⟩ "P1"), .addDocument { id := id, name := "a.cs" }].foldl
      after (initial ⟨7⟩)
    workspace.current.Filed ∧ workspace.current.containsDocument id = true ∧
      ∃ next change,
        workspace.begin (.addDocument { id := id, name := "a.cs", version := 5 }) =
          .ok (next, some (.changed change)) ∧
        change.kind = .document .source .added ∧ change.document = some id ∧ ¬change.Truthful := by
  intro id workspace
  have hfiled : workspace.current.Filed := by decide +kernel
  have hcontains : workspace.current.containsDocument id = true := by decide +kernel
  obtain ⟨before, hbefore⟩ := Solution.containsDocument_eq_true_iff.mp hcontains
  refine ⟨hfiled, hcontains, _, _, rfl, rfl, rfl, ?_⟩
  exact Mutation.not_truthful_documentAdded hbefore rfl _ _ _

end Workspace

end SolutionWatch
