import SolutionWatch.Proofs.Diff.Update
import SolutionWatch.Proofs.Workspace.Events

/-!
# What an event says is what a comparison finds

An event says what happened, and `Event.diff` believes it where it can. For every command but clearing,
and but adding a document in the place of another, that comes to the same list as comparing the two
snapshots of the event (`Workspace.event_diff_eq_solution_diff`), whatever the snapshots share.

The proof goes over the mutations. One that adds or removes a project has one item on both paths. One
that changes a project compares that project on both paths, because the snapshots find the same other
projects. One about a document leaves its project as it is but for the document, so the comparison finds
the one item that the event names: the document's if it is a source document, and else the project's.
-/

namespace SolutionWatch

/-- A command whose event says all that a comparison of the snapshots finds: it leaves projects their
identities, does not remove all of them at once, and adds no document in the place of another. -/
def Command.StructuralAt (solution : Solution) : Command → Prop
  | .addProject _ | .removeProject _ | .replace _ | .editDocument _ | .removeDocument _ => True
  | .changeProject _ update => ∀ project, (update project).id = project.id
  | .addDocument document => solution.document? document.id = none
  | .clear | .apply _ _ _ _ | .openDocument _ | .closeDocument _ => False

namespace Solution

variable {old new : Solution}

/-- Adding a document leaves everything as it is but for the document. -/
theorem agreeBut_withDocument {document : Document} (hnew : old.withDocument document = .ok new) :
    ∃ before after, AgreeBut document.id old new before after :=
  agreeBut_of_updateProject (fun project => project.agreeBut_withDocument document) hnew

/-- Removing a document leaves everything as it is but for the document. -/
theorem agreeBut_withoutDocument {id : DocumentId} (hnew : old.withoutDocument id = .ok new) :
    ∃ before after, AgreeBut id old new before after :=
  agreeBut_of_updateProject (fun project => project.agreeBut_withoutDocument id)
    (updateProject_of_withoutDocument hnew)

/-- A document that was removed is not found. -/
theorem document?_withoutDocument {id : DocumentId} (hnew : old.withoutDocument id = .ok new) :
    new.document? id = none := by
  obtain ⟨before, -, rfl⟩ := updateProject_eq_ok_iff.mp (updateProject_of_withoutDocument hnew)
  rw [document?, project?_derive_insert, Option.bind_some, Project.document?_withoutDocument,
    if_pos rfl]

end Solution

namespace Mutation

/-- The event of a mutation comes to what the comparison of its snapshots comes to. -/
def AgreesAt (mutation : Mutation) (old : Solution) : Prop :=
  ∀ new, mutation.next old = .ok new → ∀ hw hp hd,
    Change.diff ⟨mutation.kind, old, new,
      mutation.project.or (mutation.document.map DocumentId.project), mutation.document, .separate,
      hw, hp, hd⟩ = Solution.diff old new .separate

variable {old : Solution}

/-- A project that was added is the one item of the comparison. -/
theorem agreesAt_projectAdded (ho : old.Filed) (project : Project) :
    AgreesAt ⟨.project .added, some project.id, none, fun old =>
      if old.containsProject project.id then .error (.projectAlreadyExists project.id)
      else .ok (old.withProject project)⟩ old := by
  intro new hnew hw hp hd
  simp only at hnew
  split at hnew
  · contradiction
  · next hcontains =>
    obtain rfl := Except.ok.inj hnew
    have hbefore : old.project? project.id = none :=
      Solution.containsProject_eq_false_iff.mp (eq_false_of_ne_true hcontains)
    have hafter := old.project?_derive_insert project.id project
    have hothers := fun other (h : other ≠ project.id) =>
      old.project?_derive_insert_of_ne h project
    have hone := Solution.structuralDiff_eq_singleton ho (ho.withProject project) .separate
      fun _ => Solution.expects_iff_of_added hbefore hafter hothers
    rw [Solution.diff_eq_ok_structuralDiff .separate hw ho, hone]
    rfl

/-- A project that was removed is the one item of the comparison. -/
theorem agreesAt_projectRemoved (ho : old.Filed) (id : ProjectId) :
    AgreesAt ⟨.project .removed, some id, none, fun old => old.withoutProject id⟩ old := by
  intro new hnew hw hp hd
  have hn := ho.withoutProject hnew
  obtain ⟨hcontains, rfl⟩ := Solution.withoutProject_eq_ok_iff.mp hnew
  obtain ⟨before, hbefore⟩ := Solution.containsProject_eq_true_iff.mp hcontains
  have hafter := old.project?_derive_erase id
  have hothers := fun other (h : other ≠ id) => old.project?_derive_erase_of_ne h
  have hone := Solution.structuralDiff_eq_singleton ho hn .separate
    fun _ => Solution.expects_iff_of_removed hbefore hafter hothers
  rw [Solution.diff_eq_ok_structuralDiff .separate hw ho, hone]
  rfl

/-- A project that was changed is the one project that the comparison looks into. -/
theorem agreesAt_projectChanged (ho : old.Filed) (id : ProjectId) {update : Project → Project}
    (hupdate : ∀ project, (update project).id = project.id) :
    AgreesAt ⟨.project .changed, some id, none, fun old => old.updateProject id update⟩ old := by
  intro new hnew hw hp hd
  have hn := ho.updateProject hupdate hnew
  obtain ⟨before, hbefore, rfl⟩ := Solution.updateProject_eq_ok_iff.mp hnew
  have hafter := old.project?_derive_insert id (update before)
  have hothers := fun other (h : other ≠ id) => old.project?_derive_insert_of_ne h (update before)
  rw [Solution.diff_eq_ok_structuralDiff .separate hw ho,
    Solution.structuralDiff_eq_diff ho hn .separate hbefore hafter hothers]
  exact Change.diff_projectChanged hbefore hafter hw hp hd

/-- A step about a document agrees when the comparison has the one item of the document, if it is a
source document, and else the one item of its project. -/
theorem agreesAt_ofDocument {kind : DocumentKind} {action : EntityAction} {id : DocumentId}
    {next : Solution → Except Failure Solution}
    (hsource : kind = .source → ∀ new, next old = .ok new → ∀ hw hp hd,
      Change.diff ⟨.document .source action, old, new, some id.project, some id, .separate,
        hw, hp, hd⟩ = Solution.diff old new .separate)
    (hnonSource : kind ≠ .source → ∀ new, next old = .ok new → old.workspace = new.workspace →
      Solution.diff old new .separate =
        .ok [⟨.project id.project, .additionalDocumentChanged, new⟩]) :
    (ofDocument kind action id next).AgreesAt old := by
  intro new hnew hw hp hd
  cases kind with
  | source => exact hsource rfl new hnew hw hp hd
  | additional | analyzerConfig => exact (hnonSource (by decide) new hnew hw).symm

/-- A document that was added where there was none is the one item of the comparison. -/
theorem agreesAt_documentAdded (ho : old.Filed) {document : Document}
    (hfresh : old.document? document.id = none) :
    (ofDocument document.kind .added document.id fun old => old.withDocument document).AgreesAt
      old := by
  -- Both kinds of document are looked up in the one project that was updated.
  have hfound : ∀ new, old.withDocument document = .ok new → new.Filed ∧ ∃ before after,
      Solution.AgreeBut document.id old new before after ∧
        before.document? document.id = none ∧ after.document? document.id = some document := by
    intro new hnew
    obtain ⟨before, after, hagree⟩ := Solution.agreeBut_withDocument hnew
    refine ⟨ho.withDocument hnew, before, after, hagree, ?_, ?_⟩
    · rw [hagree.document?_before, hfresh]
    · rw [hagree.document?_after, ho.document?_withDocument hnew]
  refine agreesAt_ofDocument ?_ ?_
  · intro hkind new hnew hw hp hd
    obtain ⟨hn, before, after, hagree, hbefore, hafter⟩ := hfound new hnew
    have hone : Solution.diff old new .separate = .ok [⟨.document document.id, .documentAdded, new⟩] := by
      refine hagree.diff_eq_singleton hw ho hn .separate fun item => ?_
      rw [hagree.project.mem_diff_of_source (Project.findsOnly_of_none hbefore)
        (Project.findsOnly_of_some hafter hkind)]
      simp [Project.mem_addedSources_iff, Project.mem_changedSources_iff,
        Project.mem_removedSources_iff, hbefore, hafter, hkind]
    rw [hone]
    rfl
  · intro hkind new hnew hw
    obtain ⟨hn, before, after, hagree, hbefore, hafter⟩ := hfound new hnew
    refine hagree.diff_of_nonSource hw ho hn .separate (Project.findsOnly_of_none hbefore)
      (Project.findsOnly_of_some hafter hkind) ?_
    refine Project.nonSourcesDiffer_of_version hafter hkind fun c hc => ?_
    rw [hbefore] at hc
    contradiction

/-- A document that was removed is the one item of the comparison. -/
theorem agreesAt_documentRemoved (ho : old.Filed) {id : DocumentId} {document : Document}
    (hdocument : old.document? id = some document) :
    (ofDocument document.kind .removed id fun old => old.withoutDocument id).AgreesAt old := by
  have hfound : ∀ new, old.withoutDocument id = .ok new → new.Filed ∧ ∃ before after,
      Solution.AgreeBut id old new before after ∧ before.document? id = some document ∧
        after.document? id = none := by
    intro new hnew
    obtain ⟨before, after, hagree⟩ := Solution.agreeBut_withoutDocument hnew
    refine ⟨ho.withoutDocument hnew, before, after, hagree, ?_, ?_⟩
    · rw [hagree.document?_before, hdocument]
    · rw [hagree.document?_after, Solution.document?_withoutDocument hnew]
  refine agreesAt_ofDocument ?_ ?_
  · intro hkind new hnew hw hp hd
    obtain ⟨hn, before, after, hagree, hbefore, hafter⟩ := hfound new hnew
    have hone : Solution.diff old new .separate = .ok [⟨.document id, .documentRemoved, old⟩] := by
      refine hagree.diff_eq_singleton hw ho hn .separate fun item => ?_
      rw [hagree.project.mem_diff_of_source (Project.findsOnly_of_some hbefore hkind)
        (Project.findsOnly_of_none hafter)]
      simp [Project.mem_addedSources_iff, Project.mem_changedSources_iff,
        Project.mem_removedSources_iff, hbefore, hafter, hkind]
    rw [hone]
    rfl
  · intro hkind new hnew hw
    obtain ⟨hn, before, after, hagree, hbefore, hafter⟩ := hfound new hnew
    refine hagree.diff_of_nonSource hw ho hn .separate (Project.findsOnly_of_some hbefore hkind)
      (Project.findsOnly_of_none hafter) ?_
    refine Project.nonSourcesDiffer_of_kind hbefore hkind fun d hd => ?_
    rw [hafter] at hd
    contradiction

/-- A document that was edited is the one item of the comparison, because its version grew. -/
theorem agreesAt_documentChanged (ho : old.Filed) {id : DocumentId} {document : Document}
    (hdocument : old.document? id = some document) :
    (ofDocument document.kind .changed id fun old => old.withEdit id).AgreesAt old := by
  obtain rfl : document.id = id := Solution.id_of_document? hdocument
  have hversion : document.version ≠ document.version.next := document.version.next_ne.symm
  have hfound : ∀ new, old.withEdit document.id = .ok new → new.Filed ∧
      new.document? document.id = some { document with version := document.version.next } ∧
      ∃ before after, Solution.AgreeBut document.id old new before after ∧
        before.document? document.id = some document ∧
        after.document? document.id = some { document with version := document.version.next } := by
    intro new hnew
    obtain ⟨edited, hedited, hedit⟩ := Solution.withDocument_of_withEdit hnew
    rw [hdocument, Option.some.injEq] at hedited
    subst hedited
    have hafter := ho.document?_withDocument hedit
    obtain ⟨before, after, hagree⟩ := Solution.agreeBut_withDocument hedit
    refine ⟨ho.withDocument hedit, hafter, before, after, hagree, ?_, ?_⟩
    · rw [hagree.document?_before, hdocument]
    · rw [hagree.document?_after, hafter]
  refine agreesAt_ofDocument ?_ ?_
  · intro hkind new hnew hw hp hd
    obtain ⟨hn, hnewDocument, before, after, hagree, hbefore, hafter⟩ := hfound new hnew
    rw [Change.diff_documentChanged hdocument hnewDocument hversion]
    refine (hagree.diff_eq_singleton hw ho hn .separate fun item => ?_).symm
    rw [hagree.project.mem_diff_of_source (Project.findsOnly_of_some hbefore hkind)
      (Project.findsOnly_of_some hafter hkind)]
    simp [Project.mem_addedSources_iff, Project.mem_changedSources_iff,
      Project.mem_removedSources_iff, hbefore, hafter, hkind, hversion]
  · intro hkind new hnew hw
    obtain ⟨hn, -, before, after, hagree, hbefore, hafter⟩ := hfound new hnew
    refine hagree.diff_of_nonSource hw ho hn .separate (Project.findsOnly_of_some hbefore hkind)
      (Project.findsOnly_of_some hafter hkind) ?_
    refine Project.nonSourcesDiffer_of_version hafter hkind fun c hc => ?_
    rw [hbefore, Option.some.injEq] at hc
    exact hc ▸ hversion

end Mutation

namespace Workspace

variable {workspace next : Workspace}

/-- The step of a command whose event says all is one whose event comes to the comparison. -/
theorem agreesAt_mutationOf (hfiled : workspace.current.Filed) {command : Command}
    (hcommand : command.StructuralAt workspace.current) {mutation : Mutation}
    (hm : workspace.mutationOf command = .ok mutation) : mutation.AgreesAt workspace.current := by
  cases command with
  | addProject project =>
    obtain rfl := Except.ok.inj hm
    exact Mutation.agreesAt_projectAdded hfiled project
  | removeProject id =>
    obtain rfl := Except.ok.inj hm
    exact Mutation.agreesAt_projectRemoved hfiled id
  | changeProject id update =>
    obtain rfl := Except.ok.inj hm
    exact Mutation.agreesAt_projectChanged hfiled id hcommand
  | addDocument document =>
    obtain rfl := Except.ok.inj hm
    exact Mutation.agreesAt_documentAdded hfiled hcommand
  | editDocument id =>
    obtain ⟨document, hdocument, rfl⟩ := mutation_of_document hm
    exact Mutation.agreesAt_documentChanged hfiled hdocument
  | removeDocument id =>
    obtain ⟨document, hdocument, rfl⟩ := mutation_of_document hm
    exact Mutation.agreesAt_documentRemoved hfiled hdocument
  | replace solution =>
    obtain rfl := Except.ok.inj hm
    exact fun _ _ _ _ _ => rfl
  | clear | apply | openDocument | closeDocument => exact hcommand.elim

/-- A command that changes the structure takes a step and reports it. -/
theorem begin_of_structural {command : Command} (hcommand : command.StructuralAt workspace.current) :
    workspace.begin command = (do
      let mutation ← workspace.mutationOf command
      let (workspace, event) ← workspace.apply mutation
      return (workspace, some event)) := by
  cases command with
  | openDocument | closeDocument => exact hcommand.elim
  | addProject | removeProject | changeProject | addDocument | editDocument | removeDocument
  | clear | replace | apply => rfl

/-- A command that says all with its event raises one, of the change from the snapshot before to the
snapshot after, and the items of the event are the items of the comparison of the two snapshots, in the
same order, whatever the two are thought to share. -/
theorem event_diff_eq_solution_diff {command : Command} {told : Option Event}
    (hfiled : workspace.current.Filed) (hcommand : command.StructuralAt workspace.current)
    (hbegin : workspace.begin command = .ok (next, told)) :
    ∃ change items, told = some (.changed change) ∧ change.old = workspace.current ∧
      change.new = next.current ∧
      ∀ sharing, Event.diff (.changed { change with sharing := sharing }) = .ok items ∧
        Solution.diff change.old change.new sharing = .ok items := by
  rw [begin_of_structural hcommand] at hbegin
  obtain ⟨mutation, event, hm, happly, rfl⟩ := eq_of_mutation hbegin
  obtain ⟨new, hw, hp, hd, hnew, rfl, rfl⟩ := eq_of_apply happly
  have hagrees := agreesAt_mutationOf hfiled hcommand hm new hnew hw hp hd
  refine ⟨_, Solution.structuralDiff workspace.current new .separate, rfl, rfl, rfl, ?_⟩
  intro sharing
  have hitems := Solution.diff_eq_ok_structuralDiff .separate hw hfiled
  constructor
  · exact (Change.diff_eq_separate _ hfiled).trans (hagrees.trans hitems)
  · exact (Solution.diff_eq_separate sharing hfiled).trans hitems

/-- A workspace with the generated solution of two projects. -/
def ofTwoProjects : Workspace := { id := Fixture.workspace, current := Solution.twoProjects }

/-- The first project gets another name and parse option and loses its additional document. -/
def renameFirst : Command :=
  .changeProject (Fixture.projectId 0) fun project =>
    let options := project.config.parseOptions.set "LangVersion" "12"
    Project.withoutDocument
      { project with config := { project.config with name := "Renamed", parseOptions := options } }
      (Fixture.documentId 0 2)

/-- An update of several things at once says with its event what the comparison finds. -/
theorem event_diff_eq_solution_diff_of_rename :
    ofTwoProjects.current.Filed ∧ renameFirst.StructuralAt ofTwoProjects.current ∧
      ∃ next told, ofTwoProjects.begin renameFirst = .ok (next, told) ∧
        ∃ change items, told = some (.changed change) ∧ change.old = ofTwoProjects.current ∧
          change.new = next.current ∧
          ∀ sharing, Event.diff (.changed { change with sharing := sharing }) = .ok items ∧
            Solution.diff change.old change.new sharing = .ok items := by
  have hfiled : ofTwoProjects.current.Filed := by decide
  have hcommand : renameFirst.StructuralAt ofTwoProjects.current := fun _ => rfl
  have hbegin : ∃ next told, ofTwoProjects.begin renameFirst = .ok (next, told) := ⟨_, _, rfl⟩
  obtain ⟨next, told, hbegin⟩ := hbegin
  exact ⟨hfiled, hcommand, next, told, hbegin,
    event_diff_eq_solution_diff hfiled hcommand hbegin⟩

end Workspace

end SolutionWatch
