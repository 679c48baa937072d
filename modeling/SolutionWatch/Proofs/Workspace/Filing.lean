import SolutionWatch.Derivation
import SolutionWatch.Patch
import SolutionWatch.Proofs.Workspace.Events

/-!
# When every project is filed under its own identity

A project comes into a snapshot under its own identity, and nothing that is done to its documents gives it
another one. But what an update makes of a project stays where the project was, whatever identity it has
(`Solution.Misfiles`), and a snapshot that somebody brings along may have such a project already. These
are the only ways to get there: the projects of a workspace are in their places at every point of a run
exactly if nothing that is done in the run misfiles one (`Workspace.in_place_throughout_iff`).

What is lost with a project that is not in its place is that its documents can be looked up. A document
that is put into it is left out without a word (`Solution.document?_withDocument_iff`,
`Workspace.lost_by_update`).
-/

namespace SolutionWatch

namespace Solution

variable {solution new : Solution}

/-- An update of a project gives it another identity than the one that it is filed under. -/
def Misfiles (solution : Solution) (id : ProjectId) (update : Project → Project) : Prop :=
  ∃ project, solution.project? id = some project ∧ (update project).id ≠ id

/-- Filing a project keeps a snapshot filed exactly if it is filed under its own identity. -/
theorem Filed.derive_insert_iff (h : solution.Filed) {id : ProjectId} {project : Project} :
    (solution.derive (solution.projects.insert id project)).Filed ↔ project.id = id := by
  constructor
  · intro hfiled
    exact hfiled.id_of_project? (solution.project?_derive_insert id project)
  · exact h.derive_insert

/-- An update keeps a snapshot filed unless it misfiles the project. -/
theorem Filed.updateProject_iff (h : solution.Filed) {id : ProjectId} {update : Project → Project}
    (hnew : solution.updateProject id update = .ok new) :
    new.Filed ↔ ¬solution.Misfiles id update := by
  obtain ⟨project, hproject, rfl⟩ := updateProject_eq_ok_iff.mp hnew
  rw [h.derive_insert_iff]
  constructor
  · rintro hid ⟨other, hother, hne⟩
    obtain rfl : project = other := Option.some.inj (hproject.symm.trans hother)
    exact hne hid
  · intro hplaced
    by_contra hne
    exact hplaced ⟨project, hproject, hne⟩

/-- What a step comes to; a step that fails changes nothing. -/
def after (solution : Solution) (step : Derivation) : Solution :=
  match step.apply solution with
  | .ok new => new
  | .error _ => solution

end Solution

/-- A step of a derivation misfiles a project. -/
def Derivation.Misfiles (solution : Solution) : Derivation → Prop
  | .updateProject id update => solution.Misfiles id update
  | _ => False

namespace Solution

variable {solution new : Solution}

/-- Setting the version of a document keeps a snapshot filed. -/
theorem Filed.withVersion (h : solution.Filed) {id : DocumentId} {version : Version}
    (hnew : solution.withVersion id version = .ok new) : new.Filed := by
  unfold Solution.withVersion at hnew
  cases hdocument : solution.requireDocument id with
  | ok document =>
    rw [hdocument] at hnew
    exact h.withDocument hnew
  | error failure =>
    rw [hdocument] at hnew
    contradiction

/-- A step that succeeds keeps a snapshot filed unless it misfiles a project. -/
theorem Filed.apply_iff (h : solution.Filed) {step : Derivation}
    (hnew : step.apply solution = .ok new) : new.Filed ↔ ¬step.Misfiles solution := by
  cases step with
  | touch =>
    obtain rfl := Except.ok.inj hnew
    exact iff_of_true h not_false
  | clear =>
    obtain rfl := Except.ok.inj hnew
    exact iff_of_true solution.filed_cleared not_false
  | withProject project =>
    obtain rfl := Except.ok.inj hnew
    exact iff_of_true (h.withProject project) not_false
  | withoutProject id => exact iff_of_true (h.withoutProject hnew) not_false
  | updateProject id update => exact h.updateProject_iff hnew
  | withDocument document => exact iff_of_true (h.withDocument hnew) not_false
  | withoutDocument id => exact iff_of_true (h.withoutDocument hnew) not_false
  | withVersion id version => exact iff_of_true (h.withVersion hnew) not_false
  | edit id =>
    obtain ⟨document, -, hedit⟩ := withDocument_of_withEdit hnew
    exact iff_of_true (h.withDocument hedit) not_false

/-- A step keeps a snapshot filed unless it misfiles a project. -/
theorem Filed.after_iff (h : solution.Filed) (step : Derivation) :
    (solution.after step).Filed ↔ ¬step.Misfiles solution := by
  unfold after
  split
  · next new hnew => exact h.apply_iff hnew
  · next failure hfails =>
    refine iff_of_true h fun hmisfiles => ?_
    cases step with
    | updateProject id update =>
      -- An update goes through when the project is found.
      obtain ⟨project, hproject, -⟩ := hmisfiles
      have hnew : solution.updateProject id update =
          .ok (solution.derive (solution.projects.insert id (update project))) :=
        updateProject_eq_ok_iff.mpr ⟨project, hproject, rfl⟩
      exact nomatch hnew.symm.trans hfails
    | touch | clear | withProject | withoutProject | withDocument | withoutDocument | withVersion
    | edit => exact hmisfiles

/-- A document that was put into a snapshot is found there exactly if its project is filed under its own
identity. Else the project takes it for a document of another one. -/
theorem document?_withDocument_iff {document : Document}
    (hnew : solution.withDocument document = .ok new) :
    new.document? document.id = some document ↔
      ∃ project, solution.project? document.id.project = some project ∧
        project.id = document.id.project := by
  obtain ⟨project, hproject, rfl⟩ := updateProject_eq_ok_iff.mp hnew
  have hafter := solution.project?_derive_insert document.id.project (project.withDocument document)
  constructor
  · intro hfound
    obtain ⟨other, hother, hdocument⟩ := document?_eq_some_iff.mp hfound
    obtain rfl := Option.some.inj (hafter.symm.trans hother)
    have hown := Project.project_of_document? hdocument
    rw [Project.id_withDocument] at hown
    exact ⟨project, hproject, hown.symm⟩
  · rintro ⟨other, hother, hid⟩
    obtain rfl := Option.some.inj (hproject.symm.trans hother)
    exact document?_eq_some_iff.mpr ⟨_, hafter, Project.document?_withDocument hid.symm⟩

/-- Everything in a snapshot is in its place: projects are filed under their own identities, documents
name the project that they are filed in, and a document that is put into the snapshot is found there. -/
structure InPlace (solution : Solution) : Prop where
  /-- Each project is filed under its own identity. -/
  filed : ∀ e ∈ solution.projects.entries, e.2.id = e.1
  /-- Each document names the identity that its project is filed under. -/
  owned : ∀ e ∈ solution.projects.entries, ∀ document ∈ e.2.allDocuments,
    document.id.project = e.1
  /-- A document that is put into the snapshot is found there. -/
  found : ∀ document new, solution.withDocument document = .ok new →
    new.document? document.id = some document

/-- Everything is in its place as soon as projects are filed under their own identities. -/
theorem inPlace_iff_filed : solution.InPlace ↔ solution.Filed := by
  refine ⟨InPlace.filed, fun h => ⟨h, fun e he document hdocument => ?_, fun document new hnew =>
    h.document?_withDocument hnew⟩⟩
  rw [← h e he]
  exact Project.project_of_document? (Project.mem_allDocuments_iff.mp hdocument)

end Solution

/-- A command misfiles a project, if it goes through: an update gives a project another identity than the
one that it is filed under, or the solution that takes the place of the current one has such a project. -/
def Command.Misfiles (current : Solution) : Command → Prop
  | .changeProject id update => current.Misfiles id update
  | .replace solution => ¬solution.Filed
  | .apply _ _ _ next => ∃ new, next current = .ok new ∧ ¬new.Filed
  | _ => False

namespace Workspace

variable {workspace : Workspace}

/-- A command goes through and misfiles a project. -/
def Misfiles (workspace : Workspace) (command : Command) : Prop :=
  (∃ next event, workspace.begin command = .ok (next, some event)) ∧
    command.Misfiles workspace.current

/-- A command keeps the snapshot of a workspace filed unless it misfiles a project. -/
theorem filed_after_iff (h : workspace.current.Filed) (command : Command) :
    (workspace.after command).current.Filed ↔ ¬workspace.Misfiles command := by
  rcases workspace.begin_cases command with ⟨hfails, hafter, -⟩ | ⟨next, event, hbegin, hafter, -⟩
  · rw [hafter]
    exact iff_of_true h fun ⟨⟨next, event, hbegin⟩, _⟩ => hfails next event hbegin
  · rw [hafter, Misfiles, and_iff_right ⟨next, event, hbegin⟩]
    show next.current.Filed ↔ _
    cases command with
    | openDocument id | closeDocument id =>
      obtain ⟨-, _, ⟨rfl, -⟩ | ⟨_, _, rfl, -⟩⟩ := eq_of_setOpen hbegin
      · exact iff_of_true h not_false
      · exact iff_of_true h not_false
    | addProject | removeProject | addDocument | editDocument | removeDocument | clear =>
      -- These keep any snapshot filed that is.
      obtain ⟨mutation, _, hm, happly, -⟩ := eq_of_mutation hbegin
      obtain ⟨new, _, _, _, hnew, rfl, -⟩ := eq_of_apply happly
      have hn := soundAt_mutationOf h (by trivial) hm new hnew
      exact iff_of_true hn.1 not_false
    | changeProject id update =>
      obtain ⟨mutation, _, hm, happly, -⟩ := eq_of_mutation hbegin
      obtain ⟨new, _, _, _, hnew, rfl, -⟩ := eq_of_apply happly
      obtain rfl := Except.ok.inj hm
      exact h.updateProject_iff hnew
    | replace solution =>
      obtain ⟨mutation, _, hm, happly, -⟩ := eq_of_mutation hbegin
      obtain ⟨new, _, _, _, hnew, rfl, -⟩ := eq_of_apply happly
      obtain rfl := Except.ok.inj hm
      obtain rfl := Except.ok.inj hnew
      exact not_not.symm
    | apply kind project document step =>
      obtain ⟨mutation, _, hm, happly, -⟩ := eq_of_mutation hbegin
      obtain ⟨new, _, _, _, hnew, rfl, -⟩ := eq_of_apply happly
      obtain rfl := Except.ok.inj hm
      constructor
      · rintro hfiled ⟨other, hother, hunfiled⟩
        obtain rfl := Except.ok.inj (hnew.symm.trans hother)
        exact hunfiled hfiled
      · intro hplaced
        by_contra hunfiled
        exact hplaced ⟨new, hnew, hunfiled⟩

/-- Snapshots are derived one after another, and a workspace is asked for one thing after another, with
any updates of projects. Everything is in its place at every point, exactly if no step on the way
misfiles a project. And what is in its place is what can be looked up: a document that is put into a
snapshot is found there exactly if its project is filed under its own identity. -/
theorem in_place_throughout_iff (id : WorkspaceId) (steps : List Derivation)
    (commands : List Command) :
    ((∀ done later, steps = done ++ later →
        (done.foldl Solution.after (Solution.initial id)).InPlace) ↔
      ∀ done step later, steps = done ++ step :: later →
        ¬step.Misfiles (done.foldl Solution.after (Solution.initial id))) ∧
    ((∀ done later, commands = done ++ later →
        (done.foldl after (initial id)).current.InPlace) ↔
      ∀ done command later, commands = done ++ command :: later →
        ¬(done.foldl after (initial id)).Misfiles command) ∧
    ∀ (solution new : Solution) (document : Document), solution.withDocument document = .ok new →
      (new.document? document.id = some document ↔
        ∃ project, solution.project? document.id.project = some project ∧
          project.id = document.id.project) := by
  have hfiled := Solution.filed_initial id
  simp only [Solution.inPlace_iff_filed]
  refine ⟨?_, ?_, fun solution new document => Solution.document?_withDocument_iff⟩
  · exact holds_throughout_iff (fun solution step h => h.after_iff step) hfiled steps
  · exact holds_throughout_iff (P := fun workspace : Workspace => workspace.current.Filed)
      (fun workspace command h => filed_after_iff h command) hfiled commands

/-- An update puts a second project where the first one is filed. A document of the first project can be
put into the snapshot after that, and it is not there. -/
theorem lost_by_update :
    let first : Project := .named ⟨1⟩ "P1"
    let second : Project := .named ⟨2⟩ "P2"
    let document : Document := { id := ⟨⟨1⟩, 1⟩, name := "a.cs" }
    let solution := [.withProject first, .updateProject ⟨1⟩ (Patch.apply { replacement := some second })].foldl
      Solution.after (Solution.initial ⟨1⟩)
    (solution.project? ⟨1⟩).map Project.id = some ⟨2⟩ ∧
      ∃ new, solution.withDocument document = .ok new ∧ new.document? document.id = none := by
  intro first second document solution
  have hid : (solution.project? ⟨1⟩).map Project.id = some ⟨2⟩ := by decide +kernel
  exact ⟨hid, _, rfl, by decide +kernel⟩

end Workspace

end SolutionWatch
