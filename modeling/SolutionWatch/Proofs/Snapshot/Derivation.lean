import SolutionWatch.Proofs.Snapshot.Lookup

/-!
# What derived snapshots find

Each way to derive a snapshot from a filed one gives a filed one, as long as an update of a project
leaves the project its identity. What changes is one entry of the catalogue of projects, so a derived
snapshot is described by what it finds there.
-/

namespace SolutionWatch

namespace Project

/-- Adding a document leaves a project its identity. -/
@[simp] theorem id_withDocument (project : Project) (document : Document) :
    (project.withDocument document).id = project.id := by
  unfold withDocument
  split <;> rfl

/-- Adding a document changes nothing but what its identity finds. -/
theorem document?_withDocument_of_ne (project : Project) {document : Document} {id : DocumentId}
    (h : id ≠ document.id) : (project.withDocument document).document? id = project.document? id := by
  unfold withDocument
  split
  · rw [document?, Catalog.get?_insert, if_neg h.symm, document?]
  · rfl

/-- Removing a document changes nothing but what its identity finds. -/
theorem document?_withoutDocument (project : Project) (id other : DocumentId) :
    (project.withoutDocument id).document? other =
      if id = other then none else project.document? other :=
  Catalog.get?_erase project.documents id other

/-- A project finds a document of its own that was added. -/
theorem document?_withDocument {project : Project} {document : Document}
    (h : document.id.project = project.id) :
    (project.withDocument document).document? document.id = some document := by
  rw [withDocument, dif_pos h, document?, Catalog.get?_insert, if_pos rfl]

end Project

namespace Solution

variable {solution new : Solution}

/-- A derived snapshot that files a project under an identity finds it there. -/
theorem project?_derive_insert (solution : Solution) (id : ProjectId) (project : Project) :
    (solution.derive (solution.projects.insert id project)).project? id = some project := by
  rw [project?, derive, Catalog.get?_insert, if_pos rfl]

/-- Filing a project changes nothing but what its identity finds. -/
theorem project?_derive_insert_of_ne (solution : Solution) {id other : ProjectId} (h : other ≠ id)
    (project : Project) :
    (solution.derive (solution.projects.insert id project)).project? other =
      solution.project? other := by
  rw [project?, derive, Catalog.get?_insert, if_neg h.symm, project?]

/-- Filing a project under its own identity keeps a snapshot filed. -/
theorem Filed.derive_insert (h : solution.Filed) {id : ProjectId} {project : Project}
    (hid : project.id = id) : (solution.derive (solution.projects.insert id project)).Filed := by
  intro e he
  rcases Catalog.mem_insert he with rfl | he
  · exact hid
  · exact h e he

/-- A derived snapshot without an identity finds nothing under it. -/
theorem project?_derive_erase (solution : Solution) (id : ProjectId) :
    (solution.derive (solution.projects.erase id)).project? id = none := by
  rw [project?, derive, Catalog.get?_erase, if_pos rfl]

/-- Removing a project changes nothing but what its identity finds. -/
theorem project?_derive_erase_of_ne (solution : Solution) {id other : ProjectId} (h : other ≠ id) :
    (solution.derive (solution.projects.erase id)).project? other = solution.project? other := by
  rw [project?, derive, Catalog.get?_erase, if_neg h.symm, project?]

/-- A project can be removed when the snapshot contains it. -/
theorem withoutProject_eq_ok_iff {id : ProjectId} :
    solution.withoutProject id = .ok new ↔
      solution.containsProject id = true ∧ solution.derive (solution.projects.erase id) = new := by
  unfold withoutProject
  split <;> simp_all

/-- Removing a project keeps a snapshot filed. -/
theorem Filed.withoutProject (h : solution.Filed) {id : ProjectId}
    (hnew : solution.withoutProject id = .ok new) : new.Filed := by
  obtain ⟨-, rfl⟩ := withoutProject_eq_ok_iff.mp hnew
  exact fun e he => h e (Catalog.mem_erase he)

/-- A project can be updated when the snapshot finds it. -/
theorem updateProject_eq_ok_iff {id : ProjectId} {update : Project → Project} :
    solution.updateProject id update = .ok new ↔
      ∃ project, solution.project? id = some project ∧
        solution.derive (solution.projects.insert id (update project)) = new := by
  rw [updateProject]
  cases h : solution.requireProject id with
  | ok project =>
    rw [requireProject_eq_ok_iff] at h
    rw [h]
    exact ⟨fun hnew => ⟨project, rfl, Except.ok.inj hnew⟩,
      fun ⟨_, hp, hnew⟩ => congrArg Except.ok (Option.some.inj hp ▸ hnew)⟩
  | error failure =>
    refine ⟨nofun, fun ⟨project, hp, _⟩ => ?_⟩
    rw [requireProject_eq_ok_iff.mpr hp] at h
    contradiction

/-- An update that leaves the project its identity keeps a snapshot filed. -/
theorem Filed.updateProject (h : solution.Filed) {id : ProjectId} {update : Project → Project}
    (hupdate : ∀ project, (update project).id = project.id)
    (hnew : solution.updateProject id update = .ok new) : new.Filed := by
  obtain ⟨project, hproject, rfl⟩ := updateProject_eq_ok_iff.mp hnew
  exact h.derive_insert ((hupdate project).trans (h.id_of_project? hproject))

/-- Adding a document keeps a snapshot filed. -/
theorem Filed.withDocument (h : solution.Filed) {document : Document}
    (hnew : solution.withDocument document = .ok new) : new.Filed :=
  h.updateProject (fun project => project.id_withDocument document) hnew

/-- A filed snapshot finds a document that was added. -/
theorem Filed.document?_withDocument (h : solution.Filed) {document : Document}
    (hnew : solution.withDocument document = .ok new) :
    new.document? document.id = some document := by
  obtain ⟨project, hproject, rfl⟩ := updateProject_eq_ok_iff.mp hnew
  have hid := h.id_of_project? hproject
  exact document?_eq_some_iff.mpr ⟨_, project?_derive_insert _ _ _,
    Project.document?_withDocument hid.symm⟩

/-- Removing a document is an update of its project. -/
theorem updateProject_of_withoutDocument {id : DocumentId}
    (hnew : solution.withoutDocument id = .ok new) :
    solution.updateProject id.project (fun project => project.withoutDocument id) = .ok new := by
  unfold withoutDocument at hnew
  cases h : solution.requireDocument id with
  | ok document =>
    rw [h] at hnew
    exact hnew
  | error failure =>
    rw [h] at hnew
    contradiction

/-- Removing a document keeps a snapshot filed. -/
theorem Filed.withoutDocument (h : solution.Filed) {id : DocumentId}
    (hnew : solution.withoutDocument id = .ok new) : new.Filed := by
  have hupdate : ∀ project : Project, (project.withoutDocument id).id = project.id := fun _ => rfl
  exact h.updateProject hupdate (updateProject_of_withoutDocument hnew)

/-- An edit files the document in its next version. -/
theorem withDocument_of_withEdit {id : DocumentId} (hnew : solution.withEdit id = .ok new) :
    ∃ document, solution.document? id = some document ∧
      solution.withDocument { document with version := document.version.next } = .ok new := by
  unfold withEdit withVersion at hnew
  cases h : solution.requireDocument id with
  | ok document =>
    rw [h] at hnew
    exact ⟨document, requireDocument_eq_ok_iff.mp h, hnew⟩
  | error failure =>
    rw [h] at hnew
    contradiction

/-- A document that is found has the identity that it was looked up by. -/
theorem id_of_document? {id : DocumentId} {document : Document}
    (h : solution.document? id = some document) : document.id = id := by
  obtain ⟨project, -, hd⟩ := document?_eq_some_iff.mp h
  exact Project.id_of_document? hd

/-- A snapshot contains the documents that it finds. -/
theorem containsDocument_eq_true_iff {id : DocumentId} :
    solution.containsDocument id = true ↔ ∃ document, solution.document? id = some document :=
  Option.isSome_iff_exists

/-- The snapshot without projects is filed. -/
theorem filed_cleared (solution : Solution) : solution.cleared.Filed := by
  intro e he
  simp [cleared, derive] at he

end Solution

end SolutionWatch
