import Mathlib.Data.List.Nodup
import SolutionWatch.Fixture
import SolutionWatch.Proofs.Snapshot.Derivation

/-!
# What generated solutions contain

The identities of a generated solution are computed from positions. As long as there are enough of them
(`Fixture.Fits`) they are all different, so every project and document that the generation adds is a new
one and comes last: the solution lists its projects and their documents by position
(`Fixture.entries_solution`, `Fixture.sources_project`).
-/

namespace SolutionWatch

namespace Catalog

variable {α κ ν : Type} [DecidableEq κ]

/-- A value that is filed under a new key comes last. -/
theorem place_of_not_mem {key : κ} {entries : List (κ × ν)} (h : key ∉ entries.map Prod.fst)
    (value : ν) : place key value entries = entries ++ [(key, value)] := by
  induction entries with
  | nil => rfl
  | cons entry rest ih =>
    rw [List.map_cons, List.mem_cons, not_or] at h
    rw [place, if_neg (Ne.symm h.1), ih h.2, List.cons_append]

/-- Values that are filed one after the other under new keys are listed in this order. -/
theorem entries_foldl_insert (key : α → κ) (value : α → ν) {items : List α} {catalog : Catalog κ ν}
    (h : (catalog.keys ++ items.map key).Nodup) :
    (items.foldl (fun catalog item => catalog.insert (key item) (value item)) catalog).entries =
      catalog.entries ++ items.map fun item => (key item, value item) := by
  induction items generalizing catalog with
  | nil => simp
  | cons item items ih =>
    have hfresh : key item ∉ catalog.keys := by
      rw [List.map_cons, List.nodup_append'] at h
      exact fun hmem => h.2.2 hmem List.mem_cons_self
    have hinsert : (catalog.insert (key item) (value item)).entries =
        catalog.entries ++ [(key item, value item)] := place_of_not_mem hfresh (value item)
    have hkeys : (catalog.insert (key item) (value item)).keys = catalog.keys ++ [key item] := by
      rw [keys_insert, if_neg hfresh]
    rw [List.foldl_cons, ih (by simpa [hkeys] using h), hinsert, List.map_cons, List.append_assoc]
    rfl

end Catalog

namespace Project

/-- Adding documents of a project one after the other files them one after the other. -/
theorem foldl_withDocument {documents : List Document} {project : Project}
    (h : ∀ document ∈ documents, document.id.project = project.id) :
    (documents.foldl withDocument project).id = project.id ∧
      (documents.foldl withDocument project).documents =
        documents.foldl (fun catalog document => catalog.insert document.id document)
          project.documents := by
  induction documents generalizing project with
  | nil => exact ⟨rfl, rfl⟩
  | cons document documents ih =>
    obtain ⟨howner, hrest⟩ := List.forall_mem_cons.mp h
    have hdocuments : (project.withDocument document).documents =
        project.documents.insert document.id document := by
      rw [withDocument, dif_pos howner]
    have hid := project.id_withDocument document
    have hstep := ih fun other hother => (hrest other hother).trans hid.symm
    rw [hid, hdocuments] at hstep
    exact hstep

/-- A project without documents lists the documents of its own that are added to it. -/
theorem allDocuments_foldl_withDocument {documents : List Document} {project : Project}
    (hempty : project.documents = .empty)
    (howner : ∀ document ∈ documents, document.id.project = project.id)
    (hnodup : (documents.map Document.id).Nodup) :
    (documents.foldl withDocument project).allDocuments = documents := by
  have hkeys : ((Catalog.empty : Catalog DocumentId Document).keys ++
      documents.map Document.id).Nodup := hnodup
  have hentries := Catalog.entries_foldl_insert Document.id (fun document => document) hkeys
  rw [allDocuments, (foldl_withDocument howner).2, hempty, Catalog.values, hentries]
  simp [Function.comp_def]

end Project

namespace Solution

/-- Adding projects one after the other files them one after the other. -/
theorem projects_foldl_withProject (projects : List Project) (solution : Solution) :
    (projects.foldl withProject solution).projects =
      projects.foldl (fun catalog project => catalog.insert project.id project) solution.projects := by
  induction projects generalizing solution with
  | nil => rfl
  | cons project projects ih => exact ih (solution.withProject project)

/-- Adding projects keeps a snapshot in its workspace, and keeps it filed. -/
theorem filed_foldl_withProject {projects : List Project} {solution : Solution} (h : solution.Filed) :
    (projects.foldl withProject solution).workspace = solution.workspace ∧
      (projects.foldl withProject solution).Filed := by
  induction projects generalizing solution with
  | nil => exact ⟨rfl, h⟩
  | cons project projects ih => exact ih (h.withProject project)

end Solution

namespace Fixture

/-- There are enough identities for the projects of a shape, and for the documents of each of them: an
identity is a word of 64 bits, and no position may share the word of another one. -/
structure Fits (fixture : Fixture) : Prop where
  /-- There is an identity for each project. -/
  projects : fixture.projects ≤ UInt64.size
  /-- There is an identity for each document, if there is a project to have documents. -/
  documents : 0 < fixture.projects → fixture.documents + fixture.additional ≤ UInt64.size

/-- Different positions have different identities, as long as there are enough of them. -/
theorem word_inj {a b : ℕ} (ha : a < UInt64.size) (hb : b < UInt64.size)
    (h : UInt64.ofNat (a + 1) = UInt64.ofNat (b + 1)) : a = b := by
  have hword := congrArg UInt64.toNat h
  rw [UInt64.toNat_ofNat', UInt64.toNat_ofNat'] at hword
  rw [UInt64.size] at ha hb
  omega

/-- The additional documents have the identities after those of the source documents. -/
theorem map_id_documents (fixture : Fixture) (p : ℕ) :
    (((List.range fixture.documents).map (sourceDocument p) ++
      (List.range fixture.additional).map (fixture.additionalDocument p)).map Document.id) =
      (List.range (fixture.documents + fixture.additional)).map (documentId p) := by
  simp only [List.range_add, List.map_append, List.map_map, Function.comp_def]
  rfl

variable {fixture : Fixture} {p : ℕ}

/-- No two projects of a generated solution have one identity. -/
theorem Fits.nodup_projectIds (h : fixture.Fits) :
    ((List.range fixture.projects).map projectId).Nodup := by
  refine List.Nodup.map_on (fun a ha b hb hab => ?_) List.nodup_range
  rw [List.mem_range] at ha hb
  exact word_inj (Nat.lt_of_lt_of_le ha h.projects) (Nat.lt_of_lt_of_le hb h.projects) (ProjectId.mk.inj hab)

/-- Different documents of a project have different identities. -/
theorem Fits.documentId_inj (h : fixture.Fits) (hp : p < fixture.projects) {a b : ℕ}
    (ha : a < fixture.documents + fixture.additional)
    (hb : b < fixture.documents + fixture.additional) (hab : documentId p a = documentId p b) :
    a = b := by
  have hfits := h.documents (Nat.zero_lt_of_lt hp)
  exact word_inj (Nat.lt_of_lt_of_le ha hfits) (Nat.lt_of_lt_of_le hb hfits) (DocumentId.mk.inj hab).2

/-- A generated project has its identity, and lists its source documents by position and after them its
additional documents. -/
theorem Fits.project_eq (h : fixture.Fits) (hp : p < fixture.projects) :
    (fixture.project p).id = projectId p ∧ (fixture.project p).allDocuments =
      (List.range fixture.documents).map (sourceDocument p) ++
        (List.range fixture.additional).map (fixture.additionalDocument p) := by
  have howner : ∀ document ∈ (List.range fixture.documents).map (sourceDocument p) ++
      (List.range fixture.additional).map (fixture.additionalDocument p),
      document.id.project = projectId p := by
    intro document hdocument
    rcases List.mem_append.mp hdocument with hsource | hadditional
    · obtain ⟨d, -, rfl⟩ := List.mem_map.mp hsource
      rfl
    · obtain ⟨a, -, rfl⟩ := List.mem_map.mp hadditional
      rfl
  have hnodup : (((List.range fixture.documents).map (sourceDocument p) ++
      (List.range fixture.additional).map (fixture.additionalDocument p)).map Document.id).Nodup := by
    rw [map_id_documents]
    refine List.Nodup.map_on (fun a ha b hb hab => ?_) List.nodup_range
    exact h.documentId_inj hp (List.mem_range.mp ha) (List.mem_range.mp hb) hab
  exact ⟨(Project.foldl_withDocument howner).1,
    Project.allDocuments_foldl_withDocument rfl howner hnodup⟩

/-- The source documents of a generated project are listed by position. -/
theorem Fits.sources_project (h : fixture.Fits) (hp : p < fixture.projects) :
    (fixture.project p).sources = (List.range fixture.documents).map (sourceDocument p) := by
  rw [Project.sources, Project.documentsOf, (h.project_eq hp).2, List.filter_append,
    List.filter_eq_self.mpr, List.filter_eq_nil_iff.mpr, List.append_nil]
  · intro document hdocument
    obtain ⟨a, -, rfl⟩ := List.mem_map.mp hdocument
    exact of_decide_eq_false rfl
  · intro document hdocument
    obtain ⟨d, -, rfl⟩ := List.mem_map.mp hdocument
    rfl

/-- A generated solution lists its projects by position. -/
theorem Fits.entries_solution (h : fixture.Fits) :
    fixture.solution.projects.entries =
      (List.range fixture.projects).map fun p => (projectId p, fixture.project p) := by
  have hids : ((List.range fixture.projects).map fixture.project).map Project.id =
      (List.range fixture.projects).map projectId := by
    rw [List.map_map]
    exact List.map_congr_left fun p hp => (h.project_eq (List.mem_range.mp hp)).1
  have hkeys : ((Solution.initial workspace).projects.keys ++
      ((List.range fixture.projects).map fixture.project).map Project.id).Nodup := by
    rw [hids]
    exact h.nodup_projectIds
  rw [solution, Solution.projects_foldl_withProject,
    Catalog.entries_foldl_insert Project.id (fun project => project) hkeys, List.map_map]
  refine List.map_congr_left fun p hp => ?_
  rw [Function.comp_apply, (h.project_eq (List.mem_range.mp hp)).1]

/-- A generated solution is filed. -/
theorem filed_solution (fixture : Fixture) : fixture.solution.Filed :=
  (Solution.filed_foldl_withProject (Solution.filed_initial workspace)).2

/-- A generated solution contains its source documents. -/
theorem Fits.document?_solution (h : fixture.Fits) (hp : p < fixture.projects) {d : ℕ}
    (hd : d < fixture.documents) :
    fixture.solution.document? (documentId p d) = some (sourceDocument p d) := by
  have hproject : fixture.solution.project? (projectId p) = some (fixture.project p) := by
    rw [Solution.project?, Catalog.get?_eq_some_iff, h.entries_solution]
    exact List.mem_map_of_mem (List.mem_range.mpr hp)
  have hdocument : sourceDocument p d ∈ (fixture.project p).sources := by
    rw [h.sources_project hp]
    exact List.mem_map_of_mem (List.mem_range.mpr hd)
  exact Solution.document?_eq_some_iff.mpr
    ⟨_, hproject, (Project.mem_sources_iff.mp hdocument).1⟩

end Fixture

end SolutionWatch
