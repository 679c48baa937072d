import SolutionWatch.Solution

/-!
# Looking things up in snapshots

Lists of documents and projects are what iteration sees, and look-ups by identity are what
statements about snapshots are made of. Here the two are tied together: a listed document or project
is the one that its own identity finds, and no identity is listed twice. For documents this holds of
every project, because a project owns its documents; for projects it needs `Solution.Filed`.

Two filed snapshots with one fingerprint find the same: `Filed.project?_fingerprint_eq` says so for
projects, and `Filed.containsDocument_congr` for documents.
-/

namespace SolutionWatch

namespace Project

/-- A listed document is the one that its identity finds. -/
theorem mem_allDocuments_iff {project : Project} {d : Document} :
    d ∈ project.allDocuments ↔ project.document? d.id = some d := by
  rw [allDocuments, Catalog.mem_values, document?, Catalog.get?_eq_some_iff]
  constructor
  · rintro ⟨k, hk⟩
    have hid : d.id = k := (project.owned _ hk).1
    rwa [hid]
  · exact fun h => ⟨_, h⟩

/-- A listed source document is the one that its identity finds, and it is a source document. -/
theorem mem_sources_iff {project : Project} {d : Document} :
    d ∈ project.sources ↔ project.document? d.id = some d ∧ d.kind = .source := by
  rw [sources, documentsOf, List.mem_filter, mem_allDocuments_iff, decide_eq_true_eq]

/-- The identities of the listed documents are the keys of the catalogue. -/
theorem map_id_allDocuments (project : Project) :
    project.allDocuments.map Document.id = project.documents.keys := by
  rw [allDocuments, Catalog.values, Catalog.keys, List.map_map]
  exact List.map_congr_left fun e he => (project.owned e he).1

/-- No document identity is listed twice. -/
theorem nodup_ids_allDocuments (project : Project) :
    (project.allDocuments.map Document.id).Nodup := by
  rw [map_id_allDocuments]
  exact project.documents.nodup

/-- No identity of a source document is listed twice. -/
theorem nodup_ids_sources (project : Project) : (project.sources.map Document.id).Nodup :=
  project.nodup_ids_allDocuments.sublist (List.filter_sublist.map _)

/-- A project contains the documents that it finds. -/
theorem containsDocument_eq_true_iff {project : Project} {id : DocumentId} :
    project.containsDocument id = true ↔ ∃ d, project.document? id = some d :=
  Catalog.contains_eq_true_iff

/-- A project does not contain the documents that it does not find. -/
theorem containsDocument_eq_false_iff {project : Project} {id : DocumentId} :
    project.containsDocument id = false ↔ project.document? id = none :=
  Catalog.contains_eq_false_iff

end Project

namespace Solution

/-- A snapshot contains the projects that it finds. -/
theorem containsProject_eq_true_iff {solution : Solution} {id : ProjectId} :
    solution.containsProject id = true ↔ ∃ p, solution.project? id = some p :=
  Catalog.contains_eq_true_iff

/-- A snapshot does not contain the projects that it does not find. -/
theorem containsProject_eq_false_iff {solution : Solution} {id : ProjectId} :
    solution.containsProject id = false ↔ solution.project? id = none :=
  Catalog.contains_eq_false_iff

/-- In a filed snapshot, the project that an identity finds has that identity. -/
theorem Filed.id_of_project? {solution : Solution} (h : solution.Filed) {id : ProjectId}
    {p : Project} (hp : solution.project? id = some p) : p.id = id :=
  h _ (Catalog.mem_of_get? hp)

/-- In a filed snapshot, a listed project is the one that its identity finds. -/
theorem Filed.mem_allProjects_iff {solution : Solution} (h : solution.Filed) {p : Project} :
    p ∈ solution.allProjects ↔ solution.project? p.id = some p := by
  rw [allProjects, Catalog.mem_values, project?, Catalog.get?_eq_some_iff]
  constructor
  · rintro ⟨k, hk⟩
    have hid : p.id = k := h _ hk
    rwa [hid]
  · exact fun hp => ⟨_, hp⟩

/-- In a filed snapshot, the identities of the listed projects are those they are filed under. -/
theorem Filed.map_id_allProjects {solution : Solution} (h : solution.Filed) :
    solution.allProjects.map Project.id = solution.projectIds := by
  rw [allProjects, Catalog.values, projectIds, Catalog.keys, List.map_map]
  exact List.map_congr_left fun e he => h e he

/-- In a filed snapshot, no project identity is listed twice. -/
theorem Filed.nodup_ids {solution : Solution} (h : solution.Filed) :
    (solution.allProjects.map Project.id).Nodup := by
  rw [h.map_id_allProjects]
  exact solution.projects.nodup

/-- A document is found when its project finds it. -/
theorem document?_eq_some_iff {solution : Solution} {id : DocumentId} {d : Document} :
    solution.document? id = some d ↔
      ∃ p, solution.project? id.project = some p ∧ p.document? id = some d := by
  rw [document?, Option.bind_eq_some_iff]

/-- A project is found when it is required. -/
theorem requireProject_eq_ok_iff {solution : Solution} {id : ProjectId} {p : Project} :
    solution.requireProject id = .ok p ↔ solution.project? id = some p := by
  unfold requireProject
  split <;> simp_all

/-- A document is found when it is required. -/
theorem requireDocument_eq_ok_iff {solution : Solution} {id : DocumentId} {d : Document} :
    solution.requireDocument id = .ok d ↔ solution.document? id = some d := by
  unfold requireDocument
  split <;> simp_all

/-! ## What fingerprint determines -/

/-- A filed snapshot finds a project by going through the list. -/
theorem Filed.project?_eq_find? {solution : Solution} (h : solution.Filed) (id : ProjectId) :
    solution.project? id = solution.allProjects.find? fun p => p.id = id := by
  ext p
  rw [List.find?_eq_some_iff_append]
  constructor
  · intro hp
    have hid := h.id_of_project? hp
    have hm : p ∈ solution.allProjects := h.mem_allProjects_iff.mpr (hid ▸ hp)
    obtain ⟨before, after, hsplit⟩ := List.append_of_mem hm
    refine ⟨by simpa using hid, before, after, hsplit, fun q hq => ?_⟩
    have hnd := h.nodup_ids
    rw [hsplit, List.map_append, List.map_cons, List.nodup_append] at hnd
    have hne := hnd.2.2 q.id (List.mem_map_of_mem hq) p.id List.mem_cons_self
    simpa [hid] using hne
  · rintro ⟨hid, before, after, hsplit, -⟩
    have hid' : p.id = id := by simpa using hid
    have hm : p ∈ solution.allProjects := by simp [hsplit]
    rw [← hid']
    exact h.mem_allProjects_iff.mp hm

/-- Filed snapshots with one fingerprint find projects with one fingerprint. -/
theorem Filed.project?_fingerprint_eq {a b : Solution} (ha : a.Filed) (hb : b.Filed)
    (h : a.fingerprint = b.fingerprint) (id : ProjectId) :
    (a.project? id).map Project.fingerprint = (b.project? id).map Project.fingerprint := by
  have hlist : a.allProjects.map Project.fingerprint = b.allProjects.map Project.fingerprint :=
    congrArg Content.projects h
  have hfind : ∀ l : List Project, (l.find? fun p => p.id = id).map Project.fingerprint =
      (l.map Project.fingerprint).find? fun p => p.id = id := by
    intro l
    rw [List.find?_map]
    rfl
  rw [ha.project?_eq_find?, hb.project?_eq_find?, hfind, hfind, hlist]

/-- Filed snapshots with one fingerprint contain the same projects. -/
theorem Filed.containsProject_congr {a b : Solution} (ha : a.Filed) (hb : b.Filed)
    (h : a.fingerprint = b.fingerprint) (id : ProjectId) :
    a.containsProject id = b.containsProject id := by
  have hmap := congrArg Option.isSome (ha.project?_fingerprint_eq hb h id)
  rw [Option.isSome_map, Option.isSome_map] at hmap
  exact hmap

/-- Filed snapshots with one fingerprint find the same documents. -/
theorem Filed.document?_congr {a b : Solution} (ha : a.Filed) (hb : b.Filed)
    (h : a.fingerprint = b.fingerprint) (id : DocumentId) : a.document? id = b.document? id := by
  have hmap : ∀ s : Solution, s.document? id =
      ((s.project? id.project).map Project.fingerprint).bind fun p => p.document? id := by
    intro s
    rw [document?, Option.bind_map]
    rfl
  rw [hmap, hmap, ha.project?_fingerprint_eq hb h]

/-- Filed snapshots with one fingerprint contain the same documents. -/
theorem Filed.containsDocument_congr {a b : Solution} (ha : a.Filed) (hb : b.Filed)
    (h : a.fingerprint = b.fingerprint) (id : DocumentId) :
    a.containsDocument id = b.containsDocument id := by
  rw [containsDocument, containsDocument, ha.document?_congr hb h]

end Solution

end SolutionWatch
