import SolutionWatch.Failure

/-!
# Solution snapshots

A `Solution` is the state of a workspace at one point in time. It is never changed: an operation
derives the next snapshot, whose version is one higher even when nothing else differs, or fails
because what it names is missing.

Projects are filed under an identity. Deriving keeps the order of the projects: a replaced project
keeps its place and a new one goes to the end. `withProject` files a project under its own
identity; `updateProject` leaves the filing alone, so an update that returns another project puts
that project under the identity that was asked for. `Filed` says that this has not happened.
-/

namespace SolutionWatch

/-- The state of a workspace at one point in time. -/
structure Solution where
  /-- The workspace that the snapshot belongs to. -/
  workspace : WorkspaceId
  /-- The number of derivations since the empty snapshot that the workspace began with. -/
  version : Version := 0
  /-- The projects, filed by identity. -/
  projects : Catalog ProjectId Project := {}
  deriving DecidableEq, Repr, Inhabited

namespace Solution

/-- The empty snapshot that a workspace begins with. -/
def initial (workspace : WorkspaceId) : Solution := { workspace := workspace }

/-- The next snapshot of the workspace, with the given projects. -/
def derive (solution : Solution) (projects : Catalog ProjectId Project) : Solution :=
  { solution with version := solution.version.next, projects := projects }

/-- The project filed under an identity, if there is one. -/
def project? (solution : Solution) (id : ProjectId) : Option Project := solution.projects.get? id

/-- Whether a project is filed under an identity. -/
def containsProject (solution : Solution) (id : ProjectId) : Bool := solution.projects.contains id

/-- The project filed under an identity, or the failure to find it. -/
def requireProject (solution : Solution) (id : ProjectId) : Except Failure Project :=
  match solution.project? id with
  | some project => .ok project
  | none => .error (.projectNotFound id)

/-- The document of an identity, looked up in the project filed under its owner. -/
def document? (solution : Solution) (id : DocumentId) : Option Document :=
  (solution.project? id.project).bind fun project => project.document? id

/-- Whether a document can be looked up. -/
def containsDocument (solution : Solution) (id : DocumentId) : Bool :=
  (solution.document? id).isSome

/-- The document of an identity, or the failure to find it. -/
def requireDocument (solution : Solution) (id : DocumentId) : Except Failure Document :=
  match solution.document? id with
  | some document => .ok document
  | none => .error (.documentNotFound id)

/-- The identities that projects are filed under, in order. -/
def projectIds (solution : Solution) : List ProjectId := solution.projects.keys

/-- The projects, in order. -/
def allProjects (solution : Solution) : List Project := solution.projects.values

/-- All that is tracked of the workspace: what two snapshots of one content agree on. -/
def content (solution : Solution) : Content :=
  ⟨solution.workspace, solution.allProjects.map Project.content⟩

/-- What the checksum of the snapshot is computed from. -/
def fingerprint (solution : Solution) : Fingerprint :=
  ⟨solution.workspace, solution.allProjects.map Project.fingerprint⟩

/-- Every project is filed under its own identity. -/
def Filed (solution : Solution) : Prop := ∀ e ∈ solution.projects.entries, e.2.id = e.1

instance (solution : Solution) : Decidable solution.Filed :=
  inferInstanceAs (Decidable (∀ e ∈ solution.projects.entries, e.2.id = e.1))

/-- Adds a project, or replaces in place the one filed under its identity. -/
def withProject (solution : Solution) (project : Project) : Solution :=
  solution.derive (solution.projects.insert project.id project)

/-- Removes a project, keeping the order of the others. -/
def withoutProject (solution : Solution) (id : ProjectId) : Except Failure Solution :=
  if solution.containsProject id then .ok (solution.derive (solution.projects.erase id))
  else .error (.projectNotFound id)

/-- Replaces the project filed under `id` by what `update` makes of it. -/
def updateProject (solution : Solution) (id : ProjectId) (update : Project → Project) :
    Except Failure Solution := do
  let project ← solution.requireProject id
  return solution.derive (solution.projects.insert id (update project))

/-- The next snapshot, without any project. -/
def cleared (solution : Solution) : Solution := solution.derive .empty

/-- The next snapshot, with the same projects. -/
def touched (solution : Solution) : Solution := solution.derive solution.projects

/-- Adds a document to the project filed under its owner, or replaces it in place. -/
def withDocument (solution : Solution) (document : Document) : Except Failure Solution :=
  solution.updateProject document.id.project fun project => project.withDocument document

/-- Removes a document, keeping the order of the others. -/
def withoutDocument (solution : Solution) (id : DocumentId) : Except Failure Solution := do
  let _ ← solution.requireDocument id
  solution.updateProject id.project fun project => project.withoutDocument id

/-- Sets the version of a document. -/
def withVersion (solution : Solution) (id : DocumentId) (version : Version) :
    Except Failure Solution := do
  let document ← solution.requireDocument id
  solution.withDocument { document with version := version }

/-- Moves the version of a document on by one. -/
def withEdit (solution : Solution) (id : DocumentId) : Except Failure Solution := do
  let document ← solution.requireDocument id
  solution.withVersion id document.version.next

/-- What two snapshots share. What is one object is equal; two objects may still be equal. -/
inductive Sharing (a b : Solution) where
  /-- They are two objects, and nothing is known about their projects. -/
  | separate
  /-- They are one object. -/
  | shared (equal : a = b)
  /-- They are two objects; `same` says which projects of the first, by the identity they are filed
  under, are one object with which projects of the second. -/
  | overlapping (same : ProjectId → ProjectId → Bool)
      (equal : ∀ i j, same i j = true → a.project? i = b.project? j)

/-- Whether what `a` files under `i` is known to be one object with what `b` files under `j`. -/
def Sharing.holds {a b : Solution} (sharing : Sharing a b) (i j : ProjectId) : Bool :=
  match sharing with
  | .separate => false
  | .shared _ => decide (i = j)
  | .overlapping same _ => same i j

/-- How two snapshots share if `same` says whether they are one object. -/
def sharing (a b : Solution) (same : Bool) : Sharing a b :=
  if h : same = true ∧ a = b then .shared h.2 else .separate

/-- What is one object is equal. -/
theorem Sharing.equal_of_holds {a b : Solution} {sharing : Sharing a b} {i j : ProjectId}
    (h : sharing.holds i j = true) : a.project? i = b.project? j := by
  cases sharing with
  | separate => simp [holds] at h
  | shared equal =>
    have hij : i = j := of_decide_eq_true h
    rw [hij, equal]
  | overlapping same equal => exact equal i j h

/-- The empty snapshot is filed. -/
theorem filed_initial (workspace : WorkspaceId) : (initial workspace).Filed := by
  intro e he
  simp [initial] at he

/-- Adding a project keeps a snapshot filed. -/
theorem Filed.withProject {solution : Solution} (h : solution.Filed) (project : Project) :
    (solution.withProject project).Filed := by
  intro e he
  rcases Catalog.mem_insert he with rfl | he
  · rfl
  · exact h e he

end Solution

end SolutionWatch
