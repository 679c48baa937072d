import SolutionWatch.Derivation
import SolutionWatch.Proofs.Diff.Update
import SolutionWatch.Proofs.Workspace.Refusals

/-!
# What a derivation leaves alone

A derivation names one project or one document. It fails exactly if what it names has to be there and is
not (`Derivation.Misses`), and else it moves the version on by one and does one thing to one entry of one
catalogue: the entry gets a value in its own place, or comes as the last one, or goes
(`Catalog.Sets`). All that can be said of the other entries, of their order and of look-ups follows from
this, for the catalogue of projects as for the catalogue of documents of a project. A document's project
is one more entry that gets a value in its own place.
-/

namespace SolutionWatch

namespace Catalog

/-- How a list of entries becomes another one when one key gets a value, or loses the one it has. -/
inductive Sets {κ ν : Type} (key : κ) : Option ν → List (κ × ν) → List (κ × ν) → Prop
  /-- The key keeps its place. -/
  | replaced (before after : List (κ × ν)) (old new : ν) :
      Sets key (some new) (before ++ (key, old) :: after) (before ++ (key, new) :: after)
  /-- The key is new and comes last. -/
  | appended {entries : List (κ × ν)} (new : ν) : key ∉ entries.map Prod.fst →
      Sets key (some new) entries (entries ++ [(key, new)])
  /-- The key goes, and leaves no gap. -/
  | removed (before after : List (κ × ν)) (old : ν) :
      Sets key none (before ++ (key, old) :: after) (before ++ after)

variable {κ ν : Type} {key : κ} {value : Option ν}

/-- What becomes of later entries becomes of a list with one more entry before them. -/
theorem Sets.cons {old new : List (κ × ν)} (h : Sets key value old new) {entry : κ × ν}
    (hne : entry.1 ≠ key) : Sets key value (entry :: old) (entry :: new) := by
  cases h with
  | replaced before after old new => exact .replaced (entry :: before) after old new
  | appended new hnew =>
    refine .appended new ?_
    rw [List.map_cons, List.mem_cons, not_or]
    exact ⟨hne.symm, hnew⟩
  | removed before after old => exact .removed (entry :: before) after old

/-- Around the entry of a key no other entry has the key. -/
theorem ne_of_nodup {before after : List (κ × ν)} {old : ν}
    (hnodup : ((before ++ (key, old) :: after).map Prod.fst).Nodup) :
    ∀ entry ∈ before ++ after, entry.1 ≠ key := by
  rw [List.map_append, List.map_cons, List.nodup_middle, List.nodup_cons, ← List.map_append] at hnodup
  intro entry hentry hkey
  exact hnodup.1 (List.mem_map.mpr ⟨entry, hentry, hkey⟩)

variable [DecidableEq κ]

/-- Filing a value under a key gives the key that value. -/
theorem sets_place (key : κ) (new : ν) (entries : List (κ × ν)) :
    Sets key (some new) entries (place key new entries) := by
  induction entries with
  | nil => exact .appended new List.not_mem_nil
  | cons entry rest ih =>
    rw [place]
    split
    · next hkey =>
      obtain ⟨k, old⟩ := entry
      obtain rfl : k = key := hkey
      exact .replaced [] rest old new
    · next hne => exact ih.cons hne

/-- Filing a value under a key gives the key that value. -/
theorem sets_insert (catalog : Catalog κ ν) (key : κ) (new : ν) :
    Sets key (some new) catalog.entries (catalog.insert key new).entries :=
  sets_place key new catalog.entries

/-- Removing a key that has a value takes the value from it. -/
theorem sets_erase {catalog : Catalog κ ν} {old : ν} (h : catalog.get? key = some old) :
    Sets key none catalog.entries (catalog.erase key).entries := by
  obtain ⟨before, after, hsplit⟩ := List.append_of_mem (mem_of_get? h)
  have hothers := ne_of_nodup (hsplit ▸ catalog.nodup)
  have herase : (catalog.erase key).entries = before ++ after := by
    change catalog.entries.filter (fun entry => entry.1 ≠ key) = before ++ after
    rw [hsplit, List.filter_append, List.filter_cons_of_neg (by simp), ← List.filter_append]
    exact List.filter_eq_self.mpr fun entry hentry => by simpa using hothers entry hentry
  rw [herase, hsplit]
  exact .removed before after old

/-- A key that was given a value finds it, and a key that lost its value finds nothing. -/
theorem Sets.get?_eq {old new : Catalog κ ν} (h : Sets key value old.entries new.entries) :
    new.get? key = value := by
  obtain ⟨oldEntries, hold⟩ := old
  obtain ⟨newEntries, hnew⟩ := new
  cases h with
  | replaced before after old new => exact get?_eq_some_iff.mpr (by simp)
  | appended new habsent => exact get?_eq_some_iff.mpr (by simp)
  | removed before after old =>
    exact get?_eq_none_iff.mpr fun v hv => ne_of_nodup hold _ hv rfl

/-- Every other key finds what it found before. -/
theorem Sets.get?_of_ne {old new : Catalog κ ν} (h : Sets key value old.entries new.entries)
    {other : κ} (hother : other ≠ key) : new.get? other = old.get? other := by
  obtain ⟨oldEntries, hold⟩ := old
  obtain ⟨newEntries, hnew⟩ := new
  ext v
  rw [get?_eq_some_iff, get?_eq_some_iff]
  cases h with
  | replaced before after old new => simp [hother]
  | appended new habsent => simp [hother]
  | removed before after old => simp [hother]

end Catalog

namespace Solution

/-- What becomes of a snapshot when one project becomes `value`, or goes: the other projects are the same
in the same order. -/
structure ProjectBecomes (id : ProjectId) (value : Option Project) (old new : Solution) : Prop where
  /-- The project has its value, in its own place or as the last one, or it is gone. -/
  sets : Catalog.Sets id value old.projects.entries new.projects.entries
  /-- The identity finds the value, or nothing. -/
  found : new.project? id = value
  /-- Every other identity finds the same project. -/
  elsewhere : ∀ other, other ≠ id → new.project? other = old.project? other

/-- What becomes of a snapshot when one document becomes `value`, or goes: its project keeps its place
and everything but its documents, and the other documents are the same in the same order. -/
structure DocumentBecomes (id : DocumentId) (value : Option Document) (old new : Solution) : Prop where
  /-- The document's project, which was there, has the document's value, in the document's own place or as
  the last one, or the document is gone from it. -/
  project : ∃ before after, old.project? id.project = some before ∧
    ProjectBecomes id.project (some after) old new ∧ Project.AgreeBut id before after ∧
    Catalog.Sets id value before.documents.entries after.documents.entries
  /-- The identity finds the value, or nothing. -/
  found : new.document? id = value
  /-- Every other identity finds the same document. -/
  elsewhere : ∀ other, other ≠ id → new.document? other = old.document? other

variable {solution new : Solution}

/-- A snapshot in whose catalogue of projects one became `value`. -/
theorem projectBecomes_of_sets {id : ProjectId} {value : Option Project}
    (h : Catalog.Sets id value solution.projects.entries new.projects.entries) :
    ProjectBecomes id value solution new :=
  ⟨h, h.get?_eq, fun _ hother => h.get?_of_ne hother⟩

/-- An update of a project sets it. -/
theorem projectBecomes_of_updateProject {id : ProjectId} {update : Project → Project}
    (hnew : solution.updateProject id update = .ok new) :
    ∃ before, solution.project? id = some before ∧
      ProjectBecomes id (some (update before)) solution new := by
  obtain ⟨before, hbefore, rfl⟩ := updateProject_eq_ok_iff.mp hnew
  exact ⟨before, hbefore, projectBecomes_of_sets (solution.projects.sets_insert id (update before))⟩

/-- A project that changes in nothing but one document changes the snapshot in nothing else. -/
theorem ProjectBecomes.documentBecomes {id : DocumentId} {value : Option Document}
    {before after : Project} (h : ProjectBecomes id.project (some after) solution new)
    (hbefore : solution.project? id.project = some before) (hagree : Project.AgreeBut id before after)
    (hsets : Catalog.Sets id value before.documents.entries after.documents.entries) :
    DocumentBecomes id value solution new where
  project := ⟨before, after, hbefore, h, hagree, hsets⟩
  found := by
    rw [document?, h.found]
    exact hsets.get?_eq
  elsewhere other hother := by
    by_cases hproject : other.project = id.project
    · rw [document?, document?, hproject, h.found, hbefore]
      exact hagree.sameElsewhere other hother
    · rw [document?, document?, h.elsewhere other.project hproject]

/-- A document that is added to a filed snapshot is set. -/
theorem Filed.documentBecomes_withDocument (h : solution.Filed) {document : Document}
    (hnew : solution.withDocument document = .ok new) :
    DocumentBecomes document.id (some document) solution new := by
  obtain ⟨before, hbefore, hbecomes⟩ := projectBecomes_of_updateProject hnew
  -- The project takes the document in, because it is filed under the identity that the document names.
  have howner : document.id.project = before.id := (h.id_of_project? hbefore).symm
  have hdocuments : (before.withDocument document).documents =
      before.documents.insert document.id document := by
    rw [Project.withDocument, dif_pos howner]
  refine hbecomes.documentBecomes hbefore (before.agreeBut_withDocument document) ?_
  rw [hdocuments]
  exact before.documents.sets_insert document.id document

/-- A document that is removed goes. -/
theorem documentBecomes_withoutDocument {id : DocumentId}
    (hnew : solution.withoutDocument id = .ok new) : DocumentBecomes id none solution new := by
  obtain ⟨before, hbefore, hbecomes⟩ :=
    projectBecomes_of_updateProject (updateProject_of_withoutDocument hnew)
  obtain ⟨document, hdocument⟩ : ∃ document, solution.document? id = some document := by
    rw [← containsDocument_eq_true_iff]
    by_contra habsent
    rw [withoutDocument_eq_error_iff.mpr ⟨eq_false_of_ne_true habsent, rfl⟩] at hnew
    contradiction
  obtain ⟨project, hproject, hd⟩ := document?_eq_some_iff.mp hdocument
  obtain rfl : before = project := Option.some.inj (hbefore.symm.trans hproject)
  exact hbecomes.documentBecomes hbefore (before.agreeBut_withoutDocument id)
    (Catalog.sets_erase hd)

/-- Setting the version of a document files the document in that version. -/
theorem withDocument_of_withVersion {id : DocumentId} {version : Version}
    (hnew : solution.withVersion id version = .ok new) :
    ∃ document, solution.document? id = some document ∧
      solution.withDocument { document with version := version } = .ok new := by
  unfold withVersion at hnew
  cases h : solution.requireDocument id with
  | ok document =>
    rw [h] at hnew
    exact ⟨document, requireDocument_eq_ok_iff.mp h, hnew⟩
  | error failure =>
    rw [h] at hnew
    contradiction

/-- A document of a filed snapshot that is filed in another version is set to that version. -/
theorem Filed.documentBecomes_version (h : solution.Filed) {id : DocumentId} {document : Document}
    {version : Version} (hdocument : solution.document? id = some document)
    (hnew : solution.withDocument { document with version := version } = .ok new) :
    DocumentBecomes id (some { document with version := version }) solution new := by
  obtain rfl : document.id = id := id_of_document? hdocument
  exact h.documentBecomes_withDocument hnew

end Solution

namespace Derivation

variable {solution new : Solution}

/-- Why a derivation fails. -/
inductive Misses (solution : Solution) : Derivation → Failure → Prop
  /-- There is no project to remove. -/
  | withoutProject {id : ProjectId} : solution.containsProject id = false →
      Misses solution (.withoutProject id) (.projectNotFound id)
  /-- There is no project to update. -/
  | updateProject {id : ProjectId} {update : Project → Project} :
      solution.containsProject id = false →
      Misses solution (.updateProject id update) (.projectNotFound id)
  /-- There is no project to add the document to. -/
  | withDocument {document : Document} : solution.containsProject document.id.project = false →
      Misses solution (.withDocument document) (.projectNotFound document.id.project)
  /-- There is no document to remove. -/
  | withoutDocument {id : DocumentId} : solution.containsDocument id = false →
      Misses solution (.withoutDocument id) (.documentNotFound id)
  /-- There is no document to give a version to. -/
  | withVersion {id : DocumentId} {version : Version} : solution.containsDocument id = false →
      Misses solution (.withVersion id version) (.documentNotFound id)
  /-- There is no document to edit. -/
  | edit {id : DocumentId} : solution.containsDocument id = false →
      Misses solution (.edit id) (.documentNotFound id)

/-- What a derivation makes of a snapshot, apart from its version. -/
def Makes (old new : Solution) : Derivation → Prop
  | .touch => new.projects = old.projects
  | .clear => new.projects.entries = []
  | .withProject project => Solution.ProjectBecomes project.id (some project) old new
  | .withoutProject id => Solution.ProjectBecomes id none old new
  | .updateProject id update => ∃ before, old.project? id = some before ∧
      Solution.ProjectBecomes id (some (update before)) old new
  | .withDocument document => Solution.DocumentBecomes document.id (some document) old new
  | .withoutDocument id => Solution.DocumentBecomes id none old new
  | .withVersion id version => ∃ before, old.document? id = some before ∧
      Solution.DocumentBecomes id (some { before with version := version }) old new
  | .edit id => ∃ before, old.document? id = some before ∧
      Solution.DocumentBecomes id (some { before with version := before.version.next }) old new

/-- A derivation fails exactly if what it names has to be there and is not. -/
theorem apply_eq_error_iff {derivation : Derivation} {failure : Failure} :
    derivation.apply solution = .error failure ↔ derivation.Misses solution failure := by
  constructor
  · intro h
    cases derivation with
    | touch | clear | withProject => contradiction
    | withoutProject id =>
      obtain ⟨habsent, rfl⟩ := Solution.withoutProject_eq_error_iff.mp h
      exact .withoutProject habsent
    | updateProject id update =>
      obtain ⟨habsent, rfl⟩ := Solution.updateProject_eq_error_iff.mp h
      exact .updateProject habsent
    | withDocument document =>
      obtain ⟨habsent, rfl⟩ := Solution.updateProject_eq_error_iff.mp h
      exact .withDocument habsent
    | withoutDocument id =>
      obtain ⟨habsent, rfl⟩ := Solution.withoutDocument_eq_error_iff.mp h
      exact .withoutDocument habsent
    | withVersion id version =>
      obtain ⟨habsent, rfl⟩ := Solution.withVersion_eq_error_iff.mp h
      exact .withVersion habsent
    | edit id =>
      obtain ⟨habsent, rfl⟩ := Solution.withEdit_eq_error_iff.mp h
      exact .edit habsent
  · intro h
    cases h with
    | withoutProject habsent => exact Solution.withoutProject_eq_error_iff.mpr ⟨habsent, rfl⟩
    | updateProject habsent => exact Solution.updateProject_eq_error_iff.mpr ⟨habsent, rfl⟩
    | withDocument habsent => exact Solution.updateProject_eq_error_iff.mpr ⟨habsent, rfl⟩
    | withoutDocument habsent => exact Solution.withoutDocument_eq_error_iff.mpr ⟨habsent, rfl⟩
    | withVersion habsent => exact Solution.withVersion_eq_error_iff.mpr ⟨habsent, rfl⟩
    | edit habsent => exact Solution.withEdit_eq_error_iff.mpr ⟨habsent, rfl⟩

/-- Whatever a derivation does, it derives. -/
theorem exists_derive_of_apply {derivation : Derivation} (hnew : derivation.apply solution = .ok new) :
    ∃ projects, new = solution.derive projects := by
  have hupdate : ∀ {id update}, solution.updateProject id update = .ok new →
      ∃ projects, new = solution.derive projects := by
    intro id update hnew
    obtain ⟨before, -, rfl⟩ := Solution.updateProject_eq_ok_iff.mp hnew
    exact ⟨_, rfl⟩
  cases derivation with
  | touch | clear | withProject => exact ⟨_, (Except.ok.inj hnew).symm⟩
  | withoutProject id =>
    obtain ⟨-, rfl⟩ := Solution.withoutProject_eq_ok_iff.mp hnew
    exact ⟨_, rfl⟩
  | updateProject id update => exact hupdate hnew
  | withDocument document => exact hupdate hnew
  | withoutDocument id => exact hupdate (Solution.updateProject_of_withoutDocument hnew)
  | withVersion id version =>
    obtain ⟨document, -, hdocument⟩ := Solution.withDocument_of_withVersion hnew
    exact hupdate hdocument
  | edit id =>
    obtain ⟨document, -, hdocument⟩ := Solution.withDocument_of_withEdit hnew
    exact hupdate hdocument

/-- A derivation from a filed snapshot that succeeds makes what it says of what it names, and of nothing
else. -/
theorem makes_of_apply (hfiled : solution.Filed) {derivation : Derivation}
    (hnew : derivation.apply solution = .ok new) : derivation.Makes solution new := by
  cases derivation with
  | touch | clear =>
    obtain rfl := Except.ok.inj hnew
    rfl
  | withProject project =>
    obtain rfl := Except.ok.inj hnew
    exact Solution.projectBecomes_of_sets (solution.projects.sets_insert project.id project)
  | withoutProject id =>
    obtain ⟨hcontains, rfl⟩ := Solution.withoutProject_eq_ok_iff.mp hnew
    obtain ⟨before, hbefore⟩ := Solution.containsProject_eq_true_iff.mp hcontains
    exact Solution.projectBecomes_of_sets (Catalog.sets_erase hbefore)
  | updateProject id update => exact Solution.projectBecomes_of_updateProject hnew
  | withDocument document => exact hfiled.documentBecomes_withDocument hnew
  | withoutDocument id => exact Solution.documentBecomes_withoutDocument hnew
  | withVersion id version =>
    obtain ⟨document, hdocument, hversion⟩ := Solution.withDocument_of_withVersion hnew
    exact ⟨document, hdocument, hfiled.documentBecomes_version hdocument hversion⟩
  | edit id =>
    obtain ⟨document, hdocument, hversion⟩ := Solution.withDocument_of_withEdit hnew
    exact ⟨document, hdocument, hfiled.documentBecomes_version hdocument hversion⟩

/-- A derivation from a snapshot changes only what it names. -/
structure ChangesOnlyNamed (derivation : Derivation) (solution : Solution) : Prop where
  /-- It fails exactly if what it names has to be there and is not. -/
  fails : ∀ failure, derivation.apply solution = .error failure ↔ derivation.Misses solution failure
  /-- If it succeeds, the workspace stays. -/
  workspace : ∀ new, derivation.apply solution = .ok new → new.workspace = solution.workspace
  /-- The version moves on by one. -/
  version : ∀ new, derivation.apply solution = .ok new → new.version = solution.version.next
  /-- What it names becomes what it says, and everything else stays as it is, in the same order. -/
  makes : ∀ new, derivation.apply solution = .ok new → derivation.Makes solution new

/-- Every derivation from a snapshot whose projects are filed under their own identities changes only what
it names, and fails only if that is missing. -/
theorem changes_only_named {solution : Solution} (hfiled : solution.Filed) (derivation : Derivation) :
    derivation.ChangesOnlyNamed solution where
  fails _ := apply_eq_error_iff
  workspace new hnew := by
    obtain ⟨projects, rfl⟩ := exists_derive_of_apply hnew
    rfl
  version new hnew := by
    obtain ⟨projects, rfl⟩ := exists_derive_of_apply hnew
    rfl
  makes _ hnew := makes_of_apply hfiled hnew

/-- An edit of the second document of a generated solution succeeds and changes only this document. -/
theorem changes_only_named_of_edit :
    Solution.twoProjects.Filed ∧
      (∃ new, (Derivation.edit (Fixture.documentId 0 1)).apply Solution.twoProjects = .ok new) ∧
      (Derivation.edit (Fixture.documentId 0 1)).ChangesOnlyNamed Solution.twoProjects := by
  have hfiled : Solution.twoProjects.Filed := by decide
  exact ⟨hfiled, ⟨_, rfl⟩, changes_only_named hfiled _⟩

end Derivation

end SolutionWatch
