import SolutionWatch.Proofs.Workspace.Refusals

/-!
# Many edits one after the other

Each edit of a document derives a snapshot of its own. What a whole row of edits comes to is said at once:
the version of every document moved on as often as the document was edited, and nothing else changed
(`Solution.AfterEdits`). One edit does this for a row of one (`Solution.Filed.afterEdits_withEdit`),
and rows can be put together (`Solution.AfterEdits.trans`), so a row of edits of documents that are there
goes through and does it too (`Solution.Filed.exists_afterEdits`).
-/

namespace SolutionWatch

namespace Catalog

variable {κ ν : Type} {change : ν → ν}

/-- Entries whose values a change leaves alone are left alone. -/
theorem map_change_eq_self {entries : List (κ × ν)} (h : ∀ entry ∈ entries, change entry.2 = entry.2) :
    entries.map (fun entry => (entry.1, change entry.2)) = entries := by
  refine (List.map_congr_left fun entry hentry => ?_).trans (List.map_id entries)
  rw [h entry hentry]
  rfl

variable {catalog : Catalog κ ν}

/-- A change that leaves every value alone leaves the catalogue alone. -/
theorem mapValues_eq_self (h : ∀ entry ∈ catalog.entries, change entry.2 = entry.2) :
    catalog.mapValues change = catalog := by
  simp only [mapValues, map_change_eq_self h]

/-- Two changes of every value are one. -/
theorem mapValues_mapValues (first second : ν → ν) :
    (catalog.mapValues first).mapValues second = catalog.mapValues fun v => second (first v) := by
  simp only [mapValues, List.map_map, Function.comp_def]

/-- The values of a catalogue of which every value was changed. -/
theorem values_mapValues : (catalog.mapValues change).values = catalog.values.map change := by
  simp only [values, mapValues, List.map_map, Function.comp_def]

variable [DecidableEq κ]

/-- Changing the value of one key is changing every value, if the change leaves the others alone. -/
theorem insert_eq_mapValues {key : κ} {value : ν} (hvalue : catalog.get? key = some value)
    (hothers : ∀ entry ∈ catalog.entries, entry.1 ≠ key → change entry.2 = entry.2) :
    catalog.insert key (change value) = catalog.mapValues change := by
  have hplace : ∀ entries : List (κ × ν), (entries.map Prod.fst).Nodup →
      lookup key entries = some value →
      (∀ entry ∈ entries, entry.1 ≠ key → change entry.2 = entry.2) →
      place key (change value) entries = entries.map fun entry => (entry.1, change entry.2) := by
    intro entries
    induction entries with
    | nil => exact fun _ h => nomatch h
    | cons entry rest ih =>
      intro hnodup hlookup hothers
      obtain ⟨hfresh, hnodup⟩ := List.nodup_cons.mp hnodup
      have hrest : ∀ e ∈ rest, e.1 ≠ key → change e.2 = e.2 :=
        fun e he => hothers e (List.mem_cons_of_mem entry he)
      rw [lookup] at hlookup
      rw [place, List.map_cons]
      split
      · next hkey =>
        -- The key comes once, so the entries after it are left alone.
        rw [if_pos hkey] at hlookup
        have hafter : ∀ e ∈ rest, change e.2 = e.2 := by
          refine fun e he => hrest e he fun hsame => hfresh ?_
          rw [hkey, ← hsame]
          exact List.mem_map_of_mem he
        rw [map_change_eq_self hafter, hkey, Option.some.inj hlookup]
      · next hkey =>
        rw [if_neg hkey] at hlookup
        rw [ih hnodup hlookup hrest, hothers entry List.mem_cons_self hkey]
  simp only [insert, mapValues, hplace catalog.entries catalog.nodup hvalue hothers]

end Catalog

namespace Version

/-- The stamp some changes later. -/
def later (version : Version) (n : ℕ) : Version := ⟨version.raw + .ofNat n⟩

@[simp] theorem later_zero (version : Version) : version.later 0 = version :=
  congrArg mk (UInt64.add_zero version.raw)

@[simp] theorem later_one (version : Version) : version.later 1 = version.next := rfl

/-- More changes after some changes are all of them. -/
theorem later_later (version : Version) (m n : ℕ) :
    (version.later m).later n = version.later (m + n) := by
  rw [later, later, later, UInt64.add_assoc, ← UInt64.ofNat_add]

/-- Some changes later the stamp is another one, unless it went round. -/
theorem later_eq_self_iff {version : Version} {n : ℕ} (h : n < Nat.pow 2 64) :
    version.later n = version ↔ n = 0 := by
  constructor
  · intro hsame
    have hraw : version.raw + .ofNat n = version.raw := congrArg raw hsame
    rw [UInt64.add_eq_left, ← UInt64.toNat_inj, UInt64.toNat_ofNat_of_lt' h] at hraw
    exact hraw
  · rintro rfl
    exact later_zero version

end Version

/-- A document after some edits: its version moved on with each of those that were of it. -/
def Document.afterEdits (ids : List DocumentId) (document : Document) : Document :=
  { document with version := document.version.later (ids.count document.id) }

namespace Document

variable {ids : List DocumentId} {document : Document}

/-- Edits leave a document its identity. -/
@[simp] theorem id_afterEdits : (document.afterEdits ids).id = document.id := rfl

/-- Edits leave a document its kind. -/
@[simp] theorem kind_afterEdits : (document.afterEdits ids).kind = document.kind := rfl

/-- Edits of others leave a document alone. -/
theorem afterEdits_of_not_mem (h : document.id ∉ ids) : document.afterEdits ids = document := by
  rw [afterEdits, List.count_eq_zero_of_not_mem h, Version.later_zero]

/-- More edits after some edits are all of them. -/
theorem afterEdits_afterEdits (first second : List DocumentId) :
    (document.afterEdits first).afterEdits second = document.afterEdits (first ++ second) := by
  simp only [afterEdits, List.count_append, Version.later_later]

end Document

/-- A project after some edits. -/
def Project.afterEdits (ids : List DocumentId) (project : Project) : Project :=
  { project with
    documents := project.documents.mapValues (Document.afterEdits ids)
    owned := by
      intro e he
      obtain ⟨entry, hentry, rfl⟩ := List.mem_map.mp he
      exact project.owned entry hentry }

namespace Project

variable {ids : List DocumentId} {project : Project}

/-- Edits leave a project its identity. -/
@[simp] theorem id_afterEdits : (project.afterEdits ids).id = project.id := rfl

/-- What a project finds after some edits. -/
theorem document?_afterEdits (id : DocumentId) :
    (project.afterEdits ids).document? id = (project.document? id).map (Document.afterEdits ids) :=
  Catalog.get?_mapValues project.documents (Document.afterEdits ids) id

/-- The documents of a project after some edits. -/
theorem allDocuments_afterEdits :
    (project.afterEdits ids).allDocuments = project.allDocuments.map (Document.afterEdits ids) :=
  Catalog.values_mapValues

/-- The source documents of a project after some edits. -/
theorem sources_afterEdits :
    (project.afterEdits ids).sources = project.sources.map (Document.afterEdits ids) := by
  rw [sources, documentsOf, allDocuments_afterEdits, List.filter_map]
  rfl

/-- Edits in other projects leave a project alone. -/
theorem afterEdits_of_ne (h : ∀ id ∈ ids, id.project ≠ project.id) :
    project.afterEdits ids = project := by
  have hdocuments : project.documents.mapValues (Document.afterEdits ids) = project.documents := by
    refine Catalog.mapValues_eq_self fun entry hentry => Document.afterEdits_of_not_mem fun hid => ?_
    obtain ⟨hkey, hproject⟩ := project.owned entry hentry
    exact h _ hid (hkey ▸ hproject)
  simp only [afterEdits, hdocuments]

/-- More edits after some edits are all of them. -/
theorem afterEdits_afterEdits (first second : List DocumentId) :
    (project.afterEdits first).afterEdits second = project.afterEdits (first ++ second) := by
  simp only [afterEdits, Catalog.mapValues_mapValues, Document.afterEdits_afterEdits]

/-- A document that is found in its next version is an edit of the project. -/
theorem withDocument_next {id : DocumentId} {document : Document}
    (h : project.document? id = some document) :
    project.withDocument { document with version := document.version.next } =
      project.afterEdits [id] := by
  obtain rfl : document.id = id := id_of_document? h
  have howner : (document.afterEdits [document.id]).id.project = project.id := project_of_document? h
  have hnext : ({ document with version := document.version.next } : Document) =
      document.afterEdits [document.id] := by
    rw [Document.afterEdits, List.count_singleton_self, Version.later_one]
  have hdocuments : project.documents.insert document.id (document.afterEdits [document.id]) =
      project.documents.mapValues (Document.afterEdits [document.id]) := by
    refine Catalog.insert_eq_mapValues h fun entry hentry hkey => ?_
    refine Document.afterEdits_of_not_mem fun hid => hkey ?_
    rw [← (project.owned entry hentry).1]
    exact List.mem_singleton.mp hid
  rw [hnext, withDocument, dif_pos howner]
  simp only [afterEdits, Document.id_afterEdits, hdocuments]

end Project

namespace Solution

/-- A snapshot that comes from another one by edits. -/
structure AfterEdits (ids : List DocumentId) (old new : Solution) : Prop where
  /-- It belongs to the same workspace. -/
  workspace : new.workspace = old.workspace
  /-- Each edit moved the version on by one. -/
  version : new.version = old.version.later ids.length
  /-- Each edit moved the version of its document on by one, and nothing else. -/
  projects : new.projects = old.projects.mapValues (Project.afterEdits ids)

variable {old middle new : Solution} {ids : List DocumentId}

namespace AfterEdits

/-- Without edits nothing changes. -/
theorem refl (solution : Solution) : AfterEdits [] solution solution where
  workspace := rfl
  version := (Version.later_zero _).symm
  projects := (Catalog.mapValues_eq_self fun _ _ =>
    Project.afterEdits_of_ne fun _ hid => absurd hid List.not_mem_nil).symm

/-- More edits after some edits are all of them. -/
theorem trans {first second : List DocumentId} (h : AfterEdits first old middle)
    (h' : AfterEdits second middle new) : AfterEdits (first ++ second) old new where
  workspace := h'.workspace.trans h.workspace
  version := by rw [h'.version, h.version, List.length_append, Version.later_later]
  projects := by
    rw [h'.projects, h.projects, Catalog.mapValues_mapValues]
    simp only [Project.afterEdits_afterEdits]

/-- What an identity finds after some edits. -/
theorem project? (h : AfterEdits ids old new) (id : ProjectId) :
    new.project? id = (old.project? id).map (Project.afterEdits ids) := by
  rw [Solution.project?, h.projects, Catalog.get?_mapValues, Solution.project?]

/-- Edits leave the documents that there are. -/
theorem containsDocument (h : AfterEdits ids old new) (id : DocumentId) :
    new.containsDocument id = old.containsDocument id := by
  rw [Solution.containsDocument, Solution.containsDocument, document?, document?, h.project?]
  cases old.project? id.project with
  | none => rfl
  | some project => simp [Project.document?_afterEdits]

/-- Edits keep a snapshot filed. -/
theorem filed (h : AfterEdits ids old new) (hfiled : old.Filed) : new.Filed := by
  intro e he
  rw [h.projects] at he
  obtain ⟨entry, hentry, rfl⟩ := List.mem_map.mp he
  exact hfiled entry hentry

end AfterEdits

/-- An edit of a filed snapshot. -/
theorem Filed.afterEdits_withEdit (hfiled : old.Filed) {id : DocumentId}
    (hnew : old.withEdit id = .ok new) : AfterEdits [id] old new := by
  obtain ⟨document, hdocument, hedit⟩ := withDocument_of_withEdit hnew
  obtain ⟨project, hproject, hd⟩ := document?_eq_some_iff.mp hdocument
  obtain rfl : document.id = id := id_of_document? hdocument
  obtain ⟨before, hbefore, rfl⟩ := updateProject_eq_ok_iff.mp hedit
  obtain rfl : before = project := Option.some.inj (hbefore.symm.trans hproject)
  refine ⟨rfl, rfl, ?_⟩
  change old.projects.insert document.id.project
    (before.withDocument { document with version := document.version.next }) = _
  rw [Project.withDocument_next hd]
  refine Catalog.insert_eq_mapValues hproject fun entry hentry hkey => ?_
  -- A project under another identity has no document with this one.
  refine Project.afterEdits_of_ne fun id hid => ?_
  rw [List.mem_singleton.mp hid, hfiled entry hentry]
  exact hkey.symm

/-- A row of edits of documents of a filed snapshot goes through. -/
theorem Filed.exists_afterEdits (hfiled : old.Filed)
    (hids : ∀ id ∈ ids, old.containsDocument id = true) :
    ∃ new, ids.foldlM withEdit old = .ok new ∧ AfterEdits ids old new := by
  induction ids generalizing old with
  | nil => exact ⟨old, rfl, .refl old⟩
  | cons id ids ih =>
    obtain ⟨hid, hids⟩ := List.forall_mem_cons.mp hids
    cases hedit : old.withEdit id with
    | error failure =>
      rw [(withEdit_eq_error_iff.mp hedit).1] at hid
      contradiction
    | ok middle =>
      have hfirst := hfiled.afterEdits_withEdit hedit
      obtain ⟨new, hnew, hrest⟩ := ih (hfirst.filed hfiled) fun id hid => by
        rw [hfirst.containsDocument, hids id hid]
      refine ⟨new, ?_, hfirst.trans hrest⟩
      rw [List.foldlM_cons, hedit]
      exact hnew

end Solution

end SolutionWatch
