import SolutionWatch.Proofs.Diff.Composition

/-!
# Source documents from the items alone

Whoever holds the source documents of a project in one snapshot and is given the items that tell the
next snapshot from it can strike out the documents that were removed and put in those that were
added. What he then holds is right about every document except those that changed sides: a document
that was a source document and is of another kind now, or the other way round
(`diff_replay_iff_not_retyped`). The comparison looks for a source document among the documents of
every kind of the other snapshot, so such a document has neither item. The project has an item of its
own that gives the reason.
-/

namespace SolutionWatch

namespace Reasons

/-- An addition is not an edit. -/
theorem documentAdded_ne_documentChanged : documentAdded ≠ documentChanged := by decide

/-- An addition is not a removal. -/
theorem documentAdded_ne_documentRemoved : documentAdded ≠ documentRemoved := by decide

/-- An edit is not a removal. -/
theorem documentChanged_ne_documentRemoved : documentChanged ≠ documentRemoved := by decide

end Reasons

namespace WorkItem

/-- The documents of a project that have an item with exactly these reasons. -/
def documentsOf (items : List WorkItem) (project : ProjectId) (reasons : Reasons) :
    List DocumentId :=
  items.filterMap fun item =>
    match item.scope with
    | .document id => if id.project = project ∧ item.reasons = reasons then some id else none
    | .solution | .project _ => none

/-- The documents that a reader of the items takes for the source documents of a project, given those
that he knew: without the removed ones and with the added ones. -/
def replay (items : List WorkItem) (project : ProjectId) (known : List DocumentId) :
    List DocumentId :=
  known.filter (fun id => id ∉ documentsOf items project .documentRemoved) ++
    documentsOf items project .documentAdded

variable {items : List WorkItem} {project : ProjectId} {reasons : Reasons} {id : DocumentId}
  {known : List DocumentId}

/-- A document is listed when it is one of the project's and some item is about it for these
reasons. -/
theorem mem_documentsOf_iff : id ∈ documentsOf items project reasons ↔
    id.project = project ∧ ∃ item ∈ items, item.scope = .document id ∧ item.reasons = reasons := by
  rw [documentsOf, List.mem_filterMap]
  constructor
  · rintro ⟨item, hitem, h⟩
    cases hscope : item.scope with
    | solution => simp [hscope] at h
    | project other => simp [hscope] at h
    | document other =>
      simp only [hscope, Option.ite_none_right_eq_some, Option.some.injEq] at h
      obtain ⟨⟨hproject, hreasons⟩, rfl⟩ := h
      exact ⟨hproject, item, hitem, hscope, hreasons⟩
  · rintro ⟨hproject, item, hitem, hscope, hreasons⟩
    exact ⟨item, hitem, by simp [hscope, hproject, hreasons]⟩

/-- A document is held after the reading when it was held and not removed, or was added. -/
theorem mem_replay_iff : id ∈ replay items project known ↔
    (id ∈ known ∧ id ∉ documentsOf items project .documentRemoved) ∨
      id ∈ documentsOf items project .documentAdded := by
  rw [replay, List.mem_append, List.mem_filter, decide_eq_true_iff]

end WorkItem

namespace Project

/-- A document of both projects that is a source document in only one of them. -/
def Retyped (old new : Project) (id : DocumentId) : Prop :=
  ∃ before after, old.document? id = some before ∧ new.document? id = some after ∧
    ¬(before.kind = .source ↔ after.kind = .source)

variable {old new : Project} {id : DocumentId}

/-- A document is listed among the source documents exactly when it is found and is one. -/
theorem mem_sources_map_id_iff {project : Project} :
    id ∈ project.sources.map Document.id ↔
      ∃ d, project.document? id = some d ∧ d.kind = .source := by
  simp only [List.mem_map, mem_sources_iff]
  constructor
  · rintro ⟨d, ⟨hd, hk⟩, rfl⟩
    exact ⟨d, hd, hk⟩
  · rintro ⟨d, hd, hk⟩
    have hid : d.id = id := id_of_document? hd
    exact ⟨d, ⟨hid ▸ hd, hk⟩, hid⟩

/-- A document that changed sides makes the documents that are not source documents differ. -/
theorem Retyped.nonSourcesDiffer (h : Retyped old new id) : NonSourcesDiffer old new := by
  obtain ⟨before, after, hb, ha, hkind⟩ := h
  by_cases hk : before.kind = .source
  · have hk' : after.kind ≠ .source := fun h => hkind (iff_of_true hk h)
    refine (nonSourcesDiffer_of_kind ha hk' fun e he => ?_).symm
    rw [hb, Option.some.injEq] at he
    exact he ▸ hk
  · have hk' : after.kind = .source := by
      by_contra h
      exact hkind (iff_of_false hk h)
    refine nonSourcesDiffer_of_kind hb hk fun e he => ?_
    rw [ha, Option.some.injEq] at he
    exact he ▸ hk'

end Project

namespace Solution

variable {old new : Solution} {id : ProjectId} {before after : Project} {doc : DocumentId}
  {items : List WorkItem}

/-- Some document of a project that both snapshots have has an item for its addition when it is a
source document of `new` and `old` has nothing under its identity. -/
theorem mem_documentsOf_added_iff (hitems : ∀ item, item ∈ items ↔ Expects old new item)
    (hb : old.project? id = some before) (ha : new.project? id = some after)
    (hid : after.id = id) :
    doc ∈ WorkItem.documentsOf items id .documentAdded ↔
      before.document? doc = none ∧ ∃ d, after.document? doc = some d ∧ d.kind = .source := by
  rw [WorkItem.mem_documentsOf_iff]
  constructor
  · rintro ⟨rfl, item, hitem, hscope, hreasons⟩
    cases (hitems item).mp hitem with
    | documentAdded hb' ha' hnone hd hk =>
      cases hscope
      rw [hb, Option.some.injEq] at hb'
      rw [ha, Option.some.injEq] at ha'
      subst hb' ha'
      exact ⟨hnone, _, hd, hk⟩
    | documentChanged => exact absurd hreasons.symm Reasons.documentAdded_ne_documentChanged
    | documentRemoved => exact absurd hreasons.symm Reasons.documentAdded_ne_documentRemoved
    | projectAdded | projectChanged | projectRemoved => cases hscope
  · rintro ⟨hnone, d, hd, hk⟩
    have hproject : doc.project = id := (Project.project_of_document? hd).trans hid
    subst hproject
    exact ⟨rfl, _, (hitems _).mpr (.documentAdded hb ha hnone hd hk), rfl, rfl⟩

/-- Some document of a project that both snapshots have has an item for its removal when it is a
source document of `old` and `new` has nothing under its identity. -/
theorem mem_documentsOf_removed_iff (hitems : ∀ item, item ∈ items ↔ Expects old new item)
    (hb : old.project? id = some before) (ha : new.project? id = some after)
    (hid : before.id = id) :
    doc ∈ WorkItem.documentsOf items id .documentRemoved ↔
      (∃ c, before.document? doc = some c ∧ c.kind = .source) ∧ after.document? doc = none := by
  rw [WorkItem.mem_documentsOf_iff]
  constructor
  · rintro ⟨rfl, item, hitem, hscope, hreasons⟩
    cases (hitems item).mp hitem with
    | documentRemoved hb' ha' hc hk hnone =>
      cases hscope
      rw [hb, Option.some.injEq] at hb'
      rw [ha, Option.some.injEq] at ha'
      subst hb' ha'
      exact ⟨⟨_, hc, hk⟩, hnone⟩
    | documentAdded => exact absurd hreasons Reasons.documentAdded_ne_documentRemoved
    | documentChanged => exact absurd hreasons Reasons.documentChanged_ne_documentRemoved
    | projectAdded | projectChanged | projectRemoved => cases hscope
  · rintro ⟨⟨c, hc, hk⟩, hnone⟩
    have hproject : doc.project = id := (Project.project_of_document? hc).trans hid
    subst hproject
    exact ⟨rfl, _, (hitems _).mpr (.documentRemoved hb ha hc hk hnone), rfl, rfl⟩

/-- For filed snapshots of one workspace, whatever they share, and a project that both have: the items
carry the source documents of the one to those of the other, except for the documents that changed
sides between the source documents and the others. Such a document leaves its trace in an item of the
project. -/
theorem diff_replay_iff_not_retyped (sharing : Sharing old new)
    (hw : old.workspace = new.workspace) (hold : old.Filed) (hnew : new.Filed)
    (hb : old.project? id = some before) (ha : new.project? id = some after) :
    ∃ items, diff old new sharing = .ok items ∧
      (∀ doc, (doc ∈ WorkItem.replay items id (before.sources.map Document.id) ↔
        doc ∈ after.sources.map Document.id) ↔ ¬Project.Retyped before after doc) ∧
      ∀ doc, Project.Retyped before after doc → ∃ item ∈ items,
        item.scope = .project id ∧ item.reasons.contains .additionalDocumentChanged = true := by
  have hitems : ∀ item, item ∈ structuralDiff old new sharing ↔ Expects old new item :=
    fun item => mem_structuralDiff_iff hold hnew
  refine ⟨_, diff_eq_ok_structuralDiff sharing hw hold, fun doc => ?_, fun doc h => ?_⟩
  · rw [WorkItem.mem_replay_iff, mem_documentsOf_added_iff hitems hb ha (hnew.id_of_project? ha),
      mem_documentsOf_removed_iff hitems hb ha (hold.id_of_project? hb),
      Project.mem_sources_map_id_iff, Project.mem_sources_map_id_iff, Project.Retyped]
    -- What matters of a document is whether each project finds it and as what.
    cases hc : before.document? doc with
    | none => simp
    | some c =>
      cases hd : after.document? doc with
      | none => simp
      | some d => simp
  · have hreasons := Project.reasonsFor_iff.mpr (Eq.refl (Project.changeReasons before after))
    have hcontains := hreasons.additional.mpr h.nonSourcesDiffer
    have hne : Project.changeReasons before after ≠ .empty := by
      intro hempty
      rw [hempty] at hcontains
      exact absurd hcontains (by decide)
    exact ⟨_, (hitems _).mpr (.projectChanged hb ha hreasons hne), rfl, hcontains⟩

/-- The first project of the generated solution. -/
def firstProject : Project := (Fixture.mk 2 2 1 1).project 0

/-- The first project after its first document was edited and its first additional document left. -/
def firstProjectEdited : Project :=
  (firstProject.withDocument { Fixture.sourceDocument 0 0 with version := 1 }).withoutDocument
    (Fixture.documentId 0 2)

/-- The items of an edit in one of two projects carry the source documents over, as none of them
changed sides. -/
theorem diff_replay_iff_not_retyped_of_edit :
    twoProjects.workspace = twoProjectsEdited.workspace ∧ twoProjects.Filed ∧
      twoProjectsEdited.Filed ∧
      twoProjects.project? (Fixture.projectId 0) = some firstProject ∧
      twoProjectsEdited.project? (Fixture.projectId 0) = some firstProjectEdited ∧
      ∃ items, diff twoProjects twoProjectsEdited secondShared = .ok items ∧
        (∀ doc, (doc ∈ WorkItem.replay items (Fixture.projectId 0)
            (firstProject.sources.map Document.id) ↔
          doc ∈ firstProjectEdited.sources.map Document.id) ↔
            ¬Project.Retyped firstProject firstProjectEdited doc) ∧
        ∀ doc, Project.Retyped firstProject firstProjectEdited doc → ∃ item ∈ items,
          item.scope = .project (Fixture.projectId 0) ∧
            item.reasons.contains .additionalDocumentChanged = true :=
  ⟨rfl, by decide, by decide, by decide +kernel, by decide +kernel,
    diff_replay_iff_not_retyped secondShared rfl (by decide) (by decide) (by decide +kernel)
      (by decide +kernel)⟩

/-- The generated solution after its first document was replaced by an additional document of the same
identity. -/
def twoProjectsRetyped : Solution :=
  twoProjectsWith { Fixture.sourceDocument 0 0 with kind := .additional }

/-- The first project after that replacement. -/
def firstProjectRetyped : Project :=
  firstProject.withDocument { Fixture.sourceDocument 0 0 with kind := .additional }

/-- The items do not carry the source documents over when one of them is replaced by an additional
document of the same identity: the replaced document is still held, and is no source document. -/
theorem diff_replay_keeps_retyped :
    twoProjects.workspace = twoProjectsRetyped.workspace ∧ twoProjects.Filed ∧
      twoProjectsRetyped.Filed ∧
      twoProjects.project? (Fixture.projectId 0) = some firstProject ∧
      twoProjectsRetyped.project? (Fixture.projectId 0) = some firstProjectRetyped ∧
      ∃ items, diff twoProjects twoProjectsRetyped .separate = .ok items ∧
        Fixture.documentId 0 0 ∈ WorkItem.replay items (Fixture.projectId 0)
          (firstProject.sources.map Document.id) ∧
        Fixture.documentId 0 0 ∉ firstProjectRetyped.sources.map Document.id :=
  ⟨rfl, by decide, by decide, by decide +kernel, by decide +kernel, _,
    diff_eq_ok_structuralDiff .separate rfl (by decide), by decide +kernel, by decide +kernel⟩

end Solution

end SolutionWatch
