import SolutionWatch.Proofs.Diff.Replay

/-!
# Differences the other way round

What appears on the way from one snapshot to another disappears on the way back, and what was edited was
edited both ways. `Solution.Appears` says what appears, by look-ups alone: an addition is listed for exactly
that (`lists_added_iff`), and a removal for what appears the other way round (`lists_removed_iff`), although
the comparison makes the two lists from different snapshots. The reasons that a project gives as such do not
depend on the direction at all (`Project.changeReasons_comm`).

So the two comparisons mirror each other (`diff_mirrored`). Only the edit of a document that changes sides
between the source documents and the others has no mirror image: it is listed in the direction in which the
document becomes a source document, and not in the other one.
-/

namespace SolutionWatch

/-- It does not matter which of two lists comes first. -/
theorem differAsSets_comm {α : Type} [DecidableEq α] (old new : List α) :
    differAsSets old new = differAsSets new old := by
  rw [differAsSets, differAsSets, Bool.and_comm]

namespace Project

variable {old new : Project}

/-- A configuration differs from another one whichever comes first. -/
theorem configurationDiffers_comm (old new : Project) :
    configurationDiffers old new = configurationDiffers new old := by
  simp only [configurationDiffers, differAsSets_comm old.references.metadata,
    differAsSets_comm old.references.projects, differAsSets_comm old.references.analyzers,
    ne_comm (a := old.config.normal), bne_comm (a := old.runAnalyzers)]

/-- A project gives the same reasons in both directions. -/
theorem changeReasons_comm (old new : Project) : changeReasons old new = changeReasons new old := by
  rw [changeReasons, changeReasons, configurationDiffers_comm, differAsSets_comm old.nonSources]
  simp only [ne_comm (a := old.config.parseOptions)]

/-- What a project gives as such contains no other reason. -/
theorem ReasonsFor.contains_eq_false {reasons other : Reasons} (h : ReasonsFor old new reasons)
    (hother : Reasons.ofProject.contains other = false) : reasons.contains other = false := by
  rw [← Bool.not_eq_true]
  intro hcontains
  rw [Reasons.contains_trans h.nothingElse hcontains] at hother
  exact Bool.false_ne_true hother.symm

end Project

/-- Some item has this scope and exactly these reasons. -/
def WorkItem.Lists (items : List WorkItem) (scope : Scope) (reasons : Reasons) : Prop :=
  ∃ item ∈ items, item.scope = scope ∧ item.reasons = reasons

namespace Solution

variable {a b old new : Solution} {items : List WorkItem} {item : WorkItem}

/-- What appears from one snapshot to the other: a project that only the second one has, and a source document
that only the second one has, in a project that both have. -/
inductive Appears (old new : Solution) : Scope → Prop
  /-- A project appears. -/
  | project {id : ProjectId} {after : Project} : old.project? id = none → new.project? id = some after →
      Appears old new (.project id)
  /-- A source document appears. -/
  | document {id : DocumentId} {before after : Project} {d : Document} :
      old.project? id.project = some before → new.project? id.project = some after →
        before.document? id = none → after.document? id = some d → d.kind = .source →
        Appears old new (.document id)

/-- An expected item that gives an addition gives nothing else. It is about what appears, in the new
snapshot. -/
theorem Expects.of_added (h : Expects old new item) (hadded : item.reasons.contains .documentAdded = true) :
    item.reasons = .documentAdded ∧ item.solution = new ∧ Appears old new item.scope := by
  cases h with
  | projectAdded hb ha => exact ⟨rfl, rfl, .project hb ha⟩
  | documentAdded hb ha hnone hd hk => exact ⟨rfl, rfl, .document hb ha hnone hd hk⟩
  | projectChanged _ _ hreasons =>
    rw [hreasons.contains_eq_false (by decide)] at hadded
    exact absurd hadded Bool.false_ne_true
  | projectRemoved | documentRemoved =>
    exact absurd hadded (show ¬Reasons.documentRemoved.contains .documentAdded = true by decide)
  | documentChanged =>
    exact absurd hadded (show ¬Reasons.documentChanged.contains .documentAdded = true by decide)

/-- An expected item that gives a removal gives nothing else. It is about what appears on the way back, in the
old snapshot. -/
theorem Expects.of_removed (h : Expects old new item)
    (hremoved : item.reasons.contains .documentRemoved = true) :
    item.reasons = .documentRemoved ∧ item.solution = old ∧ Appears new old item.scope := by
  cases h with
  | projectRemoved hb ha => exact ⟨rfl, rfl, .project ha hb⟩
  | documentRemoved hb ha hc hk hnone => exact ⟨rfl, rfl, .document ha hb hnone hc hk⟩
  | projectChanged _ _ hreasons =>
    rw [hreasons.contains_eq_false (by decide)] at hremoved
    exact absurd hremoved Bool.false_ne_true
  | projectAdded | documentAdded =>
    exact absurd hremoved (show ¬Reasons.documentAdded.contains .documentRemoved = true by decide)
  | documentChanged =>
    exact absurd hremoved (show ¬Reasons.documentChanged.contains .documentRemoved = true by decide)

/-- Additions are listed for what appears. -/
theorem lists_added_iff (hitems : ∀ item, item ∈ items ↔ Expects old new item) {scope : Scope} :
    WorkItem.Lists items scope .documentAdded ↔ Appears old new scope := by
  constructor
  · rintro ⟨item, hitem, rfl, hreasons⟩
    exact (((hitems item).mp hitem).of_added (by rw [hreasons]; decide)).2.2
  · rintro (⟨hb, ha⟩ | ⟨hb, ha, hnone, hd, hk⟩)
    · exact ⟨_, (hitems _).mpr (.projectAdded hb ha), rfl, rfl⟩
    · exact ⟨_, (hitems _).mpr (.documentAdded hb ha hnone hd hk), rfl, rfl⟩

/-- Removals are listed for what appears on the way back. -/
theorem lists_removed_iff (hitems : ∀ item, item ∈ items ↔ Expects old new item) {scope : Scope} :
    WorkItem.Lists items scope .documentRemoved ↔ Appears new old scope := by
  constructor
  · rintro ⟨item, hitem, rfl, hreasons⟩
    exact (((hitems item).mp hitem).of_removed (by rw [hreasons]; decide)).2.2
  · rintro (⟨ha, hb⟩ | ⟨ha, hb, hnone, hc, hk⟩)
    · exact ⟨_, (hitems _).mpr (.projectRemoved hb ha), rfl, rfl⟩
    · exact ⟨_, (hitems _).mpr (.documentRemoved hb ha hc hk hnone), rfl, rfl⟩

/-- A project that both snapshots have is listed for the reasons that it gives as such, if it gives any. -/
theorem lists_project_iff (hitems : ∀ item, item ∈ items ↔ Expects old new item) {id : ProjectId}
    {before after : Project} (hb : old.project? id = some before) (ha : new.project? id = some after)
    {reasons : Reasons} : WorkItem.Lists items (.project id) reasons ↔
      reasons = Project.changeReasons before after ∧ reasons ≠ .empty := by
  constructor
  · rintro ⟨item, hitem, hscope, rfl⟩
    have hexpected := (hitems item).mp hitem
    refine ⟨hexpected.reasons_eq hscope hb ha, ?_⟩
    cases hexpected with
    | projectChanged _ _ _ hne => exact hne
    | projectAdded | projectRemoved => exact nofun
    | documentAdded | documentChanged | documentRemoved => cases hscope
  · rintro ⟨rfl, hne⟩
    exact ⟨_, (hitems _).mpr (.projectChanged hb ha (Project.reasonsFor_iff.mpr rfl) hne), rfl, rfl⟩

/-- A source document of both snapshots is listed as changed if it has different versions in them. -/
theorem lists_changed_iff (hitems : ∀ item, item ∈ items ↔ Expects old new item) {id : DocumentId}
    {c d : Document} (hc : old.document? id = some c) (hd : new.document? id = some d)
    (hk : d.kind = .source) :
    WorkItem.Lists items (.document id) .documentChanged ↔ c.version ≠ d.version := by
  obtain ⟨before, hb, hcb⟩ := document?_eq_some_iff.mp hc
  obtain ⟨after, ha, hda⟩ := document?_eq_some_iff.mp hd
  constructor
  · rintro ⟨item, hitem, hscope, hreasons⟩
    cases (hitems item).mp hitem with
    | documentChanged hb' ha' hc' hd' _ hv =>
      cases hscope
      rw [document?_eq_some_iff.mpr ⟨_, hb', hc'⟩, Option.some.injEq] at hc
      rw [document?_eq_some_iff.mpr ⟨_, ha', hd'⟩, Option.some.injEq] at hd
      rwa [← hc, ← hd]
    | documentAdded => exact absurd hreasons Reasons.documentAdded_ne_documentChanged
    | documentRemoved => exact absurd hreasons.symm Reasons.documentChanged_ne_documentRemoved
    | projectAdded | projectChanged | projectRemoved => cases hscope
  · exact fun hv => ⟨_, (hitems _).mpr (.documentChanged hb ha hcb hda hk hv), rfl, rfl⟩

/-- Two comparisons of `a` and `b`, one in each direction, that mirror each other. -/
structure Mirrored (a b : Solution) (forth back : List WorkItem) : Prop where
  /-- What is added on the way to `b` is removed on the way back. -/
  added (scope : Scope) :
    WorkItem.Lists forth scope .documentAdded ↔ WorkItem.Lists back scope .documentRemoved
  /-- An item that gives an addition gives nothing else, and is to be looked for in `b`. -/
  addedIn : ∀ item ∈ forth, item.reasons.contains .documentAdded = true →
    item.reasons = .documentAdded ∧ item.solution = b
  /-- An item that gives a removal on the way back gives nothing else, and is to be looked for in `b`. -/
  removedIn : ∀ item ∈ back, item.reasons.contains .documentRemoved = true →
    item.reasons = .documentRemoved ∧ item.solution = b
  /-- A project that both have has an item for the same reasons both ways. -/
  kept (id : ProjectId) : a.containsProject id = true → b.containsProject id = true →
    ∀ reasons, WorkItem.Lists forth (.project id) reasons ↔ WorkItem.Lists back (.project id) reasons
  /-- A document that is a source document in both has an item for its edit both ways. -/
  changed (id : DocumentId) (c d : Document) : a.document? id = some c → b.document? id = some d →
    c.kind = .source → d.kind = .source →
      (WorkItem.Lists forth (.document id) .documentChanged ↔
        WorkItem.Lists back (.document id) .documentChanged)

/-- For filed snapshots of one workspace, whatever they share, the comparison of the second with the first
mirrors that of the first with the second. -/
theorem diff_mirrored (there : Sharing a b) (backwards : Sharing b a) (hw : a.workspace = b.workspace)
    (ha : a.Filed) (hb : b.Filed) :
    ∃ forth back, diff a b there = .ok forth ∧ diff b a backwards = .ok back ∧ Mirrored a b forth back := by
  have hforth : ∀ item, item ∈ structuralDiff a b there ↔ Expects a b item :=
    fun item => mem_structuralDiff_iff ha hb
  have hback : ∀ item, item ∈ structuralDiff b a backwards ↔ Expects b a item :=
    fun item => mem_structuralDiff_iff hb ha
  refine ⟨_, _, diff_eq_ok_structuralDiff there hw ha, diff_eq_ok_structuralDiff backwards hw.symm hb, ?_⟩
  constructor
  case added => exact fun scope => (lists_added_iff hforth).trans (lists_removed_iff hback).symm
  case addedIn =>
    intro item hitem hadded
    obtain ⟨hreasons, hsolution, -⟩ := ((hforth item).mp hitem).of_added hadded
    exact ⟨hreasons, hsolution⟩
  case removedIn =>
    intro item hitem hremoved
    obtain ⟨hreasons, hsolution, -⟩ := ((hback item).mp hitem).of_removed hremoved
    exact ⟨hreasons, hsolution⟩
  case kept =>
    intro id hina hinb reasons
    obtain ⟨pa, hpa⟩ := containsProject_eq_true_iff.mp hina
    obtain ⟨pb, hpb⟩ := containsProject_eq_true_iff.mp hinb
    rw [lists_project_iff hforth hpa hpb, lists_project_iff hback hpb hpa, Project.changeReasons_comm]
  case changed =>
    intro id c d hc hd hck hdk
    rw [lists_changed_iff hforth hc hd hdk, lists_changed_iff hback hd hc hck, ne_comm]

/-- The comparison of the edited solution with the generated one, which looks at both projects, mirrors the
comparison the other way, which does not look at the second project. -/
theorem diff_mirrored_of_edit :
    twoProjects.workspace = twoProjectsEdited.workspace ∧ twoProjects.Filed ∧ twoProjectsEdited.Filed ∧
      ∃ forth back, diff twoProjects twoProjectsEdited secondShared = .ok forth ∧
        diff twoProjectsEdited twoProjects .separate = .ok back ∧
        Mirrored twoProjects twoProjectsEdited forth back :=
  ⟨rfl, by decide, by decide, diff_mirrored secondShared .separate rfl (by decide) (by decide)⟩

end Solution

end SolutionWatch
