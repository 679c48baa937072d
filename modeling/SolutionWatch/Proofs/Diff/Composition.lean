import SolutionWatch.Proofs.Diff.Exactness

/-!
# Differences by way of a third snapshot

Whoever looks at the differences from `a` to `b` and from `b` to `c` has looked at everything that
differs between `a` and `c` (`diff_covered_by_steps`). A document is covered by its own item or by the
item of its project: when it passes through the middle snapshot as a document that is not a source
document, no step has an item of its own for it, but the project of one of the steps has one
(`Project.mem_touchedSources_trans`).

The reasons of a project are a union of three comparisons, and none of them can find a difference
between `a` and `c` without finding one in a step (`Project.changeReasons_trans`).
-/

namespace SolutionWatch

namespace Reasons

variable {a b c : Reasons}

/-- Every set contains the empty one. -/
@[simp] theorem contains_empty : a.contains .empty = true := by
  simp [contains, empty]

/-- A set contains itself. -/
@[simp] theorem contains_self : a.contains a = true := by
  simp [contains]

/-- A set contains what a set in it contains. -/
theorem contains_trans (hab : a.contains b = true) (hbc : b.contains c = true) :
    a.contains c = true := by
  rw [contains_eq_true_iff] at *
  rw [← hbc, ← BitVec.and_assoc, hab]

/-- A union contains its first part. -/
theorem contains_union_left : (union a b).contains a = true := by
  rw [contains_eq_true_iff, union, BitVec.and_comm]
  ext i
  simp only [BitVec.getElem_and, BitVec.getElem_or]
  cases a.bits[i] <;> rfl

/-- A union contains its second part. -/
theorem contains_union_right : (union a b).contains b = true := by
  rw [contains_eq_true_iff, union, BitVec.and_comm]
  ext i
  simp only [BitVec.getElem_and, BitVec.getElem_or]
  cases b.bits[i] <;> simp

/-- A set contains a union exactly when it contains both parts. -/
theorem contains_union_iff :
    a.contains (union b c) = true ↔ a.contains b = true ∧ a.contains c = true := by
  constructor
  · exact fun h => ⟨contains_trans h contains_union_left, contains_trans h contains_union_right⟩
  · simp only [contains_eq_true_iff, union]
    rintro ⟨hb, hc⟩
    rw [BitVec.and_or_distrib_left, hb, hc]

/-- Only the empty set is contained in the union of empty ones. -/
theorem eq_empty_of_contains (h : (union empty empty).contains a = true) : a = empty := by
  obtain ⟨bits⟩ := a
  rw [contains_eq_true_iff] at h
  simpa [union, empty] using h.symm

/-- The union of the reasons of those items that are about a project as such. -/
def given (items : List WorkItem) (id : ProjectId) : Reasons :=
  items.foldr (fun item rest =>
    if item.scope = .project id then item.reasons.union rest else rest) .empty

/-- The reasons of every item about the project are in the union. -/
theorem contains_given {items : List WorkItem} {id : ProjectId} {item : WorkItem}
    (hmem : item ∈ items) (hscope : item.scope = .project id) :
    (given items id).contains item.reasons = true := by
  induction items with
  | nil => simp at hmem
  | cons first rest ih =>
    rw [given, List.foldr_cons, ← given]
    rcases List.mem_cons.mp hmem with rfl | hmem
    · rw [if_pos hscope]
      exact contains_union_left
    · split
      · exact contains_trans contains_union_right (ih hmem)
      · exact ih hmem

/-- A set contains a conditional one when the condition makes it contain that one. -/
theorem contains_onlyIf {condition : Bool} (h : condition = true → a.contains b = true) :
    a.contains (onlyIf condition b) = true := by
  cases condition with
  | false => exact contains_empty
  | true => exact h rfl

end Reasons

/-- Sets that differ do not both equal a third. -/
theorem DifferAsSets.trans {α : Type} {old middle new : List α} (h : DifferAsSets old new) :
    DifferAsSets old middle ∨ DifferAsSets middle new := by
  obtain ⟨x, hx⟩ := h
  by_cases hm : x ∈ old ↔ x ∈ middle
  · exact .inr ⟨x, fun hn => hx (hm.trans hn)⟩
  · exact .inl ⟨x, hm⟩

/-- Configurations that differ do not both equal a third. -/
theorem ProjectConfig.Differs.trans {old middle new : ProjectConfig} (h : old.Differs new) :
    old.Differs middle ∨ middle.Differs new := by
  rw [← normal_ne_iff] at *
  rw [← normal_ne_iff]
  by_cases hm : old.normal = middle.normal
  · exact .inr (hm ▸ h)
  · exact .inl hm

namespace Project

variable {old middle new : Project}

/-- A configuration that differs does so in a step. -/
theorem ConfigurationDiffers.trans (h : ConfigurationDiffers old new) :
    ConfigurationDiffers old middle ∨ ConfigurationDiffers middle new := by
  rcases h with h | h | h | h | h
  · exact h.trans.imp .inl .inl
  · exact h.trans.imp (fun h => .inr (.inl h)) (fun h => .inr (.inl h))
  · exact h.trans.imp (fun h => .inr (.inr (.inl h))) (fun h => .inr (.inr (.inl h)))
  · exact h.trans.imp (fun h => .inr (.inr (.inr (.inl h)))) (fun h => .inr (.inr (.inr (.inl h))))
  · by_cases hm : old.runAnalyzers = middle.runAnalyzers
    · exact .inr (.inr (.inr (.inr (.inr (hm ▸ h)))))
    · exact .inl (.inr (.inr (.inr (.inr hm))))

/-- Documents that are not source documents and differ do so in a step. -/
theorem NonSourcesDiffer.trans (h : NonSourcesDiffer old new) :
    NonSourcesDiffer old middle ∨ NonSourcesDiffer middle new := by
  obtain ⟨id, kind, version, hk, h⟩ := h
  by_cases hm : old.Holds id kind version ↔ middle.Holds id kind version
  · exact .inr ⟨id, kind, version, hk, fun hn => h (hm.trans hn)⟩
  · exact .inl ⟨id, kind, version, hk, hm⟩

/-- What a project gives as a reason it gives in a step. -/
theorem changeReasons_trans :
    ((changeReasons old middle).union (changeReasons middle new)).contains
      (changeReasons old new) = true := by
  have hab := reasonsFor_iff.mpr (Eq.refl (changeReasons old middle))
  have hbc := reasonsFor_iff.mpr (Eq.refl (changeReasons middle new))
  -- Each reason is contained in one of the steps because its comparison finds a difference there.
  have hstep : ∀ {reason : Reasons},
      (changeReasons old middle).contains reason = true ∨
        (changeReasons middle new).contains reason = true →
      ((changeReasons old middle).union (changeReasons middle new)).contains reason = true := by
    rintro reason (h | h)
    · exact Reasons.contains_trans Reasons.contains_union_left h
    · exact Reasons.contains_trans Reasons.contains_union_right h
  rw [changeReasons_eq_select old new, Reasons.select, Reasons.contains_union_iff,
    Reasons.contains_union_iff]
  refine ⟨Reasons.contains_onlyIf fun h => hstep ?_, Reasons.contains_onlyIf fun h => hstep ?_,
    Reasons.contains_onlyIf fun h => hstep ?_⟩
  · rw [hab.parse, hbc.parse]
    have hne := of_decide_eq_true h
    by_cases hm : old.config.parseOptions = middle.config.parseOptions
    · exact .inr (hm ▸ hne)
    · exact .inl hm
  · rw [hab.configuration, hbc.configuration]
    exact (configurationDiffers_eq_true_iff.mp h).trans
  · rw [hab.additional, hbc.additional]
    exact (differAsSets_nonSources_iff.mp h).trans

/-- A document that is not a source document here and that the other project does not have as such
makes the two differ. -/
theorem nonSourcesDiffer_of_kind {project other : Project} {id : DocumentId} {d : Document}
    (hd : project.document? id = some d) (hk : d.kind ≠ .source)
    (hother : ∀ e, other.document? id = some e → e.kind = .source) :
    NonSourcesDiffer project other := by
  refine ⟨id, d.kind, d.version, hk, fun h => ?_⟩
  obtain ⟨e, he, hek, -⟩ := h.mp ⟨d, hd, rfl, rfl⟩
  exact hk (hek ▸ hother e he)

/-- It does not matter which of the two projects comes first. -/
theorem NonSourcesDiffer.symm (h : NonSourcesDiffer old new) : NonSourcesDiffer new old := by
  obtain ⟨id, kind, version, hk, h⟩ := h
  exact ⟨id, kind, version, hk, fun hiff => h hiff.symm⟩

/-- The documents that a project's items are about, by look-ups. -/
theorem mem_touchedSources_iff {id : DocumentId} :
    id ∈ touchedSources old new ↔
      (∃ d, new.document? id = some d ∧ d.kind = .source ∧ old.document? id = none) ∨
      (∃ c d, old.document? id = some c ∧ new.document? id = some d ∧ d.kind = .source ∧
        c.version ≠ d.version) ∨
      ∃ c, old.document? id = some c ∧ c.kind = .source ∧ new.document? id = none := by
  simp only [touchedSources, List.mem_append, mem_addedSources_iff, mem_changedSources_iff,
    mem_removedSources_iff, or_assoc]

/-- A document that was touched is touched in a step, unless it was no source document in between:
then the documents that are not source documents differ in a step. -/
theorem mem_touchedSources_trans (middle : Project) {id : DocumentId}
    (h : id ∈ touchedSources old new) :
    (id ∈ touchedSources old middle ∨ NonSourcesDiffer old middle) ∨
      (id ∈ touchedSources middle new ∨ NonSourcesDiffer middle new) := by
  simp only [mem_touchedSources_iff] at *
  cases hm : middle.document? id with
  | none =>
    rcases h with ⟨d, hd, hk, -⟩ | ⟨c, d, -, hd, hk, -⟩ | ⟨c, hc, hk, -⟩
    · exact .inr (.inl (.inl ⟨d, hd, hk, rfl⟩))
    · exact .inr (.inl (.inl ⟨d, hd, hk, rfl⟩))
    · exact .inl (.inl (.inr (.inr ⟨c, hc, hk, rfl⟩)))
  | some e =>
    by_cases hek : e.kind = .source
    · rcases h with ⟨d, -, -, hnone⟩ | ⟨c, d, hc, hd, hk, hv⟩ | ⟨c, -, -, hnone⟩
      · exact .inl (.inl (.inl ⟨e, rfl, hek, hnone⟩))
      · -- The version differs between the ends, so it differs in a step.
        by_cases hce : c.version = e.version
        · exact .inr (.inl (.inr (.inl ⟨e, d, rfl, hd, hk, hce ▸ hv⟩)))
        · exact .inl (.inl (.inr (.inl ⟨c, e, hc, rfl, hek, hce⟩)))
      · exact .inr (.inl (.inr (.inr ⟨e, rfl, hek, hnone⟩)))
    · -- In between the document has another kind, which one of the ends does not give it.
      rcases h with ⟨d, -, -, hnone⟩ | ⟨c, d, -, hd, hk, -⟩ | ⟨c, -, -, hnone⟩
      · refine .inl (.inr (nonSourcesDiffer_of_kind hm hek fun f hf => ?_).symm)
        rw [hnone] at hf
        contradiction
      · refine .inr (.inr (nonSourcesDiffer_of_kind hm hek fun f hf => ?_))
        rw [hd, Option.some.injEq] at hf
        exact hf ▸ hk
      · refine .inr (.inr (nonSourcesDiffer_of_kind hm hek fun f hf => ?_))
        rw [hnone] at hf
        contradiction

end Project

/-- Looking at the one scope looks at the other: it is the same, or the project of the document. -/
def Scope.Covers (other scope : Scope) : Prop :=
  other = scope ∨ ∃ id, scope = .document id ∧ other = .project id.project

namespace Solution

variable {a b c old new : Solution}

/-- Some item that tells `new` from `old` has this scope. -/
def Touches (old new : Solution) (scope : Scope) : Prop :=
  ∃ item, Expects old new item ∧ item.scope = scope

/-- A project is touched when only one of the snapshots has it or when it gives a reason. -/
theorem touches_project_iff {id : ProjectId} :
    Touches old new (.project id) ↔
      (∃ after, old.project? id = none ∧ new.project? id = some after) ∨
      (∃ before, old.project? id = some before ∧ new.project? id = none) ∨
      ∃ before after, old.project? id = some before ∧ new.project? id = some after ∧
        Project.changeReasons before after ≠ .empty := by
  constructor
  · rintro ⟨item, h, hscope⟩
    cases h with
    | projectAdded hb ha =>
      cases hscope
      exact .inl ⟨_, hb, ha⟩
    | projectRemoved hb ha =>
      cases hscope
      exact .inr (.inl ⟨_, hb, ha⟩)
    | projectChanged hb ha hreasons hne =>
      cases hscope
      exact .inr (.inr ⟨_, _, hb, ha, Project.reasonsFor_iff.mp hreasons ▸ hne⟩)
    | documentAdded | documentChanged | documentRemoved => cases hscope
  · rintro (⟨after, hb, ha⟩ | ⟨before, hb, ha⟩ | ⟨before, after, hb, ha, hne⟩)
    · exact ⟨_, .projectAdded hb ha, rfl⟩
    · exact ⟨_, .projectRemoved hb ha, rfl⟩
    · exact ⟨_, .projectChanged hb ha (Project.reasonsFor_iff.mpr rfl) hne, rfl⟩

/-- A document is touched when it is among the documents that the items of its project are about. -/
theorem touches_document_iff {id : DocumentId} :
    Touches old new (.document id) ↔
      ∃ before after, old.project? id.project = some before ∧
        new.project? id.project = some after ∧ id ∈ Project.touchedSources before after := by
  simp only [Project.mem_touchedSources_iff]
  constructor
  · rintro ⟨item, h, hscope⟩
    cases h with
    | documentAdded hb ha hnone hd hk =>
      cases hscope
      exact ⟨_, _, hb, ha, .inl ⟨_, hd, hk, hnone⟩⟩
    | documentChanged hb ha hc hd hk hv =>
      cases hscope
      exact ⟨_, _, hb, ha, .inr (.inl ⟨_, _, hc, hd, hk, hv⟩)⟩
    | documentRemoved hb ha hc hk hnone =>
      cases hscope
      exact ⟨_, _, hb, ha, .inr (.inr ⟨_, hc, hk, hnone⟩)⟩
    | projectAdded | projectChanged | projectRemoved => cases hscope
  · rintro ⟨before, after, hb, ha, ⟨d, hd, hk, hnone⟩ | ⟨c, d, hc, hd, hk, hv⟩ | ⟨c, hc, hk, hnone⟩⟩
    · exact ⟨_, .documentAdded hb ha hnone hd hk, rfl⟩
    · exact ⟨_, .documentChanged hb ha hc hd hk hv, rfl⟩
    · exact ⟨_, .documentRemoved hb ha hc hk hnone, rfl⟩

/-- Documents that are not source documents and differ touch their project. -/
theorem touches_project_of_nonSourcesDiffer {id : ProjectId} {before after : Project}
    (hb : old.project? id = some before) (ha : new.project? id = some after)
    (h : Project.NonSourcesDiffer before after) : Touches old new (.project id) := by
  refine touches_project_iff.mpr (.inr (.inr ⟨before, after, hb, ha, fun hempty => ?_⟩))
  have hcontains := (Project.reasonsFor_iff.mpr
    (Eq.refl (Project.changeReasons before after))).additional.mpr h
  rw [hempty] at hcontains
  exact absurd hcontains (by decide)

/-- A project that is touched between `a` and `c` is touched in a step. -/
theorem Touches.project_trans {id : ProjectId} (h : Touches a c (.project id)) :
    Touches a b (.project id) ∨ Touches b c (.project id) := by
  simp only [touches_project_iff] at *
  cases hb : b.project? id with
  | none =>
    rcases h with ⟨after, -, hc⟩ | ⟨before, ha, -⟩ | ⟨before, after, ha, hc, -⟩
    · exact .inr (.inl ⟨after, rfl, hc⟩)
    · exact .inl (.inr (.inl ⟨before, ha, rfl⟩))
    · exact .inl (.inr (.inl ⟨before, ha, rfl⟩))
  | some middle =>
    rcases h with ⟨after, ha, -⟩ | ⟨before, -, hc⟩ | ⟨before, after, ha, hc, hne⟩
    · exact .inl (.inl ⟨middle, ha, rfl⟩)
    · exact .inr (.inr (.inl ⟨middle, rfl, hc⟩))
    · by_cases hab : Project.changeReasons before middle = .empty
      · refine .inr (.inr (.inr ⟨middle, after, rfl, hc, fun hbc => hne ?_⟩))
        -- Steps without a reason leave none for the whole.
        have hsub : ((Project.changeReasons before middle).union
            (Project.changeReasons middle after)).contains (Project.changeReasons before after) =
              true := Project.changeReasons_trans
        rw [hab, hbc] at hsub
        exact Reasons.eq_empty_of_contains hsub
      · exact .inl (.inr (.inr ⟨before, middle, ha, rfl, hab⟩))

/-- A document that is touched between `a` and `c` is touched in a step, or its project is. -/
theorem Touches.document_trans {id : DocumentId} (h : Touches a c (.document id)) :
    (Touches a b (.document id) ∨ Touches a b (.project id.project)) ∨
      (Touches b c (.document id) ∨ Touches b c (.project id.project)) := by
  obtain ⟨before, after, ha, hc, hid⟩ := touches_document_iff.mp h
  cases hb : b.project? id.project with
  -- Without the project in between, its removal is an item of the first step.
  | none => exact .inl (.inr (touches_project_iff.mpr (.inr (.inl ⟨before, ha, hb⟩))))
  | some middle =>
    refine (Project.mem_touchedSources_trans middle hid).imp
      (Or.imp (fun h => ?_) fun h => ?_) (Or.imp (fun h => ?_) fun h => ?_)
    · exact touches_document_iff.mpr ⟨before, middle, ha, hb, h⟩
    · exact touches_project_of_nonSourcesDiffer ha hb h
    · exact touches_document_iff.mpr ⟨middle, after, hb, hc, h⟩
    · exact touches_project_of_nonSourcesDiffer hb hc h

/-- What is touched between `a` and `c` is covered by what is touched in a step. -/
theorem Touches.trans {scope : Scope} (h : Touches a c scope) :
    ∃ other : Scope, other.Covers scope ∧ (Touches a b other ∨ Touches b c other) := by
  cases scope with
  | solution =>
    obtain ⟨item, h, hscope⟩ := h
    cases h <;> cases hscope
  | project id => exact ⟨.project id, .inl rfl, h.project_trans⟩
  | document id =>
    rcases h.document_trans (b := b) with (h | h) | (h | h)
    · exact ⟨.document id, .inl rfl, .inl h⟩
    · exact ⟨.project id.project, .inr ⟨id, rfl, rfl⟩, .inl h⟩
    · exact ⟨.document id, .inl rfl, .inr h⟩
    · exact ⟨.project id.project, .inr ⟨id, rfl, rfl⟩, .inr h⟩

/-- The reasons of a project that both snapshots have are among those that the listed items give. -/
theorem contains_given_changeReasons {items : List WorkItem} {id : ProjectId}
    {before after : Project} (hb : old.project? id = some before)
    (ha : new.project? id = some after) (hitems : ∀ item, Expects old new item → item ∈ items) :
    (Reasons.given items id).contains (Project.changeReasons before after) = true := by
  by_cases hne : Project.changeReasons before after = .empty
  · rw [hne]
    exact Reasons.contains_empty
  · have hitem := hitems _ (.projectChanged hb ha (Project.reasonsFor_iff.mpr rfl) hne)
    exact Reasons.contains_given hitem rfl

/-- The item about a project that both snapshots have gives the reasons of the project. -/
theorem Expects.reasons_eq {item : WorkItem} (h : Expects old new item) {id : ProjectId}
    (hscope : item.scope = .project id) {before after : Project}
    (hb : old.project? id = some before) (ha : new.project? id = some after) :
    item.reasons = Project.changeReasons before after := by
  cases h with
  | projectAdded hnone =>
    cases hscope
    rw [hb] at hnone
    contradiction
  | projectRemoved _ hnone =>
    cases hscope
    rw [ha] at hnone
    contradiction
  | projectChanged hb' ha' hreasons =>
    cases hscope
    rw [hb, Option.some.injEq] at hb'
    rw [ha, Option.some.injEq] at ha'
    rw [Project.reasonsFor_iff.mp hreasons, hb', ha']
  | documentAdded | documentChanged | documentRemoved => cases hscope

/-- For filed snapshots `a`, `b` and `c` of one workspace, whatever they share, every item of the
comparison of `a` with `c` is covered by an item of a step: of `a` with `b` or of `b` with `c`. When a
project is in all three, the reasons of its item are among those that its items in the steps give. -/
theorem diff_covered_by_steps (shareAC : Sharing a c) (shareAB : Sharing a b)
    (shareBC : Sharing b c) (hab : a.workspace = b.workspace) (hbc : b.workspace = c.workspace)
    (ha : a.Filed) (hb : b.Filed) (hc : c.Filed) :
    ∃ direct first second, diff a c shareAC = .ok direct ∧ diff a b shareAB = .ok first ∧
      diff b c shareBC = .ok second ∧
      (∀ item ∈ direct, ∃ other ∈ first ++ second, other.scope.Covers item.scope) ∧
      ∀ id, a.containsProject id = true → b.containsProject id = true →
        c.containsProject id = true → ∀ item ∈ direct, item.scope = .project id →
          (Reasons.given (first ++ second) id).contains item.reasons = true := by
  have hsteps : ∀ item, Expects a b item ∨ Expects b c item →
      item ∈ structuralDiff a b shareAB ++ structuralDiff b c shareBC := by
    intro item h
    rw [List.mem_append, mem_structuralDiff_iff ha hb, mem_structuralDiff_iff hb hc]
    exact h
  refine ⟨_, _, _, diff_eq_ok_structuralDiff shareAC (hab.trans hbc) ha,
    diff_eq_ok_structuralDiff shareAB hab ha, diff_eq_ok_structuralDiff shareBC hbc hb, ?_, ?_⟩
  · intro item hitem
    have htouches : Touches a c item.scope := ⟨item, (mem_structuralDiff_iff ha hc).mp hitem, rfl⟩
    obtain ⟨scope, hcovers, hother⟩ := htouches.trans (b := b)
    rcases hother with ⟨other, hother, rfl⟩ | ⟨other, hother, rfl⟩
    · exact ⟨other, hsteps other (.inl hother), hcovers⟩
    · exact ⟨other, hsteps other (.inr hother), hcovers⟩
  · intro id hina hinb hinc item hitem hscope
    obtain ⟨pa, hpa⟩ := containsProject_eq_true_iff.mp hina
    obtain ⟨pb, hpb⟩ := containsProject_eq_true_iff.mp hinb
    obtain ⟨pc, hpc⟩ := containsProject_eq_true_iff.mp hinc
    have hreasons := ((mem_structuralDiff_iff ha hc).mp hitem).reasons_eq hscope hpa hpc
    have hfirst := contains_given_changeReasons hpa hpb fun item h => hsteps item (.inl h)
    have hsecond := contains_given_changeReasons hpb hpc fun item h => hsteps item (.inr h)
    rw [hreasons]
    exact Reasons.contains_trans (Reasons.contains_union_iff.mpr ⟨hfirst, hsecond⟩)
      Project.changeReasons_trans

/-- The generated solution of two projects with another document in the place of the first one. -/
def twoProjectsWith (document : Document) : Solution :=
  twoProjects.withProject (((Fixture.mk 2 2 1 1).project 0).withDocument document)

/-- A document that was a source document, becomes an additional one, and is a source document of
another version in the end, is covered by the item of its project. -/
theorem diff_covered_by_steps_of_retyped :
    let b := twoProjectsWith { Fixture.sourceDocument 0 0 with kind := .additional, version := 1 }
    let c := twoProjectsWith { Fixture.sourceDocument 0 0 with version := 1 }
    twoProjects.workspace = b.workspace ∧ b.workspace = c.workspace ∧ twoProjects.Filed ∧ b.Filed ∧
      c.Filed ∧
      ∃ direct first second, diff twoProjects c .separate = .ok direct ∧
        diff twoProjects b .separate = .ok first ∧ diff b c .separate = .ok second ∧
        (∀ item ∈ direct, ∃ other ∈ first ++ second, other.scope.Covers item.scope) ∧
        ∀ id, twoProjects.containsProject id = true → b.containsProject id = true →
          c.containsProject id = true → ∀ item ∈ direct, item.scope = .project id →
            (Reasons.given (first ++ second) id).contains item.reasons = true :=
  ⟨rfl, rfl, by decide, by decide, by decide,
    diff_covered_by_steps .separate .separate .separate rfl rfl (by decide) (by decide) (by decide)⟩

end Solution

end SolutionWatch
