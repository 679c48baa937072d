import SolutionWatch.Proofs.Diff.Composition
import SolutionWatch.Proofs.Snapshot.Derivation

/-!
# Differences after one update

Two snapshots that find the same projects but one differ in that project only. If one of them does not
find it, it is the one item (`Solution.expects_iff_of_added`, `Solution.expects_iff_of_removed`), and
else the comparison of the snapshots is the comparison of the project with what it was
(`Solution.structuralDiff_eq_diff`).

A project that was updated in one document (`Project.AgreeBut`) differs in that document. As long as it
is a source document, the one item is that of the document (`Project.AgreeBut.mem_diff_of_source`). As
long as it is none, the one item is that of the project (`Project.AgreeBut.mem_diff_of_nonSource`). An
update that changes the kind is neither, and is not spoken of here.

Where there is one item, lists are settled by their members: no scope is listed twice, so a list that
has one item as its only member is that item (`eq_singleton_of_mem_iff`).
-/

namespace SolutionWatch

/-- A list without duplicates that has one member is that member. -/
theorem eq_singleton_of_mem_iff {α : Type} {items : List α} {x : α} (hnodup : items.Nodup)
    (h : ∀ item, item ∈ items ↔ item = x) : items = [x] := by
  have hperm : items.Perm [x] :=
    (List.perm_ext_iff_of_nodup hnodup (List.nodup_singleton x)).mpr fun item => by
      rw [h, List.mem_singleton]
  exact List.perm_singleton.mp hperm

/-- What a list of entries contributes is what one of them contributes, if no other contributes
anything. -/
theorem flatMap_eq_of_key {κ α β : Type} {f : κ × α → List β} {key : κ} {value : α}
    {entries : List (κ × α)} (hnodup : (entries.map Prod.fst).Nodup) (hmem : (key, value) ∈ entries)
    (hothers : ∀ e ∈ entries, e.1 ≠ key → f e = []) : entries.flatMap f = f (key, value) := by
  have hrest : ∀ rest : List (κ × α), (∀ e ∈ rest, f e = []) → rest.flatMap f = [] :=
    fun rest h => List.flatMap_eq_nil_iff.mpr h
  obtain ⟨before, after, rfl⟩ := List.append_of_mem hmem
  rw [List.map_append, List.map_cons, List.nodup_append] at hnodup
  obtain ⟨-, hafter, hdisjoint⟩ := hnodup
  rw [List.flatMap_append, List.flatMap_cons, hrest before, hrest after, List.nil_append,
    List.append_nil]
  · intro e he
    refine hothers e (List.mem_append_right _ (List.mem_cons_of_mem _ he)) fun hkey => ?_
    exact (List.nodup_cons.mp hafter).1 (List.mem_map.mpr ⟨e, he, hkey⟩)
  · intro e he
    refine hothers e (List.mem_append_left _ he) fun hkey => ?_
    exact hdisjoint e.1 (List.mem_map_of_mem he) key List.mem_cons_self hkey

namespace Solution

variable {old new : Solution}

/-- A comparison that expects one item lists that item. -/
theorem structuralDiff_eq_singleton (ho : old.Filed) (hn : new.Filed) (sharing : Sharing old new)
    {item : WorkItem} (h : ∀ other, Expects old new other ↔ other = item) :
    structuralDiff old new sharing = [item] := by
  refine eq_singleton_of_mem_iff (List.Nodup.of_map _ (nodup_scopes_structuralDiff ho hn sharing)) ?_
  intro other
  rw [mem_structuralDiff_iff ho hn, h]

/-- An item lies in a project that the two snapshots do not find alike. -/
theorem Expects.exists_home {item : WorkItem} (h : Expects old new item) :
    ∃ id, item.scope.home = some id ∧ old.project? id ≠ new.project? id := by
  cases h with
  | @projectAdded id after hb ha => exact ⟨id, rfl, by simp [hb, ha]⟩
  | @projectRemoved id before hb ha => exact ⟨id, rfl, by simp [hb, ha]⟩
  | @projectChanged id before after reasons hb ha hreasons hne =>
    refine ⟨id, rfl, fun hsame => hne ?_⟩
    rw [hb, ha, Option.some.injEq] at hsame
    rw [Project.reasonsFor_iff.mp hreasons, hsame, Project.changeReasons_self]
  | @documentAdded id before after d hb ha hnone hd =>
    refine ⟨id.project, rfl, fun hsame => ?_⟩
    rw [hb, ha, Option.some.injEq] at hsame
    rw [hsame, hd] at hnone
    contradiction
  | @documentChanged id before after c d hb ha hc hd _ hv =>
    refine ⟨id.project, rfl, fun hsame => hv ?_⟩
    rw [hb, ha, Option.some.injEq] at hsame
    rw [hsame, hd, Option.some.injEq] at hc
    rw [hc]
  | @documentRemoved id before after c hb ha hc _ hnone =>
    refine ⟨id.project, rfl, fun hsame => ?_⟩
    rw [hb, ha, Option.some.injEq] at hsame
    rw [hsame, hnone] at hc
    contradiction

/-- Snapshots that find the same projects but one that only the second has expect one item. -/
theorem expects_iff_of_added {id : ProjectId} {after : Project} (hb : old.project? id = none)
    (ha : new.project? id = some after)
    (hothers : ∀ other, other ≠ id → new.project? other = old.project? other) {item : WorkItem} :
    Expects old new item ↔ item = ⟨.project id, .documentAdded, new⟩ := by
  constructor
  · intro h
    obtain ⟨home, hhome, hdiffer⟩ := h.exists_home
    obtain rfl : home = id := by_contra fun hne => hdiffer (hothers home hne).symm
    cases h with
    | projectAdded =>
      cases hhome
      rfl
    -- Every other item needs a project that the first snapshot finds.
    | projectRemoved hb' | projectChanged hb' | documentAdded hb' | documentChanged hb'
    | documentRemoved hb' =>
      cases hhome
      rw [hb] at hb'
      contradiction
  · rintro rfl
    exact .projectAdded hb ha

/-- Snapshots that find the same projects but one that only the first has expect one item. -/
theorem expects_iff_of_removed {id : ProjectId} {before : Project}
    (hb : old.project? id = some before) (ha : new.project? id = none)
    (hothers : ∀ other, other ≠ id → new.project? other = old.project? other) {item : WorkItem} :
    Expects old new item ↔ item = ⟨.project id, .documentRemoved, old⟩ := by
  constructor
  · intro h
    obtain ⟨home, hhome, hdiffer⟩ := h.exists_home
    obtain rfl : home = id := by_contra fun hne => hdiffer (hothers home hne).symm
    cases h with
    | projectRemoved =>
      cases hhome
      rfl
    -- Every other item needs a project that the second snapshot finds.
    | projectAdded _ ha' | projectChanged _ ha' | documentAdded _ ha' | documentChanged _ ha'
    | documentRemoved _ ha' =>
      cases hhome
      rw [ha] at ha'
      contradiction
  · rintro rfl
    exact .projectRemoved hb ha

/-- Snapshots that find the same projects but one are compared by comparing that one. -/
theorem structuralDiff_eq_diff (ho : old.Filed) (hn : new.Filed) (sharing : Sharing old new)
    {id : ProjectId} {before after : Project} (hb : old.project? id = some before)
    (ha : new.project? id = some after)
    (hothers : ∀ other, other ≠ id → new.project? other = old.project? other) :
    structuralDiff old new sharing = Project.diff old new before after := by
  -- Both snapshots find a project under the same identities, so none was added or removed.
  have hsame : ∀ other, old.project? other = none ↔ new.project? other = none := by
    intro other
    by_cases hid : other = id
    · simp [hid, hb, ha]
    · rw [hothers other hid]
  have hadded : addedProjects old new = [] := by
    rw [List.eq_nil_iff_forall_not_mem]
    intro other hother
    obtain ⟨project, hproject, hnone⟩ := (mem_addedProjects_iff hn).mp hother
    rw [(hsame other).mp hnone] at hproject
    contradiction
  have hremoved : addedProjects new old = [] := by
    rw [List.eq_nil_iff_forall_not_mem]
    intro other hother
    obtain ⟨project, hproject, hnone⟩ := (mem_addedProjects_iff ho).mp hother
    rw [(hsame other).mpr hnone] at hproject
    contradiction
  -- A kept project other than the one at hand is compared with itself.
  have hkept : keptProjects old new .separate = Project.diff old new before after := by
    have hentry : (id, after) ∈ new.projects.entries := Catalog.mem_of_get? ha
    refine (flatMap_eq_of_key new.projects.nodup hentry ?_).trans ?_
    · intro e he hkey
      have hfound : new.project? e.1 = some e.2 := Catalog.get?_eq_some_iff.mpr he
      have heid : e.2.id = e.1 := hn e he
      rw [hothers e.1 hkey] at hfound
      simp only [heid, hfound, Project.diff_self, ite_self]
    · simp only [hn.id_of_project? ha, hb]
      rfl
  rw [structuralDiff, keptProjects_eq_separate, hadded, hremoved, hkept, List.map_nil, List.map_nil,
    List.nil_append, List.append_nil]

end Solution

namespace Project

/-- Two projects that agree in everything but what one document identity finds. -/
structure AgreeBut (id : DocumentId) (old new : Project) : Prop where
  /-- They have one identity. -/
  sameId : new.id = old.id
  /-- They have one configuration. -/
  sameConfig : new.config = old.config
  /-- They have the same references. -/
  sameReferences : new.references = old.references
  /-- Analysis is on for both or for none. -/
  sameSwitch : new.runAnalyzers = old.runAnalyzers
  /-- They find the same under every other identity. -/
  sameElsewhere : ∀ other, other ≠ id → new.document? other = old.document? other

/-- Adding a document is an update in that document. -/
theorem agreeBut_withDocument (project : Project) (document : Document) :
    AgreeBut document.id project (project.withDocument document) := by
  have helsewhere : ∀ other, other ≠ document.id →
      (project.withDocument document).document? other = project.document? other :=
    fun other h => project.document?_withDocument_of_ne h
  unfold withDocument at *
  split
  · next h =>
    rw [dif_pos h] at helsewhere
    exact ⟨rfl, rfl, rfl, rfl, helsewhere⟩
  · exact ⟨rfl, rfl, rfl, rfl, fun _ _ => rfl⟩

/-- Removing a document is an update in that document. -/
theorem agreeBut_withoutDocument (project : Project) (id : DocumentId) :
    AgreeBut id project (project.withoutDocument id) where
  sameId := rfl
  sameConfig := rfl
  sameReferences := rfl
  sameSwitch := rfl
  sameElsewhere other h := by rw [document?_withoutDocument, if_neg h.symm]

/-- What the project finds under an identity, if anything, is a document whose kind meets `P`. -/
def FindsOnly (project : Project) (id : DocumentId) (P : DocumentKind → Prop) : Prop :=
  ∀ d, project.document? id = some d → P d.kind

/-- A project finds only what it finds. -/
theorem findsOnly_of_some {project : Project} {id : DocumentId} {P : DocumentKind → Prop}
    {d : Document} (hd : project.document? id = some d) (hP : P d.kind) : project.FindsOnly id P := by
  intro e he
  rw [hd, Option.some.injEq] at he
  exact he ▸ hP

/-- A project that finds nothing finds nothing of another kind. -/
theorem findsOnly_of_none {project : Project} {id : DocumentId} {P : DocumentKind → Prop}
    (hnone : project.document? id = none) : project.FindsOnly id P := by
  intro d hd
  rw [hnone] at hd
  contradiction

/-- A document that is not a source document makes two projects differ if the other project, should it
have the document, has it in another version. -/
theorem nonSourcesDiffer_of_version {old new : Project} {id : DocumentId} {d : Document}
    (hd : new.document? id = some d) (hk : d.kind ≠ .source)
    (hold : ∀ c, old.document? id = some c → c.version ≠ d.version) : NonSourcesDiffer old new := by
  refine ⟨id, d.kind, d.version, hk, fun h => ?_⟩
  obtain ⟨c, hc, -, hv⟩ := h.mpr ⟨d, hd, rfl, rfl⟩
  exact hold c hc hv

namespace AgreeBut

variable {id : DocumentId} {old new : Project}

/-- A project that was updated in one document gives no reason but its documents that are not source
documents. -/
theorem changeReasons_eq (h : AgreeBut id old new) :
    changeReasons old new =
      Reasons.onlyIf (differAsSets old.nonSources new.nonSources) .additionalDocumentChanged := by
  have hconfiguration : configurationDiffers old new = false := by
    simp [configurationDiffers, h.sameConfig, h.sameReferences, h.sameSwitch, differAsSets_self]
  have hparse : decide (old.config.parseOptions ≠ new.config.parseOptions) = false := by
    simp [h.sameConfig]
  rw [changeReasons_eq_select, hconfiguration, hparse]
  simp [Reasons.select, Reasons.onlyIf, Reasons.union, Reasons.empty]

/-- An update of a source document is no reason to look at the project. -/
theorem changeReasons_of_source (h : AgreeBut id old new) (hold : old.FindsOnly id (· = .source))
    (hnew : new.FindsOnly id (· = .source)) : changeReasons old new = .empty := by
  have hsame : ¬NonSourcesDiffer old new := by
    rintro ⟨other, kind, version, hkind, hdiffer⟩
    by_cases hother : other = id
    · subst hother
      -- Neither project has the document as one that is not a source document.
      have hneither : ∀ project : Project, project.FindsOnly other (· = .source) →
          ¬project.Holds other kind version := by
        rintro project hfinds ⟨d, hd, hk, -⟩
        exact hkind (hk ▸ hfinds d hd)
      exact hdiffer (iff_of_false (hneither old hold) (hneither new hnew))
    · refine hdiffer ?_
      rw [Holds, Holds, h.sameElsewhere other hother]
  rw [h.changeReasons_eq, Bool.eq_false_iff.mpr (mt differAsSets_nonSources_iff.mp hsame)]
  rfl

/-- The documents that the items of a project are about are the one in which it was updated. -/
theorem eq_of_mem_touchedSources (h : AgreeBut id old new) {other : DocumentId}
    (hother : other ∈ touchedSources old new) : other = id := by
  by_contra hne
  have hsame := h.sameElsewhere other hne
  rw [mem_touchedSources_iff, hsame] at hother
  rcases hother with ⟨d, hd, -, hnone⟩ | ⟨c, d, hc, hd, -, hv⟩ | ⟨c, hc, -, hnone⟩
  · rw [hd] at hnone
    contradiction
  · rw [hc, Option.some.injEq] at hd
    exact hv (congrArg Document.version hd)
  · rw [hc] at hnone
    contradiction

/-- An update of a source document comes to the item of the document. -/
theorem mem_diff_of_source (h : AgreeBut id old new) (hold : old.FindsOnly id (· = .source))
    (hnew : new.FindsOnly id (· = .source)) {oldSolution newSolution : Solution} {item : WorkItem} :
    item ∈ diff oldSolution newSolution old new ↔
      (id ∈ addedSources old new ∧ item = ⟨.document id, .documentAdded, newSolution⟩) ∨
      (id ∈ changedSources old new ∧ item = ⟨.document id, .documentChanged, newSolution⟩) ∨
      (id ∈ removedSources old new ∧ item = ⟨.document id, .documentRemoved, oldSolution⟩) := by
  have hreasons := h.changeReasons_of_source hold hnew
  -- Each of the three lists has no other member than `id`.
  have honly : ∀ (ids : List DocumentId) (make : DocumentId → WorkItem),
      (∀ other ∈ ids, other ∈ touchedSources old new) →
      ((∃ other ∈ ids, item = make other) ↔ id ∈ ids ∧ item = make id) := by
    intro ids make hids
    constructor
    · rintro ⟨other, hother, rfl⟩
      obtain rfl := h.eq_of_mem_touchedSources (hids other hother)
      exact ⟨hother, rfl⟩
    · exact fun hid => ⟨id, hid⟩
  have hadded := honly (addedSources old new) (fun i => ⟨.document i, .documentAdded, newSolution⟩)
    fun other hother => by simp [touchedSources, hother]
  have hchanged := honly (changedSources old new)
    (fun i => ⟨.document i, .documentChanged, newSolution⟩)
    fun other hother => by simp [touchedSources, hother]
  have hremoved := honly (removedSources old new)
    (fun i => ⟨.document i, .documentRemoved, oldSolution⟩)
    fun other hother => by simp [touchedSources, hother]
  rw [mem_diff_iff, hadded, hchanged, hremoved, hreasons]
  simp

/-- An update of a document that is not a source document is about no document. -/
theorem touchedSources_of_nonSource (h : AgreeBut id old new)
    (hold : old.FindsOnly id (· ≠ .source)) (hnew : new.FindsOnly id (· ≠ .source)) :
    touchedSources old new = [] := by
  rw [List.eq_nil_iff_forall_not_mem]
  intro other hother
  obtain rfl := h.eq_of_mem_touchedSources hother
  rcases mem_touchedSources_iff.mp hother with ⟨d, hd, hk, -⟩ | ⟨c, d, -, hd, hk, -⟩ | ⟨c, hc, hk, -⟩
  · exact hnew d hd hk
  · exact hnew d hd hk
  · exact hold c hc hk

/-- An update of a document that is not a source document comes to the item of the project. -/
theorem mem_diff_of_nonSource (h : AgreeBut id old new) (hold : old.FindsOnly id (· ≠ .source))
    (hnew : new.FindsOnly id (· ≠ .source)) {oldSolution newSolution : Solution} {item : WorkItem} :
    item ∈ diff oldSolution newSolution old new ↔
      NonSourcesDiffer old new ∧
        item = ⟨.project new.id, .additionalDocumentChanged, newSolution⟩ := by
  have hnone := h.touchedSources_of_nonSource hold hnew
  rw [touchedSources, List.append_eq_nil_iff, List.append_eq_nil_iff] at hnone
  obtain ⟨⟨hadded, hchanged⟩, hremoved⟩ := hnone
  rw [mem_diff_iff, hadded, hchanged, hremoved, h.changeReasons_eq]
  by_cases hdiffer : NonSourcesDiffer old new
  · have hne : Reasons.additionalDocumentChanged ≠ .empty := by decide
    rw [differAsSets_nonSources_iff.mpr hdiffer]
    simp [hdiffer, hne, Reasons.onlyIf]
  · rw [Bool.eq_false_iff.mpr (mt differAsSets_nonSources_iff.mp hdiffer)]
    simp [hdiffer, Reasons.onlyIf]

end AgreeBut

end Project

namespace Solution

/-- Two snapshots that agree in everything but what one document identity finds: they find the same
projects but one, and that one agrees in everything but the document. -/
structure AgreeBut (id : DocumentId) (old new : Solution) (before after : Project) : Prop where
  /-- The project in the first snapshot. -/
  foundBefore : old.project? id.project = some before
  /-- The project in the second snapshot. -/
  foundAfter : new.project? id.project = some after
  /-- The snapshots find the same projects under every other identity. -/
  elsewhere : ∀ other, other ≠ id.project → new.project? other = old.project? other
  /-- The project agrees in everything but the document. -/
  project : Project.AgreeBut id before after

/-- An update of one project that leaves it as it is but for one document. -/
theorem agreeBut_of_updateProject {old new : Solution} {id : DocumentId}
    {update : Project → Project} (hupdate : ∀ project, Project.AgreeBut id project (update project))
    (hnew : old.updateProject id.project update = .ok new) :
    ∃ before after, AgreeBut id old new before after := by
  obtain ⟨before, hb, rfl⟩ := updateProject_eq_ok_iff.mp hnew
  exact ⟨before, update before, hb, old.project?_derive_insert _ _,
    fun other h => old.project?_derive_insert_of_ne h _, hupdate before⟩

namespace AgreeBut

variable {id : DocumentId} {old new : Solution} {before after : Project}

/-- The document of the first snapshot is that of its project. -/
theorem document?_before (h : AgreeBut id old new before after) :
    before.document? id = old.document? id := by
  rw [document?, h.foundBefore]
  rfl

/-- The document of the second snapshot is that of its project. -/
theorem document?_after (h : AgreeBut id old new before after) :
    after.document? id = new.document? id := by
  rw [document?, h.foundAfter]
  rfl

/-- Snapshots of which the one project has one item differ in that item. -/
theorem diff_eq_singleton (h : AgreeBut id old new before after)
    (hw : old.workspace = new.workspace) (ho : old.Filed) (hn : new.Filed)
    (sharing : Sharing old new) {x : WorkItem}
    (hx : ∀ item, item ∈ Project.diff old new before after ↔ item = x) :
    diff old new sharing = .ok [x] := by
  have hlist : Project.diff old new before after = [x] :=
    eq_singleton_of_mem_iff (List.Nodup.of_map _ (Project.nodup_scopes_diff _ _ _ _)) hx
  rw [diff_eq_ok_structuralDiff sharing hw ho,
    structuralDiff_eq_diff ho hn sharing h.foundBefore h.foundAfter h.elsewhere, hlist]

/-- Snapshots that differ in a document that is not a source document differ in its project. -/
theorem diff_of_nonSource (h : AgreeBut id old new before after)
    (hw : old.workspace = new.workspace) (ho : old.Filed) (hn : new.Filed)
    (sharing : Sharing old new) (hold : before.FindsOnly id (· ≠ .source))
    (hnew : after.FindsOnly id (· ≠ .source)) (hdiffer : Project.NonSourcesDiffer before after) :
    diff old new sharing = .ok [⟨.project id.project, .additionalDocumentChanged, new⟩] := by
  refine h.diff_eq_singleton hw ho hn sharing fun item => ?_
  rw [h.project.mem_diff_of_nonSource hold hnew, hn.id_of_project? h.foundAfter]
  exact and_iff_right hdiffer

end AgreeBut

end Solution

end SolutionWatch
