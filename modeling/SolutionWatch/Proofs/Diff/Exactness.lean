import Mathlib.Data.List.Nodup
import SolutionWatch.Fixture
import SolutionWatch.Proofs.Diff.Expected

/-!
# Differences are exact

The comparison of two filed snapshots of one workspace lists exactly the items of
`Solution.Expects`, each scope once (`diff_exact`). Membership is settled list by list: each list
of documents and projects that the comparison makes is characterised by look-ups, and the items are
put together from them (`mem_structuralDiff_iff`). That no scope is listed twice follows from where a
scope lies: the items of one project lie in that project, and a document that was added, changed or
removed is found by different combinations of look-ups.

The shortcuts for what two snapshots share change nothing, because nothing differs from itself
(`Project.diff_self`).
-/

namespace SolutionWatch

namespace Project

/-- The added documents are the source documents of `new` that `old` does not have. -/
theorem mem_addedSources_iff {old new : Project} {id : DocumentId} :
    id ∈ addedSources old new ↔
      ∃ d, new.document? id = some d ∧ d.kind = .source ∧ old.document? id = none := by
  simp only [addedSources, List.mem_map, List.mem_filter, mem_sources_iff, Bool.not_eq_true',
    containsDocument_eq_false_iff]
  constructor
  · rintro ⟨d, ⟨⟨hd, hk⟩, ho⟩, rfl⟩
    exact ⟨d, hd, hk, ho⟩
  · rintro ⟨d, hd, hk, ho⟩
    have hid : d.id = id := id_of_document? hd
    exact ⟨d, ⟨⟨hid ▸ hd, hk⟩, hid ▸ ho⟩, hid⟩

/-- The changed documents are the source documents of `new` that `old` has in another version. -/
theorem mem_changedSources_iff {old new : Project} {id : DocumentId} :
    id ∈ changedSources old new ↔
      ∃ c d, old.document? id = some c ∧ new.document? id = some d ∧ d.kind = .source ∧
        c.version ≠ d.version := by
  simp only [changedSources, List.mem_map, List.mem_filter, mem_sources_iff]
  constructor
  · rintro ⟨d, ⟨⟨hd, hk⟩, hv⟩, rfl⟩
    split at hv
    · next c hc => exact ⟨c, d, hc, hd, hk, by simpa using hv⟩
    · simp at hv
  · rintro ⟨c, d, hc, hd, hk, hv⟩
    have hid : d.id = id := id_of_document? hd
    refine ⟨d, ⟨⟨hid ▸ hd, hk⟩, ?_⟩, hid⟩
    rw [hid, hc]
    simpa using hv

/-- The removed documents are the source documents of `old` that `new` does not have. -/
theorem mem_removedSources_iff {old new : Project} {id : DocumentId} :
    id ∈ removedSources old new ↔
      ∃ c, old.document? id = some c ∧ c.kind = .source ∧ new.document? id = none :=
  mem_addedSources_iff

/-- The items of a project that both snapshots have. -/
theorem mem_diff_iff {oldSolution newSolution : Solution} {old new : Project} {item : WorkItem} :
    item ∈ diff oldSolution newSolution old new ↔
      (changeReasons old new ≠ .empty ∧
          item = ⟨.project new.id, changeReasons old new, newSolution⟩) ∨
        (∃ id ∈ addedSources old new, item = ⟨.document id, .documentAdded, newSolution⟩) ∨
        (∃ id ∈ changedSources old new, item = ⟨.document id, .documentChanged, newSolution⟩) ∨
        ∃ id ∈ removedSources old new, item = ⟨.document id, .documentRemoved, oldSolution⟩ := by
  have hown : item ∈ (if (changeReasons old new).isEmpty then ([] : List WorkItem)
      else [⟨.project new.id, changeReasons old new, newSolution⟩]) ↔
      changeReasons old new ≠ .empty ∧
        item = ⟨.project new.id, changeReasons old new, newSolution⟩ := by
    rw [← Reasons.isEmpty_eq_false_iff]
    split <;> simp_all
  simp only [diff, List.mem_append, List.mem_map, hown, or_assoc, @eq_comm _ item]

/-- Nothing is a reason to look at an unchanged project. -/
theorem changeReasons_self (project : Project) : changeReasons project project = .empty := by
  simp [changeReasons, configurationDiffers, differAsSets_self, Reasons.onlyIf, Reasons.union,
    Reasons.empty]

/-- A project does not differ from itself. -/
theorem diff_self (oldSolution newSolution : Solution) (project : Project) :
    diff oldSolution newSolution project project = [] := by
  rw [List.eq_nil_iff_forall_not_mem]
  intro item h
  rcases mem_diff_iff.mp h with ⟨hne, -⟩ | ⟨id, hid, -⟩ | ⟨id, hid, -⟩ | ⟨id, hid, -⟩
  · exact hne (changeReasons_self project)
  · obtain ⟨d, hd, -, ho⟩ := mem_addedSources_iff.mp hid
    rw [hd] at ho
    contradiction
  · obtain ⟨c, d, hc, hd, -, hv⟩ := mem_changedSources_iff.mp hid
    rw [hc, Option.some.injEq] at hd
    exact hv (congrArg Document.version hd)
  · obtain ⟨c, hc, -, hn⟩ := mem_removedSources_iff.mp hid
    rw [hc] at hn
    contradiction

end Project

namespace Solution

/-- The added projects are those that only `new` has. -/
theorem mem_addedProjects_iff {old new : Solution} (hn : new.Filed) {id : ProjectId} :
    id ∈ addedProjects old new ↔
      ∃ after, new.project? id = some after ∧ old.project? id = none := by
  simp only [addedProjects, List.mem_map, List.mem_filter, hn.mem_allProjects_iff,
    Bool.not_eq_true', containsProject_eq_false_iff]
  constructor
  · rintro ⟨p, ⟨hp, ho⟩, rfl⟩
    exact ⟨p, hp, ho⟩
  · rintro ⟨p, hp, ho⟩
    have hid : p.id = id := hn.id_of_project? hp
    exact ⟨p, ⟨hid ▸ hp, hid ▸ ho⟩, hid⟩

/-- The items of the kept projects are those of the projects that both snapshots have, whatever the
snapshots share. -/
theorem mem_keptProjects_iff {old new : Solution} (hn : new.Filed) {sharing : Sharing old new}
    {item : WorkItem} :
    item ∈ keptProjects old new sharing ↔
      ∃ id before after, old.project? id = some before ∧ new.project? id = some after ∧
        item ∈ Project.diff old new before after := by
  rw [keptProjects, List.mem_flatMap]
  constructor
  · rintro ⟨⟨k, after⟩, hm, h⟩
    have hk : after.id = k := hn _ hm
    split at h
    · next before hb =>
      split at h
      · simp at h
      · exact ⟨k, before, after, hk ▸ hb, Catalog.get?_eq_some_iff.mpr hm, h⟩
    · simp at h
  · rintro ⟨id, before, after, hb, ha, h⟩
    have hid : after.id = id := hn.id_of_project? ha
    refine ⟨(id, after), Catalog.mem_of_get? ha, ?_⟩
    simp only [hid, hb]
    split
    · next hshared =>
      have hsame := Sharing.equal_of_holds hshared
      rw [hb, ha, Option.some.injEq] at hsame
      rw [hsame, Project.diff_self] at h
      exact h
    · exact h

/-- What the comparison lists is what is expected. -/
theorem mem_structuralDiff_iff {old new : Solution} (ho : old.Filed) (hn : new.Filed)
    {sharing : Sharing old new} {item : WorkItem} :
    item ∈ structuralDiff old new sharing ↔ Expects old new item := by
  simp only [structuralDiff, List.mem_append, List.mem_map, mem_addedProjects_iff hn,
    mem_addedProjects_iff ho, mem_keptProjects_iff hn]
  constructor
  · rintro ((⟨id, ⟨after, ha, hb⟩, rfl⟩ | ⟨id, before, after, hb, ha, h⟩) |
      ⟨id, ⟨before, hb, ha⟩, rfl⟩)
    · exact .projectAdded hb ha
    · have hbid : before.id = id := ho.id_of_project? hb
      have haid : after.id = id := hn.id_of_project? ha
      rcases Project.mem_diff_iff.mp h with ⟨hne, rfl⟩ | ⟨d, hd, rfl⟩ | ⟨d, hd, rfl⟩ | ⟨d, hd, rfl⟩
      · rw [haid]
        exact .projectChanged hb ha (Project.reasonsFor_iff.mpr rfl) hne
      · obtain ⟨doc, hdoc, hk, hnone⟩ := Project.mem_addedSources_iff.mp hd
        have hp : d.project = id := (Project.project_of_document? hdoc).trans haid
        exact .documentAdded (hp ▸ hb) (hp ▸ ha) hnone hdoc hk
      · obtain ⟨c, doc, hc, hdoc, hk, hv⟩ := Project.mem_changedSources_iff.mp hd
        have hp : d.project = id := (Project.project_of_document? hdoc).trans haid
        exact .documentChanged (hp ▸ hb) (hp ▸ ha) hc hdoc hk hv
      · obtain ⟨c, hc, hk, hnone⟩ := Project.mem_removedSources_iff.mp hd
        have hp : d.project = id := (Project.project_of_document? hc).trans hbid
        exact .documentRemoved (hp ▸ hb) (hp ▸ ha) hc hk hnone
    · exact .projectRemoved hb ha
  · intro h
    cases h with
    | projectAdded hb ha => exact .inl (.inl ⟨_, ⟨_, ha, hb⟩, rfl⟩)
    | projectRemoved hb ha => exact .inr ⟨_, ⟨_, hb, ha⟩, rfl⟩
    | projectChanged hb ha hreasons hne =>
      obtain rfl := Project.reasonsFor_iff.mp hreasons
      refine .inl (.inr ⟨_, _, _, hb, ha, Project.mem_diff_iff.mpr (.inl ⟨hne, ?_⟩)⟩)
      rw [hn.id_of_project? ha]
    | documentAdded hb ha hnone hd hk =>
      exact .inl (.inr ⟨_, _, _, hb, ha, Project.mem_diff_iff.mpr
        (.inr (.inl ⟨_, Project.mem_addedSources_iff.mpr ⟨_, hd, hk, hnone⟩, rfl⟩))⟩)
    | documentChanged hb ha hc hd hk hv =>
      exact .inl (.inr ⟨_, _, _, hb, ha, Project.mem_diff_iff.mpr (.inr (.inr (.inl
        ⟨_, Project.mem_changedSources_iff.mpr ⟨_, _, hc, hd, hk, hv⟩, rfl⟩)))⟩)
    | documentRemoved hb ha hc hk hnone =>
      exact .inl (.inr ⟨_, _, _, hb, ha, Project.mem_diff_iff.mpr (.inr (.inr (.inr
        ⟨_, Project.mem_removedSources_iff.mpr ⟨_, hc, hk, hnone⟩, rfl⟩)))⟩)

/-! ## No scope twice -/

end Solution

/-- The project that a scope lies in, unless it is the whole solution. -/
def Scope.home : Scope → Option ProjectId
  | .solution => none
  | .project id => some id
  | .document id => some id.project

namespace Project

/-- No document is listed as added twice. -/
theorem nodup_addedSources (old new : Project) : (addedSources old new).Nodup :=
  new.nodup_ids_sources.sublist (List.filter_sublist.map _)

/-- No document is listed as changed twice. -/
theorem nodup_changedSources (old new : Project) : (changedSources old new).Nodup :=
  new.nodup_ids_sources.sublist (List.filter_sublist.map _)

/-- The documents that a project's items are about: first the added ones, then the changed ones,
and last the removed ones. -/
def touchedSources (old new : Project) : List DocumentId :=
  addedSources old new ++ changedSources old new ++ removedSources old new

/-- The scopes of a project's items are its own, if it gives reasons, and its documents'. -/
theorem map_scope_diff (oldSolution newSolution : Solution) (old new : Project) :
    (diff oldSolution newSolution old new).map WorkItem.scope =
      (if (changeReasons old new).isEmpty then [] else [.project new.id]) ++
        (touchedSources old new).map .document := by
  simp only [diff, touchedSources, List.map_append, List.map_map, Function.comp_def,
    List.append_assoc]
  congr 1
  split <;> rfl

/-- No document is listed twice: an added one is missing in `old`, a changed one is in both, and a
removed one is missing in `new`. -/
theorem nodup_touchedSources (old new : Project) : (touchedSources old new).Nodup := by
  rw [touchedSources, List.append_assoc, List.nodup_append', List.nodup_append']
  refine ⟨nodup_addedSources old new,
    ⟨nodup_changedSources old new, nodup_addedSources new old, ?_⟩, ?_⟩
  · intro id hc hr
    obtain ⟨c, d, -, hd, -⟩ := mem_changedSources_iff.mp hc
    obtain ⟨-, -, -, hnone⟩ := mem_removedSources_iff.mp hr
    rw [hd] at hnone
    contradiction
  · intro id ha hcr
    obtain ⟨-, -, -, hnone⟩ := mem_addedSources_iff.mp ha
    rcases List.mem_append.mp hcr with hc | hr
    · obtain ⟨c, d, hc, -⟩ := mem_changedSources_iff.mp hc
      rw [hc] at hnone
      contradiction
    · obtain ⟨c, hc, -⟩ := mem_removedSources_iff.mp hr
      rw [hc] at hnone
      contradiction

/-- No scope is listed twice among a project's items. -/
theorem nodup_scopes_diff (oldSolution newSolution : Solution) (old new : Project) :
    ((diff oldSolution newSolution old new).map WorkItem.scope).Nodup := by
  rw [map_scope_diff, List.nodup_append']
  refine ⟨?_, (nodup_touchedSources old new).map fun a b h => Scope.document.inj h, ?_⟩
  · split <;> simp
  · intro scope hp hd
    obtain ⟨id, -, rfl⟩ := List.mem_map.mp hd
    split at hp <;> simp at hp

/-- The items of a project that kept its identity lie in it. -/
theorem home_of_mem_scopes_diff {oldSolution newSolution : Solution} {old new : Project}
    (hid : old.id = new.id) {scope : Scope}
    (h : scope ∈ (diff oldSolution newSolution old new).map WorkItem.scope) :
    scope.home = some new.id := by
  rw [map_scope_diff, List.mem_append] at h
  rcases h with h | h
  · split at h
    · simp at h
    · rw [List.mem_singleton.mp h]
      rfl
  · obtain ⟨id, hm, rfl⟩ := List.mem_map.mp h
    simp only [Scope.home, Option.some.injEq]
    simp only [touchedSources, List.mem_append, mem_addedSources_iff, mem_changedSources_iff,
      mem_removedSources_iff] at hm
    obtain (⟨d, hd, -⟩ | ⟨c, d, -, hd, -⟩) | ⟨c, hc, -⟩ := hm
    · exact project_of_document? hd
    · exact project_of_document? hd
    · exact (project_of_document? hc).trans hid

end Project

namespace Solution

/-- No added project is listed twice. -/
theorem nodup_addedProjects {old new : Solution} (hn : new.Filed) :
    (addedProjects old new).Nodup :=
  hn.nodup_ids.sublist (List.filter_sublist.map _)

/-- The items of a kept project lie in a project that both snapshots have. -/
theorem home_of_mem_keptProjects {old new : Solution} (ho : old.Filed) (hn : new.Filed)
    {sharing : Sharing old new} {scope : Scope}
    (h : scope ∈ (keptProjects old new sharing).map WorkItem.scope) :
    ∃ id before after, scope.home = some id ∧ old.project? id = some before ∧
      new.project? id = some after := by
  obtain ⟨item, hitem, rfl⟩ := List.mem_map.mp h
  obtain ⟨id, before, after, hb, ha, hm⟩ := (mem_keptProjects_iff hn).mp hitem
  have haid : after.id = id := hn.id_of_project? ha
  have hsame : before.id = after.id := (ho.id_of_project? hb).trans haid.symm
  refine ⟨id, before, after, ?_, hb, ha⟩
  rw [← haid]
  exact Project.home_of_mem_scopes_diff hsame (List.mem_map_of_mem hm)

/-- The items of a kept project lie in it. -/
theorem home_of_mem_kept {old new : Solution} (ho : old.Filed) (hn : new.Filed)
    (sharing : Sharing old new) {e : ProjectId × Project} (he : e ∈ new.projects.entries)
    {scope : Scope}
    (hs : scope ∈ (match old.project? e.2.id with
      | some before => if sharing.holds e.2.id e.1 then [] else Project.diff old new before e.2
      | none => []).map WorkItem.scope) : scope.home = some e.1 := by
  have heid : e.2.id = e.1 := hn e he
  split at hs
  · next before hb =>
    split at hs
    · simp at hs
    · rw [← heid]
      exact Project.home_of_mem_scopes_diff (ho.id_of_project? hb) hs
  · simp at hs

/-- No scope is listed twice among the items of the kept projects. -/
theorem nodup_scopes_keptProjects {old new : Solution} (ho : old.Filed) (hn : new.Filed)
    (sharing : Sharing old new) :
    ((keptProjects old new sharing).map WorkItem.scope).Nodup := by
  rw [keptProjects, List.map_flatMap, List.nodup_flatMap]
  constructor
  · intro e _
    split
    · split
      · simp
      · exact Project.nodup_scopes_diff _ _ _ _
    · simp
  · -- The items of one project all lie in it, so no two projects have a scope in common.
    have hkeys : new.projects.entries.Pairwise fun a b => a.1 ≠ b.1 :=
      List.pairwise_map.mp new.projects.nodup
    refine hkeys.imp_of_mem fun {a b} ha hb hne scope hsa hsb => hne ?_
    exact Option.some.inj
      ((home_of_mem_kept ho hn sharing ha hsa).symm.trans (home_of_mem_kept ho hn sharing hb hsb))

/-- No scope is listed twice by the comparison. -/
theorem nodup_scopes_structuralDiff {old new : Solution} (ho : old.Filed) (hn : new.Filed)
    (sharing : Sharing old new) :
    ((structuralDiff old new sharing).map WorkItem.scope).Nodup := by
  have hscope : ∀ (ids : List ProjectId) (reasons : Reasons) (solution : Solution),
      (ids.map fun id => (⟨.project id, reasons, solution⟩ : WorkItem)).map WorkItem.scope =
        ids.map Scope.project := fun ids _ _ => by rw [List.map_map]; rfl
  have hinj : Function.Injective Scope.project := fun a b h => Scope.project.inj h
  rw [structuralDiff, List.map_append, List.map_append, hscope, hscope, List.append_assoc,
    List.nodup_append', List.nodup_append']
  refine ⟨(nodup_addedProjects hn).map hinj, ⟨nodup_scopes_keptProjects ho hn sharing,
    (nodup_addedProjects ho).map hinj, ?_⟩, ?_⟩
  · intro scope hk hr
    obtain ⟨id, before, after, hhome, hb, ha⟩ := home_of_mem_keptProjects ho hn hk
    obtain ⟨id', hm, rfl⟩ := List.mem_map.mp hr
    obtain ⟨-, -, hnone⟩ := (mem_addedProjects_iff ho).mp hm
    rw [Option.some.inj hhome, ha] at hnone
    contradiction
  · intro scope hadd hrest
    obtain ⟨id, hm, rfl⟩ := List.mem_map.mp hadd
    obtain ⟨after, ha, hnone⟩ := (mem_addedProjects_iff hn).mp hm
    rcases List.mem_append.mp hrest with hk | hr
    · obtain ⟨id', before, after', hhome, hb, -⟩ := home_of_mem_keptProjects ho hn hk
      rw [Option.some.inj hhome, hb] at hnone
      contradiction
    · obtain ⟨id', hm', hsame⟩ := List.mem_map.mp hr
      obtain ⟨before, hb, -⟩ := (mem_addedProjects_iff ho).mp hm'
      rw [← Scope.project.inj hsame, hb] at hnone
      contradiction

/-! ## The comparison is exact -/

/-- The comparison of a snapshot with itself finds nothing. -/
theorem structuralDiff_self {solution : Solution} (h : solution.Filed)
    (sharing : Sharing solution solution) : structuralDiff solution solution sharing = [] := by
  rw [List.eq_nil_iff_forall_not_mem]
  intro item hitem
  simp only [structuralDiff, List.mem_append, List.mem_map, mem_addedProjects_iff h,
    mem_keptProjects_iff h] at hitem
  rcases hitem with (⟨id, ⟨p, hp, hnone⟩, -⟩ | ⟨id, before, after, hb, ha, hm⟩) |
    ⟨id, ⟨p, hp, hnone⟩, -⟩
  · rw [hp] at hnone
    contradiction
  · rw [hb, Option.some.injEq] at ha
    rw [ha, Project.diff_self] at hm
    simp at hm
  · rw [hp] at hnone
    contradiction

/-- Filed snapshots of one workspace can be compared, and what they share does not matter. -/
theorem diff_eq_ok_structuralDiff {old new : Solution} (sharing : Sharing old new)
    (hw : old.workspace = new.workspace) (ho : old.Filed) :
    diff old new sharing = .ok (structuralDiff old new sharing) := by
  unfold diff
  rw [if_pos hw]
  cases sharing with
  | separate => rfl
  | overlapping same equal => rfl
  | shared equal =>
    cases equal
    exact congrArg Except.ok (structuralDiff_self ho _).symm

/-- What the kept projects come to does not depend on what the snapshots share. -/
theorem keptProjects_eq_separate {old new : Solution} (sharing : Sharing old new) :
    keptProjects old new sharing = keptProjects old new .separate := by
  refine List.flatMap_congr fun e he => ?_
  have hafter : new.project? e.1 = some e.2 := Catalog.get?_eq_some_iff.mpr he
  split
  · next before hb =>
    by_cases hshared : sharing.holds e.2.id e.1 = true
    · have hsame := Sharing.equal_of_holds hshared
      rw [hb, hafter, Option.some.injEq] at hsame
      rw [if_pos hshared, hsame, Project.diff_self, ite_self]
    · rw [if_neg hshared]
      rfl
  · rfl

/-- What two filed snapshots share does not matter for their comparison. -/
theorem diff_eq_separate {old new : Solution} (sharing : Sharing old new) (ho : old.Filed) :
    diff old new sharing = diff old new .separate := by
  by_cases hw : old.workspace = new.workspace
  · rw [diff_eq_ok_structuralDiff sharing hw ho, diff_eq_ok_structuralDiff .separate hw ho,
      structuralDiff, keptProjects_eq_separate]
    rfl
  · unfold diff
    rw [if_neg hw, if_neg hw]

/-- The comparison of filed snapshots of one workspace succeeds, whatever the snapshots share. It lists
exactly what is expected, each scope once, and never the whole solution. -/
theorem diff_exact {old new : Solution} (sharing : Sharing old new)
    (hw : old.workspace = new.workspace) (ho : old.Filed) (hn : new.Filed) :
    ∃ items, diff old new sharing = .ok items ∧
      (items.map WorkItem.scope).Nodup ∧
      (∀ item ∈ items, item.scope ≠ .solution) ∧
      ∀ item, item ∈ items ↔ Expects old new item := by
  have hmem : ∀ item, item ∈ structuralDiff old new sharing ↔ Expects old new item :=
    fun item => mem_structuralDiff_iff ho hn
  refine ⟨structuralDiff old new sharing, diff_eq_ok_structuralDiff sharing hw ho,
    nodup_scopes_structuralDiff ho hn sharing, ?_, hmem⟩
  intro item hitem
  cases (hmem item).mp hitem <;> exact nofun

/-- A generated solution of two projects. -/
def twoProjects : Solution := (Fixture.mk 2 2 1 1).solution

/-- The generated solution of two projects after its first document was edited and its first additional
document left. -/
def twoProjectsEdited : Solution :=
  twoProjects.withProject <|
    (((Fixture.mk 2 2 1 1).project 0).withDocument
      { Fixture.sourceDocument 0 0 with version := 1 }).withoutDocument (Fixture.documentId 0 2)

/-- The two snapshots of the generated solution have the second project as one object. -/
def secondShared : Sharing twoProjects twoProjectsEdited :=
  .overlapping (fun i j => i = Fixture.projectId 1 ∧ j = Fixture.projectId 1) fun i j h => by
    obtain ⟨rfl, rfl⟩ := of_decide_eq_true h
    decide +kernel

/-- The comparison is exact for an edit that leaves one of two projects alone, although that project is
not looked at. -/
theorem diff_exact_edit :
    twoProjects.workspace = twoProjectsEdited.workspace ∧ twoProjects.Filed ∧
      twoProjectsEdited.Filed ∧
      ∃ items, diff twoProjects twoProjectsEdited secondShared = .ok items ∧
        (items.map WorkItem.scope).Nodup ∧
        (∀ item ∈ items, item.scope ≠ .solution) ∧
        ∀ item, item ∈ items ↔ Expects twoProjects twoProjectsEdited item :=
  ⟨rfl, by decide, by decide,
    diff_exact secondShared rfl (by decide) (by decide)⟩

end Solution

end SolutionWatch
