import SolutionWatch.Proofs.Diff.Exactness
import SolutionWatch.Proofs.Snapshot.Edits
import SolutionWatch.Proofs.Snapshot.Generated

/-!
# The difference that many edits make

After any row of edits of source documents, the comparison with the snapshot before lists the edited
documents and nothing else: each of them once, however often and in whatever order they were edited, in
the order of the projects and of the documents in them (`Solution.AfterEdits.diff_eq`).

A round of edits of a generated solution takes every so-many-th document of each project. It always goes
through, because a generated solution has the documents that its shape says, and the comparison lists the
positions of the round (`Fixture.Fits.edits_found`).
-/

namespace SolutionWatch

namespace Project

variable {ids : List DocumentId} {project : Project}

/-- Edits of source documents leave the other documents alone. -/
theorem nonSources_afterEdits
    (h : ∀ document ∈ project.allDocuments, document.id ∈ ids → document.kind = .source) :
    (project.afterEdits ids).nonSources = project.nonSources := by
  rw [nonSources, nonSources, allDocuments_afterEdits, List.filter_map, List.map_map]
  refine List.map_congr_left fun document hdocument => ?_
  obtain ⟨hmem, hkind⟩ := List.mem_filter.mp hdocument
  have hother : document.id ∉ ids := fun hid => by simp [Document.isSource, h document hmem hid] at hkind
  rw [Function.comp_apply, Document.afterEdits_of_not_mem hother]

/-- Edits of source documents are no reason to look at the project. -/
theorem changeReasons_afterEdits
    (h : ∀ document ∈ project.allDocuments, document.id ∈ ids → document.kind = .source) :
    changeReasons project (project.afterEdits ids) = .empty := by
  have hsame : configurationDiffers project (project.afterEdits ids) = false := by
    simp [configurationDiffers, afterEdits, differAsSets_self]
  rw [changeReasons, hsame, nonSources_afterEdits h, differAsSets_self]
  simp [afterEdits, Reasons.onlyIf, Reasons.union, Reasons.empty]

/-- Edits add no document. -/
theorem addedSources_afterEdits : addedSources project (project.afterEdits ids) = [] := by
  rw [List.eq_nil_iff_forall_not_mem]
  intro id hid
  obtain ⟨document, hdocument, -, hnone⟩ := mem_addedSources_iff.mp hid
  rw [document?_afterEdits, hnone] at hdocument
  contradiction

/-- Edits remove no document. -/
theorem removedSources_afterEdits : removedSources project (project.afterEdits ids) = [] := by
  rw [List.eq_nil_iff_forall_not_mem]
  intro id hid
  obtain ⟨document, hdocument, -, hnone⟩ := mem_removedSources_iff.mp hid
  rw [document?_afterEdits, hdocument] at hnone
  contradiction

/-- The source documents that edits changed are those that were edited, if no version went round. -/
theorem changedSources_afterEdits (hstamps : ∀ id, ids.count id < Nat.pow 2 64) :
    changedSources project (project.afterEdits ids) =
      (project.sources.filter fun document => document.id ∈ ids).map Document.id := by
  rw [changedSources, sources_afterEdits, List.filter_map, List.map_map]
  refine congrArg (List.map Document.id) (List.filter_congr fun document hdocument => ?_)
  have hfound := (mem_sources_iff.mp hdocument).1
  rw [Function.comp_apply, Document.id_afterEdits, hfound]
  -- The version moved on with each edit, so it changed if there was one.
  rw [Bool.eq_iff_iff, bne_iff_ne, decide_eq_true_eq, Document.afterEdits, ← List.count_pos_iff,
    ne_comm, Ne, Version.later_eq_self_iff (hstamps document.id), Nat.pos_iff_ne_zero]

/-- A project in which source documents were edited has the items of those. -/
theorem diff_afterEdits {oldSolution newSolution : Solution} (hstamps : ∀ id, ids.count id < Nat.pow 2 64)
    (h : ∀ document ∈ project.allDocuments, document.id ∈ ids → document.kind = .source) :
    diff oldSolution newSolution project (project.afterEdits ids) =
      (project.sources.filter fun document => document.id ∈ ids).map fun document =>
        ⟨.document document.id, .documentChanged, newSolution⟩ := by
  simp only [diff, changeReasons_afterEdits h, addedSources_afterEdits, removedSources_afterEdits,
    changedSources_afterEdits hstamps, List.map_nil, List.append_nil, List.map_map]
  rfl

end Project

namespace Solution

variable {old new : Solution} {ids : List DocumentId}

/-- Edits neither add nor remove a project. -/
theorem AfterEdits.addedProjects_eq_nil (h : AfterEdits ids old new) (ho : old.Filed) :
    addedProjects old new = [] ∧ addedProjects new old = [] := by
  constructor
  · rw [List.eq_nil_iff_forall_not_mem]
    intro id hid
    obtain ⟨project, hproject, hnone⟩ := (mem_addedProjects_iff (h.filed ho)).mp hid
    rw [h.project?, hnone] at hproject
    contradiction
  · rw [List.eq_nil_iff_forall_not_mem]
    intro id hid
    obtain ⟨project, hproject, hnone⟩ := (mem_addedProjects_iff ho).mp hid
    rw [h.project?, hproject] at hnone
    contradiction

/-- The comparison after edits of source documents lists the edited documents, each once, in the order of
the projects and of the documents in them, if no document was edited so often that its version went
round. -/
theorem AfterEdits.diff_eq (h : AfterEdits ids old new) (ho : old.Filed)
    (hstamps : ∀ id, ids.count id < Nat.pow 2 64)
    (hsource : ∀ id ∈ ids, ∀ document, old.document? id = some document → document.kind = .source)
    (sharing : Sharing old new) :
    diff old new sharing = .ok (old.projects.entries.flatMap fun entry =>
      (entry.2.sources.filter fun document => document.id ∈ ids).map fun document =>
        ⟨.document document.id, .documentChanged, new⟩) := by
  obtain ⟨hadded, hremoved⟩ := h.addedProjects_eq_nil ho
  have hkept : keptProjects old new .separate = old.projects.entries.flatMap fun entry =>
      (entry.2.sources.filter fun document => document.id ∈ ids).map fun document =>
        ⟨.document document.id, .documentChanged, new⟩ := by
    rw [keptProjects, h.projects, Catalog.mapValues, List.flatMap_map]
    refine List.flatMap_congr fun entry hentry => ?_
    have hid : entry.2.id = entry.1 := ho entry hentry
    have hfound : old.project? entry.1 = some entry.2 := Catalog.get?_eq_some_iff.mpr hentry
    simp only [Project.id_afterEdits, hid, hfound]
    refine Project.diff_afterEdits hstamps fun document hdocument hedited => ?_
    have hd := Project.mem_allDocuments_iff.mp hdocument
    refine hsource _ hedited document (document?_eq_some_iff.mpr ⟨entry.2, ?_, hd⟩)
    rw [Project.project_of_document? hd, hid, hfound]
  rw [diff_eq_ok_structuralDiff sharing h.workspace.symm ho, structuralDiff, hadded, hremoved,
    keptProjects_eq_separate, hkept, List.map_nil, List.map_nil, List.nil_append, List.append_nil]

end Solution

namespace Fixture

variable {fixture : Fixture} {stride p : ℕ}

/-- A document is in a round if its position is a multiple of the stride. -/
theorem Fits.mem_edited_iff (h : fixture.Fits) (hp : p < fixture.projects) {d : ℕ}
    (hd : d < fixture.documents) : documentId p d ∈ fixture.edited stride ↔ max stride 1 ∣ d := by
  rw [edited, List.mem_flatMap, Nat.dvd_iff_mod_eq_zero]
  constructor
  · rintro ⟨q, hq, hmem⟩
    obtain ⟨e, he, hid⟩ := List.mem_map.mp hmem
    obtain ⟨he, hround⟩ := List.mem_filter.mp he
    rw [List.mem_range] at hq he
    obtain ⟨hproject, hindex⟩ := DocumentId.mk.inj hid
    obtain rfl : q = p := word_inj (Nat.lt_of_lt_of_le hq h.projects)
      (Nat.lt_of_lt_of_le hp h.projects) (ProjectId.mk.inj hproject)
    obtain rfl : e = d := h.documentId_inj hp (Nat.lt_add_right _ he) (Nat.lt_add_right _ hd) hid
    exact of_decide_eq_true hround
  · intro hround
    refine ⟨p, List.mem_range.mpr hp, List.mem_map_of_mem (List.mem_filter.mpr ⟨?_, ?_⟩)⟩
    · exact List.mem_range.mpr hd
    · exact decide_eq_true hround

/-- A document of a round is a source document of the generated solution. -/
theorem Fits.document?_of_mem_edited (h : fixture.Fits) {id : DocumentId}
    (hid : id ∈ fixture.edited stride) :
    ∃ document, fixture.solution.document? id = some document ∧ document.kind = .source := by
  obtain ⟨p, hp, hmem⟩ := List.mem_flatMap.mp hid
  obtain ⟨d, hd, rfl⟩ := List.mem_map.mp hmem
  have hd := List.mem_range.mp (List.mem_filter.mp hd).1
  exact ⟨_, h.document?_solution (List.mem_range.mp hp) hd, rfl⟩

/-- A round takes no document twice. -/
theorem Fits.nodup_edited (h : fixture.Fits) (stride : ℕ) : (fixture.edited stride).Nodup := by
  rw [edited, List.nodup_flatMap]
  constructor
  · intro p hp
    refine List.Nodup.map_on (fun d hd e he hsame => ?_) (List.nodup_range.filter _)
    have hd := List.mem_range.mp (List.mem_filter.mp hd).1
    have he := List.mem_range.mp (List.mem_filter.mp he).1
    exact h.documentId_inj (List.mem_range.mp hp) (Nat.lt_add_right _ hd) (Nat.lt_add_right _ he) hsame
  · -- Documents of different projects have different identities.
    refine List.nodup_range.imp_of_mem fun {p q} hp hq hne => ?_
    intro id hfirst hsecond
    obtain ⟨d, -, rfl⟩ := List.mem_map.mp hfirst
    obtain ⟨e, -, hsame⟩ := List.mem_map.mp hsecond
    obtain ⟨hproject, -⟩ := DocumentId.mk.inj hsame
    exact hne (word_inj (Nat.lt_of_lt_of_le (List.mem_range.mp hq) h.projects)
      (Nat.lt_of_lt_of_le (List.mem_range.mp hp) h.projects) (ProjectId.mk.inj hproject)).symm

/-- A round is empty if the shape has no projects or no source documents: the first document of each
project is in every round. -/
theorem edited_eq_nil_iff :
    fixture.edited stride = [] ↔ fixture.projects = 0 ∨ fixture.documents = 0 := by
  rw [edited, List.flatMap_eq_nil_iff]
  constructor
  · intro h
    by_contra hsome
    obtain ⟨hp, hd⟩ := not_or.mp hsome
    have hfirst := h 0 (List.mem_range.mpr (Nat.pos_of_ne_zero hp))
    rw [List.map_eq_nil_iff, List.filter_eq_nil_iff] at hfirst
    exact hfirst 0 (List.mem_range.mpr (Nat.pos_of_ne_zero hd)) (by simp)
  · rintro (hp | hd) p hmem
    · rw [hp] at hmem
      exact absurd hmem List.not_mem_nil
    · rw [hd]
      rfl

/-- A round of edits goes through, and the edited documents are those of the round. -/
theorem Fits.editEveryNth_eq (h : fixture.Fits) (stride : ℕ) :
    (fixture.edited stride = [] ∧ fixture.editEveryNth fixture.solution stride = .ok none) ∨
      ∃ edited, fixture.editEveryNth fixture.solution stride = .ok (some edited) ∧
        fixture.edited stride ≠ [] ∧
        Solution.AfterEdits (fixture.edited stride) fixture.solution edited := by
  have hcontains : ∀ id ∈ fixture.edited stride, fixture.solution.containsDocument id = true := by
    intro id hid
    obtain ⟨document, hdocument, -⟩ := h.document?_of_mem_edited hid
    exact Solution.containsDocument_eq_true_iff.mpr ⟨document, hdocument⟩
  obtain ⟨edited, hedited, hafter⟩ := fixture.filed_solution.exists_afterEdits hcontains
  unfold editEveryNth
  split
  · next hnone => exact .inl ⟨hnone, rfl⟩
  · next hsome =>
    rw [hedited]
    exact .inr ⟨edited, rfl, hsome, hafter⟩

/-- The items of a round of edits: those of the documents whose positions are multiples of the stride, by
project and by position. -/
def roundItems (fixture : Fixture) (stride : ℕ) (edited : Solution) : List WorkItem :=
  (List.range fixture.projects).flatMap fun p =>
    ((List.range fixture.documents).filter fun d => max stride 1 ∣ d).map fun d =>
      ⟨.document (documentId p d), .documentChanged, edited⟩

/-- After a round of edits the comparison lists the items of the round. -/
theorem Fits.diff_eq_roundItems (h : fixture.Fits) {edited : Solution}
    (hafter : Solution.AfterEdits (fixture.edited stride) fixture.solution edited)
    (sharing : Solution.Sharing fixture.solution edited) :
    Solution.diff fixture.solution edited sharing = .ok (fixture.roundItems stride edited) := by
  have hsource : ∀ id ∈ fixture.edited stride, ∀ document,
      fixture.solution.document? id = some document → document.kind = .source := by
    intro id hid document hdocument
    obtain ⟨source, hsource, hkind⟩ := h.document?_of_mem_edited hid
    rw [hdocument, Option.some.injEq] at hsource
    exact hsource ▸ hkind
  have hstamps : ∀ id, (fixture.edited stride).count id < Nat.pow 2 64 := fun id =>
    Nat.lt_of_le_of_lt (List.nodup_iff_count_le_one.mp (h.nodup_edited stride) id) (by decide)
  rw [hafter.diff_eq fixture.filed_solution hstamps hsource sharing, h.entries_solution, List.flatMap_map]
  refine congrArg Except.ok (List.flatMap_congr fun p hp => ?_)
  have hp := List.mem_range.mp hp
  rw [h.sources_project hp, List.filter_map, List.map_map]
  refine congrArg (List.map _) (List.filter_congr fun d hd => ?_)
  rw [Function.comp_apply, Bool.eq_iff_iff, decide_eq_true_eq, decide_eq_true_eq]
  exact h.mem_edited_iff hp (List.mem_range.mp hd)

/-- A round of edits of a generated solution is found by comparison, edit for edit. -/
structure EditsFound (fixture : Fixture) (stride : ℕ) : Prop where
  /-- The round never fails. -/
  succeeds : ∀ failure, fixture.editEveryNth fixture.solution stride ≠ .error failure
  /-- There is nothing to edit exactly if the shape has no projects or no source documents. -/
  nothing : fixture.editEveryNth fixture.solution stride = .ok none ↔
    fixture.projects = 0 ∨ fixture.documents = 0
  /-- Otherwise the comparison lists the items of the round and no others, whatever the snapshots are
  thought to share. -/
  items : ∀ edited, fixture.editEveryNth fixture.solution stride = .ok (some edited) →
    ∀ sharing, Solution.diff fixture.solution edited sharing = .ok (fixture.roundItems stride edited)

/-- Whatever the shape and the stride are, as long as there are enough identities for the shape, a round
of edits is found edit for edit. -/
theorem Fits.edits_found (h : fixture.Fits) (stride : ℕ) : fixture.EditsFound stride := by
  rcases h.editEveryNth_eq stride with ⟨hnone, hedit⟩ | ⟨edited, hedit, hsome, hafter⟩
  · constructor
    · exact fun failure hfails => nomatch hedit.symm.trans hfails
    · exact iff_of_true hedit (edited_eq_nil_iff.mp hnone)
    · exact fun edited hsome => nomatch hedit.symm.trans hsome
  · constructor
    · exact fun failure hfails => nomatch hedit.symm.trans hfails
    · exact iff_of_false (fun hnone => nomatch hedit.symm.trans hnone) (mt edited_eq_nil_iff.mpr hsome)
    · intro other hother
      obtain rfl : edited = other := Option.some.inj (Except.ok.inj (hedit.symm.trans hother))
      exact h.diff_eq_roundItems hafter

/-- Every fifth document of the small shape: there are enough identities, and there is something to
edit. -/
theorem edits_found_of_small :
    small.Fits ∧ (∃ edited, small.editEveryNth small.solution 5 = .ok (some edited)) ∧
      small.EditsFound 5 := by
  have hfits : small.Fits := ⟨by decide, fun _ => by decide⟩
  have hfound := hfits.edits_found 5
  refine ⟨hfits, ?_, hfound⟩
  cases hedit : small.editEveryNth small.solution 5 with
  | error failure => exact absurd hedit (hfound.succeeds failure)
  | ok edited =>
    cases edited with
    | none => exact absurd (hfound.nothing.mp hedit) (by decide)
    | some edited => exact ⟨edited, rfl⟩

end Fixture

end SolutionWatch
