import SolutionWatch.Proofs.Diff.Mirror

/-!
# The order of the items

The items of a comparison come in one order (`Solution.Precedes`). The items of added projects come first, in
the order of the new snapshot, then those of the projects that both snapshots have, in the same order, and last
those of removed projects, in the order of the old snapshot. The items of one project stand together: its own
item, then its added, its changed and its removed documents, the removed ones in the order in which the old
snapshot has them and the others in that of the new one.

The order is strict, so together with what is listed (`Solution.Expects`) it settles the list: no other list
has these items in this order (`Solution.diff_in_order`).
-/

namespace List

variable {α : Type*} [DecidableEq α]

/-- Without repetitions elements come in the order of their places. -/
theorem Nodup.pairwise_idxOf {l : List α} (h : l.Nodup) : l.Pairwise fun a b => l.idxOf a < l.idxOf b := by
  rw [pairwise_iff_getElem]
  intro i j hi hj hlt
  rwa [h.idxOf_getElem, h.idxOf_getElem]

/-- So do the elements of a part of such a list. -/
theorem Sublist.pairwise_idxOf {part l : List α} (h : part <+ l) (hl : l.Nodup) :
    part.Pairwise fun a b => l.idxOf a < l.idxOf b :=
  hl.pairwise_idxOf.sublist h

end List

namespace SolutionWatch

/-- The rank of an item among those of its project: the project's own item, then the added documents, the
changed ones, and the removed ones. -/
def WorkItem.rank (item : WorkItem) : ℕ :=
  match item.scope with
  | .solution | .project _ => 0
  | .document _ =>
    if item.reasons = .documentAdded then 1 else if item.reasons = .documentChanged then 2 else 3

namespace Project

/-- Source documents that are picked come in the order in which their project has its documents. -/
theorem sources_sublist (project : Project) (pick : Document → Bool) :
    ((project.sources.filter pick).map Document.id).Sublist (project.allDocuments.map Document.id) :=
  (List.filter_sublist.trans List.filter_sublist).map _

/-- The added documents come in the order of the new project. -/
theorem addedSources_sublist (old new : Project) :
    (addedSources old new).Sublist (new.allDocuments.map Document.id) :=
  new.sources_sublist _

/-- The changed documents come in the order of the new project. -/
theorem changedSources_sublist (old new : Project) :
    (changedSources old new).Sublist (new.allDocuments.map Document.id) :=
  new.sources_sublist _

end Project

namespace Solution

variable {old new : Solution} {p q : WorkItem} {items : List WorkItem}

/-- The identities of the documents of a project, in order. -/
def documentIds (solution : Solution) (id : ProjectId) : List DocumentId :=
  match solution.project? id with
  | some project => project.documents.keys
  | none => []

/-- The part of the list that the items of a project belong to: the part of the added projects, the part of
those that both snapshots have, or the part of the removed ones. -/
def part (old new : Solution) (id : ProjectId) : ℕ :=
  if old.containsProject id = false then 0 else if new.containsProject id = true then 1 else 2

/-- The place of a project in the order of the new snapshot, or of the old one if only that has it. -/
def projectPlace (old new : Solution) (id : ProjectId) : ℕ :=
  (if new.containsProject id = true then new.projectIds else old.projectIds).idxOf id

/-- The place of an item's document in its project: in the order of the old snapshot if the document was
removed, else in that of the new one. -/
def documentPlace (old new : Solution) (item : WorkItem) : ℕ :=
  match item.scope with
  | .solution | .project _ => 0
  | .document id =>
    ((if item.reasons = .documentRemoved then old else new).documentIds id.project).idxOf id

/-- The order of the items. -/
inductive Precedes (old new : Solution) (p q : WorkItem) : Prop
  /-- The first item belongs to an earlier part of the list. -/
  | part {i j : ProjectId} : p.scope.home = some i → q.scope.home = some j →
      old.part new i < old.part new j → Precedes old new p q
  /-- In one part the project of the first item comes earlier. -/
  | project {i j : ProjectId} : p.scope.home = some i → q.scope.home = some j →
      old.part new i = old.part new j → old.projectPlace new i < old.projectPlace new j → Precedes old new p q
  /-- In one project the first item has a lower rank. -/
  | rank {i : ProjectId} : p.scope.home = some i → q.scope.home = some i → p.rank < q.rank →
      Precedes old new p q
  /-- In one rank the document of the first item comes earlier. -/
  | document {i : ProjectId} : p.scope.home = some i → q.scope.home = some i → p.rank = q.rank →
      old.documentPlace new p < old.documentPlace new q → Precedes old new p q

/-- The order is by part, place of the project, rank and place of the document, each where those before do
not decide. -/
theorem Precedes.lexicographic (h : Precedes old new p q) :
    ∃ i j, p.scope.home = some i ∧ q.scope.home = some j ∧
      (old.part new i < old.part new j ∨ old.part new i = old.part new j ∧
        (old.projectPlace new i < old.projectPlace new j ∨ old.projectPlace new i = old.projectPlace new j ∧
          (p.rank < q.rank ∨ p.rank = q.rank ∧ old.documentPlace new p < old.documentPlace new q))) := by
  cases h with
  | part hp hq hlt => exact ⟨_, _, hp, hq, .inl hlt⟩
  | project hp hq heq hlt => exact ⟨_, _, hp, hq, .inr ⟨heq, .inl hlt⟩⟩
  | rank hp hq hlt => exact ⟨_, _, hp, hq, .inr ⟨rfl, .inr ⟨rfl, .inl hlt⟩⟩⟩
  | document hp hq heq hlt => exact ⟨_, _, hp, hq, .inr ⟨rfl, .inr ⟨rfl, .inr ⟨heq, hlt⟩⟩⟩⟩

/-- Of two items only one can precede the other. -/
theorem Precedes.asymm (h : Precedes old new p q) : ¬Precedes old new q p := by
  intro hback
  obtain ⟨i, j, hp, hq, hlt⟩ := h.lexicographic
  obtain ⟨j', i', hq', hp', hgt⟩ := hback.lexicographic
  obtain rfl : i = i' := Option.some.inj (hp.symm.trans hp')
  obtain rfl : j = j' := Option.some.inj (hq.symm.trans hq')
  -- Both are about the same four pairs of numbers, and the first pair that differs decides.
  omega

/-- No item precedes itself. -/
theorem Precedes.ne (h : Precedes old new p q) : p ≠ q := by
  rintro rfl
  exact h.asymm h

/-- Two lists with the same items in this order are the same list. -/
theorem eq_of_precedes {other : List WorkItem} (hitems : items.Pairwise (Precedes old new))
    (hother : other.Pairwise (Precedes old new)) (hmem : ∀ item, item ∈ other ↔ item ∈ items) :
    other = items := by
  have hperm : other.Perm items :=
    (List.perm_ext_iff_of_nodup (hother.imp Precedes.ne) (hitems.imp Precedes.ne)).mpr hmem
  exact hperm.eq_of_pairwise (fun _ _ _ _ h hback => absurd hback h.asymm) hother hitems

/-! ## Where items belong -/

/-- A project that only the new snapshot has belongs to the first part, and its place is in the new one. -/
theorem part_of_added {id : ProjectId} {after : Project} (hb : old.project? id = none)
    (ha : new.project? id = some after) :
    old.part new id = 0 ∧ old.projectPlace new id = new.projectIds.idxOf id := by
  have hin := containsProject_eq_true_iff.mpr ⟨after, ha⟩
  have hout := containsProject_eq_false_iff.mpr hb
  simp [part, projectPlace, hin, hout]

/-- A project that both snapshots have belongs to the middle part, and its place is in the new one. -/
theorem part_of_kept {id : ProjectId} {before after : Project} (hb : old.project? id = some before)
    (ha : new.project? id = some after) :
    old.part new id = 1 ∧ old.projectPlace new id = new.projectIds.idxOf id := by
  have hin := containsProject_eq_true_iff.mpr ⟨after, ha⟩
  have hbefore := containsProject_eq_true_iff.mpr ⟨before, hb⟩
  simp [part, projectPlace, hin, hbefore]

/-- A project that only the old snapshot has belongs to the last part, and its place is in the old one. -/
theorem part_of_removed {id : ProjectId} {before : Project} (hb : old.project? id = some before)
    (ha : new.project? id = none) :
    old.part new id = 2 ∧ old.projectPlace new id = old.projectIds.idxOf id := by
  have hout := containsProject_eq_false_iff.mpr ha
  have hbefore := containsProject_eq_true_iff.mpr ⟨before, hb⟩
  simp [part, projectPlace, hout, hbefore]

/-- A project is listed if the snapshot has it. -/
theorem mem_projectIds_iff {solution : Solution} {id : ProjectId} :
    id ∈ solution.projectIds ↔ solution.containsProject id = true :=
  Catalog.mem_keys_iff.trans containsProject_eq_true_iff.symm

/-- Some snapshot has the project. -/
def Either (old new : Solution) (id : ProjectId) : Prop :=
  old.containsProject id = true ∨ new.containsProject id = true

/-- Projects of one part and of one place are one project. -/
theorem eq_of_place_eq {i j : ProjectId} (hi : Either old new i) (hj : Either old new j)
    (hpart : old.part new i = old.part new j) (hplace : old.projectPlace new i = old.projectPlace new j) :
    i = j := by
  -- In one part the places count in one snapshot.
  have hsame : new.containsProject i = new.containsProject j := by
    unfold Either at hi hj
    unfold part at hpart
    cases hoi : old.containsProject i <;> cases hoj : old.containsProject j <;>
      cases hni : new.containsProject i <;> cases hnj : new.containsProject j <;> simp_all
  have hmem : i ∈ if new.containsProject i = true then new.projectIds else old.projectIds := by
    split
    · next hin => exact mem_projectIds_iff.mpr hin
    · next hout => exact mem_projectIds_iff.mpr (hi.resolve_right hout)
  unfold projectPlace at hplace
  rw [← hsame] at hplace
  exact (List.idxOf_inj hmem).mp hplace

/-! ## The items of one project -/

/-- The documents that a snapshot lists for a project are those of the project that it finds. -/
theorem documentIds_of_project? {solution : Solution} {id : ProjectId} {project : Project}
    (h : solution.project? id = some project) :
    solution.documentIds id = project.allDocuments.map Document.id := by
  rw [documentIds, h, Project.map_id_allDocuments]

/-- Items of one project, in order, of a rank up to `n`. -/
structure RankedUpTo (old new : Solution) (id : ProjectId) (n : ℕ) (items : List WorkItem) : Prop where
  /-- They come in order. -/
  ordered : items.Pairwise (Precedes old new)
  /-- They are of the project, and of no higher rank. -/
  bounded : ∀ item ∈ items, item.scope.home = some id ∧ item.rank ≤ n

/-- Items of the next rank may follow. -/
theorem RankedUpTo.append {id : ProjectId} {n : ℕ} {front back : List WorkItem}
    (hfront : RankedUpTo old new id n front) (hback : back.Pairwise (Precedes old new))
    (hnext : ∀ item ∈ back, item.scope.home = some id ∧ item.rank = n + 1) :
    RankedUpTo old new id (n + 1) (front ++ back) where
  ordered := by
    refine List.pairwise_append.mpr ⟨hfront.ordered, hback, fun p hp q hq => ?_⟩
    obtain ⟨hphome, hprank⟩ := hfront.bounded p hp
    obtain ⟨hqhome, hqrank⟩ := hnext q hq
    exact .rank hphome hqhome (by omega)
  bounded := by
    intro item hitem
    rcases List.mem_append.mp hitem with hitem | hitem
    · exact (hfront.bounded item hitem).imp_right Nat.le_succ_of_le
    · exact (hnext item hitem).imp_right Nat.le_of_eq

section Documents

variable {ids : List DocumentId} {id : ProjectId} {project : Project}

/-- Documents that a project lists belong to it. -/
theorem project_of_sublist (hid : project.id = id)
    (hids : ids.Sublist (project.allDocuments.map Document.id)) : ∀ d ∈ ids, d.project = id := by
  intro d hd
  obtain ⟨doc, hdoc, rfl⟩ := List.mem_map.mp (hids.subset hd)
  exact (Project.project_of_document? (Project.mem_allDocuments_iff.mp hdoc)).trans hid

/-- Items about documents of a project are of this project, and of the rank of their reasons. -/
theorem home_and_rank_of_documents (reasons : Reasons) (solution : Solution)
    (hproject : ∀ d ∈ ids, d.project = id) :
    ∀ item ∈ ids.map fun d => (⟨.document d, reasons, solution⟩ : WorkItem), item.scope.home = some id ∧
      item.rank = if reasons = .documentAdded then 1 else if reasons = .documentChanged then 2 else 3 := by
  intro item hitem
  obtain ⟨d, hd, rfl⟩ := List.mem_map.mp hitem
  exact ⟨congrArg some (hproject d hd), rfl⟩

/-- Items for the same reasons come in the order in which their project has the documents. -/
theorem pairwise_documents (reasons : Reasons) (solution : Solution)
    (hproject : (if reasons = .documentRemoved then old else new).project? id = some project)
    (hid : project.id = id) (hids : ids.Sublist (project.allDocuments.map Document.id)) :
    (ids.map fun d => (⟨.document d, reasons, solution⟩ : WorkItem)).Pairwise (Precedes old new) := by
  have howner := project_of_sublist hid hids
  have hplace : ∀ d ∈ ids, old.documentPlace new ⟨.document d, reasons, solution⟩ =
      (project.allDocuments.map Document.id).idxOf d := by
    intro d hd
    simp only [documentPlace, howner d hd, documentIds_of_project? hproject]
  rw [List.pairwise_map]
  refine (hids.pairwise_idxOf project.nodup_ids_allDocuments).imp_of_mem fun {c d} hc hd hlt => ?_
  refine .document (congrArg some (howner c hc)) (congrArg some (howner d hd)) rfl ?_
  rwa [hplace c hc, hplace d hd]

end Documents

/-- The items of a project that both snapshots have come in order. -/
theorem rankedUpTo_projectDiff {id : ProjectId} {before after : Project}
    (hb : old.project? id = some before) (ha : new.project? id = some after) (hbid : before.id = id)
    (haid : after.id = id) : RankedUpTo old new id 3 (Project.diff old new before after) := by
  have hadded := Project.addedSources_sublist before after
  have hchanged := Project.changedSources_sublist before after
  have hremoved := Project.addedSources_sublist after before
  have hown : RankedUpTo old new id 0 (if (Project.changeReasons before after).isEmpty then []
      else [⟨.project after.id, Project.changeReasons before after, new⟩]) := by
    split
    · exact ⟨.nil, by simp⟩
    · exact ⟨List.pairwise_singleton _ _, by simp [Scope.home, WorkItem.rank, haid]⟩
  exact ((hown.append (pairwise_documents .documentAdded new ha haid hadded)
    (home_and_rank_of_documents .documentAdded new (project_of_sublist haid hadded))).append
      (pairwise_documents .documentChanged new ha haid hchanged)
      (home_and_rank_of_documents .documentChanged new (project_of_sublist haid hchanged))).append
        (pairwise_documents .documentRemoved old hb hbid hremoved)
        (home_and_rank_of_documents .documentRemoved old (project_of_sublist hbid hremoved))

/-! ## The whole list -/

/-- Items about projects of one part come in the order in which their snapshot has the projects. -/
theorem pairwise_projects {ids order : List ProjectId} {n : ℕ} (reasons : Reasons) (solution : Solution)
    (hids : ids.Sublist order) (hnodup : order.Nodup)
    (hplace : ∀ id ∈ ids, old.part new id = n ∧ old.projectPlace new id = order.idxOf id) :
    (ids.map fun id => (⟨.project id, reasons, solution⟩ : WorkItem)).Pairwise (Precedes old new) := by
  rw [List.pairwise_map]
  refine (hids.pairwise_idxOf hnodup).imp_of_mem fun {i j} hi hj hlt => ?_
  obtain ⟨hipart, hiplace⟩ := hplace i hi
  obtain ⟨hjpart, hjplace⟩ := hplace j hj
  refine .project rfl rfl (hipart.trans hjpart.symm) ?_
  rwa [hiplace, hjplace]

/-- The items of a kept project are of this project, and both snapshots have it. -/
theorem home_and_place_of_mem_kept (ho : old.Filed) (hn : new.Filed) (sharing : Sharing old new)
    {e : ProjectId × Project} (he : e ∈ new.projects.entries) {item : WorkItem}
    (hitem : item ∈ match old.project? e.2.id with
      | some before => if sharing.holds e.2.id e.1 then [] else Project.diff old new before e.2
      | none => []) :
    item.scope.home = some e.1 ∧ old.part new e.1 = 1 ∧
      old.projectPlace new e.1 = new.projectIds.idxOf e.1 := by
  have hid : e.2.id = e.1 := hn e he
  refine ⟨home_of_mem_kept ho hn sharing he (List.mem_map_of_mem hitem), ?_⟩
  split at hitem
  · next before hb => exact part_of_kept (hid ▸ hb) (Catalog.get?_eq_some_iff.mpr he)
  · exact absurd hitem List.not_mem_nil

/-- The items of the projects that both snapshots have come in order. -/
theorem pairwise_keptProjects (ho : old.Filed) (hn : new.Filed) (sharing : Sharing old new) :
    (keptProjects old new sharing).Pairwise (Precedes old new) := by
  have hkeys : new.projects.entries.Pairwise fun a b =>
      new.projectIds.idxOf a.1 < new.projectIds.idxOf b.1 := by
    rw [← List.pairwise_map (f := Prod.fst)
      (R := fun i j => new.projectIds.idxOf i < new.projectIds.idxOf j)]
    exact new.projects.nodup.pairwise_idxOf
  unfold keptProjects
  rw [List.pairwise_flatMap]
  constructor
  · -- Within the block of one project.
    intro e he
    have hid : e.2.id = e.1 := hn e he
    have ha : new.project? e.2.id = some e.2 := Catalog.get?_eq_some_iff.mpr (hid ▸ he)
    split
    · next before hb =>
      split
      · exact .nil
      · exact (rankedUpTo_projectDiff hb ha (ho.id_of_project? hb) rfl).ordered
    · exact .nil
  · -- Across blocks the places of the projects decide.
    refine hkeys.imp_of_mem fun {a b} ha hb hlt p hp q hq => ?_
    obtain ⟨hphome, hppart, hpplace⟩ := home_and_place_of_mem_kept ho hn sharing ha hp
    obtain ⟨hqhome, hqpart, hqplace⟩ := home_and_place_of_mem_kept ho hn sharing hb hq
    refine .project hphome hqhome (hppart.trans hqpart.symm) ?_
    rwa [hpplace, hqplace]

/-- An added project belongs to the first part, and its place is in the new snapshot. -/
theorem place_of_mem_added (hn : new.Filed) {id : ProjectId} (h : id ∈ addedProjects old new) :
    old.part new id = 0 ∧ old.projectPlace new id = new.projectIds.idxOf id := by
  obtain ⟨after, ha, hb⟩ := (mem_addedProjects_iff hn).mp h
  exact part_of_added hb ha

/-- A removed project belongs to the last part, and its place is in the old snapshot. -/
theorem place_of_mem_removed (ho : old.Filed) {id : ProjectId} (h : id ∈ addedProjects new old) :
    old.part new id = 2 ∧ old.projectPlace new id = old.projectIds.idxOf id := by
  obtain ⟨before, hb, ha⟩ := (mem_addedProjects_iff ho).mp h
  exact part_of_removed hb ha

/-- Items that all belong to one part of the list. -/
def InPart (old new : Solution) (n : ℕ) (items : List WorkItem) : Prop :=
  ∀ item ∈ items, ∃ id, item.scope.home = some id ∧ old.part new id = n

/-- Items of an earlier part precede those of a later one. -/
theorem InPart.precedes {m n : ℕ} {front back : List WorkItem} (hfront : InPart old new m front)
    (hback : InPart old new n back) (hlt : m < n) (hp : p ∈ front) (hq : q ∈ back) :
    Precedes old new p q := by
  obtain ⟨i, hphome, hi⟩ := hfront p hp
  obtain ⟨j, hqhome, hj⟩ := hback q hq
  refine .part hphome hqhome ?_
  rwa [hi, hj]

/-- Items about projects belong to the part of these projects. -/
theorem inPart_projects {ids : List ProjectId} {n : ℕ} (reasons : Reasons) (solution : Solution)
    (hids : ∀ id ∈ ids, old.part new id = n) :
    InPart old new n (ids.map fun id => ⟨.project id, reasons, solution⟩) := by
  intro item hitem
  obtain ⟨id, hid, rfl⟩ := List.mem_map.mp hitem
  exact ⟨id, rfl, hids id hid⟩

/-- The items of the projects that both snapshots have belong to the middle part. -/
theorem inPart_keptProjects (ho : old.Filed) (hn : new.Filed) (sharing : Sharing old new) :
    InPart old new 1 (keptProjects old new sharing) := by
  intro item hitem
  obtain ⟨id, before, after, hhome, hb, ha⟩ := home_of_mem_keptProjects ho hn (List.mem_map_of_mem hitem)
  exact ⟨id, hhome, (part_of_kept hb ha).1⟩

/-- The items of a comparison come in order. -/
theorem pairwise_structuralDiff (ho : old.Filed) (hn : new.Filed) (sharing : Sharing old new) :
    (structuralDiff old new sharing).Pairwise (Precedes old new) := by
  have hlisted : ∀ {a b : Solution}, b.Filed → (addedProjects a b).Sublist b.projectIds := fun hb =>
    hb.map_id_allProjects ▸ List.filter_sublist.map _
  have hfirst : ∀ id ∈ addedProjects old new,
      old.part new id = 0 ∧ old.projectPlace new id = new.projectIds.idxOf id :=
    fun _ => place_of_mem_added hn
  have hlast : ∀ id ∈ addedProjects new old,
      old.part new id = 2 ∧ old.projectPlace new id = old.projectIds.idxOf id :=
    fun _ => place_of_mem_removed ho
  have hadded := inPart_projects .documentAdded new fun id hid => (hfirst id hid).1
  have hkept := inPart_keptProjects ho hn sharing
  have hremoved := inPart_projects .documentRemoved old fun id hid => (hlast id hid).1
  rw [structuralDiff, List.pairwise_append, List.pairwise_append]
  refine ⟨⟨pairwise_projects .documentAdded new (hlisted hn) new.projects.nodup hfirst,
      pairwise_keptProjects ho hn sharing, fun p hp q hq => ?_⟩,
    pairwise_projects .documentRemoved old (hlisted ho) old.projects.nodup hlast, fun p hp q hq => ?_⟩
  · exact hadded.precedes hkept Nat.zero_lt_one hp hq
  · rcases List.mem_append.mp hp with hp | hp
    · exact hadded.precedes hremoved Nat.zero_lt_two hp hq
    · exact hkept.precedes hremoved Nat.one_lt_two hp hq

/-- Every expected item is of a project that some snapshot has. -/
theorem Expects.home {item : WorkItem} (h : Expects old new item) :
    ∃ id, item.scope.home = some id ∧ Either old new id := by
  have hold : ∀ {id : ProjectId} {p : Project}, old.project? id = some p → Either old new id :=
    fun hp => .inl (containsProject_eq_true_iff.mpr ⟨_, hp⟩)
  cases h with
  | projectAdded _ ha => exact ⟨_, rfl, .inr (containsProject_eq_true_iff.mpr ⟨_, ha⟩)⟩
  | projectRemoved hb _ | projectChanged hb _ | documentAdded hb _ | documentChanged hb _
  | documentRemoved hb _ => exact ⟨_, rfl, hold hb⟩

/-- What comes between two items of a project is of this project. -/
theorem home_of_between {before between after : List WorkItem}
    (hordered : (before ++ p :: between ++ q :: after).Pairwise (Precedes old new))
    (hhome : ∀ item ∈ before ++ p :: between ++ q :: after,
      ∃ id, item.scope.home = some id ∧ Either old new id)
    (hsame : p.scope.home = q.scope.home) : ∀ item ∈ between, item.scope.home = p.scope.home := by
  intro item hitem
  have hthree : [p, item, q].Sublist (before ++ p :: between ++ q :: after) :=
    (((List.singleton_sublist.mpr hitem).cons_cons p).trans (List.sublist_append_right before _)).append
      ((List.nil_sublist after).cons_cons q)
  obtain ⟨hfirst, hrest⟩ := List.pairwise_cons.mp (hordered.sublist hthree)
  obtain ⟨i, k, hp, hk, hlow⟩ := (hfirst item List.mem_cons_self).lexicographic
  obtain ⟨k', j, hk', hq, hhigh⟩ :=
    ((List.pairwise_cons.mp hrest).1 q (List.mem_singleton_self q)).lexicographic
  obtain rfl : k = k' := Option.some.inj (hk.symm.trans hk')
  obtain rfl : i = j := Option.some.inj (hp.symm.trans (hsame.trans hq))
  have hsome : ∀ {other : WorkItem} {id : ProjectId}, other ∈ [p, item, q] →
      other.scope.home = some id → Either old new id := by
    intro other id hother hid
    obtain ⟨found, hfound, heither⟩ := hhome other (hthree.subset hother)
    exact Option.some.inj (hfound.symm.trans hid) ▸ heither
  -- Part and place of the item lie between those of the project, so they are the same.
  have heq : i = k := eq_of_place_eq (hsome (by simp) hp) (hsome (by simp) hk) (by omega) (by omega)
  rw [hk, hp, heq]

/-- The items of a comparison, in the order in which they are listed. -/
structure InOrder (old new : Solution) (items : List WorkItem) : Prop where
  /-- Every item precedes those after it. -/
  ordered : items.Pairwise (Precedes old new)
  /-- The items of a project stand together: what comes between two of them is of this project. -/
  together : ∀ before p between q after, items = before ++ p :: between ++ q :: after →
    p.scope.home = q.scope.home → ∀ item ∈ between, item.scope.home = p.scope.home
  /-- Exactly what was removed is to be looked for in the old snapshot, anything else in the new one. -/
  bound : ∀ item ∈ items, (item.solution = old ↔ item.reasons = .documentRemoved) ∧
    (item.solution = new ↔ item.reasons ≠ .documentRemoved)
  /-- No other list has the expected items in this order. -/
  unique : ∀ other : List WorkItem, (∀ item, item ∈ other ↔ Expects old new item) →
    other.Pairwise (Precedes old new) → other = items

/-- Exactly what was removed is to be looked for in the old snapshot. -/
theorem Expects.bound (ho : old.Filed) {item : WorkItem} (h : Expects old new item) :
    (item.solution = old ↔ item.reasons = .documentRemoved) ∧
      (item.solution = new ↔ item.reasons ≠ .documentRemoved) := by
  -- Snapshots that something tells apart are not equal.
  have hne : old ≠ new := by
    rintro rfl
    have hmem : item ∈ structuralDiff old old .separate := (mem_structuralDiff_iff ho ho).mpr h
    rw [structuralDiff_self ho] at hmem
    exact List.not_mem_nil hmem
  by_cases hremoved : item.reasons = .documentRemoved
  · have hsolution : item.solution = old := (h.of_removed (by rw [hremoved]; decide)).2.1
    simp [hsolution, hremoved, hne]
  · have hsolution : item.solution = new := by
      cases h with
      | projectRemoved | documentRemoved => exact absurd rfl hremoved
      | projectAdded | projectChanged | documentAdded | documentChanged => rfl
    simp [hsolution, hremoved, hne.symm]

/-- The comparison of filed snapshots of one workspace lists its items in one order, whatever the snapshots
share. -/
theorem diff_in_order (sharing : Sharing old new) (hw : old.workspace = new.workspace) (ho : old.Filed)
    (hn : new.Filed) : ∃ items, diff old new sharing = .ok items ∧ InOrder old new items := by
  have hmem : ∀ item, item ∈ structuralDiff old new sharing ↔ Expects old new item :=
    fun item => mem_structuralDiff_iff ho hn
  have hordered := pairwise_structuralDiff ho hn sharing
  refine ⟨_, diff_eq_ok_structuralDiff sharing hw ho, hordered, ?_, ?_, ?_⟩
  · intro before p between q after hsplit
    rw [hsplit] at hordered hmem
    exact home_of_between hordered fun item hitem => ((hmem item).mp hitem).home
  · exact fun item hitem => ((hmem item).mp hitem).bound ho
  · exact fun other hother hprecedes =>
      eq_of_precedes hordered hprecedes fun item => (hother item).trans (hmem item).symm

/-- The generated solution of two projects after its first document was edited, its second one left and a new
one came, its second project left and a third one came. -/
def twoProjectsReworked : Solution :=
  ((twoProjects.derive (twoProjects.projects.erase (Fixture.projectId 1))).withProject
    ((Fixture.mk 3 2 1 1).project 2)).withProject
      (((((Fixture.mk 2 2 1 1).project 0).withDocument
        { Fixture.sourceDocument 0 0 with version := 1 }).withoutDocument (Fixture.documentId 0 1)).withDocument
          (Fixture.sourceDocument 0 7))

/-- The comparison of the reworked solution with the generated one comes in order. -/
theorem diff_in_order_of_rework :
    twoProjects.workspace = twoProjectsReworked.workspace ∧ twoProjects.Filed ∧ twoProjectsReworked.Filed ∧
      ∃ items, diff twoProjects twoProjectsReworked .separate = .ok items ∧
        InOrder twoProjects twoProjectsReworked items :=
  ⟨rfl, by decide, by decide, diff_in_order .separate rfl (by decide) (by decide)⟩

example : (structuralDiff twoProjects twoProjectsReworked .separate).map
      (fun item => (item.scope, item.reasons)) =
    [(.project (Fixture.projectId 2), .documentAdded),
      (.document (Fixture.documentId 0 7), .documentAdded),
      (.document (Fixture.documentId 0 0), .documentChanged),
      (.document (Fixture.documentId 0 1), .documentRemoved),
      (.project (Fixture.projectId 1), .documentRemoved)] := by
  decide +kernel

end Solution

end SolutionWatch
