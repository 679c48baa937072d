import SolutionWatch.Proofs.Workspace.Refusals

/-!
# When the items of an event cannot be told

An event is checked when it is made, and no check is made twice: its snapshots belong to one workspace,
and it names what its kind needs. What is left to fail is to find what the event says was changed or
reloaded, in the snapshot before or in the snapshot after (`Change.LosesProject`,
`Change.LosesDocument`). An event that says that something came or went is believed.

So the items of an event fail to come exactly if what it is about has vanished, with the failure that
says what is missing (`Change.diff_eq_error_iff`); and those that come give reasons, and lie in a snapshot
of the event (`Change.grounded_of_diff`).
-/

namespace SolutionWatch

/-- Whether something happened to what was there before and is there still. -/
def EntityAction.isUpdate : EntityAction → Bool
  | .changed | .reloaded => true
  | .added | .removed => false

namespace Change

/-- A project that is said to be changed or reloaded is missing from one of the snapshots. -/
def LosesProject (change : Change) (id : ProjectId) : Prop :=
  (∃ action, change.kind = .project action ∧ action.isUpdate = true) ∧ change.project = some id ∧
    (change.old.containsProject id = false ∨ change.new.containsProject id = false)

/-- A source document that is said to be changed or reloaded is missing from one of the snapshots. -/
def LosesDocument (change : Change) (id : DocumentId) : Prop :=
  (∃ action, change.kind = .document .source action ∧ action.isUpdate = true) ∧
    change.document = some id ∧
    (change.old.containsDocument id = false ∨ change.new.containsDocument id = false)

end Change

namespace Event

/-- The project that an event is about is missing from one of its snapshots. -/
def LosesProject (event : Event) (id : ProjectId) : Prop :=
  ∃ change, event = .changed change ∧ change.LosesProject id

/-- The document that an event is about is missing from one of its snapshots. -/
def LosesDocument (event : Event) (id : DocumentId) : Prop :=
  ∃ change, event = .changed change ∧ change.LosesDocument id

/-- The snapshots that an event carries. -/
def snapshots : Event → List Solution
  | .changed change => [change.old, change.new]
  | .opened event | .closed event => [event.solution]

end Event

/-- An item that gives a reason and is to be looked at in one of the given snapshots. -/
structure WorkItem.Grounded (snapshots : List Solution) (item : WorkItem) : Prop where
  /-- There is a reason. -/
  reasons : item.reasons.isEmpty = false
  /-- The snapshot is one of those given. -/
  bound : item.solution ∈ snapshots

/-- Two look-ups that fail only for what is missing, and a comparison of what they find, fail exactly if
either look-up misses something. -/
theorem compare_eq_error_iff {α : Type} {before after : Except Failure α}
    {compare : α → α → Except Failure (List WorkItem)} {missing failure : Failure} {lost gone : Prop}
    (hcompare : ∀ a b failure, compare a b ≠ .error failure)
    (hbefore : ∀ failure, before = .error failure ↔ lost ∧ failure = missing)
    (hafter : ∀ failure, after = .error failure ↔ gone ∧ failure = missing) :
    (do
      let a ← before
      let b ← after
      compare a b) = .error failure ↔ (lost ∨ gone) ∧ failure = missing := by
  cases before with
  | error earlier =>
    -- The second look-up is not reached, and would say the same.
    obtain ⟨hlost, hearlier⟩ := (hbefore earlier).mp rfl
    change Except.error earlier = .error failure ↔ _
    simp [hlost, hearlier, eq_comm]
  | ok a =>
    have hfound : ¬lost := fun hlost => nomatch (hbefore missing).mpr ⟨hlost, rfl⟩
    rw [bind_eq_error_iff]
    simp [bind_eq_error_iff, hcompare, hafter, hfound]

/-- Two look-ups and a comparison of what they find come to what the comparison comes to. -/
theorem exists_compare_eq_ok {α : Type} {before after : Except Failure α}
    {compare : α → α → Except Failure (List WorkItem)} {items : List WorkItem}
    (hitems : (do
      let a ← before
      let b ← after
      compare a b) = .ok items) : ∃ a b, compare a b = .ok items := by
  cases before with
  | error failure => contradiction
  | ok a =>
    cases after with
    | error failure => contradiction
    | ok b => exact ⟨a, b, hitems⟩

namespace Solution

variable {solution : Solution} {failure : Failure}

/-- Requiring a project fails if the snapshot does not contain it. -/
theorem requireProject_eq_error_iff {id : ProjectId} :
    solution.requireProject id = .error failure ↔
      solution.containsProject id = false ∧ failure = .projectNotFound id := by
  rw [containsProject_eq_false_iff, requireProject]
  cases solution.project? id <;> simp [eq_comm]

end Solution

namespace Change

variable {old new : Solution} {failure : Failure}

/-- The items of a project that is said to be changed fail to come if it is missing. -/
theorem compareProjects_eq_error_iff (sharing : Solution.Sharing old new) (id : ProjectId) :
    (do
      let before ← old.requireProject id
      let after ← new.requireProject id
      if sharing.holds id id then return []
      else return Project.diff old new before after : Except Failure (List WorkItem)) =
        .error failure ↔
      (old.containsProject id = false ∨ new.containsProject id = false) ∧
        failure = .projectNotFound id := by
  refine compare_eq_error_iff ?_ (fun _ => Solution.requireProject_eq_error_iff)
    fun _ => Solution.requireProject_eq_error_iff
  intro before after failure
  split <;> exact nofun

/-- The items of a source document that is said to be changed fail to come if it is missing. -/
theorem compareDocuments_eq_error_iff (id : DocumentId) :
    (do
      let before ← old.requireDocument id
      let after ← new.requireDocument id
      if before.version = after.version then return []
      else return [⟨.document id, .documentChanged, new⟩] : Except Failure (List WorkItem)) =
        .error failure ↔
      (old.containsDocument id = false ∨ new.containsDocument id = false) ∧
        failure = .documentNotFound id := by
  refine compare_eq_error_iff ?_ (fun _ => Solution.requireDocument_eq_error_iff)
    fun _ => Solution.requireDocument_eq_error_iff
  intro before after failure
  split <;> exact nofun

/-- Snapshots of one workspace can be compared. -/
theorem compareSolutions_ne_error (hw : old.workspace = new.workspace)
    (sharing : Solution.Sharing old new) : Solution.diff old new sharing ≠ .error failure := by
  unfold Solution.diff
  rw [if_pos hw]
  cases sharing <;> exact nofun

/-- The items of a change fail to come exactly if what it says was changed or reloaded is missing from one
of its snapshots. -/
theorem diff_eq_error_iff (change : Change) :
    change.diff = .error failure ↔
      (∃ id, change.LosesProject id ∧ failure = .projectNotFound id) ∨
        ∃ id, change.LosesDocument id ∧ failure = .documentNotFound id := by
  obtain ⟨kind, old, new, project, document, sharing, hw, hp, hd⟩ := change
  simp only [LosesProject, LosesDocument]
  cases kind with
  | solution action =>
    have hnever : diff ⟨.solution action, old, new, project, document, sharing, hw, hp, hd⟩ ≠
        .error failure := by
      cases action with
      | added | removed | cleared => rintro ⟨⟩
      | changed | reloaded => exact compareSolutions_ne_error hw sharing
    simp [hnever]
  | project action =>
    obtain ⟨id, rfl⟩ := Option.isSome_iff_exists.mp (hp rfl)
    cases action with
    | added | removed => exact iff_of_false (by rintro ⟨⟩) (by simp [EntityAction.isUpdate])
    | changed | reloaded =>
      refine (compareProjects_eq_error_iff sharing id).trans ?_
      simp [EntityAction.isUpdate]
  | document kind action =>
    cases kind with
    | additional | analyzerConfig => exact iff_of_false (by rintro ⟨⟩) (by simp)
    | source =>
      obtain ⟨id, rfl⟩ := Option.isSome_iff_exists.mp (hd rfl)
      cases action with
      | added | removed => exact iff_of_false (by rintro ⟨⟩) (by simp [EntityAction.isUpdate])
      | changed | reloaded =>
        refine (compareDocuments_eq_error_iff id).trans ?_
        simp [EntityAction.isUpdate]

/-- The items of a comparison give reasons and lie in one of the two snapshots. -/
theorem grounded_of_mem_projectDiff {before after : Project} {item : WorkItem}
    (hitem : item ∈ Project.diff old new before after) : item.Grounded [old, new] := by
  rcases Project.mem_diff_iff.mp hitem with ⟨hreasons, rfl⟩ | ⟨id, -, rfl⟩ | ⟨id, -, rfl⟩ |
    ⟨id, -, rfl⟩
  · exact ⟨Reasons.isEmpty_eq_false_iff.mpr hreasons, by simp⟩
  · exact ⟨rfl, by simp⟩
  · exact ⟨rfl, by simp⟩
  · exact ⟨rfl, by simp⟩

/-- The items of a comparison of snapshots give reasons and lie in one of the two, also where projects are
filed under identities of others. -/
theorem grounded_of_mem_structuralDiff {sharing : Solution.Sharing old new} {item : WorkItem}
    (hitem : item ∈ Solution.structuralDiff old new sharing) : item.Grounded [old, new] := by
  simp only [Solution.structuralDiff, List.mem_append, List.mem_map] at hitem
  rcases hitem with (⟨id, -, rfl⟩ | hkept) | ⟨id, -, rfl⟩
  · exact ⟨rfl, by simp⟩
  · obtain ⟨entry, -, hentry⟩ := List.mem_flatMap.mp hkept
    split at hentry
    · split at hentry
      · exact absurd hentry List.not_mem_nil
      · exact grounded_of_mem_projectDiff hentry
    · exact absurd hentry List.not_mem_nil
  · exact ⟨rfl, by simp⟩

/-- What a comparison comes to if it finds nothing, or else finds some items. -/
theorem grounded_of_ite {same : Prop} [Decidable same] {found items : List WorkItem}
    {snapshots : List Solution} (hfound : ∀ item ∈ found, item.Grounded snapshots)
    (hitems : (if same then return [] else return found : Except Failure (List WorkItem)) =
      .ok items) : ∀ item ∈ items, item.Grounded snapshots := by
  split at hitems
  · obtain rfl := Except.ok.inj hitems
    exact fun _ hitem => absurd hitem List.not_mem_nil
  · obtain rfl := Except.ok.inj hitems
    exact hfound

/-- One item that is bound to a snapshot and gives a reason. -/
theorem grounded_singleton {scope : Scope} {reasons : Reasons} {solution : Solution}
    {snapshots : List Solution} (hreasons : reasons.isEmpty = false) (hbound : solution ∈ snapshots) :
    ∀ item ∈ [⟨scope, reasons, solution⟩], WorkItem.Grounded snapshots item := by
  intro item hitem
  obtain rfl := List.mem_singleton.mp hitem
  exact ⟨hreasons, hbound⟩

/-- The items of a change give reasons and lie in the snapshot before or in the snapshot after. -/
theorem grounded_of_diff {change : Change} {items : List WorkItem} (hitems : change.diff = .ok items) :
    ∀ item ∈ items, item.Grounded [change.old, change.new] := by
  obtain ⟨kind, old, new, project, document, sharing, hw, hp, hd⟩ := change
  have hold : old ∈ [old, new] := List.mem_cons_self
  have hnew : new ∈ [old, new] := List.mem_cons_of_mem old (List.mem_singleton_self new)
  cases kind with
  | solution action =>
    cases action with
    | added => exact Except.ok.inj hitems ▸ grounded_singleton rfl hnew
    | removed | cleared => exact Except.ok.inj hitems ▸ grounded_singleton rfl hold
    | changed | reloaded =>
      change Solution.diff old new sharing = .ok items at hitems
      unfold Solution.diff at hitems
      rw [if_pos hw] at hitems
      split at hitems
      · obtain rfl := Except.ok.inj hitems
        exact fun _ hitem => absurd hitem List.not_mem_nil
      · obtain rfl := Except.ok.inj hitems
        exact fun _ => grounded_of_mem_structuralDiff
  | project action =>
    cases action with
    | added => exact Except.ok.inj hitems ▸ grounded_singleton rfl hnew
    | removed => exact Except.ok.inj hitems ▸ grounded_singleton rfl hold
    | changed | reloaded =>
      obtain ⟨before, after, hcompare⟩ := exists_compare_eq_ok hitems
      exact grounded_of_ite (fun _ => grounded_of_mem_projectDiff) hcompare
  | document kind action =>
    cases kind with
    | additional | analyzerConfig => exact Except.ok.inj hitems ▸ grounded_singleton rfl hnew
    | source =>
      cases action with
      | added => exact Except.ok.inj hitems ▸ grounded_singleton rfl hnew
      | removed => exact Except.ok.inj hitems ▸ grounded_singleton rfl hold
      | changed | reloaded =>
        obtain ⟨before, after, hcompare⟩ := exists_compare_eq_ok hitems
        exact grounded_of_ite (grounded_singleton rfl hnew) hcompare

end Change

namespace Event

variable {event : Event} {failure : Failure}

/-- The items of an event fail to come exactly if what it says was changed or reloaded is missing from one
of its snapshots. -/
theorem diff_eq_error_iff :
    event.diff = .error failure ↔
      (∃ id, event.LosesProject id ∧ failure = .projectNotFound id) ∨
        ∃ id, event.LosesDocument id ∧ failure = .documentNotFound id := by
  cases event with
  | changed change =>
    refine (Change.diff_eq_error_iff change).trans ?_
    simp [LosesProject, LosesDocument]
  | opened event | closed event =>
    exact iff_of_false nofun (by simp [LosesProject, LosesDocument])

/-- The items of an event give reasons and lie in the snapshots that the event carries. -/
theorem grounded_of_diff {items : List WorkItem} (hitems : event.diff = .ok items) :
    ∀ item ∈ items, item.Grounded event.snapshots := by
  cases event with
  | changed change => exact Change.grounded_of_diff hitems
  | opened event | closed event =>
    exact Except.ok.inj hitems ▸ Change.grounded_singleton rfl (List.mem_singleton_self _)

/-- The items of an event come, unless what it says was changed or reloaded has vanished. -/
structure FailsOnlyIfVanished (event : Event) : Prop where
  /-- The snapshots are never said to belong to two workspaces. -/
  workspace : ∀ old new, event.diff ≠ .error (.workspaceMismatch old new)
  /-- A project is never said not to be named. -/
  projectGiven : ∀ kind, event.diff ≠ .error (.missingProjectId kind)
  /-- A document is never said not to be named. -/
  documentGiven : ∀ kind, event.diff ≠ .error (.missingDocumentId kind)
  /-- A project is said to be missing exactly if the event says that it was changed or reloaded, and it is
  missing from the snapshot before or from the snapshot after. -/
  project : ∀ id, event.diff = .error (.projectNotFound id) ↔ event.LosesProject id
  /-- A document is said to be missing exactly if the event says that it was changed or reloaded as a
  source document, and it is missing from the snapshot before or from the snapshot after. -/
  document : ∀ id, event.diff = .error (.documentNotFound id) ↔ event.LosesDocument id
  /-- Otherwise the items come. -/
  otherwise : (∀ id, ¬event.LosesProject id) → (∀ id, ¬event.LosesDocument id) →
    ∃ items, event.diff = .ok items
  /-- Every item gives a reason and lies in a snapshot of the event. -/
  items : ∀ items, event.diff = .ok items → ∀ item ∈ items, item.Grounded event.snapshots

/-- Whatever an event says and whichever snapshots it carries, its items fail to come only if what it says
was changed or reloaded has vanished from one of them. -/
theorem diff_fails_only_if_vanished (event : Event) : event.FailsOnlyIfVanished where
  workspace old new := by simp [diff_eq_error_iff]
  projectGiven kind := by simp [diff_eq_error_iff]
  documentGiven kind := by simp [diff_eq_error_iff]
  project id := by simp [diff_eq_error_iff]
  document id := by simp [diff_eq_error_iff]
  otherwise hproject hdocument := by
    cases hdiff : event.diff with
    | ok items => exact ⟨items, rfl⟩
    | error failure =>
      rcases diff_eq_error_iff.mp hdiff with ⟨id, hloses, -⟩ | ⟨id, hloses, -⟩
      · exact absurd hloses (hproject id)
      · exact absurd hloses (hdocument id)
  items items hitems := grounded_of_diff hitems

end Event

end SolutionWatch
