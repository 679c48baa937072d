import Mathlib.Data.List.Induction
import SolutionWatch.Proofs.Diff.Exactness
import SolutionWatch.Proofs.Snapshot.Derivation
import SolutionWatch.Request
import SolutionWatch.Worker
import SolutionWatch.Workspace

/-!
# What the events of a workspace come to

A workspace whose commands are all faithful stays sound: its snapshot is filed and belongs to it. The
difference of every event that it raises exists, and each of its items lies in the snapshot in which
it is to be looked at (`Workspace.Sound.begin`). A worker that finds a filed snapshot with the fingerprint
of an item's snapshot accepts the request for the item (`WorkItem.Deliverable.callFor_eq_ok`).
-/

namespace SolutionWatch

/-- Something holds at every point of a run that it holds at the start of, exactly if no step of the run
breaks it. -/
theorem holds_throughout_iff {σ τ : Type} {step : σ → τ → σ} {P : σ → Prop} {Breaks : σ → τ → Prop}
    (hstep : ∀ s t, P s → (P (step s t) ↔ ¬Breaks s t)) {start : σ} (hstart : P start)
    (steps : List τ) :
    (∀ done later, steps = done ++ later → P (done.foldl step start)) ↔
      ∀ done t later, steps = done ++ t :: later → ¬Breaks (done.foldl step start) t := by
  constructor
  · rintro h done t later rfl
    have hbefore := h done (t :: later) rfl
    have hafter := h (done ++ [t]) later (by rw [List.append_assoc]; rfl)
    rw [List.foldl_append] at hafter
    exact (hstep _ t hbefore).mp hafter
  · intro h done
    -- The run is followed from its start, one step more at a time.
    induction done using List.reverseRecOn with
    | nil => exact fun _ _ => hstart
    | append_singleton done t ih =>
      intro later heq
      rw [List.append_assoc] at heq
      rw [List.foldl_append]
      exact (hstep _ t (ih _ heq)).mpr (h done t later heq)

/-- The part of a solution that a scope names exists there. -/
def Scope.LiesIn (scope : Scope) (solution : Solution) : Prop :=
  match scope with
  | .solution => True
  | .project id => solution.containsProject id = true
  | .document id => solution.containsDocument id = true

/-- Whether a scope exists depends on the fingerprint of a filed snapshot only. -/
theorem Scope.LiesIn.congr {scope : Scope} {a b : Solution} (h : scope.LiesIn a) (ha : a.Filed)
    (hb : b.Filed) (hprint : a.fingerprint = b.fingerprint) : scope.LiesIn b := by
  cases scope with
  | solution => trivial
  | project id => exact (ha.containsProject_congr hb hprint id).symm.trans h
  | document id => exact (ha.containsDocument_congr hb hprint id).symm.trans h

/-- An item that can be looked at: its snapshot is filed and has the item's scope. -/
structure WorkItem.Deliverable (item : WorkItem) : Prop where
  /-- The snapshot is filed. -/
  filed : item.solution.Filed
  /-- The scope exists in the snapshot. -/
  liesIn : item.scope.LiesIn item.solution

/-- A worker accepts the request for an item in every filed snapshot with the fingerprint of the item's. -/
theorem WorkItem.Deliverable.callFor_eq_ok {item : WorkItem} (h : item.Deliverable)
    {found : Solution} (hf : found.Filed) (hprint : found.fingerprint = item.solution.fingerprint) :
    Worker.callFor found item.operation = .ok ⟨item.scope, item.reasons, found⟩ := by
  have hlies := h.liesIn.congr h.filed hf hprint.symm
  obtain ⟨scope, reasons, solution⟩ := item
  cases scope with
  | solution => rfl
  | project id =>
    obtain ⟨project, hproject⟩ := Solution.containsProject_eq_true_iff.mp hlies
    simp only [operation, Worker.callFor, Solution.requireProject_eq_ok_iff.mpr hproject]
    rfl
  | document id =>
    obtain ⟨document, hdocument⟩ := Solution.containsDocument_eq_true_iff.mp hlies
    simp only [operation, Worker.callFor, Solution.requireDocument_eq_ok_iff.mpr hdocument]
    rfl

/-- Every item that tells two filed snapshots from each other can be looked at. -/
theorem Solution.Expects.deliverable {old new : Solution} (ho : old.Filed) (hn : new.Filed)
    {item : WorkItem} (h : Expects old new item) : item.Deliverable := by
  cases h with
  | projectAdded _ ha => exact ⟨hn, containsProject_eq_true_iff.mpr ⟨_, ha⟩⟩
  | projectRemoved hb _ => exact ⟨ho, containsProject_eq_true_iff.mpr ⟨_, hb⟩⟩
  | projectChanged _ ha => exact ⟨hn, containsProject_eq_true_iff.mpr ⟨_, ha⟩⟩
  | documentAdded _ ha _ hd =>
    exact ⟨hn, containsDocument_eq_true_iff.mpr ⟨_, document?_eq_some_iff.mpr ⟨_, ha, hd⟩⟩⟩
  | documentChanged _ ha _ hd =>
    exact ⟨hn, containsDocument_eq_true_iff.mpr ⟨_, document?_eq_some_iff.mpr ⟨_, ha, hd⟩⟩⟩
  | documentRemoved hb _ hc =>
    exact ⟨ho, containsDocument_eq_true_iff.mpr ⟨_, document?_eq_some_iff.mpr ⟨_, hb, hc⟩⟩⟩

/-- The difference of an event exists, and its items can be looked at. -/
def Event.Deliverable (event : Event) : Prop :=
  ∃ items, event.diff = .ok items ∧ ∀ item ∈ items, item.Deliverable

namespace Change

/-- A change that was made is the one that was asked for. -/
theorem eq_of_make {kind : ChangeKind} {old new : Solution} {project : Option ProjectId}
    {document : Option DocumentId} {sharing : Solution.Sharing old new} {change : Change}
    (h : make kind old new project document sharing = .ok change) :
    ∃ hw hp hd, change = ⟨kind, old, new, project.or (document.map DocumentId.project), document,
      sharing, hw, hp, hd⟩ := by
  unfold make at h
  split at h
  · next hw =>
    split at h
    · next hp =>
      split at h
      · next hd => exact ⟨hw, hp, hd, (Except.ok.inj h).symm⟩
      · contradiction
    · contradiction
  · contradiction

/-- What a change of one project comes to does not depend on what the snapshots share. -/
theorem diff_project_eq_separate {old new : Solution} (sharing : Solution.Sharing old new)
    (id : ProjectId) :
    (do
      let before ← old.requireProject id
      let after ← new.requireProject id
      if sharing.holds id id then return []
      else return Project.diff old new before after : Except Failure (List WorkItem)) = (do
      let before ← old.requireProject id
      let after ← new.requireProject id
      return Project.diff old new before after) := by
  by_cases hshared : sharing.holds id id = true
  · have hsame := Solution.Sharing.equal_of_holds hshared
    cases hb : old.project? id with
    | none =>
      rw [Solution.requireProject, hb]
      rfl
    | some before =>
      rw [Solution.requireProject_eq_ok_iff.mpr hb,
        Solution.requireProject_eq_ok_iff.mpr (hsame ▸ hb)]
      simp only [if_pos hshared, bind, Except.bind, Project.diff_self, pure, Except.pure]
  · simp only [if_neg hshared]

/-- What a change of filed snapshots comes to does not depend on what they share, so a workspace may
report all its changes as changes of separate snapshots. -/
theorem diff_eq_separate (change : Change) (ho : change.old.Filed) :
    change.diff = { change with sharing := .separate }.diff := by
  obtain ⟨kind, old, new, project, document, sharing, hw, hp, hd⟩ := change
  cases kind with
  | solution action =>
    cases action with
    | changed | reloaded => exact Solution.diff_eq_separate sharing ho
    | added | removed | cleared => rfl
  | document kind action => cases kind <;> rfl
  | project action =>
    have hseparate : ∀ id, (Solution.Sharing.separate : Solution.Sharing old new).holds id id =
        false := fun _ => rfl
    cases action with
    | added | removed => rfl
    | changed | reloaded =>
      simp only [diff, hseparate, Bool.false_eq_true, if_false]
      exact diff_project_eq_separate sharing _

/-- A project that is reported as changed is compared with what it was. -/
theorem diff_projectChanged {old new : Solution} {id : ProjectId} {before after : Project}
    (hbefore : old.project? id = some before) (hafter : new.project? id = some after) (hw hp hd) :
    diff ⟨.project .changed, old, new, some id, none, .separate, hw, hp, hd⟩ =
      .ok (Project.diff old new before after) := by
  have hdiff : diff ⟨.project .changed, old, new, some id, none, .separate, hw, hp, hd⟩ = (do
      let before ← old.requireProject id
      let after ← new.requireProject id
      return Project.diff old new before after) := rfl
  rw [Solution.requireProject_eq_ok_iff.mpr hbefore,
    Solution.requireProject_eq_ok_iff.mpr hafter] at hdiff
  exact hdiff

/-- A source document that is reported as changed is an item if its version changed. -/
theorem diff_documentChanged {old new : Solution} {id : DocumentId} {before after : Document}
    (hbefore : old.document? id = some before) (hafter : new.document? id = some after)
    (hversion : before.version ≠ after.version) (hw hp hd) :
    diff ⟨.document .source .changed, old, new, some id.project, some id, .separate, hw, hp, hd⟩ =
      .ok [⟨.document id, .documentChanged, new⟩] := by
  have hdiff : diff ⟨.document .source .changed, old, new, some id.project, some id, .separate,
      hw, hp, hd⟩ = (do
        let before ← old.requireDocument id
        let after ← new.requireDocument id
        if before.version = after.version then return []
        else return [⟨.document id, .documentChanged, new⟩]) := rfl
  rw [Solution.requireDocument_eq_ok_iff.mpr hbefore,
    Solution.requireDocument_eq_ok_iff.mpr hafter] at hdiff
  rw [hdiff]
  exact if_neg hversion

end Change

namespace Command

/-- A command that keeps projects under their own identities, and reports what it does. -/
def Faithful : Command → Prop
  | .changeProject _ update => ∀ project, (update project).id = project.id
  | .replace solution => solution.Filed
  | .apply _ _ _ _ => False
  | _ => True

end Command

namespace Mutation

/-- A mutation that leads from a snapshot to filed ones only, by changes whose items can be looked
at. -/
def SoundAt (mutation : Mutation) (old : Solution) : Prop :=
  ∀ new, mutation.next old = .ok new → new.Filed ∧ ∀ hw hp hd,
    Event.Deliverable (.changed ⟨mutation.kind, old, new,
      mutation.project.or (mutation.document.map DocumentId.project), mutation.document, .separate,
      hw, hp, hd⟩)

variable {old : Solution}

/-- A change of the whole solution comes to the comparison of the snapshots. -/
theorem soundAt_solutionChanged (ho : old.Filed) {next : Solution → Except Failure Solution}
    (hfiled : ∀ new, next old = .ok new → new.Filed) :
    SoundAt ⟨.solution .changed, none, none, next⟩ old := by
  intro new hnew
  have hn := hfiled new hnew
  refine ⟨hn, fun hw _ _ => ⟨_, Solution.diff_eq_ok_structuralDiff .separate hw ho, ?_⟩⟩
  intro item hitem
  exact ((Solution.mem_structuralDiff_iff ho hn).mp hitem).deliverable ho hn

/-- Removing every project is told as such. -/
theorem soundAt_clear (ho : old.Filed) :
    SoundAt ⟨.solution .cleared, none, none, fun old => .ok old.cleared⟩ old := by
  intro new hnew
  obtain rfl := Except.ok.inj hnew
  refine ⟨old.filed_cleared, fun _ _ _ => ⟨_, rfl, ?_⟩⟩
  intro item hitem
  rw [List.mem_singleton.mp hitem]
  exact ⟨ho, trivial⟩

/-- A project that was added is to be looked for in the new snapshot. -/
theorem soundAt_projectAdded (ho : old.Filed) (project : Project) :
    SoundAt ⟨.project .added, some project.id, none, fun old =>
      if old.containsProject project.id then .error (.projectAlreadyExists project.id)
      else .ok (old.withProject project)⟩ old := by
  intro new hnew
  simp only at hnew
  split at hnew
  · contradiction
  · obtain rfl := Except.ok.inj hnew
    refine ⟨ho.withProject project, fun _ _ _ => ⟨_, rfl, ?_⟩⟩
    intro item hitem
    rw [List.mem_singleton.mp hitem]
    exact ⟨ho.withProject project, Solution.containsProject_eq_true_iff.mpr
      ⟨_, Solution.project?_derive_insert old project.id project⟩⟩

/-- A project that was removed is to be looked for in the old snapshot. -/
theorem soundAt_projectRemoved (ho : old.Filed) (id : ProjectId) :
    SoundAt ⟨.project .removed, some id, none, fun old => old.withoutProject id⟩ old := by
  intro new hnew
  refine ⟨ho.withoutProject hnew, fun _ _ _ => ⟨_, rfl, ?_⟩⟩
  intro item hitem
  rw [List.mem_singleton.mp hitem]
  exact ⟨ho, (Solution.withoutProject_eq_ok_iff.mp hnew).1⟩

/-- A project that was changed is compared with what it was. -/
theorem soundAt_projectChanged (ho : old.Filed) (id : ProjectId) {update : Project → Project}
    (hupdate : ∀ project, (update project).id = project.id) :
    SoundAt ⟨.project .changed, some id, none, fun old => old.updateProject id update⟩ old := by
  intro new hnew
  have hn := ho.updateProject hupdate hnew
  -- Both look-ups of the event find the project, before the update and after it.
  obtain ⟨before, hb, hderive⟩ := Solution.updateProject_eq_ok_iff.mp hnew
  have ha : new.project? id = some (update before) :=
    hderive ▸ old.project?_derive_insert id (update before)
  refine ⟨hn, fun hw hp hd => ⟨Project.diff old new before (update before), ?_, ?_⟩⟩
  · exact Change.diff_projectChanged hb ha hw hp hd
  · intro item hitem
    -- The items are among those of the comparison of the whole snapshots.
    have hkept : item ∈ Solution.keptProjects old new .separate :=
      (Solution.mem_keptProjects_iff hn).mpr ⟨id, before, update before, hb, ha, hitem⟩
    exact ((Solution.mem_structuralDiff_iff ho hn).mp
      (List.mem_append_left _ (List.mem_append_right _ hkept))).deliverable ho hn

/-- A project whose documents that are not source documents changed is to be looked for in the new
snapshot. -/
theorem deliverable_additional {kind : DocumentKind} (hkind : kind ≠ .source)
    {action : EntityAction} {new : Solution} (hn : new.Filed) {id : DocumentId}
    (hcontains : new.containsProject id.project = true) (hw hp hd) :
    Event.Deliverable (.changed ⟨.document kind action, old, new, some id.project, none, .separate,
      hw, hp, hd⟩) := by
  cases kind with
  | source => exact absurd rfl hkind
  | additional | analyzerConfig =>
    refine ⟨_, rfl, ?_⟩
    intro item hitem
    rw [List.mem_singleton.mp hitem]
    exact ⟨hn, hcontains⟩

/-- A step about a document is sound when its results are filed and contain the document's project,
and when what happens to a source document can be looked at. -/
theorem soundAt_ofDocument {kind : DocumentKind} {action : EntityAction} {id : DocumentId}
    {next : Solution → Except Failure Solution}
    (hnext : ∀ new, next old = .ok new → new.Filed ∧ new.containsProject id.project = true)
    (hsource : kind = .source → ∀ new, next old = .ok new → ∀ hw hp hd,
      Event.Deliverable (.changed ⟨.document .source action, old, new, some id.project, some id,
        .separate, hw, hp, hd⟩)) :
    (ofDocument kind action id next).SoundAt old := by
  intro new hnew
  obtain ⟨hn, hcontains⟩ := hnext new hnew
  refine ⟨hn, fun hw hp hd => ?_⟩
  cases kind with
  | source => exact hsource rfl new hnew hw hp hd
  | additional => exact deliverable_additional (by decide) hn hcontains hw hp hd
  | analyzerConfig => exact deliverable_additional (by decide) hn hcontains hw hp hd

/-- What updated a project contains it. -/
theorem containsProject_of_updateProject {new : Solution} {id : ProjectId}
    {update : Project → Project} (hnew : old.updateProject id update = .ok new) :
    new.containsProject id = true := by
  obtain ⟨before, -, rfl⟩ := Solution.updateProject_eq_ok_iff.mp hnew
  exact Solution.containsProject_eq_true_iff.mpr ⟨_, old.project?_derive_insert id (update before)⟩

/-- A document that was added is to be looked for in the new snapshot. -/
theorem soundAt_documentAdded (ho : old.Filed) (document : Document) :
    (ofDocument document.kind .added document.id fun old => old.withDocument document).SoundAt
      old := by
  refine soundAt_ofDocument ?_ ?_
  · intro new hnew
    exact ⟨ho.withDocument hnew, containsProject_of_updateProject hnew⟩
  · intro _ new hnew _ _ _
    refine ⟨_, rfl, ?_⟩
    intro item hitem
    rw [List.mem_singleton.mp hitem]
    exact ⟨ho.withDocument hnew, Solution.containsDocument_eq_true_iff.mpr
      ⟨document, ho.document?_withDocument hnew⟩⟩

/-- A document that was removed is to be looked for in the old snapshot. -/
theorem soundAt_documentRemoved (ho : old.Filed) {id : DocumentId} {document : Document}
    (hdocument : old.document? id = some document) :
    (ofDocument document.kind .removed id fun old => old.withoutDocument id).SoundAt old := by
  refine soundAt_ofDocument ?_ ?_
  · intro new hnew
    exact ⟨ho.withoutDocument hnew,
      containsProject_of_updateProject (Solution.updateProject_of_withoutDocument hnew)⟩
  · intro _ new hnew _ _ _
    refine ⟨_, rfl, ?_⟩
    intro item hitem
    rw [List.mem_singleton.mp hitem]
    exact ⟨ho, Solution.containsDocument_eq_true_iff.mpr ⟨document, hdocument⟩⟩

/-- A document that was edited is to be looked for in the new snapshot. -/
theorem soundAt_documentChanged (ho : old.Filed) {id : DocumentId} (kind : DocumentKind) :
    (ofDocument kind .changed id fun old => old.withEdit id).SoundAt old := by
  refine soundAt_ofDocument ?_ ?_
  · intro new hnew
    obtain ⟨document, hdocument, hedit⟩ := Solution.withDocument_of_withEdit hnew
    obtain rfl : document.id = id := Solution.id_of_document? hdocument
    exact ⟨ho.withDocument hedit, containsProject_of_updateProject hedit⟩
  · intro _ new hnew hw hp hd
    obtain ⟨document, hdocument, hedit⟩ := Solution.withDocument_of_withEdit hnew
    obtain rfl : document.id = id := Solution.id_of_document? hdocument
    have hn := ho.withDocument hedit
    have hafter := ho.document?_withDocument hedit
    -- An edit counts the version up, so it is never taken for no edit at all.
    have hversion := document.version.next_ne.symm
    refine ⟨_, Change.diff_documentChanged hdocument hafter hversion hw hp hd, ?_⟩
    intro item hitem
    rw [List.mem_singleton.mp hitem]
    exact ⟨hn, Solution.containsDocument_eq_true_iff.mpr ⟨_, hafter⟩⟩

end Mutation

namespace Workspace

variable {workspace next : Workspace}

/-- A workspace that is not notifying and whose snapshot is filed and belongs to it. -/
structure Sound (workspace : Workspace) : Prop where
  /-- The snapshot is filed. -/
  filed : workspace.current.Filed
  /-- The snapshot belongs to the workspace. -/
  own : workspace.current.workspace = workspace.id
  /-- Nobody is being told about a change. -/
  quiet : workspace.notifying = false

/-- A new workspace is sound. -/
theorem sound_initial (id : WorkspaceId) : (initial id).Sound :=
  ⟨Solution.filed_initial id, rfl, rfl⟩

/-- A step that was taken leads to what the mutation makes of the snapshot, and reports just that. -/
theorem eq_of_apply {mutation : Mutation} {event : Event}
    (h : workspace.apply mutation = .ok (next, event)) :
    ∃ new hw hp hd, mutation.next workspace.current = .ok new ∧
      next = { workspace with current := new, notifying := true } ∧
      event = .changed ⟨mutation.kind, workspace.current, new,
        mutation.project.or (mutation.document.map DocumentId.project), mutation.document,
        .separate, hw, hp, hd⟩ := by
  unfold apply at h
  split at h
  · contradiction
  · cases hnew : mutation.next workspace.current with
    | error failure =>
      rw [hnew] at h
      contradiction
    | ok new =>
      rw [hnew] at h
      cases hchange : Change.make mutation.kind workspace.current new mutation.project
          mutation.document .separate with
      | error failure =>
        simp only [bind, Except.bind, hchange] at h
        contradiction
      | ok change =>
        simp only [bind, Except.bind, hchange] at h
        obtain ⟨rfl, rfl⟩ := Prod.mk.inj (Except.ok.inj h)
        obtain ⟨hw, hp, hd, rfl⟩ := Change.eq_of_make hchange
        exact ⟨new, hw, hp, hd, rfl, rfl, rfl⟩

/-- The step of a command about a document that is looked up needs the document. -/
theorem mutation_of_document {id : DocumentId} {action : EntityAction}
    {next : Solution → Except Failure Solution} {mutation : Mutation}
    (h : (do
      let document ← workspace.current.requireDocument id
      return Mutation.ofDocument document.kind action id next) = .ok mutation) :
    ∃ document, workspace.current.document? id = some document ∧
      .ofDocument document.kind action id next = mutation := by
  cases hdocument : workspace.current.requireDocument id with
  | ok document =>
    rw [hdocument] at h
    exact ⟨document, Solution.requireDocument_eq_ok_iff.mp hdocument, Except.ok.inj h⟩
  | error failure =>
    rw [hdocument] at h
    contradiction

/-- The step of a faithful command is sound. -/
theorem soundAt_mutationOf (hfiled : workspace.current.Filed) {command : Command}
    (hc : command.Faithful) {mutation : Mutation}
    (hm : workspace.mutationOf command = .ok mutation) :
    mutation.SoundAt workspace.current := by
  have hkeep : ∀ new, (Except.ok workspace.current : Except Failure Solution) = .ok new → new.Filed :=
    fun new hnew => Except.ok.inj hnew ▸ hfiled
  cases command with
  | addProject project =>
    obtain rfl := Except.ok.inj hm
    exact Mutation.soundAt_projectAdded hfiled project
  | removeProject id =>
    obtain rfl := Except.ok.inj hm
    exact Mutation.soundAt_projectRemoved hfiled id
  | changeProject id update =>
    obtain rfl := Except.ok.inj hm
    exact Mutation.soundAt_projectChanged hfiled id hc
  | addDocument document =>
    obtain rfl := Except.ok.inj hm
    exact Mutation.soundAt_documentAdded hfiled document
  | editDocument id =>
    obtain ⟨document, hdocument, rfl⟩ := mutation_of_document hm
    exact Mutation.soundAt_documentChanged hfiled document.kind
  | removeDocument id =>
    obtain ⟨document, hdocument, rfl⟩ := mutation_of_document hm
    exact Mutation.soundAt_documentRemoved hfiled hdocument
  | clear =>
    obtain rfl := Except.ok.inj hm
    exact Mutation.soundAt_clear hfiled
  | replace solution =>
    obtain rfl := Except.ok.inj hm
    exact Mutation.soundAt_solutionChanged hfiled fun new hnew => Except.ok.inj hnew ▸ hc
  | apply kind project document next => exact hc.elim
  | openDocument id =>
    obtain rfl := Except.ok.inj hm
    exact Mutation.soundAt_solutionChanged hfiled hkeep
  | closeDocument id =>
    obtain rfl := Except.ok.inj hm
    exact Mutation.soundAt_solutionChanged hfiled hkeep

/-- What a workspace that begins to tell its observers something will be when it has told them, and
what it tells. -/
structure Tells (workspace : Workspace) (command : Command) (next : Workspace) (event : Event) :
    Prop where
  /-- The workspace is sound once it has told its observers. -/
  sound : (next.finish command).Sound
  /-- The workspace keeps its identity. -/
  id : next.id = workspace.id
  /-- The event is one of this workspace. -/
  workspace : event.workspace = workspace.id
  /-- What the event comes to can be looked at. -/
  deliverable : event.Deliverable

/-- A sound workspace that takes a sound step tells what can be looked at. -/
theorem Sound.tells_of_apply (h : workspace.Sound) {mutation : Mutation}
    (hm : mutation.SoundAt workspace.current) {event : Event}
    (happly : workspace.apply mutation = .ok (next, event)) (command : Command) :
    workspace.Tells command next event := by
  obtain ⟨new, hw, hp, hd, hnew, rfl, rfl⟩ := eq_of_apply happly
  obtain ⟨hn, hdeliverable⟩ := hm new hnew
  exact ⟨⟨hn, hw.symm.trans h.own, rfl⟩, rfl, h.own, hdeliverable hw hp hd⟩

/-- An event about a document of a filed snapshot comes to one item that can be looked at. -/
theorem deliverable_of_known {solution : Solution} (h : solution.Filed) {id : DocumentId}
    (known : solution.containsDocument id = true) (reasons : Reasons) :
    ∀ item ∈ [(⟨.document id, reasons, solution⟩ : WorkItem)], item.Deliverable := by
  intro item hitem
  rw [List.mem_singleton.mp hitem]
  exact ⟨h, known⟩

/-- Opening or closing a document comes to nothing, or it changes which documents are open and tells
so. -/
theorem eq_of_setOpen {id : DocumentId} {isOpen : Bool} {told : Option Event}
    (hset : workspace.setOpen id isOpen = .ok (next, told)) :
    workspace.notifying = false ∧ ∃ known,
      (next = workspace ∧ told = none) ∨
      ∃ documents event, next = { workspace with openDocuments := documents, notifying := true } ∧
        told = some event ∧
        (event = .opened ⟨workspace.current, id, known⟩ ∨
          event = .closed ⟨workspace.current, id, known⟩) := by
  unfold setOpen DocumentEvent.make at hset
  split at hset
  · contradiction
  · next hquiet =>
    refine ⟨eq_false_of_ne_true hquiet, ?_⟩
    split at hset
    · next known =>
      refine ⟨known, ?_⟩
      simp only [bind, Except.bind] at hset
      split at hset
      · obtain ⟨rfl, rfl⟩ := Prod.mk.inj (Except.ok.inj hset)
        exact .inl ⟨rfl, rfl⟩
      · split at hset
        · obtain ⟨rfl, rfl⟩ := Prod.mk.inj (Except.ok.inj hset)
          exact .inr ⟨_, _, rfl, rfl, .inl rfl⟩
        · obtain ⟨rfl, rfl⟩ := Prod.mk.inj (Except.ok.inj hset)
          exact .inr ⟨_, _, rfl, rfl, .inr rfl⟩
    · contradiction

/-- A sound workspace in which a document is opened or closed tells what can be looked at. -/
theorem Sound.tells_of_setOpen (h : workspace.Sound) {id : DocumentId} {isOpen : Bool}
    {event : Event} (hset : workspace.setOpen id isOpen = .ok (next, some event))
    (command : Command) : workspace.Tells command next event := by
  obtain ⟨-, known, ⟨-, hnone⟩ | ⟨documents, told, rfl, htold, hevent⟩⟩ := eq_of_setOpen hset
  · contradiction
  · obtain rfl := Option.some.inj htold
    obtain rfl | rfl := hevent
    · exact ⟨⟨h.filed, h.own, rfl⟩, rfl, h.own, _, rfl, deliverable_of_known h.filed known _⟩
    · exact ⟨⟨h.filed, h.own, rfl⟩, rfl, h.own, _, rfl, deliverable_of_known h.filed known _⟩

/-- A command other than opening or closing begins with its step, and tells what the step reports. -/
theorem eq_of_mutation {command : Command} {told : Option Event}
    (hbegin : (do
      let mutation ← workspace.mutationOf command
      let (workspace, event) ← workspace.apply mutation
      return (workspace, some event)) = Except.ok (next, told)) :
    ∃ mutation event, workspace.mutationOf command = .ok mutation ∧
      workspace.apply mutation = .ok (next, event) ∧ told = some event := by
  cases hm : workspace.mutationOf command with
  | error failure =>
    rw [hm] at hbegin
    contradiction
  | ok mutation =>
    rw [hm] at hbegin
    cases happly : workspace.apply mutation with
    | error failure =>
      simp only [bind, Except.bind, happly] at hbegin
      contradiction
    | ok result =>
      simp only [bind, Except.bind, happly] at hbegin
      obtain ⟨rfl, rfl⟩ := Prod.mk.inj (Except.ok.inj hbegin)
      exact ⟨mutation, result.2, rfl, happly, rfl⟩

/-- What a sound workspace tells its observers because of a faithful command can be looked at, and the
workspace is sound once they were told. -/
theorem Sound.begin (h : workspace.Sound) {command : Command} (hc : command.Faithful)
    {event : Event} (hbegin : workspace.begin command = .ok (next, some event)) :
    workspace.Tells command next event := by
  cases command with
  | openDocument id => exact h.tells_of_setOpen hbegin _
  | closeDocument id => exact h.tells_of_setOpen hbegin _
  | addProject | removeProject | changeProject | addDocument | editDocument | removeDocument | clear
  | replace | apply =>
    obtain ⟨mutation, told, hm, happly, htold⟩ := eq_of_mutation hbegin
    obtain rfl := Option.some.inj htold
    exact h.tells_of_apply (soundAt_mutationOf h.filed hc hm) happly _

/-- Ending a notification changes nothing if there is none and the command closes no document. -/
theorem finish_eq_self (hquiet : workspace.notifying = false) {command : Command}
    (hforgets : ∀ id, command.forgets id = false) : workspace.finish command = workspace := by
  have hopen : (workspace.openDocuments.filter fun id => !command.forgets id) =
      workspace.openDocuments := by
    rw [List.filter_eq_self]
    intro id _
    rw [hforgets, Bool.not_false]
  rw [finish, hopen, ← hquiet]

/-- A command that raises no event leaves the workspace as it is. -/
theorem finish_of_quiet {command : Command} (hbegin : workspace.begin command = .ok (next, none)) :
    next.finish command = workspace := by
  cases command with
  | openDocument id | closeDocument id =>
    obtain ⟨hquiet, _, ⟨rfl, -⟩ | ⟨_, _, -, htold, -⟩⟩ := eq_of_setOpen hbegin
    · exact finish_eq_self hquiet fun _ => rfl
    · contradiction
  -- Everything else raises an event if it does not fail.
  | addProject | removeProject | changeProject | addDocument | editDocument | removeDocument | clear
  | replace | apply =>
    obtain ⟨_, _, _, _, htold⟩ := eq_of_mutation hbegin
    contradiction

/-- The workspace after a command, which leaves it as it is if it fails. -/
def after (workspace : Workspace) (command : Command) : Workspace :=
  match workspace.run command with
  | .ok (next, _) => next
  | .error _ => workspace

/-- The event that a command raises, if it raises one. -/
def raisedBy (workspace : Workspace) (command : Command) : List Event :=
  match workspace.run command with
  | .ok (_, some event) => [event]
  | _ => []

/-- The events that commands raise one after another. -/
def raised (workspace : Workspace) : List Command → List Event
  | [] => []
  | command :: commands => workspace.raisedBy command ++ (workspace.after command).raised commands

/-- One more command raises its event last. -/
theorem raised_concat (workspace : Workspace) (commands : List Command) (command : Command) :
    workspace.raised (commands ++ [command]) =
      workspace.raised commands ++ (commands.foldl after workspace).raisedBy command := by
  induction commands generalizing workspace with
  | nil => simp [raised]
  | cons first commands ih => simp [raised, ih]

/-- A command leaves a workspace as it is, or it begins by telling the observers an event. -/
theorem begin_cases (workspace : Workspace) (command : Command) :
    ((∀ next event, workspace.begin command ≠ .ok (next, some event)) ∧
        workspace.after command = workspace ∧ workspace.raisedBy command = []) ∨
      ∃ next event, workspace.begin command = .ok (next, some event) ∧
        workspace.after command = next.finish command ∧ workspace.raisedBy command = [event] := by
  cases hbegin : workspace.begin command with
  | error failure =>
    have hrun : workspace.run command = .error failure := by
      rw [run, hbegin]
      rfl
    rw [after, raisedBy, hrun]
    exact .inl ⟨fun _ _ h => (nomatch h), rfl, rfl⟩
  | ok result =>
    obtain ⟨next, told⟩ := result
    have hrun : workspace.run command = .ok (next.finish command, told) := by
      rw [run, hbegin]
      rfl
    rw [after, raisedBy, hrun]
    cases told with
    | none => exact .inl ⟨fun _ _ h => (nomatch h), finish_of_quiet hbegin, rfl⟩
    | some event => exact .inr ⟨next, event, rfl, rfl, rfl⟩

end Workspace

end SolutionWatch
