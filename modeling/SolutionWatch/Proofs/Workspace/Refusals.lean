import SolutionWatch.Proofs.Workspace.Answers

/-!
# What a workspace refuses

A command can fail at four points: the workspace is telling its observers something, what the command
names is missing or is there already, the step has no next snapshot, or the change to the next snapshot
cannot be reported. `Workspace.Refuses` lists every failure that a command can come to and says when it
does, and `Workspace.begin_eq_error_iff` that these are all of them, each with its own failure.

The steps of the workspace's own commands stay in the workspace and name what the kinds of their changes
need, so once there is a next snapshot it can be reported (`Mutation.fails_iff`). Only a replacement of
the whole solution and a step of the asker's own can fail after that.
-/

namespace SolutionWatch

/-- Why a change of some kind cannot be reported. The workspaces of the snapshots are compared first. -/
inductive Change.Unreportable (kind : ChangeKind) (old new : Solution) (project : Option ProjectId)
    (document : Option DocumentId) : Failure → Prop
  /-- The snapshots belong to two workspaces. -/
  | foreign : old.workspace ≠ new.workspace →
      Unreportable kind old new project document (.workspaceMismatch old.workspace new.workspace)
  /-- The kind needs a project, and neither a project nor a document is named. -/
  | noProject : old.workspace = new.workspace → kind.needsProject = true → project = none →
      document = none → Unreportable kind old new project document (.missingProjectId kind)
  /-- The kind needs a document, and only a project is named. -/
  | noDocument : old.workspace = new.workspace → kind.needsDocument = true → project ≠ none →
      document = none → Unreportable kind old new project document (.missingDocumentId kind)

/-- Why a step cannot be taken. -/
inductive Mutation.Fails (mutation : Mutation) (old : Solution) : Failure → Prop
  /-- There is no next snapshot. -/
  | stuck {failure : Failure} : mutation.next old = .error failure → Fails mutation old failure
  /-- There is a next snapshot, but the change to it cannot be reported. -/
  | untold {new : Solution} {failure : Failure} : mutation.next old = .ok new →
      Change.Unreportable mutation.kind old new mutation.project mutation.document failure →
      Fails mutation old failure

namespace Command

/-- The document that has to be in the snapshot. -/
def document? : Command → Option DocumentId
  | .editDocument id | .removeDocument id | .openDocument id | .closeDocument id => some id
  | _ => none

/-- The project that has to be in the snapshot. -/
def project? : Command → Option ProjectId
  | .removeProject id | .changeProject id _ => some id
  | .addDocument document => some document.id.project
  | _ => none

end Command

/-- Why a workspace refuses a command. -/
inductive Workspace.Refuses (workspace : Workspace) : Command → Failure → Prop
  /-- Observers are being told something. -/
  | telling (command : Command) : workspace.notifying = true →
      Refuses workspace command (workspace.refusal command)
  /-- There is no such document. -/
  | noDocument {command : Command} {id : DocumentId} : workspace.notifying = false →
      command.document? = some id → workspace.current.containsDocument id = false →
      Refuses workspace command (.documentNotFound id)
  /-- There is no such project. -/
  | noProject {command : Command} {id : ProjectId} : workspace.notifying = false →
      command.project? = some id → workspace.current.containsProject id = false →
      Refuses workspace command (.projectNotFound id)
  /-- There is such a project already. -/
  | projectExists {project : Project} : workspace.notifying = false →
      workspace.current.containsProject project.id = true →
      Refuses workspace (.addProject project) (.projectAlreadyExists project.id)
  /-- The solution belongs to another workspace. -/
  | foreign {solution : Solution} : workspace.notifying = false →
      workspace.current.workspace ≠ solution.workspace →
      Refuses workspace (.replace solution)
        (.workspaceMismatch workspace.current.workspace solution.workspace)
  /-- The asker's own step cannot be taken. -/
  | ownStep {kind : ChangeKind} {project : Option ProjectId} {document : Option DocumentId}
      {next : Solution → Except Failure Solution} {failure : Failure} : workspace.notifying = false →
      Mutation.Fails ⟨kind, project, document, next⟩ workspace.current failure →
      Refuses workspace (.apply kind project document next) failure

/-- Of two things that are done in a row the first one fails, or the second one does. -/
theorem bind_eq_error_iff {α β : Type} {first : Except Failure α} {second : α → Except Failure β}
    {failure : Failure} :
    (first >>= second) = .error failure ↔
      first = .error failure ∨ ∃ result, first = .ok result ∧ second result = .error failure := by
  cases first with
  | error missing => simp [bind, Except.bind]
  | ok result => simp [bind, Except.bind]

namespace Solution

variable {solution new : Solution} {failure : Failure}

/-- Requiring a document fails if the snapshot does not contain it. -/
theorem requireDocument_eq_error_iff {id : DocumentId} :
    solution.requireDocument id = .error failure ↔
      solution.containsDocument id = false ∧ failure = .documentNotFound id := by
  rcases solution.requireDocument_cases id with ⟨document, hd, hcontains⟩ | ⟨hd, hcontains⟩
  · simp [hd, hcontains]
  · simp [hd, hcontains, eq_comm]

/-- Removing a project fails if the snapshot does not contain it. -/
theorem withoutProject_eq_error_iff {id : ProjectId} :
    solution.withoutProject id = .error failure ↔
      solution.containsProject id = false ∧ failure = .projectNotFound id := by
  cases hcontains : solution.containsProject id <;> simp [withoutProject, hcontains, eq_comm]

/-- A project that the snapshot contains can be updated. -/
theorem exists_updateProject {id : ProjectId} (hcontains : solution.containsProject id = true)
    (update : Project → Project) : ∃ new, solution.updateProject id update = .ok new := by
  obtain ⟨project, hproject⟩ := containsProject_eq_true_iff.mp hcontains
  exact ⟨_, updateProject_eq_ok_iff.mpr ⟨project, hproject, rfl⟩⟩

/-- Updating a project fails if the snapshot does not contain it. -/
theorem updateProject_eq_error_iff {id : ProjectId} {update : Project → Project} :
    solution.updateProject id update = .error failure ↔
      solution.containsProject id = false ∧ failure = .projectNotFound id := by
  constructor
  · intro h
    refine ⟨eq_false_of_ne_true fun hcontains => ?_, eq_of_updateProject_error h⟩
    obtain ⟨new, hnew⟩ := exists_updateProject hcontains update
    rw [hnew] at h
    contradiction
  · rintro ⟨hcontains, rfl⟩
    rw [updateProject, requireProject, containsProject_eq_false_iff.mp hcontains]
    rfl

/-- A document that is found lies in a project. -/
theorem containsProject_of_document? {id : DocumentId} {document : Document}
    (h : solution.document? id = some document) :
    solution.containsProject id.project = true := by
  obtain ⟨project, hproject, -⟩ := document?_eq_some_iff.mp h
  exact containsProject_eq_true_iff.mpr ⟨project, hproject⟩

/-- A document that is required can be updated in its project. -/
theorem updateProject_ne_error {id : DocumentId} {document : Document}
    (hfound : solution.requireDocument id = .ok document) (update : Project → Project) :
    solution.updateProject id.project update ≠ .error failure := by
  intro h
  have hcontains := containsProject_of_document? (requireDocument_eq_ok_iff.mp hfound)
  rw [(updateProject_eq_error_iff.mp h).1] at hcontains
  contradiction

/-- Removing a document fails if the snapshot does not contain it. -/
theorem withoutDocument_eq_error_iff {id : DocumentId} :
    solution.withoutDocument id = .error failure ↔
      solution.containsDocument id = false ∧ failure = .documentNotFound id := by
  rw [withoutDocument, bind_eq_error_iff, requireDocument_eq_error_iff]
  refine or_iff_left ?_
  rintro ⟨document, hfound, h⟩
  exact updateProject_ne_error hfound _ h

/-- Setting the version of a document fails if the snapshot does not contain it. -/
theorem withVersion_eq_error_iff {id : DocumentId} {version : Version} :
    solution.withVersion id version = .error failure ↔
      solution.containsDocument id = false ∧ failure = .documentNotFound id := by
  rw [withVersion, bind_eq_error_iff, requireDocument_eq_error_iff]
  refine or_iff_left ?_
  rintro ⟨document, hfound, h⟩
  obtain rfl := id_of_document? (requireDocument_eq_ok_iff.mp hfound)
  exact updateProject_ne_error hfound _ h

/-- Editing a document fails if the snapshot does not contain it. -/
theorem withEdit_eq_error_iff {id : DocumentId} :
    solution.withEdit id = .error failure ↔
      solution.containsDocument id = false ∧ failure = .documentNotFound id := by
  rw [withEdit, bind_eq_error_iff, requireDocument_eq_error_iff]
  refine or_iff_left ?_
  rintro ⟨document, hfound, h⟩
  have hmissing := (withVersion_eq_error_iff.mp h).1
  rw [containsDocument, requireDocument_eq_ok_iff.mp hfound] at hmissing
  contradiction

/-- Updating a project stays in the workspace. -/
theorem workspace_of_updateProject {id : ProjectId} {update : Project → Project}
    (hnew : solution.updateProject id update = .ok new) : new.workspace = solution.workspace := by
  obtain ⟨project, -, rfl⟩ := updateProject_eq_ok_iff.mp hnew
  rfl

/-- Removing a project stays in the workspace. -/
theorem workspace_of_withoutProject {id : ProjectId}
    (hnew : solution.withoutProject id = .ok new) : new.workspace = solution.workspace := by
  obtain ⟨-, rfl⟩ := withoutProject_eq_ok_iff.mp hnew
  rfl

/-- Editing a document stays in the workspace. -/
theorem workspace_of_withEdit {id : DocumentId} (hnew : solution.withEdit id = .ok new) :
    new.workspace = solution.workspace := by
  obtain ⟨document, -, hedit⟩ := withDocument_of_withEdit hnew
  exact workspace_of_updateProject hedit

end Solution

namespace ChangeKind

/-- A change that names a document is about a project. -/
theorem needsProject_of_needsDocument {kind : ChangeKind} (h : kind.needsDocument = true) :
    kind.needsProject = true := by
  cases kind with
  | document kind action => rfl
  | solution action | project action => contradiction

end ChangeKind

/-- A change is not made exactly if it cannot be reported. -/
theorem Change.make_eq_error_iff {kind : ChangeKind} {old new : Solution} {project : Option ProjectId}
    {document : Option DocumentId} {sharing : Solution.Sharing old new} {failure : Failure} :
    make kind old new project document sharing = .error failure ↔
      Unreportable kind old new project document failure := by
  unfold make
  constructor
  · intro h
    split at h
    · next hw =>
      split at h
      · next hp =>
        split at h
        · contradiction
        · next hd =>
          obtain rfl := Except.error.inj h
          obtain ⟨hneeds, hnone⟩ := Classical.not_imp.mp hd
          obtain rfl := Option.not_isSome_iff_eq_none.mp hnone
          have hgiven := hp (ChangeKind.needsProject_of_needsDocument hneeds)
          refine .noDocument hw hneeds (fun hnone => ?_) rfl
          rw [hnone] at hgiven
          contradiction
      · next hp =>
        obtain rfl := Except.error.inj h
        obtain ⟨hneeds, hnone⟩ := Classical.not_imp.mp hp
        obtain ⟨hproject, hdocument⟩ := Option.or_eq_none_iff.mp (Option.not_isSome_iff_eq_none.mp hnone)
        exact .noProject hw hneeds hproject (Option.map_eq_none_iff.mp hdocument)
    · next hw =>
      obtain rfl := Except.error.inj h
      exact .foreign hw
  · intro h
    cases h with
    | foreign hw => rw [dif_neg hw]
    | noProject hw hneeds hproject hdocument =>
      subst hproject hdocument
      rw [dif_pos hw, dif_neg fun hgiven => Bool.false_ne_true (hgiven hneeds)]
    | noDocument hw hneeds hproject hdocument =>
      subst hdocument
      obtain ⟨id, rfl⟩ := Option.ne_none_iff_exists'.mp hproject
      have hgiven : kind.needsProject = true →
          ((some id).or (Option.map DocumentId.project none)).isSome = true := fun _ => rfl
      rw [dif_pos hw, dif_pos hgiven, dif_neg fun hgiven => Bool.false_ne_true (hgiven hneeds)]

namespace Mutation

variable {mutation : Mutation} {old : Solution} {failure : Failure}

/-- A step that stays in its workspace and names what the kind of its change needs fails only because
there is no next snapshot. -/
theorem fails_iff (hstays : ∀ new, mutation.next old = .ok new → new.workspace = old.workspace)
    (hproject : mutation.kind.needsProject = true → mutation.project ≠ none)
    (hdocument : mutation.kind.needsDocument = true → mutation.document ≠ none) :
    mutation.Fails old failure ↔ mutation.next old = .error failure := by
  refine ⟨fun h => ?_, .stuck⟩
  cases h with
  | stuck h => exact h
  | untold hnew hun =>
    cases hun with
    | foreign hw => exact absurd (hstays _ hnew).symm hw
    | noProject _ hneeds hnone => exact absurd hnone (hproject hneeds)
    | noDocument _ hneeds _ hnone => exact absurd hnone (hdocument hneeds)

/-- A step about a document that stays in its workspace fails only because there is no next snapshot. -/
theorem fails_ofDocument_iff {kind : DocumentKind} {action : EntityAction} {id : DocumentId}
    {next : Solution → Except Failure Solution}
    (hstays : ∀ new, next old = .ok new → new.workspace = old.workspace) :
    (ofDocument kind action id next).Fails old failure ↔ next old = .error failure := by
  refine fails_iff hstays (fun _ => Option.some_ne_none _) fun hneeds => ?_
  have hnamed : (ofDocument kind action id next).document = some id := if_pos hneeds
  rw [hnamed]
  exact Option.some_ne_none id

end Mutation

namespace Workspace

variable {workspace : Workspace} {failure : Failure}

/-- While nobody is being told anything, a step is refused exactly if it cannot be taken. -/
theorem apply_eq_error_iff (hquiet : workspace.notifying = false) {mutation : Mutation} :
    workspace.apply mutation = .error failure ↔ mutation.Fails workspace.current failure := by
  rw [apply, hquiet, if_neg Bool.false_ne_true, bind_eq_error_iff]
  constructor
  · rintro (hnext | ⟨new, hnext, hrest⟩)
    · exact .stuck hnext
    · rw [bind_eq_error_iff, Change.make_eq_error_iff] at hrest
      obtain huntold | ⟨change, -, hreported⟩ := hrest
      · exact .untold hnext huntold
      · contradiction
  · intro h
    cases h with
    | stuck hnext => exact .inl hnext
    | untold hnext huntold =>
      exact .inr ⟨_, hnext, bind_eq_error_iff.mpr (.inl (Change.make_eq_error_iff.mpr huntold))⟩

/-- While nobody is being told anything, opening or closing a document is refused exactly if the snapshot
does not contain it. -/
theorem setOpen_eq_error_iff (hquiet : workspace.notifying = false) {id : DocumentId} {isOpen : Bool} :
    workspace.setOpen id isOpen = .error failure ↔
      workspace.current.containsDocument id = false ∧ failure = .documentNotFound id := by
  rw [setOpen, hquiet, if_neg Bool.false_ne_true, DocumentEvent.make]
  split
  · next known =>
    -- The document is there, and whether anything is to be told does not matter.
    refine ⟨fun h => ?_, fun h => absurd (h.1.symm.trans known) Bool.false_ne_true⟩
    rw [bind_eq_error_iff] at h
    obtain h | ⟨event, -, h⟩ := h
    · contradiction
    · split at h
      · contradiction
      · split at h <;> contradiction
  · next unknown =>
    refine ⟨fun h => ⟨eq_false_of_ne_true unknown, (Except.error.inj h).symm⟩, ?_⟩
    rintro ⟨-, rfl⟩
    rfl

/-- What a workspace begins to do is a step unless a document is opened or closed. -/
theorem begin_of_opening?_eq_none {command : Command} (hcommand : command.opening? = none) :
    workspace.begin command = (do
      let mutation ← workspace.mutationOf command
      let (workspace, event) ← workspace.apply mutation
      return (workspace, some event)) := by
  cases command with
  | openDocument | closeDocument => contradiction
  | addProject | removeProject | changeProject | addDocument | editDocument | removeDocument | clear
  | replace | apply => rfl

/-- While nobody is being told anything, a command other than opening or closing is refused exactly if its
step cannot be found or cannot be taken. -/
theorem begin_eq_error_iff_mutationOf (hquiet : workspace.notifying = false) {command : Command}
    (hcommand : command.opening? = none) :
    workspace.begin command = .error failure ↔
      workspace.mutationOf command = .error failure ∨
        ∃ mutation, workspace.mutationOf command = .ok mutation ∧
          mutation.Fails workspace.current failure := by
  rw [begin_of_opening?_eq_none hcommand, bind_eq_error_iff]
  refine or_congr_right (exists_congr fun mutation => and_congr_right fun _ => ?_)
  rw [bind_eq_error_iff, apply_eq_error_iff hquiet]
  refine or_iff_left ?_
  rintro ⟨result, -, hreported⟩
  contradiction

/-- While nobody is being told anything, a command with a step is refused exactly if the step cannot be
taken. -/
theorem begin_eq_error_iff_fails (hquiet : workspace.notifying = false) {command : Command}
    {mutation : Mutation} (hcommand : command.opening? = none)
    (hm : workspace.mutationOf command = .ok mutation) :
    workspace.begin command = .error failure ↔ mutation.Fails workspace.current failure := by
  rw [begin_eq_error_iff_mutationOf hquiet hcommand, hm]
  constructor
  · rintro (h | ⟨_, h, hfails⟩)
    · contradiction
    · rwa [Except.ok.inj h]
  · exact fun hfails => .inr ⟨mutation, rfl, hfails⟩

/-- While nobody is being told anything, a command about a document that is looked up first is refused
exactly if the document is missing, when its step needs nothing more. -/
theorem begin_eq_error_iff_document (hquiet : workspace.notifying = false) {command : Command}
    {action : EntityAction} {id : DocumentId} {next : Solution → Except Failure Solution}
    (hcommand : command.opening? = none)
    (hm : workspace.mutationOf command = (do
      let document ← workspace.current.requireDocument id
      return .ofDocument document.kind action id next))
    (hstays : ∀ new, next workspace.current = .ok new →
      new.workspace = workspace.current.workspace)
    (hnext : ∀ failure, next workspace.current = .error failure ↔
      workspace.current.containsDocument id = false ∧ failure = .documentNotFound id) :
    workspace.begin command = .error failure ↔
      workspace.current.containsDocument id = false ∧ failure = .documentNotFound id := by
  rw [begin_eq_error_iff_mutationOf hquiet hcommand, hm, bind_eq_error_iff,
    Solution.requireDocument_eq_error_iff, ← hnext]
  constructor
  · rintro ((h | ⟨_, -, h⟩) | ⟨mutation, hfound, hfails⟩)
    · exact h
    · contradiction
    · obtain ⟨document, -, rfl⟩ := mutation_of_document hfound
      exact (Mutation.fails_ofDocument_iff hstays).mp hfails
  · exact fun h => .inl (.inl h)

/-- While nobody is being told anything, a command that needs a document is refused exactly if the
document is missing. -/
theorem begin_eq_error_iff_of_document? (hquiet : workspace.notifying = false) {command : Command}
    {id : DocumentId} (hneeds : command.document? = some id) :
    workspace.begin command = .error failure ↔
      workspace.current.containsDocument id = false ∧ failure = .documentNotFound id := by
  cases command with
  | openDocument other | closeDocument other =>
    obtain rfl := Option.some.inj hneeds
    exact setOpen_eq_error_iff hquiet
  | editDocument other =>
    obtain rfl := Option.some.inj hneeds
    exact begin_eq_error_iff_document hquiet rfl rfl (fun _ => Solution.workspace_of_withEdit)
      fun _ => Solution.withEdit_eq_error_iff
  | removeDocument other =>
    obtain rfl := Option.some.inj hneeds
    refine begin_eq_error_iff_document hquiet rfl rfl (fun new hnew => ?_) fun _ =>
      Solution.withoutDocument_eq_error_iff
    exact Solution.workspace_of_updateProject (Solution.updateProject_of_withoutDocument hnew)
  | addProject | removeProject | changeProject | addDocument | clear | replace | apply => contradiction

/-- While nobody is being told anything, a command that needs a project is refused exactly if the project
is missing. -/
theorem begin_eq_error_iff_of_project? (hquiet : workspace.notifying = false) {command : Command}
    {id : ProjectId} (hneeds : command.project? = some id) :
    workspace.begin command = .error failure ↔
      workspace.current.containsProject id = false ∧ failure = .projectNotFound id := by
  cases command with
  | removeProject other =>
    obtain rfl := Option.some.inj hneeds
    rw [begin_eq_error_iff_fails hquiet rfl rfl, Mutation.fails_iff]
    · exact Solution.withoutProject_eq_error_iff
    · exact fun _ => Solution.workspace_of_withoutProject
    · exact fun _ => Option.some_ne_none _
    · nofun
  | changeProject other update =>
    obtain rfl := Option.some.inj hneeds
    rw [begin_eq_error_iff_fails hquiet rfl rfl, Mutation.fails_iff]
    · exact Solution.updateProject_eq_error_iff
    · exact fun _ => Solution.workspace_of_updateProject
    · exact fun _ => Option.some_ne_none _
    · nofun
  | addDocument document =>
    obtain rfl := Option.some.inj hneeds
    rw [begin_eq_error_iff_fails hquiet rfl rfl, Mutation.fails_ofDocument_iff]
    · exact Solution.updateProject_eq_error_iff
    · exact fun _ => Solution.workspace_of_updateProject
  | addProject | editDocument | removeDocument | clear | replace | apply | openDocument
  | closeDocument => contradiction

/-- While nobody is being told anything, adding a project is refused exactly if it is there. -/
theorem begin_addProject_eq_error_iff (hquiet : workspace.notifying = false) {project : Project} :
    workspace.begin (.addProject project) = .error failure ↔
      workspace.current.containsProject project.id = true ∧
        failure = .projectAlreadyExists project.id := by
  rw [begin_eq_error_iff_fails hquiet rfl rfl, Mutation.fails_iff]
  · cases hcontains : workspace.current.containsProject project.id <;> simp [hcontains, eq_comm]
  · intro new hnew
    simp only at hnew
    split at hnew
    · contradiction
    · obtain rfl := Except.ok.inj hnew
      rfl
  · exact fun _ => Option.some_ne_none _
  · nofun

/-- While nobody is being told anything, removing everything is never refused. -/
theorem begin_clear_ne_error (hquiet : workspace.notifying = false) :
    workspace.begin .clear ≠ .error failure := by
  rw [ne_eq, begin_eq_error_iff_fails hquiet rfl rfl, Mutation.fails_iff]
  · nofun
  · intro new hnew
    obtain rfl := Except.ok.inj hnew
    rfl
  · nofun
  · nofun

/-- While nobody is being told anything, replacing the solution is refused exactly if the other one belongs
to another workspace. -/
theorem begin_replace_eq_error_iff (hquiet : workspace.notifying = false) {solution : Solution} :
    workspace.begin (.replace solution) = .error failure ↔
      workspace.current.workspace ≠ solution.workspace ∧
        failure = .workspaceMismatch workspace.current.workspace solution.workspace := by
  rw [begin_eq_error_iff_fails hquiet rfl rfl]
  constructor
  · intro h
    cases h with
    | stuck h => contradiction
    | untold hnew huntold =>
      obtain rfl := Except.ok.inj hnew
      cases huntold with
      | foreign hw => exact ⟨hw, rfl⟩
      | noProject _ hneeds | noDocument _ hneeds => contradiction
  · rintro ⟨hw, rfl⟩
    exact .untold rfl (.foreign hw)

/-- A workspace that is not telling anybody anything has a reason for what it refuses. -/
theorem refuses_of_begin (hquiet : workspace.notifying = false) {command : Command}
    (h : workspace.begin command = .error failure) : workspace.Refuses command failure := by
  cases command with
  | editDocument id | removeDocument id | openDocument id | closeDocument id =>
    obtain ⟨hmissing, rfl⟩ := (begin_eq_error_iff_of_document? hquiet rfl).mp h
    exact .noDocument hquiet rfl hmissing
  | removeProject id | changeProject id update | addDocument document =>
    obtain ⟨hmissing, rfl⟩ := (begin_eq_error_iff_of_project? hquiet rfl).mp h
    exact .noProject hquiet rfl hmissing
  | addProject project =>
    obtain ⟨hthere, rfl⟩ := (begin_addProject_eq_error_iff hquiet).mp h
    exact .projectExists hquiet hthere
  | clear => exact absurd h (begin_clear_ne_error hquiet)
  | replace solution =>
    obtain ⟨hforeign, rfl⟩ := (begin_replace_eq_error_iff hquiet).mp h
    exact .foreign hquiet hforeign
  | apply kind project document next =>
    exact .ownStep hquiet ((begin_eq_error_iff_fails hquiet rfl rfl).mp h)

/-- A workspace refuses a command exactly if there is a reason, and with the failure that fits. -/
theorem begin_eq_error_iff {command : Command} :
    workspace.begin command = .error failure ↔ workspace.Refuses command failure := by
  constructor
  · intro h
    by_cases htelling : workspace.notifying = true
    · rw [begin_of_notifying htelling] at h
      exact Except.error.inj h ▸ .telling command htelling
    · exact refuses_of_begin (eq_false_of_ne_true htelling) h
  · intro h
    cases h with
    | telling _ htelling => exact begin_of_notifying htelling command
    | noDocument hquiet hneeds hmissing =>
      exact (begin_eq_error_iff_of_document? hquiet hneeds).mpr ⟨hmissing, rfl⟩
    | noProject hquiet hneeds hmissing =>
      exact (begin_eq_error_iff_of_project? hquiet hneeds).mpr ⟨hmissing, rfl⟩
    | projectExists hquiet hthere => exact (begin_addProject_eq_error_iff hquiet).mpr ⟨hthere, rfl⟩
    | foreign hquiet hforeign => exact (begin_replace_eq_error_iff hquiet).mpr ⟨hforeign, rfl⟩
    | ownStep hquiet hfails => exact (begin_eq_error_iff_fails hquiet rfl rfl).mpr hfails

end Workspace

end SolutionWatch
