import SolutionWatch.Patch
import SolutionWatch.Proofs.Workspace.Events

/-!
# Documents that are open and gone

A document that a workspace has open should be in its current snapshot, since only a document that is
there can be closed (`Workspace.closes_iff`). Removing a document or a project closes what it takes
away, and so does removing everything; no other command takes a document away, except that a project
can be changed into one that lacks documents, and a solution can be replaced by one that lacks them.
Those leave the open documents as they are, and a document that one of them takes away while it is open
is stranded (`Workspace.Strands`).

Stranding is the only way to get there: the open documents of a workspace are in its snapshot at every
point of a run exactly if no command of the run strands one
(`Workspace.openDocuments_contained_iff`). It does happen, and then the document cannot be closed
(`Workspace.stranded_by_update`).
-/

namespace SolutionWatch

/-- The new snapshot has the documents of the old one, apart from those that may be gone. -/
def Solution.KeepsBut (gone : DocumentId → Bool) (old new : Solution) : Prop :=
  ∀ id, gone id = false → old.containsDocument id = true → new.containsDocument id = true

namespace Solution

variable {old new : Solution}

/-- What becomes of one project leaves the documents of the others alone. -/
theorem keepsBut_of_project {gone : DocumentId → Bool} {id : ProjectId}
    (helsewhere : ∀ other, other ≠ id → new.project? other = old.project? other)
    (hproject : ∀ document project, document.project = id → gone document = false →
      old.project? id = some project → project.containsDocument document = true →
      new.containsDocument document = true) :
    KeepsBut gone old new := by
  intro document hgone hcontains
  obtain ⟨found, hfound⟩ := containsDocument_eq_true_iff.mp hcontains
  obtain ⟨project, hp, hd⟩ := document?_eq_some_iff.mp hfound
  by_cases hid : document.project = id
  · exact hproject document project hid hgone (hid ▸ hp)
      (Project.containsDocument_eq_true_iff.mpr ⟨found, hd⟩)
  · rw [← helsewhere document.project hid] at hp
    exact containsDocument_eq_true_iff.mpr ⟨found, document?_eq_some_iff.mpr ⟨project, hp, hd⟩⟩

/-- An update of a project keeps the documents that it keeps in the project. -/
theorem keepsBut_of_updateProject {gone : DocumentId → Bool} {id : ProjectId}
    {update : Project → Project}
    (hupdate : ∀ project document, gone document = false →
      project.containsDocument document = true → (update project).containsDocument document = true)
    (hnew : old.updateProject id update = .ok new) : KeepsBut gone old new := by
  obtain ⟨before, hbefore, rfl⟩ := updateProject_eq_ok_iff.mp hnew
  refine keepsBut_of_project
    (fun other hother => old.project?_derive_insert_of_ne hother (update before)) ?_
  rintro document project rfl hgone hproject hcontains
  obtain rfl : before = project := Option.some.inj (hbefore.symm.trans hproject)
  obtain ⟨found, hfound⟩ :=
    Project.containsDocument_eq_true_iff.mp (hupdate before document hgone hcontains)
  exact containsDocument_eq_true_iff.mpr ⟨found, document?_eq_some_iff.mpr
    ⟨update before, old.project?_derive_insert document.project (update before), hfound⟩⟩

/-- Adding a document takes none away. -/
theorem keepsBut_of_withDocument {document : Document}
    (hnew : old.withDocument document = .ok new) (gone : DocumentId → Bool) :
    KeepsBut gone old new := by
  refine keepsBut_of_updateProject (fun project other _ hcontains => ?_) hnew
  rw [Project.containsDocument_eq_true_iff] at hcontains ⊢
  by_cases hother : other = document.id
  · -- The document takes its own place, or the project does not take it in.
    subst hother
    rw [Project.withDocument]
    split
    · exact ⟨document, by rw [Project.document?, Catalog.get?_insert, if_pos rfl]⟩
    · exact hcontains
  · rwa [project.document?_withDocument_of_ne hother]

end Solution

namespace Command

/-- A command that closes the documents that it takes away. -/
def Prunes : Command → Prop
  | .changeProject _ _ | .replace _ | .apply _ _ _ _ => False
  | _ => True

end Command

namespace Workspace

variable {workspace next : Workspace}

/-- The step of a command that prunes keeps every document that the command does not close. -/
theorem keepsBut_mutationOf {command : Command} (hprunes : command.Prunes) {mutation : Mutation}
    (hm : workspace.mutationOf command = .ok mutation) {new : Solution}
    (hnew : mutation.next workspace.current = .ok new) :
    Solution.KeepsBut command.forgets workspace.current new := by
  cases command with
  | addProject project =>
    obtain rfl := Except.ok.inj hm
    simp only at hnew
    split at hnew
    · contradiction
    · next habsent =>
      obtain rfl := Except.ok.inj hnew
      refine Solution.keepsBut_of_project
        (fun other hother => workspace.current.project?_derive_insert_of_ne hother project) ?_
      intro document found _ _ hfound
      exact absurd (Solution.containsProject_eq_true_iff.mpr ⟨found, hfound⟩) habsent
  | removeProject id =>
    obtain rfl := Except.ok.inj hm
    obtain ⟨-, rfl⟩ := Solution.withoutProject_eq_ok_iff.mp hnew
    refine Solution.keepsBut_of_project
      (fun other hother => workspace.current.project?_derive_erase_of_ne hother) ?_
    intro document project hid hgone
    exact absurd hid (of_decide_eq_false hgone)
  | addDocument document =>
    obtain rfl := Except.ok.inj hm
    exact Solution.keepsBut_of_withDocument hnew _
  | editDocument id =>
    obtain ⟨document, -, rfl⟩ := mutation_of_document hm
    obtain ⟨edited, -, hedit⟩ := Solution.withDocument_of_withEdit hnew
    exact Solution.keepsBut_of_withDocument hedit _
  | removeDocument id =>
    obtain ⟨document, -, rfl⟩ := mutation_of_document hm
    refine Solution.keepsBut_of_updateProject (fun project other hgone hcontains => ?_)
      (Solution.updateProject_of_withoutDocument hnew)
    have hne : id ≠ other := fun h => of_decide_eq_false hgone h.symm
    rw [Project.containsDocument_eq_true_iff] at hcontains ⊢
    rwa [project.document?_withoutDocument, if_neg hne]
  | clear => exact fun _ hgone => nomatch hgone
  | openDocument id | closeDocument id =>
    obtain rfl := Except.ok.inj hm
    obtain rfl := Except.ok.inj hnew
    exact fun _ _ hcontains => hcontains
  | changeProject | replace | apply => exact hprunes.elim

/-! ## Opening and closing -/

/-- The documents that are open once a document was opened or closed. -/
def opening (workspace : Workspace) (id : DocumentId) (isOpen : Bool) : List DocumentId :=
  if isOpen then id :: workspace.openDocuments else workspace.openDocuments.filter (· ≠ id)

/-- What is told when a document is opened or closed. -/
def openingEvent (workspace : Workspace) (id : DocumentId)
    (known : workspace.current.containsDocument id = true) (isOpen : Bool) : Event :=
  if isOpen then .opened ⟨workspace.current, id, known⟩ else .closed ⟨workspace.current, id, known⟩

/-- A document can be opened or closed when nobody is being told anything and the snapshot has it. That
is told if the document was not open or closed already. -/
theorem setOpen_eq_ok_iff {id : DocumentId} {isOpen : Bool} {told : Option Event} :
    workspace.setOpen id isOpen = .ok (next, told) ↔
      workspace.notifying = false ∧ ∃ known : workspace.current.containsDocument id = true,
        (workspace.isOpen id = isOpen ∧ next = workspace ∧ told = none) ∨
        (workspace.isOpen id ≠ isOpen ∧
          next = { workspace with openDocuments := workspace.opening id isOpen, notifying := true } ∧
          told = some (workspace.openingEvent id known isOpen)) := by
  unfold setOpen DocumentEvent.make
  by_cases hquiet : workspace.notifying = true
  · simp [hquiet]
  · by_cases known : workspace.current.containsDocument id = true
    · by_cases hopen : workspace.isOpen id = isOpen
      · simp [hquiet, known, hopen, bind, Except.bind, pure, Except.pure, eq_comm]
      · cases isOpen <;>
          simp [hquiet, known, hopen, bind, Except.bind, pure, Except.pure, eq_comm, opening, openingEvent]
    · simp [hquiet, known, bind, Except.bind]

/-- Every open document is in the current snapshot. -/
def OpenContained (workspace : Workspace) : Prop :=
  ∀ id, workspace.isOpen id = true → workspace.current.containsDocument id = true

/-- The command takes a document away that is open and leaves it open. -/
def Strands (workspace : Workspace) (command : Command) : Prop :=
  ¬command.Prunes ∧ ∃ id, workspace.isOpen id = true ∧
    (workspace.after command).current.containsDocument id = false

/-- In a new workspace nothing is open. -/
theorem openContained_initial (id : WorkspaceId) : (initial id).OpenContained :=
  fun _ hopen => nomatch hopen

/-- A document is open after a command if it was open and is not closed by it. -/
theorem isOpen_finish_iff {command : Command} {id : DocumentId} :
    (workspace.finish command).isOpen id = true ↔
      workspace.isOpen id = true ∧ command.forgets id = false := by
  rw [finish, isOpen, List.contains_iff_mem, List.mem_filter, isOpen, List.contains_iff_mem,
    Bool.not_eq_true']

/-- A document is open after it was opened, or if it was open before. -/
theorem isOpen_of_opening {id other : DocumentId} {isOpen : Bool}
    (h : { workspace with
      openDocuments := workspace.opening id isOpen, notifying := true }.isOpen other = true) :
    other = id ∨ workspace.isOpen other = true := by
  have hmem : other ∈ workspace.opening id isOpen := List.contains_iff_mem.mp h
  unfold opening at hmem
  split at hmem
  · exact (List.mem_cons.mp hmem).imp_right List.contains_iff_mem.mpr
  · exact .inr (List.contains_iff_mem.mpr (List.mem_filter.mp hmem).1)

/-- A command that prunes leaves the open documents contained. -/
theorem OpenContained.after_of_prunes (h : workspace.OpenContained) {command : Command}
    (hprunes : command.Prunes) : (workspace.after command).OpenContained := by
  rcases workspace.begin_cases command with ⟨-, hafter, -⟩ | ⟨next, event, hbegin, hafter, -⟩
  · rwa [hafter]
  · rw [hafter]
    intro id hafterwards
    obtain ⟨hopen, hgone⟩ := isOpen_finish_iff.mp hafterwards
    show next.current.containsDocument id = true
    cases command with
    | openDocument other | closeDocument other =>
      obtain ⟨-, known, ⟨-, -, htold⟩ | ⟨-, rfl, -⟩⟩ := setOpen_eq_ok_iff.mp hbegin
      · contradiction
      · rcases isOpen_of_opening hopen with rfl | hopen
        · exact known
        · exact h id hopen
    | addProject | removeProject | changeProject | addDocument | editDocument | removeDocument
    | clear | replace | apply =>
      obtain ⟨mutation, _, hm, happly, -⟩ := eq_of_mutation hbegin
      obtain ⟨new, _, _, _, hnew, rfl, -⟩ := eq_of_apply happly
      exact keepsBut_mutationOf hprunes hm hnew id hgone (h id hopen)

/-- A command that does not prune leaves open what is open. -/
theorem isOpen_after_of_not_prunes {command : Command} (hprunes : ¬command.Prunes)
    (id : DocumentId) : (workspace.after command).isOpen id = workspace.isOpen id := by
  rcases workspace.begin_cases command with ⟨-, hafter, -⟩ | ⟨next, event, hbegin, hafter, -⟩
  · rw [hafter]
  · rw [hafter]
    cases command with
    | changeProject | replace | apply =>
      obtain ⟨mutation, _, hm, happly, -⟩ := eq_of_mutation hbegin
      obtain ⟨new, _, _, _, hnew, rfl, -⟩ := eq_of_apply happly
      rw [Bool.eq_iff_iff, isOpen_finish_iff]
      exact and_iff_left rfl
    | openDocument | closeDocument | addProject | removeProject | addDocument | editDocument
    | removeDocument | clear => exact absurd trivial hprunes

/-- After a command the open documents are in the snapshot unless the command strands one. -/
theorem OpenContained.after_iff (h : workspace.OpenContained) (command : Command) :
    (workspace.after command).OpenContained ↔ ¬workspace.Strands command := by
  constructor
  · rintro hafter ⟨hprunes, id, hopen, hgone⟩
    rw [← isOpen_after_of_not_prunes hprunes] at hopen
    exact Bool.false_ne_true (hgone.symm.trans (hafter id hopen))
  · intro hstrands
    by_cases hprunes : command.Prunes
    · exact h.after_of_prunes hprunes
    · intro id hopen
      rw [isOpen_after_of_not_prunes hprunes] at hopen
      by_contra hgone
      exact hstrands ⟨hprunes, id, hopen, eq_false_of_ne_true hgone⟩

/-- While nobody is being told anything, a document that is open can be closed exactly if it is in the
snapshot. -/
theorem closes_iff (hquiet : workspace.notifying = false) {id : DocumentId}
    (hopen : workspace.isOpen id = true) :
    (∃ closed event, workspace.begin (.closeDocument id) = .ok (closed, some event)) ↔
      workspace.current.containsDocument id = true := by
  constructor
  · rintro ⟨closed, event, hbegin⟩
    obtain ⟨-, known, -⟩ := setOpen_eq_ok_iff.mp hbegin
    exact known
  · intro known
    have hchanges : workspace.isOpen id ≠ false := by rw [hopen]; exact Bool.noConfusion
    exact ⟨_, _, setOpen_eq_ok_iff.mpr ⟨hquiet, known, .inr ⟨hchanges, rfl, rfl⟩⟩⟩

/-- A workspace is asked for one thing after another. The open documents are in its snapshot at every
point, so that each of them can be closed, exactly if nothing that it was asked strands one. -/
theorem openDocuments_contained_iff (id : WorkspaceId) (commands : List Command) :
    (∀ done later, commands = done ++ later → (done.foldl after (initial id)).OpenContained) ↔
      ∀ done command later, commands = done ++ command :: later →
        ¬(done.foldl after (initial id)).Strands command :=
  holds_throughout_iff (P := OpenContained) (fun _ command h => h.after_iff command)
    (openContained_initial id) commands

/-- A document is opened, and then its project is changed into one that lacks it. It is open and not in
the snapshot, and it cannot be closed. -/
theorem stranded_by_update :
    let id : DocumentId := ⟨⟨1⟩, 1⟩
    let project : Project := { id := ⟨1⟩, config := .named "P1" }
    let workspace := [.addProject project, .addDocument { id := id, name := "a.cs" },
      .openDocument id, .changeProject ⟨1⟩ (Patch.apply { removed := [id] })].foldl after (initial ⟨7⟩)
    workspace.isOpen id = true ∧ workspace.current.containsDocument id = false ∧
      ¬∃ closed event, workspace.begin (.closeDocument id) = .ok (closed, some event) := by
  intro id project workspace
  have hopen : workspace.isOpen id = true := by decide +kernel
  have hgone : workspace.current.containsDocument id = false := by decide +kernel
  have hquiet : workspace.notifying = false := by decide +kernel
  refine ⟨hopen, hgone, fun hcloses => ?_⟩
  exact Bool.false_ne_true (hgone.symm.trans ((closes_iff hquiet hopen).mp hcloses))

end Workspace

end SolutionWatch
