import SolutionWatch.Proofs.Workspace.Opening

/-!
# What a workspace answers and tells

A workspace that is telling its observers something refuses whatever it is asked
(`Workspace.begin_of_notifying`). One that is not does what it is asked or says what is wrong with that,
and it never takes the asker for an observer (`Workspace.eq_apply_of_reentrant`). Everything that it does
is told, by one event: a change leads from the current snapshot to the next one, and a document is
opened or closed in the current snapshot (`Workspace.answers_of_begin`). So what is told in a row is
unbroken: each change starts from the snapshot at which the one before it ended (`Unbroken`).
-/

namespace SolutionWatch

/-- The events lead from one snapshot to another: each change starts where the one before it ended, and
a document is opened or closed in the snapshot that is current then. -/
def Unbroken : Solution → List Event → Solution → Prop
  | first, [], last => first = last
  | first, .changed change :: later, last => change.old = first ∧ Unbroken change.new later last
  | first, .opened event :: later, last | first, .closed event :: later, last =>
    event.solution = first ∧ Unbroken first later last

/-- Events that go on where others ended are unbroken together with them. -/
theorem Unbroken.append {first middle last : Solution} {events later : List Event}
    (h : Unbroken first events middle) (hlater : Unbroken middle later last) :
    Unbroken first (events ++ later) last := by
  fun_induction Unbroken first events middle with
  | case1 => exact h ▸ hlater
  | case2 _ _ _ _ ih | case3 _ _ _ _ ih | case4 _ _ _ _ ih => exact ⟨h.1, ih h.2 hlater⟩

namespace Solution

variable {solution : Solution}

/-- Requiring a document fails only because the snapshot does not contain it. -/
theorem requireDocument_cases (solution : Solution) (id : DocumentId) :
    (∃ document, solution.requireDocument id = .ok document ∧
        solution.containsDocument id = true) ∨
      (solution.requireDocument id = .error (.documentNotFound id) ∧
        solution.containsDocument id = false) := by
  unfold requireDocument containsDocument
  cases solution.document? id with
  | some document => exact .inl ⟨document, rfl, rfl⟩
  | none => exact .inr ⟨rfl, rfl⟩

/-- Updating a project fails only because the snapshot does not contain it. -/
theorem eq_of_updateProject_error {id : ProjectId} {update : Project → Project} {failure : Failure}
    (h : solution.updateProject id update = .error failure) : failure = .projectNotFound id := by
  unfold updateProject requireProject at h
  cases hproject : solution.project? id with
  | some project =>
    rw [hproject] at h
    contradiction
  | none =>
    rw [hproject] at h
    exact (Except.error.inj h).symm

/-- Editing a document fails only because the snapshot lacks the document or its project. -/
theorem eq_of_withEdit_error {id : DocumentId} {failure : Failure}
    (h : solution.withEdit id = .error failure) :
    failure = .documentNotFound id ∨ ∃ project, failure = .projectNotFound project := by
  unfold withEdit withVersion at h
  rcases solution.requireDocument_cases id with ⟨document, hd, -⟩ | ⟨hd, -⟩
  · rw [hd] at h
    exact .inr ⟨_, eq_of_updateProject_error h⟩
  · rw [hd] at h
    exact .inl (Except.error.inj h).symm

/-- Removing a document fails only because the snapshot lacks the document or its project. -/
theorem eq_of_withoutDocument_error {id : DocumentId} {failure : Failure}
    (h : solution.withoutDocument id = .error failure) :
    failure = .documentNotFound id ∨ ∃ project, failure = .projectNotFound project := by
  unfold withoutDocument at h
  rcases solution.requireDocument_cases id with ⟨document, hd, -⟩ | ⟨hd, -⟩
  · rw [hd] at h
    exact .inr ⟨_, eq_of_updateProject_error h⟩
  · rw [hd] at h
    exact .inl (Except.error.inj h).symm

end Solution

/-- A change is never refused because of who asks for it. -/
theorem Change.make_ne_reentrant (kind : ChangeKind) (old new : Solution)
    (project : Option ProjectId) (document : Option DocumentId) (sharing : Solution.Sharing old new) :
    make kind old new project document sharing ≠ .error .reentrantMutation := by
  unfold make
  split
  · split
    · split <;> simp
    · simp
  · simp

/-- The document that a command opens or closes, and which of the two it does. -/
def Command.opening? : Command → Option (DocumentId × Bool)
  | .openDocument id => some (id, true)
  | .closeDocument id => some (id, false)
  | _ => none

namespace Workspace

variable {workspace next : Workspace}

/-- Why a workspace that is telling its observers something refuses a command. The document of an edit
or a removal is looked up first. -/
def refusal (workspace : Workspace) : Command → Failure
  | .editDocument id | .removeDocument id =>
    if workspace.current.containsDocument id then .reentrantMutation else .documentNotFound id
  | _ => .reentrantMutation

/-- A step is refused while observers are told something. -/
theorem apply_of_notifying (hnotifying : workspace.notifying = true) (mutation : Mutation) :
    workspace.apply mutation = .error .reentrantMutation := if_pos hnotifying

/-- A workspace that is telling its observers something refuses every command. -/
theorem begin_of_notifying (hnotifying : workspace.notifying = true) (command : Command) :
    workspace.begin command = .error (workspace.refusal command) := by
  cases command with
  | openDocument id | closeDocument id => exact if_pos hnotifying
  | editDocument id | removeDocument id =>
    rcases workspace.current.requireDocument_cases id with ⟨document, hd, hcontains⟩ | ⟨hd, hcontains⟩
    · simp only [begin, mutationOf, hd, bind, Except.bind, pure, Except.pure,
        apply_of_notifying hnotifying, refusal, hcontains, if_true]
    · simp only [begin, mutationOf, hd, bind, Except.bind, refusal, hcontains, Bool.false_eq_true,
        if_false]
  | addProject | removeProject | changeProject | addDocument | clear | replace | apply =>
    simp only [begin, mutationOf, bind, Except.bind, apply_of_notifying hnotifying, refusal]

/-- While nobody is being told anything, a step takes the asker for an observer only if what it steps to
says so. -/
theorem next_of_reentrant_apply (hquiet : workspace.notifying = false) {mutation : Mutation}
    (h : workspace.apply mutation = .error .reentrantMutation) :
    mutation.next workspace.current = .error .reentrantMutation := by
  rw [apply, hquiet, if_neg Bool.false_ne_true] at h
  cases hnext : mutation.next workspace.current with
  | error failure =>
    rw [hnext] at h
    exact congrArg Except.error (Except.error.inj h)
  | ok new =>
    rw [hnext] at h
    cases hchange : Change.make mutation.kind workspace.current new mutation.project
        mutation.document .separate with
    | error failure =>
      simp only [bind, Except.bind, hchange] at h
      rw [Except.error.inj h] at hchange
      exact absurd hchange (Change.make_ne_reentrant _ _ _ _ _ _)
    | ok change =>
      simp only [bind, Except.bind, hchange] at h
      contradiction

/-- While nobody is being told anything, nobody is taken for an observer who opens or closes a document. -/
theorem setOpen_ne_reentrant (hquiet : workspace.notifying = false) (id : DocumentId) (isOpen : Bool) :
    workspace.setOpen id isOpen ≠ .error .reentrantMutation := by
  unfold setOpen DocumentEvent.make
  rw [hquiet, if_neg Bool.false_ne_true]
  by_cases known : workspace.current.containsDocument id = true
  · simp only [known, dite_true, bind, Except.bind]
    split
    · simp [pure, Except.pure]
    · split <;> simp [pure, Except.pure]
  · simp [known, bind, Except.bind]

/-- Looking for the step of a command takes nobody for an observer. -/
theorem mutationOf_ne_reentrant (workspace : Workspace) (command : Command) :
    workspace.mutationOf command ≠ .error .reentrantMutation := by
  cases command with
  | editDocument id | removeDocument id =>
    rcases workspace.current.requireDocument_cases id with ⟨document, hd, -⟩ | ⟨hd, -⟩ <;>
      simp [mutationOf, hd, bind, Except.bind, pure, Except.pure]
  | addProject | removeProject | changeProject | addDocument | clear | replace | apply | openDocument
  | closeDocument => nofun

/-- The step of a command takes nobody for an observer, unless it is the asker's own. -/
theorem eq_apply_of_reentrant_step {command : Command} {mutation : Mutation}
    (hm : workspace.mutationOf command = .ok mutation) {solution : Solution}
    (hnext : mutation.next solution = .error .reentrantMutation) :
    ∃ kind project document next, command = .apply kind project document next ∧
      next solution = .error .reentrantMutation := by
  cases command with
  | apply kind project document next =>
    obtain rfl := Except.ok.inj hm
    exact ⟨kind, project, document, next, rfl, hnext⟩
  | addProject project =>
    obtain rfl := Except.ok.inj hm
    simp only at hnext
    split at hnext
    · exact nomatch Except.error.inj hnext
    · contradiction
  | removeProject id =>
    obtain rfl := Except.ok.inj hm
    simp only [Solution.withoutProject] at hnext
    split at hnext
    · contradiction
    · exact nomatch Except.error.inj hnext
  | changeProject | addDocument =>
    obtain rfl := Except.ok.inj hm
    exact nomatch Solution.eq_of_updateProject_error hnext
  | editDocument id =>
    obtain ⟨_, -, rfl⟩ := mutation_of_document hm
    obtain hnone | ⟨_, hnone⟩ := Solution.eq_of_withEdit_error hnext <;> contradiction
  | removeDocument id =>
    obtain ⟨_, -, rfl⟩ := mutation_of_document hm
    obtain hnone | ⟨_, hnone⟩ := Solution.eq_of_withoutDocument_error hnext <;> contradiction
  | clear | replace | openDocument | closeDocument =>
    obtain rfl := Except.ok.inj hm
    contradiction

/-- A workspace that is not telling anybody anything does not take the asker for an observer, unless it
is asked for a step of the asker's own that says so. -/
theorem eq_apply_of_reentrant (hquiet : workspace.notifying = false) {command : Command}
    (h : workspace.begin command = .error .reentrantMutation) :
    ∃ kind project document next, command = .apply kind project document next ∧
      next workspace.current = .error .reentrantMutation := by
  cases command with
  | openDocument id | closeDocument id => exact absurd h (setOpen_ne_reentrant hquiet id _)
  | addProject | removeProject | changeProject | addDocument | editDocument | removeDocument | clear
  | replace | apply =>
    rw [begin] at h
    · cases hm : workspace.mutationOf _ with
      | error failure =>
        rw [hm] at h
        rw [Except.error.inj h] at hm
        exact absurd hm (workspace.mutationOf_ne_reentrant _)
      | ok mutation =>
        rw [hm] at h
        cases happly : workspace.apply mutation with
        | error failure =>
          simp only [bind, Except.bind, happly] at h
          rw [Except.error.inj h] at happly
          exact eq_apply_of_reentrant_step hm (next_of_reentrant_apply hquiet happly)
        | ok result =>
          simp only [bind, Except.bind, happly] at h
          contradiction
    all_goals nofun

/-- What a workspace that does what it is asked makes of itself and tells. -/
inductive Answers (workspace : Workspace) (command : Command) (next : Workspace) :
    Option Event → Prop
  /-- It moves to its next snapshot and tells so. -/
  | moves (change : Change) : command.opening? = none → change.old = workspace.current →
      change.new = next.current → Answers workspace command next (some (.changed change))
  /-- It opens or closes a document and tells so. -/
  | turns (id : DocumentId) (isOpen : Bool) (known : workspace.current.containsDocument id = true) :
      command.opening? = some (id, isOpen) → workspace.isOpen id ≠ isOpen → next.isOpen id = isOpen →
      next.current = workspace.current →
      Answers workspace command next (some (workspace.openingEvent id known isOpen))
  /-- The document is open or closed already, and there is nothing to tell. -/
  | rests (id : DocumentId) (isOpen : Bool) : command.opening? = some (id, isOpen) →
      workspace.isOpen id = isOpen → next = workspace → Answers workspace command next none

/-- A document that was opened is open, and one that was closed is not. -/
theorem isOpen_opening (workspace : Workspace) (id : DocumentId) (isOpen notifying : Bool) :
    { workspace with openDocuments := workspace.opening id isOpen, notifying := notifying }.isOpen id =
      isOpen := by
  cases isOpen <;> simp [Workspace.isOpen, opening]

/-- A workspace answers what it begins to do. -/
theorem answers_of_begin {command : Command} {told : Option Event}
    (hbegin : workspace.begin command = .ok (next, told)) : workspace.Answers command next told := by
  cases command with
  | openDocument id | closeDocument id =>
    obtain ⟨-, known, ⟨hopen, rfl, rfl⟩ | ⟨hopen, rfl, rfl⟩⟩ := setOpen_eq_ok_iff.mp hbegin
    · exact .rests id _ rfl hopen rfl
    · exact .turns id _ known rfl hopen (workspace.isOpen_opening id _ _) rfl
  | addProject | removeProject | changeProject | addDocument | editDocument | removeDocument | clear
  | replace | apply =>
    obtain ⟨mutation, event, -, happly, rfl⟩ := eq_of_mutation hbegin
    obtain ⟨new, hw, hp, hd, -, rfl, rfl⟩ := eq_of_apply happly
    exact .moves _ rfl rfl rfl

/-- What a workspace that begins to tell an event has become. -/
structure Raises (workspace next : Workspace) (event : Event) : Prop where
  /-- Nobody was being told anything. -/
  quiet : workspace.notifying = false
  /-- Observers are to be told something. -/
  notifying : next.notifying = true
  /-- The workspace is the same. -/
  id : next.id = workspace.id
  /-- Nobody came or went. -/
  subscriptions : next.subscriptions = workspace.subscriptions
  /-- The next subscription gets the number that it was to get. -/
  nextSubscription : next.nextSubscription = workspace.nextSubscription
  /-- The event leads from the one snapshot to the other. -/
  unbroken : Unbroken workspace.current [event] next.current

/-- A workspace that begins to tell an event changes nothing but its snapshot and its open documents. -/
theorem raises_of_begin {command : Command} {event : Event}
    (hbegin : workspace.begin command = .ok (next, some event)) : workspace.Raises next event := by
  have hquiet : workspace.notifying = false := by
    by_contra hnotifying
    rw [begin_of_notifying (eq_true_of_ne_false hnotifying)] at hbegin
    contradiction
  cases command with
  | openDocument id | closeDocument id =>
    obtain ⟨-, known, ⟨-, -, htold⟩ | ⟨-, rfl, htold⟩⟩ := setOpen_eq_ok_iff.mp hbegin
    · contradiction
    · obtain rfl := Option.some.inj htold
      exact ⟨hquiet, rfl, rfl, rfl, rfl, rfl, rfl⟩
  | addProject | removeProject | changeProject | addDocument | editDocument | removeDocument | clear
  | replace | apply =>
    obtain ⟨mutation, told, -, happly, htold⟩ := eq_of_mutation hbegin
    obtain rfl := Option.some.inj htold
    obtain ⟨new, hw, hp, hd, -, rfl, rfl⟩ := eq_of_apply happly
    exact ⟨hquiet, rfl, rfl, rfl, rfl, rfl, rfl⟩

end Workspace

end SolutionWatch
