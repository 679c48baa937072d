import SolutionWatch.Proofs.Workspace.Agreement

/-!
# The events of a workspace miss no change

However a workspace came from one snapshot to another, every difference between the two is reached by
an item of an event that was raised on the way (`Workspace.changes_reached`). The item of the whole
solution reaches everything, that of a project reaches the project and its documents, and that of a
document reaches the document.

A step tells everything that differs between its two snapshots (`Workspace.tellsAll_of_begin`). For
most commands that is so because the event comes to the comparison of the snapshots. Clearing tells the
whole solution. A document that was added in the place of another tells its own item or that of its
project, and as long as it keeps its kind, nothing else can differ. Steps are put together by going
through the snapshot in between: what differs between the ends differs in a step, or its project does
(`Solution.Touches.trans`), and reaching is transitive (`Scope.Reaches.trans`).
-/

namespace SolutionWatch

/-- Looking at the one scope looks at the other: it is the whole solution, the same scope, or the
project of the document. -/
def Scope.Reaches (other scope : Scope) : Prop := other = .solution ∨ other.Covers scope

/-- What reaches a scope reaches what that one covers. -/
theorem Scope.Reaches.trans {a b c : Scope} (hab : a.Reaches b) (hbc : b.Covers c) : a.Reaches c := by
  rcases hbc with rfl | ⟨id, rfl, rfl⟩
  · exact hab
  · rcases hab with rfl | rfl | ⟨other, hother, -⟩
    · exact .inl rfl
    · exact .inr (.inr ⟨id, rfl, rfl⟩)
    · contradiction

/-- A command that keeps projects under their own identities, reports what it does, and adds no
document in the place of one of another kind. -/
structure Command.TracedAt (solution : Solution) (command : Command) : Prop where
  /-- The command is faithful. -/
  faithful : command.Faithful
  /-- A document that is added keeps the kind that it has, if the solution has it. -/
  keepsKind : ∀ document, command = .addDocument document →
    ∀ d, solution.document? document.id = some d → d.kind = document.kind

/-- A step from one snapshot to another of the same workspace whose event reaches whatever differs. -/
structure Event.TellsAll (event : Event) (old new : Solution) : Prop where
  /-- The new snapshot is filed. -/
  filed : new.Filed
  /-- The new snapshot belongs to the workspace of the old one. -/
  sameWorkspace : old.workspace = new.workspace
  /-- The event comes to items that reach whatever differs. -/
  reaches : ∃ items, event.diff = .ok items ∧
    ∀ scope, Solution.Touches old new scope → ∃ item ∈ items, item.scope.Reaches scope

namespace Solution

variable {old new : Solution}

/-- Nothing differs between a snapshot and itself. -/
theorem not_touches_self (solution : Solution) (scope : Scope) :
    ¬Touches solution solution scope := by
  rintro ⟨item, h, -⟩
  obtain ⟨id, -, hdiffer⟩ := h.exists_home
  exact hdiffer rfl

/-- What differs between two snapshots that agree but for one document is an item of its project. -/
theorem AgreeBut.exists_mem_diff {id : DocumentId} {before after : Project}
    (h : AgreeBut id old new before after) (ho : old.Filed) (hn : new.Filed) {scope : Scope}
    (htouches : Touches old new scope) :
    ∃ item ∈ Project.diff old new before after, item.scope = scope := by
  obtain ⟨item, hitem, hscope⟩ := htouches
  refine ⟨item, ?_, hscope⟩
  rw [← structuralDiff_eq_diff ho hn .separate h.foundBefore h.foundAfter h.elsewhere,
    mem_structuralDiff_iff ho hn]
  exact hitem

/-- Two snapshots that agree but for a source document can differ in the document only. -/
theorem AgreeBut.eq_of_touches_source {id : DocumentId} {before after : Project}
    (h : AgreeBut id old new before after) (ho : old.Filed) (hn : new.Filed)
    (hbefore : before.FindsOnly id (· = .source)) (hafter : after.FindsOnly id (· = .source))
    {scope : Scope} (htouches : Touches old new scope) : scope = .document id := by
  obtain ⟨item, hitem, rfl⟩ := h.exists_mem_diff ho hn htouches
  rcases (h.project.mem_diff_of_source hbefore hafter).mp hitem with ⟨-, rfl⟩ | ⟨-, rfl⟩ | ⟨-, rfl⟩
    <;> rfl

/-- Two snapshots that agree but for a document that is not a source document can differ in its
project only. -/
theorem AgreeBut.eq_of_touches_nonSource {id : DocumentId} {before after : Project}
    (h : AgreeBut id old new before after) (ho : old.Filed) (hn : new.Filed)
    (hbefore : before.FindsOnly id (· ≠ .source)) (hafter : after.FindsOnly id (· ≠ .source))
    {scope : Scope} (htouches : Touches old new scope) : scope = .project id.project := by
  obtain ⟨item, hitem, rfl⟩ := h.exists_mem_diff ho hn htouches
  obtain ⟨-, rfl⟩ := (h.project.mem_diff_of_nonSource hbefore hafter).mp hitem
  exact congrArg Scope.project (hn.id_of_project? h.foundAfter)

end Solution

namespace Mutation

/-- The event of a mutation has items that reach whatever differs between its snapshots. -/
def TellsAllAt (mutation : Mutation) (old : Solution) : Prop :=
  ∀ new, mutation.next old = .ok new → ∀ hw hp hd,
    Event.TellsAll (.changed ⟨mutation.kind, old, new,
      mutation.project.or (mutation.document.map DocumentId.project), mutation.document, .separate,
      hw, hp, hd⟩) old new

variable {old : Solution}

/-- An event that comes to the comparison of the snapshots has every item. -/
theorem tellsAllAt_of_agreesAt (ho : old.Filed) {mutation : Mutation}
    (hfiled : ∀ new, mutation.next old = .ok new → new.Filed) (h : mutation.AgreesAt old) :
    mutation.TellsAllAt old := by
  intro new hnew hw hp hd
  have hn := hfiled new hnew
  have hitems := (h new hnew hw hp hd).trans (Solution.diff_eq_ok_structuralDiff .separate hw ho)
  refine ⟨hn, hw, _, hitems, ?_⟩
  rintro scope ⟨item, hitem, rfl⟩
  exact ⟨item, (Solution.mem_structuralDiff_iff ho hn).mpr hitem, .inr (.inl rfl)⟩

/-- Removing every project tells the whole solution. -/
theorem tellsAllAt_clear (old : Solution) :
    TellsAllAt ⟨.solution .cleared, none, none, fun old => .ok old.cleared⟩ old := by
  intro new hnew hw hp hd
  obtain rfl := Except.ok.inj hnew
  exact ⟨old.filed_cleared, hw, _, rfl, fun scope _ => ⟨_, List.mem_cons_self, .inl rfl⟩⟩

/-- A document that was added, in the place of one of its kind or of none, tells its own item if it is a
source document, and else the item of its project. -/
theorem tellsAllAt_documentAdded (ho : old.Filed) {document : Document}
    (hkind : ∀ d, old.document? document.id = some d → d.kind = document.kind) :
    (ofDocument document.kind .added document.id fun old => old.withDocument document).TellsAllAt
      old := by
  intro new hnew hw hp hd
  have hn := ho.withDocument hnew
  obtain ⟨before, after, hagree⟩ := Solution.agreeBut_withDocument hnew
  -- On both sides the identity finds documents of the one kind only.
  have hbefore : ∀ P : DocumentKind → Prop, P document.kind → before.FindsOnly document.id P := by
    intro P hP d hd
    rw [hagree.document?_before] at hd
    exact hkind d hd ▸ hP
  have hafter : ∀ P : DocumentKind → Prop, P document.kind → after.FindsOnly document.id P := by
    intro P hP
    refine Project.findsOnly_of_some ?_ hP
    rw [hagree.document?_after, ho.document?_withDocument hnew]
  refine ⟨hn, hw, ?_⟩
  generalize document.kind = kind at hp hd hbefore hafter
  cases kind with
  | source =>
    refine ⟨_, rfl, fun scope htouches => ⟨_, List.mem_cons_self, ?_⟩⟩
    rw [hagree.eq_of_touches_source ho hn (hbefore _ rfl) (hafter _ rfl) htouches]
    exact .inr (.inl rfl)
  | additional | analyzerConfig =>
    refine ⟨_, rfl, fun scope htouches => ⟨_, List.mem_cons_self, ?_⟩⟩
    rw [hagree.eq_of_touches_nonSource ho hn (hbefore _ nofun) (hafter _ nofun) htouches]
    exact .inr (.inl rfl)

end Mutation

namespace Workspace

variable {start workspace next last : Workspace} {events : List Event}

/-- The step of a traced command tells everything. -/
theorem tellsAllAt_mutationOf (hfiled : workspace.current.Filed) {command : Command}
    (hcommand : command.TracedAt workspace.current) {mutation : Mutation}
    (hm : workspace.mutationOf command = .ok mutation) : mutation.TellsAllAt workspace.current := by
  -- Where the event comes to the comparison, nothing is left to be shown.
  have hstructural : command.StructuralAt workspace.current →
      mutation.TellsAllAt workspace.current := by
    intro h
    refine Mutation.tellsAllAt_of_agreesAt hfiled ?_ (agreesAt_mutationOf hfiled h hm)
    exact fun new hnew => (soundAt_mutationOf hfiled hcommand.faithful hm new hnew).1
  cases command with
  | addProject | removeProject | replace | editDocument | removeDocument => exact hstructural trivial
  | changeProject id update => exact hstructural hcommand.faithful
  | addDocument document =>
    obtain rfl := Except.ok.inj hm
    exact Mutation.tellsAllAt_documentAdded hfiled (hcommand.keepsKind document rfl)
  | clear =>
    obtain rfl := Except.ok.inj hm
    exact Mutation.tellsAllAt_clear workspace.current
  | apply => exact hcommand.faithful.elim
  | openDocument | closeDocument =>
    obtain rfl := Except.ok.inj hm
    refine Mutation.tellsAllAt_of_agreesAt hfiled ?_ fun _ _ _ _ _ => rfl
    exact fun new hnew => Except.ok.inj hnew ▸ hfiled

/-- A document that is opened or closed tells so, and nothing differs. -/
theorem tellsAll_of_setOpen (hfiled : workspace.current.Filed) {id : DocumentId} {isOpen : Bool}
    {event : Event} (hset : workspace.setOpen id isOpen = .ok (next, some event)) :
    event.TellsAll workspace.current next.current := by
  obtain ⟨-, known, ⟨-, hnone⟩ | ⟨documents, told, rfl, htold, hevent⟩⟩ := eq_of_setOpen hset
  · contradiction
  · obtain rfl := Option.some.inj htold
    have hdiff : ∃ items, event.diff = .ok items := by
      rcases hevent with rfl | rfl <;> exact ⟨_, rfl⟩
    obtain ⟨items, hitems⟩ := hdiff
    refine ⟨hfiled, rfl, items, hitems, fun scope htouches => ?_⟩
    exact absurd htouches (Solution.not_touches_self workspace.current scope)

/-- A traced command that raises an event tells everything that differs between the snapshot before and
the snapshot after. -/
theorem tellsAll_of_begin (hfiled : workspace.current.Filed) {command : Command}
    (hcommand : command.TracedAt workspace.current) {event : Event}
    (hbegin : workspace.begin command = .ok (next, some event)) :
    event.TellsAll workspace.current next.current := by
  cases command with
  | openDocument id => exact tellsAll_of_setOpen hfiled hbegin
  | closeDocument id => exact tellsAll_of_setOpen hfiled hbegin
  | addProject | removeProject | changeProject | addDocument | editDocument | removeDocument | clear
  | replace | apply =>
    obtain ⟨mutation, told, hm, happly, htold⟩ := eq_of_mutation hbegin
    obtain rfl := Option.some.inj htold
    obtain ⟨new, hw, hp, hd, hnew, rfl, rfl⟩ := eq_of_apply happly
    exact tellsAllAt_mutationOf hfiled hcommand hm new hnew hw hp hd

/-- The workspaces that come from one by traced commands, with the events that were raised on the
way. A command may fail, and the notification of one that does not may be cut short by an observer that
breaks down. -/
inductive Course (start : Workspace) : List Event → Workspace → Prop
  /-- Nothing was asked for yet. -/
  | start : Course start [] start
  /-- A command is carried out, or fails. -/
  | command {events : List Event} {workspace : Workspace} {command : Command} :
      Course start events workspace → command.TracedAt workspace.current →
        Course start (events ++ workspace.raisedBy command) (workspace.after command)
  /-- A command is begun, and an observer breaks down. -/
  | interrupted {events : List Event} {workspace next : Workspace} {command : Command}
      {event : Event} :
      Course start events workspace → command.TracedAt workspace.current →
        workspace.begin command = .ok (next, some event) →
        Course start (events ++ [event]) next.interrupt

/-- What the events of a course come to, and that it reaches whatever differs between the ends. -/
structure Traced (start : Workspace) (events : List Event) (last : Workspace) : Prop where
  /-- The last snapshot is filed. -/
  filed : last.current.Filed
  /-- The last snapshot belongs to the workspace of the first one. -/
  sameWorkspace : start.current.workspace = last.current.workspace
  /-- The events come to items that reach whatever differs. -/
  reaches : ∃ lists, events.mapM Event.diff = .ok lists ∧
    ∀ scope, Solution.Touches start.current last.current scope →
      ∃ item ∈ lists.flatten, item.scope.Reaches scope

/-- One more event, which tells everything about the step that raised it. -/
theorem Traced.append (h : Traced start events workspace) {event : Event}
    (htells : event.TellsAll workspace.current next.current) :
    Traced start (events ++ [event]) next := by
  obtain ⟨lists, hlists, hbefore⟩ := h.reaches
  obtain ⟨items, hitems, hstep⟩ := htells.reaches
  refine ⟨htells.filed, h.sameWorkspace.trans htells.sameWorkspace, lists ++ [items], ?_, ?_⟩
  · rw [List.mapM_append, hlists, List.mapM_cons, hitems]
    rfl
  · intro scope htouches
    rw [List.flatten_append, List.flatten_singleton]
    -- What differs between the ends differs before the step or in it.
    obtain ⟨other, hcovers, hother | hother⟩ := htouches.trans (b := workspace.current)
    · obtain ⟨item, hitem, hreaches⟩ := hbefore other hother
      exact ⟨item, List.mem_append_left _ hitem, hreaches.trans hcovers⟩
    · obtain ⟨item, hitem, hreaches⟩ := hstep other hother
      exact ⟨item, List.mem_append_right _ hitem, hreaches.trans hcovers⟩

/-- The events of a course reach whatever differs between its ends. -/
theorem Course.traced (h : Course start events last) (hfiled : start.current.Filed) :
    Traced start events last := by
  induction h with
  | start =>
    refine ⟨hfiled, rfl, [], rfl, fun scope htouches => ?_⟩
    exact absurd htouches (Solution.not_touches_self start.current scope)
  | @command events workspace command _ hcommand ih =>
    rcases workspace.begin_cases command with ⟨-, hafter, hraised⟩ | ⟨next, event, hbegin, hafter, hraised⟩
    · rw [hafter, hraised, List.append_nil]
      exact ih
    · rw [hafter, hraised]
      have htells := tellsAll_of_begin ih.filed hcommand hbegin
      exact ih.append htells
  | interrupted _ hcommand hbegin ih =>
    have htells := tellsAll_of_begin ih.filed hcommand hbegin
    exact ih.append htells

/-- Whatever course a workspace takes, the comparison of its first snapshot with its last one exists,
every event that it raised comes to a list of items, and each item of the comparison is reached by an
item of an event. -/
theorem changes_reached (hcourse : Course start events last) (hfiled : start.current.Filed)
    (sharing : Solution.Sharing start.current last.current) :
    ∃ direct lists, Solution.diff start.current last.current sharing = .ok direct ∧
      events.mapM Event.diff = .ok lists ∧
      ∀ item ∈ direct, ∃ other ∈ lists.flatten, other.scope.Reaches item.scope := by
  obtain ⟨hlast, hw, lists, hlists, hreaches⟩ := hcourse.traced hfiled
  refine ⟨_, lists, Solution.diff_eq_ok_structuralDiff sharing hw hfiled, hlists, ?_⟩
  intro item hitem
  exact hreaches item.scope ⟨item, (Solution.mem_structuralDiff_iff hfiled hlast).mp hitem, rfl⟩

/-- The first document of the generated solution is edited. -/
def editFirst : Command := .editDocument (Fixture.documentId 0 0)

/-- The second document of the generated solution is added once more, in a later version. -/
def readdSecond : Command := .addDocument { Fixture.sourceDocument 0 1 with version := 7 }

/-- A document is edited, and another one is added in its own place: the events reach both. -/
theorem changes_reached_of_readded :
    let middle := ofTwoProjects.after editFirst
    let last := middle.after readdSecond
    let events := ofTwoProjects.raisedBy editFirst ++ middle.raisedBy readdSecond
    Course ofTwoProjects events last ∧ ofTwoProjects.current.Filed ∧
      ∀ sharing, ∃ direct lists,
        Solution.diff ofTwoProjects.current last.current sharing = .ok direct ∧
          events.mapM Event.diff = .ok lists ∧
          ∀ item ∈ direct, ∃ other ∈ lists.flatten, other.scope.Reaches item.scope := by
  intro middle last events
  have hedit : editFirst.TracedAt ofTwoProjects.current := ⟨trivial, nofun⟩
  have hsecond : middle.current.document? (Fixture.documentId 0 1) =
      some (Fixture.sourceDocument 0 1) := by decide +kernel
  have hreadd : readdSecond.TracedAt middle.current := by
    refine ⟨trivial, fun document hdocument d hd => ?_⟩
    obtain rfl := Command.addDocument.inj hdocument
    rw [Option.some.inj (hsecond.symm.trans hd)]
  have hcourse : Course ofTwoProjects events last := (Course.start.command hedit).command hreadd
  exact ⟨hcourse, by decide, changes_reached hcourse (by decide)⟩

end Workspace

end SolutionWatch
