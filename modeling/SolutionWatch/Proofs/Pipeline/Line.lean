import SolutionWatch.Proofs.Pipeline.Progress
import SolutionWatch.Proofs.Queue.Effects
import SolutionWatch.Proofs.Workspace.Answers

/-!
# A line to the workers

A line is a registry that dispatchers share with workers, and the one listener through which anything is
filed in it. What the registry finds is therefore what it began with or what an item had filed. There may
be any number of workspaces, dispatchers, hosts and workers on the line, and what the workers' services
reply is left open: they may fail, break down, or cancel a token.

`Line.Orderly` is what holds of a session with a line, at any moment: the listener has one errand at
most, and while there is a call that its worker has not looked at, the errand waits for just that call,
or it is about to find out that its token is cancelled. So nothing is filed before the worker has looked,
and the registry still has the snapshot that the call asks for.

This module says that whatever is not the turn of an errand, a call or the listener's keeper leaves a
line orderly: waking and clocks, cancelled tokens, queues of numbers, workers that stop, hosts that
change their workers, what is let go of, and the commands of workspaces.
-/

namespace SolutionWatch

/-- The call to a worker that asks for an item to be looked at, in a snapshot of the item's fingerprint. -/
def WorkItem.posted (item : WorkItem) : Request Address :=
  ⟨.fingerprint item.solution.fingerprint, item.operation⟩

/-- A workspace with a filed snapshot of its own, which only listeners observe. -/
structure WorkspaceState.Watched (state : WorkspaceState) : Prop where
  /-- The snapshot is filed. -/
  filed : state.workspace.current.Filed
  /-- The snapshot belongs to the workspace. -/
  own : state.workspace.current.workspace = state.workspace.id
  /-- Its observers are listeners. -/
  observers : ∀ e ∈ state.observers.entries, ∃ handle, e.2 = .listener handle

/-- A keeper that neither took anything in nor handed anything out. -/
structure Keeper.Steady (before after : Keeper Event) : Prop where
  /-- It has the token that it had. -/
  token : after.token = before.token
  /-- What waited still waits. -/
  pending : after.queue.pending = before.queue.pending
  /-- If a batch is worked on, it still is. -/
  busy : Pipeline.Busy before → Pipeline.Busy after

/-- A registry that dispatchers share with workers, and the only listener that has anything filed in
it. -/
structure Line where
  /-- The registry. -/
  registry : Handle
  /-- The listener. -/
  listener : Handle
  /-- The token that the listener's queue stops on. -/
  token : Token
  /-- The snapshots that the registry began with. -/
  stock : List Solution := []

/-- A call that its worker has not looked at. -/
def Session.Unseen (session : Session) (handle : Handle) (call : Call) : Prop :=
  session.calls.get? handle = some call ∧ call.act = none

/-- Whether an errand waits for a call. -/
def ErrandStage.WaitsFor (stage : ErrandStage) (call : Handle) : Prop :=
  ∃ client registry delivery, stage = .delivery client registry delivery (.call call)

/-- The event that a command on a named workspace raises, if it raises one. -/
def Session.raisedBy (session : Session) (name : String) (command : Command) : List Event :=
  match session.workspace? name with
  | some (_, state) => state.workspace.raisedBy command
  | none => []

namespace Line

/-- The snapshots that the registry of a line may have, after some events were raised. -/
def known (line : Line) (raised : List Event) : List Solution :=
  line.stock ++ (raised.flatMap Event.items).map WorkItem.solution

/-- How far the errand of a line's listener may be, after some events were raised. -/
inductive AtWork (line : Line) (raised : List Event) : ErrandStage → Prop
  /-- It has to work out what a batch comes to. -/
  | batch {dispatcher : Handle} {batch : List Event} : batch ⊆ raised →
      AtWork line raised (.events dispatcher batch)
  /-- It delivers items of these events to a worker, and waits. -/
  | delivery {worker : Handle} {delivery : Delivery} {pending : Pending} :
      delivery.remaining ⊆ raised.flatMap Event.items → (∀ act, pending ≠ .act act) →
      AtWork line raised (.delivery (.worker worker) line.registry delivery pending)

/-- A worker that looks snapshots up in the line's registry, and whose service got calls for items of the
events that were raised. -/
structure Serves (line : Line) (raised : List Event) (worker : WorkerState) : Prop where
  /-- It looks snapshots up in the line's registry. -/
  registry : worker.registry = line.registry
  /-- Its service got calls that answer items. -/
  calls : ∀ call ∈ worker.calls, ∃ item ∈ raised.flatMap Event.items,
    call.Answers (line.known raised) item

/-- A session with a line, after some events were raised. -/
structure Orderly (line : Line) (session : Session) (raised : List Event) : Prop where
  /-- The registry finds what it was given. -/
  kept : (session.registry line.registry).Sound
  /-- The registry has known snapshots only. -/
  origin : ∀ e ∈ (session.registry line.registry).entries, e.2 ∈ line.known raised
  /-- Every worker serves the line. -/
  serves : ∀ handle worker, session.workers.get? handle = some worker → line.Serves raised worker
  /-- Every dispatcher files snapshots in the line's registry. -/
  files : ∀ handle dispatcher, session.dispatchers.get? handle = some dispatcher →
    dispatcher.registry = line.registry
  /-- Hosts have workers as their clients. -/
  attaches : ∀ handle host, session.hosts.get? handle = some host →
    ∃ worker, host = .attached worker
  /-- Every workspace is watched. -/
  watched : ∀ handle state, session.workspaces.get? handle = some state → state.Watched
  /-- What was raised can be looked at. -/
  deliverable : ∀ event ∈ raised, event.Deliverable
  /-- There is no other listener, and what waits in its queue was raised. -/
  waiting : ∀ handle listener, session.listeners.get? handle = some listener →
    handle = line.listener ∧ listener.keeper.token = line.token ∧
      listener.keeper.queue.pending ⊆ raised
  /-- Every errand is one of the listener and under the listener's token. -/
  errands : ∀ handle errand, session.errands.get? handle = some errand →
    errand.owner = .listener line.listener ∧ errand.token = line.token ∧
      line.AtWork raised errand.stage
  /-- The listener waits for its errand. -/
  busy : ∀ handle errand listener, session.errands.get? handle = some errand →
    session.listeners.get? line.listener = some listener → Pipeline.Busy listener.keeper
  /-- There is one errand at most. -/
  alone : ∀ handle errand other another, session.errands.get? handle = some errand →
    session.errands.get? other = some another → handle = other
  /-- The registry has the snapshot of every call that has not been looked at. -/
  findable : ∀ handle call, session.Unseen handle call →
    ∃ item ∈ raised.flatMap Event.items, call.request = item.posted ∧ ∃ found,
      (session.registry line.registry).find? item.solution.fingerprint = some found
  /-- There is one such call at most. -/
  single : ∀ handle call other another, session.Unseen handle call →
    session.Unseen other another → handle = other
  /-- The errand waits for such a call, or its token is cancelled. -/
  awaited : ∀ handle call, session.Unseen handle call → session.isCancelled line.token = false →
    ∃ other errand, session.errands.get? other = some errand ∧ errand.stage.WaitsFor handle

variable {line : Line} {session : Session} {raised : List Event}

/-- The items of the events that were raised are among those of more events. -/
theorem mem_flatMap_append {item : WorkItem} (h : item ∈ raised.flatMap Event.items)
    (more : List Event) : item ∈ (raised ++ more).flatMap Event.items := by
  rw [List.flatMap_append]
  exact List.mem_append_left _ h

/-- The snapshot of an item is known. -/
theorem mem_known (line : Line) {item : WorkItem} (h : item ∈ raised.flatMap Event.items) :
    item.solution ∈ line.known raised :=
  List.mem_append_right _ (List.mem_map_of_mem h)

/-- What was known stays known. -/
theorem known_subset (line : Line) (raised more : List Event) :
    line.known raised ⊆ line.known (raised ++ more) := by
  rw [known, known, List.flatMap_append, List.map_append, ← List.append_assoc]
  exact List.subset_append_left _ _

/-- More events may have been raised. -/
theorem AtWork.mono {stage : ErrandStage} (h : line.AtWork raised stage) (more : List Event) :
    line.AtWork (raised ++ more) stage := by
  cases h with
  | batch hbatch => exact .batch (List.subset_append_of_subset_left more hbatch)
  | delivery hremaining hpending =>
    exact .delivery (fun _ hitem => mem_flatMap_append (hremaining hitem) more) hpending

/-- More events may have been raised. -/
theorem Serves.mono {worker : WorkerState} (h : line.Serves raised worker) (more : List Event) :
    line.Serves (raised ++ more) worker where
  registry := h.registry
  calls call hcall := by
    obtain ⟨item, hitem, hanswers⟩ := h.calls call hcall
    exact ⟨item, mem_flatMap_append hitem more, hanswers.mono (line.known_subset raised more)⟩

/-! ## Waking, clocks and listeners -/

namespace Orderly

/-- Time may go by, and tasks may be woken and set alarms. -/
theorem elapse (h : line.Orderly session raised) (now : ℕ) (agenda : List Task)
    (alarms : List (ℕ × Task)) :
    line.Orderly { session with now := now, agenda := agenda, alarms := alarms } raised :=
  { h with }

/-- A task may be woken. -/
theorem wake (h : line.Orderly session raised) (task : Task) :
    line.Orderly (session.wake task) raised := by
  unfold Session.wake
  split
  · exact h
  · exact { h with }

/-- An alarm may be set. -/
theorem wakeAfter (h : line.Orderly session raised) (act : Act) (task : Task) :
    line.Orderly (session.wakeAfter act task) raised := by
  unfold Session.wakeAfter
  split
  · exact { h with }
  · exact h

/-- Listeners may do what neither takes anything in nor hands anything out. -/
theorem steady (h : line.Orderly session raised) (listeners : Catalog Handle Listener)
    (hsteady : ∀ handle after, listeners.get? handle = some after →
      ∃ before, session.listeners.get? handle = some before ∧ before.keeper.Steady after.keeper) :
    line.Orderly { session with listeners := listeners } raised :=
  { h with
    waiting := fun handle after hafter => by
      obtain ⟨before, hbefore, hsame⟩ := hsteady handle after hafter
      obtain ⟨hhandle, htoken, hpending⟩ := h.waiting handle before hbefore
      exact ⟨hhandle, hsame.token.trans htoken, hsame.pending.symm ▸ hpending⟩
    busy := fun handle errand after herrand hafter => by
      obtain ⟨before, hbefore, hsame⟩ := hsteady line.listener after hafter
      exact hsame.busy (h.busy handle errand before herrand hbefore) }

/-- What was cancelled once stays cancelled, and a listener that is told to stop takes nothing in. -/
theorem told (h : line.Orderly session raised) (token : Token) :
    line.Orderly (session.told token) raised := by
  have hsteady := h.steady (session.told token).listeners fun handle after hafter => by
    rw [Session.told, Catalog.get?_mapValues, Option.map_eq_some_iff] at hafter
    obtain ⟨before, hbefore, rfl⟩ := hafter
    refine ⟨before, hbefore, ?_⟩
    split
    · exact ⟨rfl, rfl, fun hbusy => ⟨hbusy.working, hbusy.unaware⟩⟩
    · exact ⟨rfl, rfl, id⟩
  exact { hsteady with
    -- Only while the token is not cancelled has anybody to wait.
    awaited := fun handle call hunseen hgoing => by
      refine h.awaited handle call hunseen (eq_false_of_ne_true fun hcancelled => ?_)
      exact ne_true_of_eq_false hgoing (TokenPool.isCancelled_cancel token hcancelled) }

/-- A token may or may not be cancelled. -/
theorem tells (h : line.Orderly session raised) {base : Session} (htells : session.Tells base) :
    line.Orderly base raised := by
  obtain rfl | ⟨token, rfl⟩ := htells
  · exact h
  · exact h.told token

/-- A token may be cancelled. -/
theorem cancelToken (h : line.Orderly session raised) (token : Token) :
    line.Orderly (session.cancelToken token) raised := by
  -- Whoever heeds the token is woken, which is a matter of the agenda.
  obtain ⟨base, woken, htells, hcancel, -⟩ := session.cancelToken_eq token
  rw [hcancel]
  exact { h.tells htells with }

/-! ## Queues of numbers, workers and hosts -/

/-- The keeper of a queue of numbers may have its turn. -/
theorem numbersTurn (h : line.Orderly session raised) (handle : Handle) :
    line.Orderly (session.numbersTurn handle) raised := by
  unfold Session.numbersTurn
  split
  · exact h
  · dsimp only
    split
    · exact { h with }
    · exact { h with }
    · refine wake ?_ _
      exact { h with }

/-- A batch of numbers may end, and the processor may cancel a token. -/
theorem finishBatch (h : line.Orderly session raised) (handle : Handle) (token : Token) (act : Act) :
    line.Orderly (session.finishBatch handle token act) raised := by
  obtain hsame | ⟨base, ending, woken, htells, hended, -⟩ :=
    session.finishBatch_cases handle token act
  · rw [hsame]
    exact h
  · rw [hended]
    exact { h.tells htells with }

/-- A batch of numbers may have its turn. -/
theorem batchTurn (h : line.Orderly session raised) (handle : Handle) :
    line.Orderly (session.batchTurn handle) raised := by
  cases hqueue : session.queues.get? handle with
  | none =>
    rw [Session.batchTurn, hqueue]
    exact h
  | some q =>
    cases hprocessing : q.processing with
    | idle =>
      rw [Session.batchTurn_of_idle hqueue hprocessing]
      exact h
    | busy act =>
      rw [Session.batchTurn_of_busy hqueue hprocessing]
      exact h.finishBatch _ _ _
    | handed batch =>
      obtain ⟨act, script, alarms, hbegun, -⟩ := Session.batchTurn_of_handed hqueue hprocessing
      rw [hbegun]
      refine finishBatch ?_ _ _ _
      exact { h with }

/-- Workers may change in whatever leaves them serving the line. -/
theorem workers (h : line.Orderly session raised) {workers : Catalog Handle WorkerState}
    (hserves : ∀ handle worker, workers.get? handle = some worker → line.Serves raised worker) :
    line.Orderly { session with workers := workers } raised := { h with serves := hserves }

/-- A worker may look at its inbox. -/
theorem inboxTurn (h : line.Orderly session raised) (handle : Handle) :
    line.Orderly (session.inboxTurn handle) raised := by
  unfold Session.inboxTurn
  split
  · exact h
  · next worker hworker =>
    refine List.foldlRecOn (motive := fun session => line.Orderly session raised) worker.inbox _
      (h.workers fun other after hafter => ?_) fun session h call _ => h.wake _
    obtain ⟨-, rfl⟩ | ⟨-, hbefore⟩ := Catalog.of_get?_insert hafter
    · have hserves := h.serves handle worker hworker
      exact ⟨hserves.registry, hserves.calls⟩
    · exact h.serves other after hbefore

/-- A worker may stop. -/
theorem stopWorker (h : line.Orderly session raised) (handle : Handle) :
    line.Orderly (session.stopWorker handle) raised := by
  -- Its calls find it gone when they have their turns; until then they stay what they are.
  refine List.foldlRecOn (motive := fun session => line.Orderly session raised) _ _
    (h.workers fun other after hafter => ?_) fun session h e _ => h.wake _
  obtain ⟨before, hbefore, rfl | rfl⟩ := Catalog.of_get?_modify hafter
  · exact h.serves other _ hbefore
  · have hserves := h.serves other before hbefore
    exact ⟨hserves.registry, hserves.calls⟩

/-! ## Workspaces -/

/-- Workspaces may change in whatever leaves them watched. -/
theorem workspaces (h : line.Orderly session raised) {workspaces : Catalog Handle WorkspaceState}
    (hwatched : ∀ handle state, workspaces.get? handle = some state → state.Watched) :
    line.Orderly { session with workspaces := workspaces } raised := { h with watched := hwatched }

/-- A workspace may change in whatever leaves it watched. -/
theorem modifyWorkspaces (h : line.Orderly session raised) (handle : Handle)
    {f : WorkspaceState → WorkspaceState} (hf : ∀ state, state.Watched → (f state).Watched) :
    line.Orderly { session with workspaces := session.workspaces.modify handle f } raised := by
  refine h.workspaces fun other after hafter => ?_
  obtain ⟨before, hbefore, rfl | rfl⟩ := Catalog.of_get?_modify hafter
  · exact h.watched other _ hbefore
  · exact hf before (h.watched other before hbefore)

/-- Workspaces that nobody holds may be forgotten. -/
theorem dropWorkspaces (h : line.Orderly session raised) :
    line.Orderly session.dropWorkspaces raised := by
  -- What is left was there before.
  refine h.workspaces fun handle state hstate => ?_
  rw [Catalog.get?_foldl_erase] at hstate
  split at hstate
  · contradiction
  · exact h.watched handle state hstate

/-- The listener's subscription may end. -/
theorem departureTurn (h : line.Orderly session raised) (handle : Handle) :
    line.Orderly (session.departureTurn handle) raised := by
  unfold Session.departureTurn
  have herased : line.Orderly { session with departures := session.departures.erase handle } raised :=
    { h with }
  split
  · exact h
  · split
    · refine herased.modifyWorkspaces _ fun state hstate => ?_
      exact ⟨hstate.filed, hstate.own, fun e he => hstate.observers e (Catalog.mem_erase he)⟩
    · exact h

/-- What nobody holds may be let go of. -/
theorem letGo (h : line.Orderly session raised) : line.Orderly session.letGo raised := by
  -- Workspaces are forgotten, then queues are told to stop, then workers are stopped.
  have htokens := List.foldlRecOn (motive := fun session => line.Orderly session raised)
    session.dropWorkspaces.droppedQueues Session.cancelToken h.dropWorkspaces
    fun session h token _ => h.cancelToken token
  exact List.foldlRecOn (motive := fun session => line.Orderly session raised) _ Session.stopWorker
    htokens fun session h worker _ => h.stopWorker worker

/-- A host may get another worker, or lose the one that it has. -/
theorem attach (h : line.Orderly session raised) (host : Handle) (worker : Option Handle) :
    line.Orderly (session.attach host worker) raised := by
  refine letGo { h with attaches := fun other after hafter => ?_ }
  obtain ⟨before, hbefore, rfl | rfl⟩ := Catalog.of_get?_modify hafter
  · exact h.attaches other _ hbefore
  · obtain ⟨attached, rfl⟩ := h.attaches other before hbefore
    exact ⟨worker, rfl⟩

/-! ## Commands -/

/-- One more event that can be looked at may be raised. -/
theorem hear (h : line.Orderly session raised) {event : Event} (hevent : event.Deliverable) :
    line.Orderly session (raised ++ [event]) :=
  { h with
    origin := fun e he => line.known_subset raised [event] (h.origin e he)
    serves := fun handle worker hworker => (h.serves handle worker hworker).mono [event]
    deliverable := fun other hother => by
      obtain hother | hother := List.mem_append.mp hother
      · exact h.deliverable other hother
      · exact List.mem_singleton.mp hother ▸ hevent
    waiting := fun handle listener hlistener => by
      obtain ⟨hhandle, htoken, hpending⟩ := h.waiting handle listener hlistener
      exact ⟨hhandle, htoken, List.subset_append_of_subset_left _ hpending⟩
    errands := fun handle errand herrand => by
      obtain ⟨howner, htoken, hstage⟩ := h.errands handle errand herrand
      exact ⟨howner, htoken, hstage.mono [event]⟩
    findable := fun handle call hunseen => by
      obtain ⟨item, hitem, hfound⟩ := h.findable handle call hunseen
      exact ⟨item, mem_flatMap_append hitem [event], hfound⟩ }

/-- The listener may queue an event that was raised. -/
theorem addEvent (h : line.Orderly session raised) {event : Event} (hevent : event ∈ raised)
    (handle : Handle) : line.Orderly (session.addEvent handle event) raised := by
  cases hlistener : session.listeners.get? handle with
  | none =>
    rw [Session.addEvent, hlistener]
    exact h
  | some listener =>
    obtain ⟨rfl, htoken, hpending⟩ := h.waiting handle listener hlistener
    have hadded : line.Orderly { session with
        listeners := session.listeners.insert line.listener
          { listener with keeper := (listener.keeper.add session.now [event]).2 } } raised :=
      { h with
        waiting := fun other after hafter => by
          obtain ⟨rfl, rfl⟩ | ⟨-, hbefore⟩ := Catalog.of_get?_insert hafter
          · refine ⟨rfl, htoken, fun one hone => ?_⟩
            obtain hone | hone := WorkQueue.mem_pending_add hone
            · exact hpending hone
            · exact List.mem_singleton.mp hone ▸ hevent
          · exact h.waiting other after hbefore
        busy := fun other errand after herrand hafter => by
          have hbusy := h.busy other errand listener herrand hlistener
          obtain ⟨-, rfl⟩ | ⟨hne, -⟩ := Catalog.of_get?_insert hafter
          · exact ⟨(WorkQueue.phase_add _ _).trans hbusy.working, hbusy.unaware⟩
          · exact absurd rfl hne }
    rw [Session.addEvent, hlistener]
    dsimp only
    split
    · exact hadded.wake _
    · exact hadded

/-- Listeners that are told an event that was raised do not break down. -/
theorem tell (h : line.Orderly session raised) {event : Event} (hevent : event ∈ raised)
    (perform : Action → Session → Option Outcome × Session) (workspace : Handle)
    {observers : List (ℕ × Observer)} (hobservers : ∀ e ∈ observers, ∃ handle, e.2 = .listener handle) :
    ∃ told, Session.tell perform workspace event observers session = (false, told) ∧
      line.Orderly told raised := by
  induction observers generalizing session with
  | nil => exact ⟨session, rfl, h⟩
  | cons first rest ih =>
    obtain ⟨subscription, observer⟩ := first
    obtain ⟨handle, rfl⟩ := hobservers _ List.mem_cons_self
    exact ih (h.addEvent hevent handle) fun e he => hobservers e (List.mem_cons_of_mem _ he)

/-- A workspace may come to a snapshot that is filed and its own. -/
theorem install (h : line.Orderly session raised) (handle : Handle) {next : Workspace}
    (hfiled : next.current.Filed) (hown : next.current.workspace = next.id) (event : Event) :
    line.Orderly (session.install handle next event) raised := by
  unfold Session.install
  have hnumbered : line.Orderly session.newHandle.2 raised := { h with }
  split
  · exact hnumbered.modifyWorkspaces handle fun state hstate => ⟨hfiled, hown, hstate.observers⟩
  · exact h.modifyWorkspaces handle fun state hstate => ⟨hfiled, hown, hstate.observers⟩

/-- The observers of a workspace are listeners. -/
theorem observers (h : line.Orderly session raised) (handle : Handle) :
    ∀ e ∈ session.observersOf handle, ∃ listener, e.2 = .listener listener := by
  unfold Session.observersOf
  split
  · next state hstate => exact (h.watched handle state hstate).observers
  · exact fun e he => nomatch he

/-- A faithful command on a watched workspace may raise an event, which can be looked at. -/
theorem carryOut (h : line.Orderly session raised)
    (perform : Action → Session → Option Outcome × Session) {handle : Handle}
    {state : WorkspaceState} (hstate : session.workspaces.get? handle = some state)
    {command : Command} (hfaithful : command.Faithful) :
    line.Orderly (Session.carryOut perform handle state command session).2
      (raised ++ state.workspace.raisedBy command) := by
  obtain ⟨hquiet, -, hraised⟩ | ⟨next, event, hbegin, -, hraised⟩ :=
    state.workspace.begin_cases command
  · rw [hraised, List.append_nil, Session.carryOut]
    cases hbegin : state.workspace.begin command with
    | error failure => exact h
    | ok result =>
      obtain ⟨next, _ | event⟩ := result
      · exact h
      · exact absurd hbegin (hquiet next event)
  · have hwatched := h.watched handle state hstate
    -- A workspace that is telling its observers something would have refused.
    have hsound : state.workspace.Sound := by
      refine ⟨hwatched.filed, hwatched.own, eq_false_of_ne_true fun hnotifying => ?_⟩
      rw [Workspace.begin_of_notifying hnotifying] at hbegin
      contradiction
    have htells := hsound.begin hfaithful hbegin
    have hfiled : next.current.Filed := htells.sound.filed
    have hinstalled := (h.hear htells.deliverable).install handle hfiled htells.sound.own event
    have hevent : event ∈ raised ++ [event] := List.mem_append_right _ List.mem_cons_self
    obtain ⟨told, htold, horderly⟩ := hinstalled.tell hevent perform handle (hinstalled.observers handle)
    rw [hraised, Session.carryOut, hbegin]
    dsimp only
    rw [htold]
    refine dropWorkspaces (horderly.modifyWorkspaces handle fun state hstate => ?_)
    exact ⟨hstate.filed, hstate.own, hstate.observers⟩

end Orderly

/-- Workspaces may be asked for whatever keeps projects under their own identities. -/
theorem Orderly.command (h : line.Orderly session raised) (name : String) {command : Command}
    (hfaithful : command.Faithful) :
    line.Orderly (session.ask (.command name command)).2 (raised ++ session.raisedBy name command) := by
  rw [Session.ask, Session.perform_command, Session.raisedBy, Session.workspace?]
  cases hnamed : session.named? .workspace name with
  | none =>
    rw [Option.bind_none, List.append_nil]
    exact h
  | some handle =>
    cases hstate : session.workspaces.get? handle with
    | none =>
      simp only [Option.bind_some, hstate, Option.map_none, List.append_nil]
      exact h
    | some state =>
      simp only [Option.bind_some, hstate, Option.map_some]
      exact h.carryOut _ hstate hfaithful

end Line

end SolutionWatch
