import SolutionWatch.Proofs.Pipeline.Loop
import SolutionWatch.Proofs.Pipeline.Requests
import SolutionWatch.Proofs.Pipeline.Transparency
import SolutionWatch.Proofs.Worker.Calls

/-!
# Workers accept every request

A worker refuses a request when the registry does not have the snapshot any more, or when the snapshot
does not have what the request names. `Line.Run` is every session that a line comes to: workspaces are
asked for what they are asked for, tasks have their turns under any schedule, services reply what they
reply, tokens are cancelled, workers stop, and hosts change their workers. In none of these sessions is
there a call that its worker, if it runs, would refuse (`Line.accepted`).

The capacity of the registry plays no part. What a service is handed is the snapshot that was filed first
under the fingerprint of the item's. It has what the item names, and it has the content of the item's
snapshot if fingerprints tell the contents of the snapshots in play apart. It need not be so: of two
solutions that replace each other and differ in nothing but the root of a path, the service is handed the
first one twice (`Pipeline.handed_other_content`).
-/

namespace SolutionWatch

/-- A worker takes a call up in the turn of the call: its service gets `asked`, and how the call ends is for
the service to say. -/
structure Session.TakesUp (session : Session) (handle : Handle) (call : Call) (worker : WorkerState)
    (asked : ServiceCall) : Prop where
  /-- The service gets a call, and is looked at. -/
  turn : session.giveTurn (.call handle) =
    let act := (Session.responseOf worker).act session.now
    (session.begun handle call worker asked).finishCall handle { call with act := some act } act
  /-- After the turn it has got this call, and none besides. -/
  got : (session.giveTurn (.call handle)).workers.get? call.worker =
    some { worker with script := worker.script.take.2, calls := worker.calls ++ [asked] }

/-- A running worker that accepts a request takes the call up. -/
theorem Session.takesUp_of_accept {session : Session} {handle : Handle} {call : Call}
    (hunseen : session.Unseen handle call) {worker : WorkerState}
    (hworker : session.workers.get? call.worker = some worker) (hrunning : worker.running = true)
    {asked : ServiceCall}
    (haccept : (Worker.accept (session.registry worker.registry) call.request).1 = .ok asked) :
    session.TakesUp handle call worker asked := by
  have hturn : session.giveTurn (.call handle) =
      (session.begun handle call worker asked).finishCall handle
        { call with act := some ((Session.responseOf worker).act session.now) }
        ((Session.responseOf worker).act session.now) := by
    rw [Session.giveTurn, Session.callTurn_eq hunseen.1 hworker, if_pos hrunning, hunseen.2]
    simp only [Session.beginCall_eq, haccept]
  obtain ⟨alarms, hbegun, -⟩ := session.begun_eq handle call worker asked
  refine ⟨hturn, ?_⟩
  rw [hturn, (Session.finishCall_same _ _ _ _).1, hbegun, Catalog.get?_insert, if_pos rfl]

namespace Line

variable {line : Line} {session : Session} {raised : List Event}

/-- A session with a line on which nothing has happened: whatever the registry was used for before, it was
used as a registry is, and nothing waits. -/
structure Ready (line : Line) (session : Session) : Prop where
  /-- The registry finds what it was given. -/
  kept : (session.registry line.registry).Sound
  /-- The registry begins with the line's stock. -/
  stock : ∀ e ∈ (session.registry line.registry).entries, e.2 ∈ line.stock
  /-- Every worker looks snapshots up in the line's registry, and no service got a call. -/
  workers : ∀ e ∈ session.workers.entries, e.2.registry = line.registry ∧ e.2.calls = []
  /-- Every dispatcher files snapshots in the line's registry. -/
  dispatchers : ∀ e ∈ session.dispatchers.entries, e.2.registry = line.registry
  /-- Hosts have workers as their clients. -/
  hosts : ∀ e ∈ session.hosts.entries, ∃ worker, e.2 = .attached worker
  /-- Every workspace is watched. -/
  workspaces : ∀ e ∈ session.workspaces.entries, e.2.Watched
  /-- There is no other listener, and nothing waits in its queue. -/
  listeners : ∀ e ∈ session.listeners.entries, e.1 = line.listener ∧
    e.2.keeper.token = line.token ∧ e.2.keeper.queue.pending = []
  /-- Nobody delivers anything. -/
  errands : session.errands = .empty
  /-- No worker has a call. -/
  calls : session.calls = .empty

/-- A line that is ready is orderly. -/
theorem Ready.orderly (h : line.Ready session) : line.Orderly session [] := by
  have hnoErrand : ∀ handle errand, session.errands.get? handle ≠ some errand := by
    intro handle errand
    rw [h.errands, Catalog.get?_empty]
    exact nofun
  have hnoCall : ∀ handle call, ¬session.Unseen handle call := by
    rintro handle call ⟨hcall, -⟩
    rw [h.calls, Catalog.get?_empty] at hcall
    contradiction
  exact {
    kept := h.kept
    origin := fun e he => List.mem_append_left _ (h.stock e he)
    serves := fun handle worker hworker => by
      obtain ⟨hregistry, hcalls⟩ := h.workers _ (Catalog.mem_of_get? hworker)
      exact ⟨hregistry, fun call hcall => nomatch hcalls ▸ hcall⟩
    files := fun handle dispatcher hd => h.dispatchers _ (Catalog.mem_of_get? hd)
    attaches := fun handle host hhost => h.hosts _ (Catalog.mem_of_get? hhost)
    watched := fun handle state hstate => h.workspaces _ (Catalog.mem_of_get? hstate)
    deliverable := fun event hevent => nomatch hevent
    waiting := fun handle listener hlistener => by
      obtain ⟨hhandle, htoken, hpending⟩ := h.listeners _ (Catalog.mem_of_get? hlistener)
      exact ⟨hhandle, htoken, List.subset_nil.mpr hpending⟩
    errands := fun handle errand herrand => absurd herrand (hnoErrand handle errand)
    busy := fun handle errand _ herrand => absurd herrand (hnoErrand handle errand)
    alone := fun handle errand _ _ herrand => absurd herrand (hnoErrand handle errand)
    findable := fun handle call hcall => absurd hcall (hnoCall handle call)
    single := fun handle call _ _ hcall => absurd hcall (hnoCall handle call)
    awaited := fun handle call hcall => absurd hcall (hnoCall handle call) }

/-- Being ready is not about what services reply. -/
theorem Ready.withScript (h : line.Ready session) (script : Script) :
    line.Ready { session with
      workers := session.workers.mapValues fun worker => { worker with script := script } } :=
  { h with
    workers := fun e he => by
      obtain ⟨old, hold, rfl⟩ := List.mem_map.mp he
      exact h.workers old hold }

/-- The sessions that a line comes to, with the events that were raised, oldest first. -/
inductive Run (line : Line) : Session → List Event → Prop
  /-- The line is ready. -/
  | start {session : Session} : line.Ready session → Run line session []
  /-- Time goes by: tasks may have been woken, and alarms may have been set. -/
  | elapse {session : Session} {raised : List Event} (now : ℕ) (agenda : List Task)
      (alarms : List (ℕ × Task)) : Run line session raised →
      Run line { session with now := now, agenda := agenda, alarms := alarms } raised
  /-- A task has a turn. -/
  | turn {session : Session} {raised : List Event} (task : Task) : Run line session raised →
      Run line (session.giveTurn task).letGo raised
  /-- A workspace is asked for something. -/
  | command {session : Session} {raised : List Event} (name : String) {command : Command} :
      Run line session raised → command.Faithful →
      Run line (session.ask (.command name command)).2 (raised ++ session.raisedBy name command)
  /-- A token is cancelled. -/
  | cancel {session : Session} {raised : List Event} (token : Token) :
      Run line session raised → Run line (session.cancelToken token) raised
  /-- A worker is stopped. -/
  | stop {session : Session} {raised : List Event} (worker : Handle) :
      Run line session raised → Run line (session.stopWorker worker) raised
  /-- A host gets a worker, or loses the one that it has. -/
  | attach {session : Session} {raised : List Event} (host : Handle) (worker : Option Handle) :
      Run line session raised → Run line (session.attach host worker) raised
  /-- What nobody holds is let go of. -/
  | letGo {session : Session} {raised : List Event} :
      Run line session raised → Run line session.letGo raised

namespace Run

/-- A line stays orderly. -/
theorem orderly (h : line.Run session raised) : line.Orderly session raised := by
  induction h with
  | start hready => exact hready.orderly
  | elapse now agenda alarms _ ih => exact ih.elapse now agenda alarms
  | turn task _ ih => exact (ih.giveTurn task).letGo
  | command name _ hfaithful ih => exact ih.command name hfaithful
  | cancel token _ ih => exact ih.cancelToken token
  | stop worker _ ih => exact ih.stopWorker worker
  | attach host worker _ ih => exact ih.attach host worker
  | letGo _ ih => exact ih.letGo

/-- The loop of the session is one of the schedules. -/
theorem lasting (line : Line) (raised : List Event) :
    Session.Lasting fun session => line.Run session raised where
  elapse _ now agenda alarms h := h.elapse now agenda alarms
  turn _ task h := h.turn task
  letGo _ h := h.letGo

/-- Some time may pass. -/
theorem advance (h : line.Run session raised) (time : ℕ) :
    line.Run (session.advance time) raised := (lasting line raised).advance h time

end Run

/-- A running worker takes every call up that it has not looked at, and hands its service what answers an
item. -/
theorem Orderly.takesUp (h : line.Orderly session raised) {handle : Handle} {call : Call}
    (hunseen : session.Unseen handle call) :
    ∃ item ∈ raised.flatMap Event.items, call.request = item.posted ∧
      ∀ worker, session.workers.get? call.worker = some worker → worker.running = true →
        ∃ asked, session.TakesUp handle call worker asked ∧ asked.Answers (line.known raised) item := by
  obtain ⟨item, hitem, hrequest, found, hprint, -, hknown, haccept⟩ := h.accept_eq hunseen
  refine ⟨item, hitem, hrequest, fun worker hworker hrunning => ?_⟩
  -- The worker looks where the dispatchers file.
  rw [← (h.serves _ _ hworker).registry] at haccept
  exact ⟨_, Session.takesUp_of_accept hunseen hworker hrunning (congrArg Prod.fst haccept),
    .of_label (congrArg (item.scope, item.reasons, ·) hprint) hknown (line.mem_known hitem)⟩

/-- Workers accept what the pipeline sends them. On every run of a line, whatever the capacity of its
registry, the difference of every event that is raised exists, and each of its items lies in the snapshot
that the item is about; every call that its worker has not looked at asks for such an item, and a worker
that runs takes it up; and what services get answers these items. -/
theorem accepted (h : line.Run session raised) :
    ∃ lists, raised.mapM Event.diff = .ok lists ∧
      (∀ item ∈ lists.flatten, item.scope.LiesIn item.solution) ∧
      (∀ handle call, session.Unseen handle call → ∃ item ∈ lists.flatten,
        call.request = item.posted ∧
        ∀ worker, session.workers.get? call.worker = some worker → worker.running = true →
          ∃ asked, session.TakesUp handle call worker asked ∧
            asked.Answers (line.stock ++ lists.flatten.map WorkItem.solution) item) ∧
      ∀ e ∈ session.workers.entries, ∀ call ∈ e.2.calls, ∃ item ∈ lists.flatten,
        call.Answers (line.stock ++ lists.flatten.map WorkItem.solution) item := by
  have horderly := h.orderly
  have hitems : (raised.map Event.items).flatten = raised.flatMap Event.items := by
    rw [List.flatMap_def]
  refine ⟨_, Event.mapM_diff_eq horderly.deliverable, ?_⟩
  rw [hitems]
  refine ⟨fun item hitem => ?_, fun handle call => horderly.takesUp, fun e he => ?_⟩
  · obtain ⟨event, hevent, hof⟩ := List.mem_flatMap.mp hitem
    exact ((horderly.deliverable event hevent).of_mem hof).liesIn
  · exact (horderly.serves e.1 e.2 (Catalog.get?_eq_some_iff.mpr he)).calls

end Line

namespace Pipeline

/-- The line of a pipeline. -/
def line : Line := { registry := registry, listener := listener, token := ⟨[1, 0]⟩ }

/-- When the listener of a pipeline begins to listen, its line is ready. -/
theorem ready_start (p : Pipeline) : line.Ready p.start := by
  obtain ⟨hsound, -, snapshot, subscription, d⟩ := p.describes_start
  have hregistry : p.start.registry line.registry = .withCapacity p.capacity := d.registry_eq
  exact {
    kept := by
      rw [hregistry]
      exact SnapshotRegistry.sound_withCapacity p.capacity
    stock := by
      rw [hregistry]
      exact fun e he => nomatch he
    workers := by simp [d.workers, builtParts, line]
    dispatchers := by simp [d.dispatchers, dispatching, line]
    hosts := by simp [d.hosts]
    workspaces := fun e he => by
      rw [d.workspaces, Catalog.entries_single, List.mem_singleton] at he
      subst he
      exact ⟨hsound.filed, hsound.own, by simp⟩
    listeners := by simp [d.listeners, listening, builtParts, line]
    errands := d.errands
    calls := d.calls }

/-- The pipeline with batches of one event, whose service fails its first call. -/
def faltering : Session :=
  { oneByOne.start with
    workers := oneByOne.start.workers.mapValues fun worker =>
      { worker with script := [⟨0, .fail (.remote "out of order"), []⟩] } }

/-- The service fails the call for an edit, and the call for an added project is accepted after that. -/
theorem accepted_of_faltering : ∃ session raised, line.Run session raised ∧
    (session.calls.values.filter fun call => call.act.isNone).length = 1 ∧
    ∃ lists, raised.mapM Event.diff = .ok lists ∧
      (∀ item ∈ lists.flatten, item.scope.LiesIn item.solution) ∧
      (∀ handle call, session.Unseen handle call → ∃ item ∈ lists.flatten,
        call.request = item.posted ∧
        ∀ worker, session.workers.get? call.worker = some worker → worker.running = true →
          ∃ asked, session.TakesUp handle call worker asked ∧
            asked.Answers (line.stock ++ lists.flatten.map WorkItem.solution) item) ∧
      ∀ e ∈ session.workers.entries, ∀ call ∈ e.2.calls, ∃ item ∈ lists.flatten,
        call.Answers (line.stock ++ lists.flatten.map WorkItem.solution) item := by
  have hready : line.Run faltering [] := .start (oneByOne.ready_start.withScript _)
  have hedit : Command.Faithful (.editDocument (Fixture.documentId 0 0)) := trivial
  have hadd : Command.Faithful (.addProject ((Fixture.mk 2 2 1 1).project 1)) := trivial
  have hasked := ((hready.command "workspace" hedit).command "workspace" hadd).elapse 10 [] []
  -- The first batch is worked on until its errand has learnt of the failure, then the second.
  have hfirst := (((hasked.turn (.events 4)).turn (.errand 11)).turn (.call 12)).turn (.errand 11)
  have hrun := (hfirst.turn (.events 4)).turn (.errand 13)
  exact ⟨_, _, hrun, by decide +kernel, Line.accepted hrun⟩

/-- A registry with room for one snapshot, and batches of one event. -/
def smallest : Pipeline := { byDefault with
  capacity := 0
  config := { batchLimit := 1 } }

/-- A solution is replaced by another one with the same fingerprint, and the service is handed the first
one twice. -/
theorem handed_other_content : ∃ session raised lists, line.Run session raised ∧
    raised.mapM Event.diff = .ok lists ∧
    ∃ e ∈ session.workers.entries, ∃ call ∈ e.2.calls,
      ∀ item ∈ lists.flatten, call.reading ≠ item.reading := by
  have hready : line.Run smallest.start [] := .start smallest.ready_start
  have hfirst : Command.Faithful (.replace (.writingTo "bin")) := by
    show Solution.Filed _
    decide +kernel
  have hsecond : Command.Faithful (.replace (.writingTo "/bin")) := by
    show Solution.Filed _
    decide +kernel
  have hrun := ((hready.command "workspace" hfirst).command "workspace" hsecond).advance 9000
  exact ⟨_, _, _, hrun, Event.mapM_diff_eq hrun.orderly.deliverable, by decide +kernel⟩

end Pipeline

end SolutionWatch
