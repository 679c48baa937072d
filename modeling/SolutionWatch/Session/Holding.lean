import SolutionWatch.Session.Errand

/-!
# What is still held

An object stays as long as something holds it: a name, another object that stays, or a task that
uses it. `Session.letGo` lets go of the rest. A workspace that nobody holds is forgotten together
with its observers, a queue that nobody holds stops, and so does a worker. What has begun is left to
end by itself.

A workspace holds its listeners, and holds itself while it tells its observers about something. A
dispatcher is held by searchers and by the keepers of listeners, and it holds its host, which holds
the worker that is attached to it. An errand holds the worker that it sends requests to.
-/

namespace SolutionWatch

/-- The listener that an observer is. -/
def Observer.listener? : Observer → Option Handle
  | .listener handle => some handle
  | .recorder _ _ => none

/-- The worker that an errand sends requests to. -/
def Errand.worker? (errand : Errand) : Option Handle :=
  match errand.stage with
  | .delivery (.worker handle) _ _ _ => some handle
  | _ => none

namespace Session

/-- Binds a name to an object, in the place of what it was bound to. -/
def bind (session : Session) (kind : ObjectKind) (name : String) (handle : Handle) : Session :=
  { session with names := session.names.insert ⟨kind, name⟩ handle }

/-- Frees a name. -/
def unbind (session : Session) (kind : ObjectKind) (name : String) : Session :=
  { session with names := session.names.erase ⟨kind, name⟩ }

/-- Forgets the workspaces that nobody holds. -/
def dropWorkspaces (session : Session) : Session :=
  let held := session.namedObjects .workspace
  let dropped := session.workspaces.entries.filter fun e =>
    !held.contains e.1 && !e.2.workspace.notifying
  { session with workspaces := (dropped.map Prod.fst).foldl Catalog.erase session.workspaces }

/-- The listeners that something holds. -/
def heldListeners (session : Session) : List Handle :=
  session.namedObjects .listener ++
    session.workspaces.values.flatMap fun state =>
      state.observers.values.filterMap Observer.listener?

/-- The tokens of the queues that nobody holds. -/
def droppedQueues (session : Session) : List Token :=
  let queues := session.namedObjects .queue
  let listeners := session.heldListeners
  ((session.queues.entries.filter fun e => !queues.contains e.1).map fun e => e.2.keeper.token) ++
    (session.listeners.entries.filter fun e => !listeners.contains e.1).map fun e =>
      e.2.keeper.token

/-- The dispatchers that something holds. -/
def heldDispatchers (session : Session) : List Handle :=
  session.namedObjects .dispatcher ++
    ((session.namedObjects .searcher).filterMap session.searchers.get?).map
      Searcher.dispatcher ++
    (session.listeners.values.filter fun listener => !listener.keeper.hasStopped).map
      Listener.dispatcher

/-- The hosts that something holds. -/
def heldHosts (session : Session) : List Handle :=
  session.namedObjects .host ++
    (session.heldDispatchers.filterMap session.dispatchers.get?).map Dispatcher.host

/-- The worker that is attached to a host. -/
def attached? (session : Session) (host : Handle) : Option Handle :=
  match session.hosts.get? host with
  | some (.attached worker) => worker
  | _ => none

/-- The running workers that nobody holds. -/
def droppedWorkers (session : Session) : List Handle :=
  let held := session.namedObjects .worker ++ session.heldHosts.filterMap session.attached? ++
    session.errands.values.filterMap Errand.worker?
  (session.workers.entries.filter fun e => e.2.running && !held.contains e.1).map Prod.fst

/-- Lets go of what nobody holds. -/
def letGo (session : Session) : Session :=
  let session := session.dropWorkspaces
  let session := session.droppedQueues.foldl cancelToken session
  session.droppedWorkers.foldl stopWorker session

end Session

end SolutionWatch
