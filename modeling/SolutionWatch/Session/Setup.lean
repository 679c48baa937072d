import SolutionWatch.Session.Observing

/-!
# Building a session

Each kind of object is made by one function, which binds it to a name and returns its number. An
object that stops on a token gets a child of the token it is given, so stopping it alone leaves the
token as it is. The queue of a listener has a token below the listener's own: a listener that nobody
holds loses its queue, but it was not told to stop.
-/

namespace SolutionWatch.Session

/-- Adds an object to one of the catalogues and binds it to a name. -/
def create (session : Session) (kind : ObjectKind) (name : String)
    (add : Handle → Session → Session) : Handle × Session :=
  let (handle, session) := session.newHandle
  (handle, ((add handle session).bind kind name handle).letGo)

/-- A keeper of a new queue. -/
def newKeeper {α : Type} (session : Session) (delay limit : Nat) (token : Token) : Keeper α where
  queue := { delay := delay, limit := limit, cancelled := session.isCancelled token }
  token := token

/-- Makes a queue of numbers. -/
def newQueue (session : Session) (name : String) (delay limit : Nat) (script : Script)
    (parent : Option Token) : Handle × Session :=
  let (token, session) := session.newTokenUnder parent
  session.create .queue name fun handle session =>
    ({ session with
        queues := session.queues.insert handle
          { keeper := session.newKeeper delay limit token, script := script } }).wake
      (.numbers handle)

/-- Makes a registry of snapshots. -/
def newRegistry (session : Session) (name : String) (capacity : Nat) : Handle × Session :=
  session.create .registry name fun handle session =>
    { session with registries := session.registries.insert handle (.withCapacity capacity) }

/-- Files a snapshot in a registry, which is returned. -/
def fileSnapshot (session : Session) (handle : Handle) (solution : Solution) :
    SnapshotRegistry × Session :=
  let registry := SnapshotRegistry.file (session.registry handle) solution
  (registry, { session with registries := session.registries.insert handle registry })

/-- Looks a snapshot up in a registry. -/
def lookupSnapshot (session : Session) (handle : Handle) (address : Address) :
    Except Failure Solution × Session :=
  let (found, registry) := (session.registry handle).lookup address
  (found, { session with registries := session.registries.insert handle registry })

/-- Makes a graph. -/
def newGraph (session : Session) (name : String) (graph : SharedGraph) : Handle × Session :=
  session.create .graph name fun handle session =>
    { session with graphs := session.graphs.insert handle graph }

/-- Changes a graph. Whoever searches it from now on sees the change. -/
def modifyGraph (session : Session) (handle : Handle) (f : SymbolGraph → SymbolGraph) : Session :=
  { session with
    graphs := session.graphs.modify handle fun shared => { shared with graph := f shared.graph } }

/-- Makes a worker, which runs at once. Without a graph it searches an empty one. -/
def newWorker (session : Session) (name : String) (registry : Handle) (graph : Option Handle)
    (script : Script) : Handle × Session :=
  session.create .worker name fun handle session =>
    { session with
      workers := session.workers.insert handle
        { registry := registry, graph := graph.getD handle, script := script } }

/-- Whether a worker serves calls. -/
def isRunning (session : Session) (worker : Handle) : Bool :=
  ((session.workers.get? worker).map WorkerState.running).getD false

/-- Makes a host. -/
def newHost (session : Session) (name : String) (host : HostState) : Handle × Session :=
  session.create .host name fun handle session =>
    { session with hosts := session.hosts.insert handle host }

/-- Attaches a worker to a host that can have one, or detaches the one that it has. -/
def attach (session : Session) (host : Handle) (worker : Option Handle) : Session :=
  ({ session with
      hosts := session.hosts.modify host fun
        | .attached _ => .attached worker
        | state => state }).letGo

/-- The requests that a scripted host has got, oldest first. -/
def requestsOf (session : Session) (host : Handle) : List (Request Fingerprint) :=
  match session.hosts.get? host with
  | some (.scripted _ requests) => requests
  | _ => []

/-- Makes a dispatcher. -/
def newDispatcher (session : Session) (name : String) (dispatcher : Dispatcher) :
    Handle × Session :=
  session.create .dispatcher name fun handle session =>
    { session with dispatchers := session.dispatchers.insert handle dispatcher }

/-- Makes a searcher. -/
def newSearcher (session : Session) (name : String) (searcher : Searcher) : Handle × Session :=
  session.create .searcher name fun handle session =>
    { session with searchers := session.searchers.insert handle searcher }

/-- Makes a listener. -/
def newListener (session : Session) (name : String) (dispatcher : Handle) (config : Config)
    (parent : Option Token) : Handle × Session :=
  let (token, session) := session.newTokenUnder parent
  let (queueToken, session) := session.newTokenUnder (some token)
  session.create .listener name fun handle session =>
    ({ session with
        listeners := session.listeners.insert handle
          { dispatcher := dispatcher, config := config, token := token
            keeper := session.newKeeper config.debounce config.batchLimit queueToken } }).wake
      (.events handle)

/-- The number of events that wait in a listener's queue. -/
def pendingEvents (session : Session) (listener : Handle) : Nat :=
  ((session.listeners.get? listener).map fun state => state.keeper.queue.pending.length).getD 0

/-- Stops a listener. -/
def stopListener (session : Session) (handle : Handle) : Session :=
  match session.listeners.get? handle with
  | some listener => session.cancelToken listener.token
  | none => session

/-- Makes a listener listen to a workspace, unless it is set up not to. Whether it is subscribed is
returned; its subscription ends with its token. -/
def listen (session : Session) (listener workspace : Handle) : Bool × Session :=
  match session.listeners.get? listener with
  | some state =>
    if state.config.enabled then
      let (subscription, session) := session.subscribe workspace (.listener listener)
      let (departure, session) := session.newHandle
      (true,
        ({ session with
            departures := session.departures.insert departure
              ⟨state.token, workspace, subscription⟩ }).wake (.departure departure))
    else (false, session)
  | none => (false, session)

end SolutionWatch.Session
