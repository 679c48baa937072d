import SolutionWatch.Session.Setup

/-!
# Asking a session for something

Some requests wait for their result, and the clock moves on while they do: a delivery, a call to a
worker, a search, the end of a queue. Such a request is an errand of the foreground. Whoever waits
gives up after a day, and the errand is then dropped; a worker goes on with the call it has.

What else is due at the instant when a result is there happens only after that, so whoever wants it
to have happened lets the session settle.
-/

namespace SolutionWatch

/-- What a queue of numbers looks like, and what happened to it since this was last asked. -/
structure QueueReport where
  /-- The time. -/
  now : Nat
  /-- The number of pending items right after the request, before anything due happened. -/
  atOnce : Nat
  /-- The number of pending items. -/
  pending : Nat
  /-- Whether the queue was told to stop. -/
  cancelled : Bool
  /-- What happened, oldest first. -/
  log : List QueueEntry

/-- What a queue of numbers can be asked. -/
inductive QueueRequest where
  /-- Take items in. -/
  | add (items : List Nat)
  /-- Nothing but the report. -/
  | poll
  /-- Stop. -/
  | shutdown
  /-- Stop, and wait until the batch at hand has ended. -/
  | join

/-- The result of sending work items. -/
inductive DispatchResult where
  /-- So many items were delivered. -/
  | sent (count : Nat)
  /-- No worker was available. -/
  | returned (items : List WorkItem)
  /-- The delivery failed. -/
  | failed (failure : Failure)
  /-- The client broke down. -/
  | crashed
  /-- The delivery did not end in time. -/
  | timedOut

/-- The result of a search in a session. -/
inductive FindResult where
  /-- What the search reported and returned. -/
  | log (log : SearchLog)
  /-- The client broke down. -/
  | crashed
  /-- The search did not end in time. -/
  | timedOut

namespace Session

/-- Looks at an errand of the foreground. -/
def lookAtErrand (errand : Handle) (session : Session) : Option Ending × Session :=
  let session := session.errandTurn errand
  (session.answer, { session with answer := none })

/-- Waits for an errand of the foreground. Without an ending the wait was in vain. -/
def awaitErrand (session : Session) (errand : Handle) : Option Ending × Session :=
  match session.answer with
  | some ending => (some ending, { session with answer := none })
  | none =>
    match session.waitFor patience (lookAtErrand errand) with
    | (some ending, session) => (some ending, session)
    | (none, session) => (none, { session with errands := session.errands.erase errand })

/-- Waits for a request as the foreground. -/
def awaitRequest (session : Session) (errand : Handle) (pending : Pending) (token : Token) :
    Option Ending × Session :=
  ({ session with
      errands := session.errands.insert errand ⟨.asker, token, .request pending⟩ }).awaitErrand
    errand

/-- The number of items that wait in a queue of numbers. -/
def pendingNumbers (session : Session) (handle : Handle) : Nat :=
  ((session.queues.get? handle).map fun q => q.keeper.queue.pending.length).getD 0

/-- The report on a queue of numbers once everything due has happened; its log is read and
cleared. -/
def reportQueue (session : Session) (handle : Handle) : QueueReport × Session :=
  let atOnce := session.pendingNumbers handle
  let session := session.settle
  match session.queues.get? handle with
  | none => (⟨session.now, atOnce, 0, false, []⟩, session)
  | some q =>
    (⟨session.now, atOnce, q.keeper.queue.pending.length, q.keeper.queue.cancelled, q.log⟩,
      { session with queues := session.queues.insert handle { q with log := [] } })

/-- Tells a queue of numbers to stop. -/
def stopQueue (session : Session) (handle : Handle) : Session :=
  match session.queues.get? handle with
  | some q => session.cancelToken q.keeper.token
  | none => session

/-- Waits for the end of a queue of numbers. Only the first who does has to wait. -/
def lookAtQueue (handle : Handle) (session : Session) : Option Unit × Session :=
  match session.queues.get? handle with
  | some q => (if q.joined || q.keeper.hasStopped then some () else none, session)
  | none => (some (), session)

/-- Asks a queue of numbers for something. Without a report the wait was in vain. -/
def askQueue (session : Session) (handle : Handle) (request : QueueRequest) :
    Option QueueReport × Session :=
  match request with
  | .add items => ((session.addNumbers handle items).reportQueue handle).map some id
  | .poll => (session.reportQueue handle).map some id
  | .shutdown => ((session.stopQueue handle).reportQueue handle).map some id
  | .join =>
    let (ended, session) := (session.stopQueue handle).waitFor patience (lookAtQueue handle)
    let session :=
      { session with
        queues := session.queues.modify handle fun q => { q with joined := true } }
    match ended with
    | some _ => (session.reportQueue handle).map some id
    | none => (none, session)

/-- Lets a queue of numbers go and some time pass. A batch at hand goes on by itself. -/
def dropQueue (session : Session) (name : String) (handle : Handle) (time : Nat) :
    QueueReport × Session :=
  (((session.unbind .queue name).letGo).advance time).reportQueue handle

/-- Sends work items through a dispatcher. -/
def dispatch (session : Session) (dispatcher : Dispatcher) (items : List WorkItem)
    (token : Token) : DispatchResult × Session :=
  let isLocal := (session.client? dispatcher).isNone
  let (errand, session) := session.newHandle
  match (session.deliver errand .asker token dispatcher items).awaitErrand errand with
  | (some .succeeded, session) =>
    (if isLocal then .returned items else .sent items.length, session)
  | (some (.failed failure), session) => (.failed failure, session)
  | (some _, session) => (.crashed, session)
  | (none, session) => (.timedOut, session)

/-- Works on a batch of events. Without an ending the wait was in vain. -/
def process (session : Session) (dispatcher : Handle) (events : List Event) (token : Token) :
    Option Ending × Session :=
  let (errand, session) := session.newHandle
  (session.processBatch errand .asker token dispatcher events).awaitErrand errand

/-- Sends a request to a worker. Without an ending the wait was in vain. -/
def callWorker (session : Session) (worker : Handle) (request : Request Address)
    (token : Token) : Option Ending × Session :=
  let (errand, session) := session.newHandle
  let (pending, session) := session.post worker request token errand
  session.awaitRequest errand pending token

/-- Carries out a search on a worker that runs. -/
def searchWorker (session : Session) (worker : WorkerState) (request : Request Address)
    (cancelled : Bool) : StreamAnswer × Session :=
  let point : CancelPoint := if cancelled then some 0 else none
  let (answer, registry) :=
    Worker.search (session.source worker.graph) (session.registry worker.registry) request point
  (answer,
    { session with registries := session.registries.insert worker.registry registry })

/-- Sends a search to a worker. A caller whose token is cancelled does not wait for the end. -/
def streamWorker (session : Session) (worker : Handle) (request : Request Address)
    (token : Token) : StreamAnswer × Session :=
  match session.workers.get? worker with
  | some state =>
    if state.running then
      let cancelled := session.isCancelled token
      let (answer, session) := session.searchWorker state request cancelled
      (if cancelled then { answer with outcome := .error .cancelled } else answer, session)
    else (⟨[], .error .workerDisconnected⟩, session)
  | none => (⟨[], .error .workerDisconnected⟩, session)

/-- A worker once its service has got so many calls. -/
def lookAtCalls (worker : Handle) (count : Nat) (session : Session) :
    Option WorkerState × Session :=
  ((session.workers.get? worker).filter fun state => count ≤ state.calls.length, session)

/-- Waits until a worker's service has got so many calls, for ten minutes at most. Without a worker
the wait was in vain. -/
def awaitCalls (session : Session) (worker : Handle) (count : Nat) :
    Option WorkerState × Session := session.waitFor 600000 (lookAtCalls worker count)

/-- The number of findings among some reports. -/
def findings (events : List SearchEvent) : Nat :=
  (events.filter fun
    | .definition _ | .reference _ _ => true
    | _ => false).length

/-- Cancels a token once so many findings were reported. -/
def cancelAfter (session : Session) (token : Token) (point : CancelPoint)
    (events : List SearchEvent) : Session :=
  if point.reached (findings events) then session.cancelToken token else session

/-- Searches in this process without the reports of start and end. -/
def searchHere (session : Session) (graph : Handle) (options : SearchOptions)
    (solution : Solution) (scope : SearchScope) (symbol : SymbolId) (token : Token)
    (point : CancelPoint) : (List SearchEvent × EngineResult) × Session :=
  let effective := if session.isCancelled token then some 0 else point
  let visited := Engine.search (session.source graph) options solution scope symbol effective
  (visited, session.cancelAfter token point visited.1)

/-- The messages before the first that cannot be read, and whether there is none such. -/
def readable : List (Option ReferenceMessage) → List ReferenceMessage × Bool
  | [] => ([], true)
  | none :: _ => ([], false)
  | some message :: rest =>
    let (messages, all) := readable rest
    (message :: messages, all)

/-- Carries out a search with the client of a scripted host. -/
def findScripted (session : Session) (host : Handle) (request : Request Fingerprint) (token : Token)
    (point : CancelPoint) : FindResult × Session :=
  let (response, session) := session.takeResponse host request
  let (messages, all) := readable response.messages
  let messages := if all && response.isLost then [] else messages
  let reading := StreamReading.ofMessages point messages
  let session := session.cancelAfter token point reading.events
  let (errand, session) := session.newHandle
  let act := response.act session.now
  let answer : Option Ending × Session :=
    if all then
      (session.wakeAfter act (.errand errand)).awaitRequest errand (.act act) token
    else (some (.failed (.serialization "a message that cannot be read")), session)
  let cancelled := answer.2.isCancelled token
  let reading := { reading with cancelled := reading.cancelled || cancelled }
  match answer with
  | (some .succeeded, session) => (.log (Query.logWorker reading (.ok ())), session)
  | (some (.failed failure), session) => (.log (Query.logWorker reading (.error failure)), session)
  | (some _, session) => (.crashed, session)
  | (none, session) => (.timedOut, session)

/-- The client that a searcher's requests go to, if there is one, and the registry in which
snapshots are filed for it. -/
def searchClient? (session : Session) (searcher : Searcher) : Option (Client × Handle) := do
  let dispatcher ← session.dispatchers.get? searcher.dispatcher
  return (← session.client? dispatcher, dispatcher.registry)

/-- Carries out a query. -/
def find (session : Session) (searcher : Searcher) (query : Query) (solution : Solution)
    (token : Token) (cancelAt : CancelPoint) : FindResult × Session :=
  let point : CancelPoint := if session.isCancelled token then some 0 else cancelAt
  let client := session.searchClient? searcher
  let source := session.source searcher.graph
  match query.path source solution point client.isSome, client with
  | .worker operation, some (client, registry) =>
    let session :=
      { session with
        counters := { session.counters with
          remoteSearches := session.counters.remoteSearches + 1 }
        registries := session.registries.insert registry
          (SnapshotRegistry.file (session.registry registry) solution) }
    match client with
    | .scripted host =>
      session.findScripted host ⟨solution.fingerprint, operation⟩ token cancelAt
    | .worker handle =>
      let (answer, session) :=
        session.streamWorker handle ⟨.fingerprint solution.fingerprint, operation⟩ token
      let reading := StreamReading.ofMessages point answer.messages
      let session := session.cancelAfter token cancelAt reading.events
      (.log (Query.logWorker reading answer.outcome), session)
  | .cancelled, _ =>
    (.log (.conclude [] (.error .cancelled)), session.cancelAfter token cancelAt [])
  | _, _ =>
    let log := query.logHere source solution point
    let session :=
      { session with
        counters := { session.counters with
          localSearches := session.counters.localSearches + 1 } }
    (.log log, session.cancelAfter token cancelAt log.events)

end Session

end SolutionWatch
