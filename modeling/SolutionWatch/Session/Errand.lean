import SolutionWatch.Session.Agenda

/-!
# Errands and calls

An errand sends requests, one after the other, and waits for each. A request to the client of a
scripted host is carried out by the errand itself, so requests that take no time follow one another
within one turn. A request to a worker is a call: it goes into the worker's inbox, becomes a task of
its own there, and wakes the errand when it ends.

A call looks its snapshot up only when it has its first turn. If its worker stops, the call is lost,
and whoever waits for it finds the worker gone. An errand stops waiting for a call as soon as its
token is cancelled; the call itself goes on.
-/

namespace SolutionWatch

/-- What is waited for after a call has ended. -/
def Pending.learn (pending : Pending) (call : Handle) (ending : Ending) : Pending :=
  match pending with
  | .call other => if other = call then .ended ending else pending
  | _ => pending

/-- How far an errand is after a call has ended. -/
def ErrandStage.learn (stage : ErrandStage) (call : Handle) (ending : Ending) : ErrandStage :=
  match stage with
  | .events dispatcher batch => .events dispatcher batch
  | .request pending => .request (pending.learn call ending)
  | .delivery client registry rest pending =>
    .delivery client registry rest (pending.learn call ending)

/-- What came of a delivery in one turn. -/
inductive DeliveryProgress where
  /-- It is over. -/
  | over (ending : Ending)
  /-- It waits for a request. -/
  | waiting (delivery : Delivery) (pending : Pending)

namespace Session

/-- How a scripted call has ended, if it has. -/
def lookAtAct (session : Session) (act : Act) (token : Token) : Option Ending × Session :=
  if session.now < act.due then (none, session)
  else
    match act.reply with
    | .succeed => (some .succeeded, session)
    | .fail failure => (some (.failed failure), session)
    | .crash => (some .crashed, session)
    | .refuse => (some .refused, session)
    | .cancel none => (some .succeeded, session)
    | .cancel (some other) => (some .succeeded, session.cancelToken other)
    | .awaitCancel =>
      (if session.isCancelled token then some (.failed .cancelled) else none, session)

/-- How a request has ended, if it has. Nobody waits for a call under a cancelled token. -/
def lookAt (session : Session) (pending : Pending) (token : Token) : Option Ending × Session :=
  match pending with
  | .act act => session.lookAtAct act token
  | .call _ => (if session.isCancelled token then some (.failed .cancelled) else none, session)
  | .ended ending => (some ending, session)

/-- Takes the next response of a scripted host, which keeps the request. -/
def takeResponse (session : Session) (host : Handle) (request : Request Fingerprint) :
    Response × Session :=
  match session.hosts.get? host with
  | some (.scripted script requests) =>
    let (response, rest) := script.take
    (response,
      { session with hosts := session.hosts.insert host (.scripted rest (requests ++ [request])) })
  | _ => ({}, session)

/-- Sends a request to a worker. One that has stopped is found to be gone. -/
def post (session : Session) (worker : Handle) (request : Request Address) (token : Token)
    (errand : Handle) : Pending × Session :=
  match session.workers.get? worker with
  | some state =>
    if state.running then
      let (call, session) := session.newHandle
      (.call call,
        ({ session with
            calls := session.calls.insert call
              { worker := worker, request := request, token := token, errand := errand }
            workers := session.workers.insert worker
              { state with inbox := state.inbox ++ [call] } }).wake (.inbox worker))
    else (.ended (.failed .workerDisconnected), session)
  | none => (.ended (.failed .workerDisconnected), session)

/-- Sends a request to a client. -/
def invoke (session : Session) (client : Client) (request : Request Fingerprint) (token : Token)
    (errand : Handle) : Pending × Session :=
  match client with
  | .worker worker =>
    session.post worker ⟨.fingerprint request.address, request.operation⟩ token errand
  | .scripted host =>
    let (response, session) := session.takeResponse host request
    let act := response.act session.now
    (.act act, session.wakeAfter act (.errand errand))

/-- Counts a work item as delivered. -/
def countSent (session : Session) : Session :=
  { session with
    counters := { session.counters with workItemsSent := session.counters.workItemsSent + 1 } }

/-- Sends the requests of a delivery until one has to be waited for; no more than `limit` of them
end at once. -/
def sendFrom (errand : Handle) (client : Client) (registry : Handle) (token : Token) :
    Nat → Delivery → Session → DeliveryProgress × Session
  | 0, _, session => (.over .succeeded, session)
  | limit + 1, delivery, session =>
    match delivery.turn (session.isCancelled token) (session.registry registry) with
    | (.done, _) => (.over .succeeded, session)
    | (.cancelled, _) => (.over (.failed .cancelled), session)
    | (.send request, filed) =>
      let session := { session with registries := session.registries.insert registry filed }
      let (pending, session) := session.invoke client request token errand
      match session.lookAt pending token with
      | (none, session) => (.waiting delivery pending, session)
      | (some .succeeded, session) =>
        sendFrom errand client registry token limit delivery.advance session.countSent
      | (some ending, session) => (.over ending, session)

/-- An errand is over. -/
def endErrand (session : Session) (handle : Handle) (owner : ErrandOwner) (ending : Ending) :
    Session :=
  let session := { session with errands := session.errands.erase handle }
  match owner with
  | .asker => { session with answer := some ending }
  | .listener listener =>
    ({ session with
        listeners := session.listeners.modify listener fun state =>
          { state with keeper := state.keeper.learn ending } }).wake (.events listener)

/-- Goes on with a delivery. -/
def carryOn (session : Session) (handle : Handle) (owner : ErrandOwner) (token : Token)
    (client : Client) (registry : Handle) (delivery : Delivery) : Session :=
  match sendFrom handle client registry token (delivery.remaining.length + 1) delivery session with
  | (.over ending, session) => session.endErrand handle owner ending
  | (.waiting delivery pending, session) =>
    { session with
      errands := session.errands.insert handle
        ⟨owner, token, .delivery client registry delivery pending⟩ }

/-- Starts to deliver items to the client of a dispatcher. Without a client nothing is sent, and
that is no failure. -/
def deliver (session : Session) (handle : Handle) (owner : ErrandOwner) (token : Token)
    (dispatcher : Dispatcher) (items : List WorkItem) : Session :=
  match session.client? dispatcher with
  | some client => session.carryOn handle owner token client dispatcher.registry ⟨items, 0⟩
  | none =>
    ({ session with
        counters := { session.counters with
          batchesNotDelegated := session.counters.batchesNotDelegated + 1 } }).endErrand handle
      owner .succeeded

/-- Starts to work on a batch of events: delivers its items through a dispatcher. -/
def processBatch (session : Session) (handle : Handle) (owner : ErrandOwner) (token : Token)
    (dispatcher : Handle) (events : List Event) : Session :=
  if events.isEmpty then session.endErrand handle owner .succeeded
  else
    match Event.batchItems events (session.isCancelled token),
        session.dispatchers.get? dispatcher with
    | .error failure, _ => session.endErrand handle owner (.failed failure)
    | .ok items, some dispatcher => session.deliver handle owner token dispatcher items
    | .ok _, none => session.endErrand handle owner .succeeded

/-- The turn of an errand. -/
def errandTurn (session : Session) (handle : Handle) : Session :=
  match session.errands.get? handle with
  | none => session
  | some errand =>
    match errand.stage with
    | .events dispatcher events =>
      session.processBatch handle errand.owner errand.token dispatcher events
    | .request pending =>
      match session.lookAt pending errand.token with
      | (none, session) => session
      | (some ending, session) => session.endErrand handle errand.owner ending
    | .delivery client registry delivery pending =>
      match session.lookAt pending errand.token with
      | (none, session) => session
      | (some .succeeded, session) =>
        session.countSent.carryOn handle errand.owner errand.token client registry
          delivery.advance
      | (some ending, session) => session.endErrand handle errand.owner ending

/-- A call has ended, and the errand that waits for it is woken. -/
def endCall (session : Session) (handle : Handle) (call : Call) (ending : Ending) : Session :=
  let session := { session with calls := session.calls.erase handle }
  match session.errands.get? call.errand with
  | none => session
  | some errand =>
    ({ session with
        errands := session.errands.insert call.errand
          { errand with stage := errand.stage.learn handle ending } }).wake (.errand call.errand)

/-- Ends a call if the worker's service is done with it. A service that breaks down takes the call
with it. -/
def finishCall (session : Session) (handle : Handle) (call : Call) (act : Act) : Session :=
  match session.lookAtAct act call.token with
  | (none, session) => session
  | (some .crashed, session) => session.endCall handle call (.failed .workerDisconnected)
  | (some ending, session) => session.endCall handle call ending

/-- Begins with a call: the worker's service gets it, or the request is refused. -/
def beginCall (session : Session) (handle : Handle) (call : Call) (worker : WorkerState) :
    Session :=
  let (accepted, registry) := Worker.accept (session.registry worker.registry) call.request
  let session :=
    { session with registries := session.registries.insert worker.registry registry }
  match accepted with
  | .error failure => session.endCall handle call (.failed failure)
  | .ok serviceCall =>
    let (response, script) := worker.script.take
    let act := response.act session.now
    let call := { call with act := some act }
    let session :=
      { session with
        workers := session.workers.insert call.worker
          { worker with script := script, calls := worker.calls ++ [serviceCall] }
        calls := session.calls.insert handle call }
    (session.wakeAfter act (.call handle)).finishCall handle call act

/-- The turn of a call. -/
def callTurn (session : Session) (handle : Handle) : Session :=
  match session.calls.get? handle with
  | none => session
  | some call =>
    match (session.workers.get? call.worker).filter WorkerState.running, call.act with
    | none, _ => session.endCall handle call (.failed .workerDisconnected)
    | some worker, none => session.beginCall handle call worker
    | some _, some act => session.finishCall handle call act

/-- The turn of a worker's inbox: the calls in it become tasks, or are lost if the worker has
stopped. -/
def inboxTurn (session : Session) (worker : Handle) : Session :=
  match session.workers.get? worker with
  | none => session
  | some state =>
    let session :=
      { session with workers := session.workers.insert worker { state with inbox := [] } }
    state.inbox.foldl (fun session call => session.wake (.call call)) session

/-- Stops a worker. Its calls are lost. -/
def stopWorker (session : Session) (worker : Handle) : Session :=
  let session :=
    { session with
      workers := session.workers.modify worker fun state => { state with running := false } }
  (session.calls.entries.filter fun e => e.2.worker = worker).foldl
    (fun session e => session.wake (.call e.1)) session

end Session

end SolutionWatch
