import SolutionWatch.Session.Errand

/-!
# Turns

`Session.giveTurn` is what a task does in its turn. The keepers of queues hand their batches to
tasks of their own: a batch of numbers is processed by a script, a batch of events becomes an
errand. A keeper goes on when that task has ended.
-/

namespace SolutionWatch

/-- The log entry for the end of a batch. A batch that gave no result leaves none. -/
def Ending.logEntry (time : Nat) : Ending → List QueueEntry
  | .succeeded => [.ended time (.ok ())]
  | .failed failure => [.ended time (.error failure)]
  | .crashed | .refused => []

namespace Session

/-- The turn of the keeper of a queue of numbers. -/
def numbersTurn (session : Session) (handle : Handle) : Session :=
  match session.queues.get? handle with
  | none => session
  | some q =>
    let (move, keeper) := q.keeper.notice.turnWindowFirst session.now
    let session := { session with counters := q.keeper.count session.counters }
    match move with
    | .rest =>
      { session with queues := session.queues.insert handle { q with keeper := keeper } }
    | .sleep time =>
      ({ session with queues := session.queues.insert handle { q with keeper := keeper } }).wakeAt
        time (.numbers handle)
    | .hand batch =>
      ({ session with
          queues := session.queues.insert handle
            { q with keeper := keeper, processing := .handed batch } }).wake (.batch handle)

/-- Ends a batch of numbers if the processor is done with it. -/
def finishBatch (session : Session) (handle : Handle) (token : Token) (act : Act) : Session :=
  match session.lookAtAct act token with
  | (none, session) => session
  | (some ending, session) =>
    ({ session with
        queues := session.queues.modify handle fun q =>
          { q with
            keeper := q.keeper.learn ending, processing := .idle
            log := q.log ++ ending.logEntry session.now } }).wake (.numbers handle)

/-- The turn of a batch of numbers. A processor that refuses a batch does so at once. -/
def batchTurn (session : Session) (handle : Handle) : Session :=
  match session.queues.get? handle with
  | none => session
  | some q =>
    match q.processing with
    | .idle => session
    | .busy act => session.finishBatch handle q.keeper.token act
    | .handed batch =>
      let (response, script) := q.script.take
      let act : Act :=
        if response.reply = .refuse then ⟨session.now, .refuse⟩ else response.act session.now
      let session :=
        { session with
          queues := session.queues.insert handle
            { q with
              script := script, processing := .busy act
              log := q.log ++ [QueueEntry.started session.now batch] } }
      (session.wakeAfter act (.batch handle)).finishBatch handle q.keeper.token act

/-- The turn of the keeper of a listener's queue. -/
def eventsTurn (session : Session) (handle : Handle) : Session :=
  match session.listeners.get? handle with
  | none => session
  | some listener =>
    let (move, keeper) := listener.keeper.notice.turnWindowFirst session.now
    let session :=
      { session with
        counters := listener.keeper.count session.counters
        listeners := session.listeners.insert handle { listener with keeper := keeper } }
    match move with
    | .rest => session
    | .sleep time => session.wakeAt time (.events handle)
    | .hand batch =>
      let (errand, session) := session.newHandle
      ({ session with
          errands := session.errands.insert errand
            ⟨.listener handle, keeper.token, .events listener.dispatcher batch⟩ }).wake
        (.errand errand)

/-- The turn of the end of a listener's subscription. -/
def departureTurn (session : Session) (handle : Handle) : Session :=
  match session.departures.get? handle with
  | none => session
  | some departure =>
    if session.isCancelled departure.token then
      ({ session with departures := session.departures.erase handle }).unsubscribe
        departure.workspace departure.subscription
    else session

/-- What a task does in its turn. -/
def giveTurn (session : Session) : Task → Session
  | .numbers handle => session.numbersTurn handle
  | .batch handle => session.batchTurn handle
  | .events handle => session.eventsTurn handle
  | .errand handle => session.errandTurn handle
  | .inbox handle => session.inboxTurn handle
  | .call handle => session.callTurn handle
  | .departure handle => session.departureTurn handle

end Session

end SolutionWatch
