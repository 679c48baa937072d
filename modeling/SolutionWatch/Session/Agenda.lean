import SolutionWatch.Session.State

/-!
# Waking tasks

A task is woken by putting it at the end of the agenda, unless it stands there already. An alarm
wakes its task when its time has come, and alarms for one time go off in the order in which they
were set. Cancelling a token wakes the tasks that wait for just that.
-/

namespace SolutionWatch

/-- Whether a request ends when its token is cancelled. -/
def Pending.heedsCancel (pending : Pending) (now : Nat) : Bool :=
  match pending with
  | .act own => own.awaitsCancel now
  | .call _ => true
  | .ended _ => false

/-- Whether an errand waits for a request that ends when its token is cancelled. -/
def Errand.heedsCancel (errand : Errand) (now : Nat) : Bool :=
  match errand.stage with
  | .events _ _ => false
  | .request pending => pending.heedsCancel now
  | .delivery _ _ _ pending => pending.heedsCancel now

/-- Whether a batch of numbers ends when its token is cancelled. -/
def NumberQueue.heedsCancel (queue : NumberQueue) (now : Nat) : Bool :=
  match queue.processing with
  | .busy act => act.awaitsCancel now
  | _ => false

namespace Session

/-- Whether a task is what the foreground itself is doing. -/
def isForeground (session : Session) : Task → Bool
  | .errand handle => ((session.errands.get? handle).map Errand.owner) = some .asker
  | _ => false

/-- Wakes a task. The foreground needs no waking. -/
def wake (session : Session) (task : Task) : Session :=
  if session.agenda.contains task || session.isForeground task then session
  else { session with agenda := session.agenda ++ [task] }

/-- Sets an alarm for a task. -/
def wakeAt (session : Session) (time : Nat) (task : Task) : Session :=
  { session with alarms := session.alarms ++ [(time, task)] }

/-- Sets an alarm for the end of the delay of a call, if it has one. -/
def wakeAfter (session : Session) (act : Act) (task : Task) : Session :=
  if session.now < act.due then session.wakeAt act.due task else session

/-- The time of the next alarm. -/
def nextAlarm? (session : Session) : Option Nat := (session.alarms.map Prod.fst).min?

/-- Moves the clock to a time, and wakes every task whose alarm goes off until then. -/
def moveClock (session : Session) (time : Nat) : Session :=
  let due := session.alarms.filter fun alarm => alarm.1 ≤ time
  let session :=
    { session with
      now := max session.now time
      alarms := session.alarms.filter fun alarm => !(alarm.1 ≤ time) }
  due.foldl (fun session alarm => session.wake alarm.2) session

/-- The tasks that wait for a token to be cancelled and whose token is. -/
def heeding (session : Session) : List Task :=
  let cancelled := session.isCancelled
  (session.queues.entries.filterMap fun e =>
    if cancelled e.2.keeper.token && e.2.keeper.isIdle then some (.numbers e.1) else none) ++
  (session.queues.entries.filterMap fun e =>
    if cancelled e.2.keeper.token && e.2.heedsCancel session.now then some (.batch e.1)
    else none) ++
  (session.listeners.entries.filterMap fun e =>
    if cancelled e.2.keeper.token && e.2.keeper.isIdle then some (.events e.1) else none) ++
  (session.errands.entries.filterMap fun e =>
    if cancelled e.2.token && e.2.heedsCancel session.now then some (.errand e.1)
    else none) ++
  (session.calls.entries.filterMap fun e =>
    if cancelled e.2.token && (e.2.act.any fun act => act.awaitsCancel session.now) then
      some (.call e.1)
    else none) ++
  session.departures.entries.filterMap fun e =>
    if cancelled e.2.token then some (.departure e.1) else none

/-- Cancels a token: its queues take nothing in any more, and whoever waits for it is woken. -/
def cancelToken (session : Session) (token : Token) : Session :=
  if session.isCancelled token then session
  else
    let session := { session with tokens := session.tokens.cancel token }
    let session :=
      { session with
        queues := session.queues.mapValues fun q =>
          if session.isCancelled q.keeper.token then { q with keeper := q.keeper.cancel } else q
        listeners := session.listeners.mapValues fun listener =>
          if session.isCancelled listener.keeper.token then
            { listener with keeper := listener.keeper.cancel }
          else listener }
    session.heeding.foldl wake session

/-- Adds numbers to a queue. -/
def addNumbers (session : Session) (handle : Handle) (items : List Nat) : Session :=
  match session.queues.get? handle with
  | none => session
  | some q =>
    let (isAwaited, keeper) := q.keeper.add session.now items
    let session :=
      { session with queues := session.queues.insert handle { q with keeper := keeper } }
    if isAwaited then session.wake (.numbers handle) else session

/-- Adds an event to the queue of a listener. -/
def addEvent (session : Session) (handle : Handle) (event : Event) : Session :=
  match session.listeners.get? handle with
  | none => session
  | some listener =>
    let (isAwaited, keeper) := listener.keeper.add session.now [event]
    let session :=
      { session with
        listeners := session.listeners.insert handle { listener with keeper := keeper } }
    if isAwaited then session.wake (.events handle) else session

end Session

end SolutionWatch
