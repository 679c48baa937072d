import SolutionWatch.Cancellation
import SolutionWatch.Counters
import SolutionWatch.Session.Script
import SolutionWatch.WorkQueue

/-!
# Keepers of queues

A keeper is the task that looks after a work queue. It acts only when it is given a turn, and it is
given one when a window opens in an empty queue, when the window elapses, when the batch that it
handed out has ended, and when its token is cancelled. `Keeper.turn` says what it does: it rests, it
asks to be woken at the end of the window, or it hands out the next batch. A turn that comes for no
reason changes nothing.

When a window has elapsed and the token is cancelled, a keeper may look at either first.
`Keeper.turn` looks at the token first, `Keeper.turnWindowFirst` at the window. The keepers of a
session look at the window first.
-/

namespace SolutionWatch

/-- A work queue and the task that looks after it. -/
structure Keeper (α : Type) where
  /-- The queue. -/
  queue : WorkQueue α
  /-- The token that stops the keeper. -/
  token : Token
  /-- Whether it has asked to be woken at the end of the open window. -/
  isArmed : Bool := false
  /-- How the batch that it handed out has ended, until it notices. -/
  outcome : Option Ending := none

/-- What a keeper does in its turn. -/
inductive KeeperMove (α : Type) where
  /-- Nothing. -/
  | rest
  /-- It asks to be woken. -/
  | sleep (time : Nat)
  /-- It hands out a batch. -/
  | hand (batch : List α)

/-- The counters after a batch has ended. A batch that was cancelled is not counted. -/
def Counters.afterBatch (counters : Counters) (cancelled : Bool) : Ending → Counters
  | .succeeded => { counters with batchesFlushed := counters.batchesFlushed + 1 }
  | .failed failure =>
    if cancelled || failure.isCancelled then counters
    else { counters with batchesFailed := counters.batchesFailed + 1 }
  | .refused =>
    if cancelled then counters
    else { counters with batchesFailed := counters.batchesFailed + 1 }
  | .crashed => { counters with batchesFailed := counters.batchesFailed + 1 }

namespace Keeper

variable {α : Type}

/-- Whether the keeper waits for a window or for the end of one. -/
def isIdle (keeper : Keeper α) : Bool := keeper.queue.phase = .waiting

/-- Whether the keeper has ended. -/
def hasStopped (keeper : Keeper α) : Bool := keeper.queue.phase = .stopped

/-- Adds items to the queue. Whether the keeper has to be woken for them is returned: they opened a
window, and it waits for one. -/
def add (keeper : Keeper α) (now : Nat) (items : List α) : Bool × Keeper α :=
  let queue := keeper.queue.add now items
  (keeper.queue.windowStart.isNone && queue.windowStart.isSome && keeper.isIdle,
    { keeper with queue := queue })

/-- Tells the queue to stop. -/
def cancel (keeper : Keeper α) : Keeper α := { keeper with queue := keeper.queue.cancel }

/-- The keeper learns that the batch at hand has ended. -/
def learn (keeper : Keeper α) (ending : Ending) : Keeper α :=
  { keeper with outcome := some ending }

/-- The counters after the keeper has noticed how its batch ended. -/
def count (keeper : Keeper α) (counters : Counters) : Counters :=
  match keeper.outcome with
  | some ending => counters.afterBatch keeper.queue.cancelled ending
  | none => counters

/-- The keeper notices that its batch has ended. -/
def notice (keeper : Keeper α) : Keeper α :=
  match keeper.outcome with
  | some _ => { keeper with queue := keeper.queue.finish, outcome := none }
  | none => keeper

/-- What the keeper does in its turn, once it has noticed what there is to notice, if it looks at its
token first. A keeper that was told to stop takes no further batch then. -/
def turn (keeper : Keeper α) (now : Nat) : KeeperMove α × Keeper α :=
  if keeper.isIdle then
    if keeper.queue.cancelled then (.rest, { keeper with queue := keeper.queue.stop })
    else
      match keeper.queue.due with
      | none => (.rest, keeper)
      | some time =>
        if time ≤ now then
          let (batch, queue) := keeper.queue.take
          (.hand batch, { keeper with queue := queue, isArmed := false })
        else if keeper.isArmed then (.rest, keeper)
        else (.sleep time, { keeper with isArmed := true })
  else (.rest, keeper)

/-- What the keeper does in its turn, once it has noticed what there is to notice, if it looks at the
window first. A keeper that was told to stop takes a batch whose window has elapsed then. -/
def turnWindowFirst (keeper : Keeper α) (now : Nat) : KeeperMove α × Keeper α :=
  if keeper.queue.due.any (· ≤ now) then
    let (batch, queue) := keeper.queue.take
    (.hand batch, { keeper with queue := queue, isArmed := false })
  else keeper.turn now

end Keeper

end SolutionWatch
