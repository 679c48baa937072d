import SolutionWatch.Diff
import SolutionWatch.Registry
import SolutionWatch.Request

/-!
# Delivering work to a worker

A batch of events becomes a list of work items, in the order of the events. The items are delivered
to a worker one at a time: the next request goes out only after the one before it succeeded, and
its snapshot is registered just before. Cancellation is looked at between requests, and the first
request that fails ends the delivery.
-/

namespace SolutionWatch

/-- The work items of a batch of events. Events of several workspaces cannot be in one batch. -/
def Event.batchItems (events : List Event) (cancelled : Bool) : Except Failure (List WorkItem) :=
  match events with
  | [] => .ok []
  | first :: _ =>
    match events.find? fun event => event.workspace ≠ first.workspace with
    | some stray => .error (.workspaceMismatch first.workspace stray.workspace)
    | none =>
      if cancelled then .error .cancelled
      else do
        let items ← events.mapM Event.diff
        return items.flatten

/-- Work items on their way to a worker. -/
structure Delivery where
  /-- The items that have not been delivered; the first of them is the next. -/
  remaining : List WorkItem
  /-- The number of items that have been delivered. -/
  sent : Nat := 0

/-- What a delivery does next. -/
inductive Turn where
  /-- Nothing: every item was delivered. -/
  | done
  /-- Nothing: the delivery was cancelled. -/
  | cancelled
  /-- Send a request. -/
  | send (request : Request Fingerprint)
  deriving DecidableEq, Repr

namespace Delivery

/-- What a delivery does next, and the registry in which the next item's snapshot is filed. -/
def turn (delivery : Delivery) (cancelled : Bool) (registry : SnapshotRegistry) :
    Turn × SnapshotRegistry :=
  match delivery.remaining with
  | [] => (.done, registry)
  | item :: _ =>
    if cancelled then (.cancelled, registry)
    else (.send item.request, SnapshotRegistry.file registry item.solution)

/-- The request that was sent has succeeded. -/
def advance (delivery : Delivery) : Delivery := ⟨delivery.remaining.tail, delivery.sent + 1⟩

end Delivery

end SolutionWatch
