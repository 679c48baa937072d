/-!
# Coalescing work queues

A work queue gathers items and hands them out in batches. The first item that arrives in an empty
queue opens a window; when `delay` has passed since then the pending items become one batch, at
most `limit` of them if there is a limit. Items left over by the limit keep their window, so they
are due at once. Only one batch is worked on at a time: what arrives meanwhile waits.

Time is a number of milliseconds. A queue is a pure state: `add`, `take`, `finish`, `cancel` and
`stop` say how it changes, and `due` says when the next batch may be taken. A queue that was told
to stop still has a consumer until `stop`; both may be possible at one instant, and whoever drives
the queue chooses.
-/

namespace SolutionWatch

/-- What the consumer of a queue is doing. -/
inductive QueuePhase where
  /-- It waits for a window to elapse. -/
  | waiting
  /-- A batch is being worked on. -/
  | working
  /-- It has ended and takes no further batch. -/
  | stopped
  deriving DecidableEq, Repr

/-- A queue that hands out its items in batches. -/
structure WorkQueue (α : Type) where
  /-- The length of a window, in milliseconds. -/
  delay : Nat
  /-- The greatest size of a batch; zero stands for no limit. -/
  limit : Nat := 0
  /-- The items that no batch has taken, oldest first. -/
  pending : List α := []
  /-- When the open window began. -/
  windowStart : Option Nat := none
  /-- What the consumer is doing. -/
  phase : QueuePhase := .waiting
  /-- Whether the queue was told to stop. -/
  cancelled : Bool := false

namespace WorkQueue

variable {α : Type}

/-- Adds items at time `now`. A queue that was told to stop drops them, and adding nothing opens no
window. -/
def add (queue : WorkQueue α) (now : Nat) (items : List α) : WorkQueue α :=
  if queue.cancelled || items.isEmpty then queue
  else { queue with
    pending := queue.pending ++ items
    windowStart := queue.windowStart.or (some now) }

/-- The time at which the next batch may be taken. -/
def due (queue : WorkQueue α) : Option Nat :=
  if queue.phase = .waiting then queue.windowStart.map (· + queue.delay) else none

/-- The number of items in the next batch. -/
def batchSize (queue : WorkQueue α) : Nat :=
  if queue.limit = 0 then queue.pending.length else min queue.limit queue.pending.length

/-- Takes the next batch. The window stays open as long as items are left. -/
def take (queue : WorkQueue α) : List α × WorkQueue α :=
  let rest := queue.pending.drop queue.batchSize
  (queue.pending.take queue.batchSize,
    { queue with
      pending := rest
      windowStart := if rest.isEmpty then none else queue.windowStart
      phase := .working })

/-- The batch that was worked on has ended. -/
def finish (queue : WorkQueue α) : WorkQueue α := { queue with phase := .waiting }

/-- Tells the queue to stop. A batch that is being worked on is left to end by itself. -/
def cancel (queue : WorkQueue α) : WorkQueue α := { queue with cancelled := true }

/-- Ends the consumer if it was told to stop and has no batch in its hands. -/
def stop (queue : WorkQueue α) : WorkQueue α :=
  if queue.cancelled && queue.phase = .waiting then { queue with phase := .stopped } else queue

/-- A batch and what it leaves are what was pending. -/
theorem take_append_pending (queue : WorkQueue α) :
    queue.take.1 ++ queue.take.2.pending = queue.pending :=
  List.take_append_drop _ _

end WorkQueue

end SolutionWatch
