/-!
# Counters

What the pipeline has done so far, in numbers: batches that went through and batches that failed,
work items that reached a worker, batches that no worker was available for, and searches by where
they were carried out. A batch that was cancelled is neither counted as flushed nor as failed.
-/

namespace SolutionWatch

/-- The numbers of things that have happened. -/
structure Counters where
  /-- Batches that went through. -/
  batchesFlushed : Nat := 0
  /-- Batches that failed. -/
  batchesFailed : Nat := 0
  /-- Work items that reached a worker. -/
  workItemsSent : Nat := 0
  /-- Batches of work items that no worker was available for. -/
  batchesNotDelegated : Nat := 0
  /-- Searches that a worker was asked for. -/
  remoteSearches : Nat := 0
  /-- Searches in this process. -/
  localSearches : Nat := 0
  deriving DecidableEq, Repr

end SolutionWatch
