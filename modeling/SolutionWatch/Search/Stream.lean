import SolutionWatch.Request
import SolutionWatch.Search.Engine

/-!
# Reading a worker's messages

A search on a worker reports what the worker's messages say. A definition is reported and
remembered; a reference is reported with the latest symbol that was announced under its identity,
and dropped if there is none. The first completion ends the reading, so nothing after it counts.

A worker that ends its call without a completion has gone away during the search, unless its call
failed: then that failure is the result. A search that was cancelled is cancelled, whatever the
worker did.
-/

namespace SolutionWatch

/-- What was read from a stream of messages. -/
structure StreamReading where
  /-- The reports, in order. -/
  events : List SearchEvent
  /-- The completion, if one was read. -/
  completion : Option Completion
  /-- Whether the search was cancelled during the reading. -/
  cancelled : Bool
  deriving DecidableEq, Repr

namespace StreamReading

/-- Reads messages after `delivered` findings were reported; `known` lists the announced symbols,
the latest first. -/
def read (point : CancelPoint) (known : List SymbolInfo) (delivered : Nat) :
    List ReferenceMessage → StreamReading
  | [] => ⟨[], none, point.reached delivered⟩
  | message :: rest =>
    if point.reached delivered then ⟨[], none, true⟩
    else
      match message with
      | .definitionFound symbol =>
        let reading := read point (symbol :: known) (delivered + 1) rest
        { reading with events := .definition symbol :: reading.events }
      | .referenceFound id location =>
        match known.find? fun symbol => symbol.id = id with
        | some symbol =>
          let reading := read point known (delivered + 1) rest
          { reading with events := .reference symbol location :: reading.events }
        | none => read point known delivered rest
      | .completed completion => ⟨[], some completion, false⟩

/-- Reads a stream from its start. -/
def ofMessages (point : CancelPoint) (messages : List ReferenceMessage) : StreamReading :=
  read point [] 0 messages

/-- The result of the search whose call ended with `outcome`. -/
def result (reading : StreamReading) (outcome : Except Failure Unit) : Except Failure Completion :=
  if reading.cancelled then .error .cancelled
  else
    match outcome, reading.completion with
    | .error failure, _ => .error failure
    | .ok _, some completion => .ok completion
    | .ok _, none => .error .workerDisconnected

end StreamReading

/-- What a worker does in answer to a search: the messages that it sends and how its call ends. -/
structure StreamAnswer where
  /-- The messages, in order. -/
  messages : List ReferenceMessage
  /-- How the call ends. -/
  outcome : Except Failure Unit

end SolutionWatch
