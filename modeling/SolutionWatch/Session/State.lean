import SolutionWatch.Config
import SolutionWatch.Counters
import SolutionWatch.Delivery
import SolutionWatch.Session.Action
import SolutionWatch.Session.Keeper
import SolutionWatch.Worker

/-!
# The state of a session

A session is a pipeline of workspaces, listeners, dispatchers, hosts and workers, together with
queues of numbers, on a clock that counts milliseconds and moves only when it is told to or when
somebody waits. Every object has a number. Objects are bound to names, and an object that nothing
holds any more is let go.

Work is done by tasks that take turns. A task that has something to do stands on the agenda, at most
once, and the first one there has the next turn; a task that waits for a time has an alarm. A turn
goes on until the task has to wait for another one or for a time. Whoever asks the session for
something is not on the agenda: the foreground goes first when the clock moves, and else has its
turn when no task has anything to do.
-/

namespace SolutionWatch

/-- A kind of object that has a name. -/
inductive ObjectKind where
  /-- A workspace. -/
  | workspace
  /-- A queue of numbers. -/
  | queue
  /-- A registry of snapshots. -/
  | registry
  /-- A graph of symbols. -/
  | graph
  /-- A worker. -/
  | worker
  /-- A host. -/
  | host
  /-- A dispatcher. -/
  | dispatcher
  /-- A listener. -/
  | listener
  /-- A searcher. -/
  | searcher
  deriving DecidableEq, Repr

/-- The name of an object. Each kind has names of its own. -/
structure ObjectName where
  /-- The kind of object. -/
  kind : ObjectKind
  /-- The name. -/
  text : String
  deriving DecidableEq, Repr

/-- What can be given a turn. -/
inductive Task where
  /-- The keeper of a queue of numbers. -/
  | numbers (queue : Handle)
  /-- The processing of a batch of numbers. -/
  | batch (queue : Handle)
  /-- The keeper of a listener's queue. -/
  | events (listener : Handle)
  /-- The delivery of what a listener's batch or a request comes to. -/
  | errand (errand : Handle)
  /-- The inbox of a worker. -/
  | inbox (worker : Handle)
  /-- A call that a worker carries out. -/
  | call (call : Handle)
  /-- The end of a listener's subscription. -/
  | departure (departure : Handle)
  deriving DecidableEq, Repr

/-- An entry in the log of a queue of numbers. -/
inductive QueueEntry where
  /-- A batch was begun. -/
  | started (time : Nat) (batch : List Nat)
  /-- The batch ended. -/
  | ended (time : Nat) (result : Except Failure Unit)

/-- What the processor of a queue of numbers is doing. -/
inductive Processing where
  /-- Nothing. -/
  | idle
  /-- It was handed a batch and has not begun. -/
  | handed (batch : List Nat)
  /-- It works on a batch. -/
  | busy (act : Act)

/-- A queue of numbers whose processor follows a script. -/
structure NumberQueue where
  /-- The queue and its keeper. -/
  keeper : Keeper Nat
  /-- What the processor does with the batches to come. -/
  script : Script
  /-- What the processor is doing. -/
  processing : Processing := .idle
  /-- What happened since the log was last read, oldest first. -/
  log : List QueueEntry := []
  /-- Whether somebody has waited for the queue to end. -/
  joined : Bool := false

/-- A graph that several parts of a session search, and that may still grow. -/
structure SharedGraph where
  /-- The symbols. -/
  graph : SymbolGraph := {}
  /-- The symbols of which asking for the references breaks a search down. -/
  broken : List SymbolId := []

/-- A worker in this process, whose service records its calls and follows a script. -/
structure WorkerState where
  /-- The registry that requests are resolved in. -/
  registry : Handle
  /-- The graph that the worker searches. -/
  graph : Handle
  /-- What the service does with the calls to come. -/
  script : Script
  /-- Whether the worker serves calls. -/
  running : Bool := true
  /-- The calls that were sent to the worker and that it has not looked at, oldest first. -/
  inbox : List Handle := []
  /-- The calls that the service got, oldest first. -/
  calls : List ServiceCall := []

/-- What a client is asked for. -/
inductive HostState where
  /-- A host that never has a client. -/
  | unavailable
  /-- A host that has the attached worker as its client while that worker runs. -/
  | attached (worker : Option Handle)
  /-- A host that always has a client, which follows a script and keeps the requests it got. -/
  | scripted (script : Script) (requests : List (Request Fingerprint))

/-- What sends work to a host's client. -/
structure Dispatcher where
  /-- The host that is asked for a client. -/
  host : Handle
  /-- The registry that snapshots are filed in. -/
  registry : Handle
  /-- Whether the host is asked at all. -/
  preferWorker : Bool := true
  deriving DecidableEq, Repr

/-- What requests are sent to. -/
inductive Client where
  /-- A worker in this process. -/
  | worker (handle : Handle)
  /-- The client of a scripted host. -/
  | scripted (host : Handle)
  deriving DecidableEq, Repr

/-- What queues the events of workspaces and delivers what has to be looked at again. -/
structure Listener where
  /-- What delivers the work items. -/
  dispatcher : Handle
  /-- How the listener is set up. -/
  config : Config
  /-- The token that stops the listener. -/
  token : Token
  /-- The events that wait, and their keeper. -/
  keeper : Keeper Event

/-- What starts searches. -/
structure Searcher where
  /-- What finds a worker for a search. -/
  dispatcher : Handle
  /-- The graph that is searched in this process. -/
  graph : Handle
  /-- The options of a search that is given none. -/
  options : SearchOptions

/-- A listener's subscription, which ends when the listener's token is cancelled. -/
structure Departure where
  /-- The listener's token. -/
  token : Token
  /-- The workspace. -/
  workspace : Handle
  /-- The number of the subscription. -/
  subscription : Nat

/-- A call that was sent to a worker. -/
structure Call where
  /-- The worker. -/
  worker : Handle
  /-- The request. -/
  request : Request Address
  /-- The token that the call runs under. -/
  token : Token
  /-- The errand that waits for the call, or has stopped waiting. -/
  errand : Handle
  /-- What the worker's service is doing, once it got the call. -/
  act : Option Act := none

/-- A request that an errand waits for. -/
inductive Pending where
  /-- The client of a scripted host carries it out. -/
  | act (act : Act)
  /-- A worker carries it out. -/
  | call (call : Handle)
  /-- It has ended. -/
  | ended (ending : Ending)

/-- How far an errand is. -/
inductive ErrandStage where
  /-- It has to work out what a batch of events comes to. -/
  | events (dispatcher : Handle) (events : List Event)
  /-- It waits for a request and is over after that. -/
  | request (pending : Pending)
  /-- It delivers work items and waits for the request for the next one. -/
  | delivery (client : Client) (registry : Handle) (delivery : Delivery) (pending : Pending)

/-- Who an errand is for. -/
inductive ErrandOwner where
  /-- A listener whose batch it is. -/
  | listener (handle : Handle)
  /-- The foreground. -/
  | asker
  deriving DecidableEq, Repr

/-- A task that sends requests and waits for them. -/
structure Errand where
  /-- Who it is for. -/
  owner : ErrandOwner
  /-- The token that it runs under. -/
  token : Token
  /-- How far it is. -/
  stage : ErrandStage

/-- A pipeline on a clock. -/
structure Session where
  /-- The time, in milliseconds since the session began. -/
  now : Nat := 0
  /-- The number that the next object gets. -/
  next : Handle := 0
  /-- The tokens. -/
  tokens : TokenPool := {}
  /-- What the pipeline has done. -/
  counters : Counters := {}
  /-- The objects that are bound to names. -/
  names : Catalog ObjectName Handle := {}
  /-- The subscriptions that are bound to names: a workspace and a number. -/
  subscriptions : Catalog String (Handle × Nat) := {}
  /-- The workspaces. -/
  workspaces : Catalog Handle WorkspaceState := {}
  /-- The queues of numbers. -/
  queues : Catalog Handle NumberQueue := {}
  /-- The registries of snapshots. -/
  registries : Catalog Handle SnapshotRegistry := {}
  /-- The graphs. -/
  graphs : Catalog Handle SharedGraph := {}
  /-- The workers. -/
  workers : Catalog Handle WorkerState := {}
  /-- The hosts. -/
  hosts : Catalog Handle HostState := {}
  /-- The dispatchers. -/
  dispatchers : Catalog Handle Dispatcher := {}
  /-- The listeners. -/
  listeners : Catalog Handle Listener := {}
  /-- The searchers. -/
  searchers : Catalog Handle Searcher := {}
  /-- The subscriptions of listeners. -/
  departures : Catalog Handle Departure := {}
  /-- The errands that go on. -/
  errands : Catalog Handle Errand := {}
  /-- The calls that workers have not ended. -/
  calls : Catalog Handle Call := {}
  /-- The tasks that have something to do, in the order of their turns. -/
  agenda : List Task := []
  /-- The tasks that wait for a time, in the order in which they began to. -/
  alarms : List (Nat × Task) := []
  /-- How the errand of the foreground ended. -/
  answer : Option Ending := none
  /-- What observers recorded since this was last read, oldest first. -/
  sightings : List (String × Sighting) := []

namespace Session

/-- Whether a token is cancelled. -/
def isCancelled (session : Session) (token : Token) : Bool := session.tokens.isCancelled token

/-- Makes a token. -/
def newToken (session : Session) : Token × Session :=
  let (token, tokens) := session.tokens.root
  (token, { session with tokens := tokens })

/-- Makes a token that is cancelled with `parent`, if a parent is given. -/
def newTokenUnder (session : Session) (parent : Option Token) : Token × Session :=
  match parent with
  | none => session.newToken
  | some parent =>
    let (token, tokens) := session.tokens.child parent
    (token, { session with tokens := tokens })

/-- Reserves the number of a new object. -/
def newHandle (session : Session) : Handle × Session :=
  (session.next, { session with next := session.next + 1 })

/-- The object that a name is bound to. -/
def named? (session : Session) (kind : ObjectKind) (text : String) : Option Handle :=
  session.names.get? ⟨kind, text⟩

/-- The objects of a kind that are bound to names. -/
def namedObjects (session : Session) (kind : ObjectKind) : List Handle :=
  (session.names.entries.filter fun e => e.1.kind = kind).map Prod.snd

/-- The registry of a number. -/
def registry (session : Session) (handle : Handle) : SnapshotRegistry :=
  (session.registries.get? handle).getD (.withCapacity Registry.defaultCapacity)

/-- A graph, as it is now. -/
def sharedGraph (session : Session) (handle : Handle) : SharedGraph :=
  (session.graphs.get? handle).getD {}

/-- The symbols of a graph, as it is now. -/
def graph (session : Session) (handle : Handle) : SymbolGraph := (session.sharedGraph handle).graph

/-- The symbols of a graph as a search sees them now. -/
def source (session : Session) (handle : Handle) : SymbolSource :=
  let shared := session.sharedGraph handle
  shared.graph.toSource fun id => shared.broken.contains id

/-- The client that a dispatcher's requests go to, if there is one. -/
def client? (session : Session) (dispatcher : Dispatcher) : Option Client :=
  if dispatcher.preferWorker then
    match session.hosts.get? dispatcher.host with
    | some (.scripted _ _) => some (.scripted dispatcher.host)
    | some (.attached (some handle)) =>
      (session.workers.get? handle).bind fun worker =>
        if worker.running then some (.worker handle) else none
    | _ => none
  else none

/-- Ends a subscription. -/
def unsubscribe (session : Session) (handle : Handle) (subscription : Nat) : Session :=
  { session with
    workspaces := session.workspaces.modify handle fun state =>
      { state with
        workspace := state.workspace.unsubscribe subscription
        observers := state.observers.erase subscription } }

end Session

end SolutionWatch
