import Mathlib.Data.List.Basic
import SolutionWatch.Proofs.Snapshot.Registry
import SolutionWatch.Proofs.Workspace.Events
import SolutionWatch.Session.Asking

/-!
# A pipeline of one workspace, one listener and one worker

`Pipeline` says how such a pipeline is set up, and `Pipeline.start` builds it. Of a session that comes
from it only a few parts ever change in a way that matters for what is delivered; `Parts` lists them,
and `Pipeline.Describes` says that a session consists of such parts and of what never changes. What
tasks are awake, what alarms are set and what time it is, a description leaves open: whatever is proved
from it holds under every schedule.
-/

namespace SolutionWatch

namespace Catalog

variable {κ ν : Type}

/-- The catalogue with one entry. -/
def single (k : κ) (v : ν) : Catalog κ ν := ⟨[(k, v)], List.nodup_singleton k⟩

@[simp] theorem entries_single (k : κ) (v : ν) : (single k v).entries = [(k, v)] := rfl

@[simp] theorem values_single (k : κ) (v : ν) : (single k v).values = [v] := rfl

variable [DecidableEq κ]

theorem get?_single (k k' : κ) (v : ν) :
    (single k v).get? k' = if k = k' then some v else none := rfl

@[simp] theorem get?_single_self (k : κ) (v : ν) : (single k v).get? k = some v := if_pos rfl

@[simp] theorem insert_empty (k : κ) (v : ν) : (empty : Catalog κ ν).insert k v = single k v := rfl

@[simp] theorem insert_single (k : κ) (v w : ν) : (single k v).insert k w = single k w := by
  simp [single, insert, place]

@[simp] theorem modify_single (k : κ) (v : ν) (f : ν → ν) :
    (single k v).modify k f = single k (f v) := by
  simp only [modify, get?_single_self, insert_single]

@[simp] theorem erase_single (k : κ) (v : ν) : (single k v).erase k = empty := by
  simp [single, erase, empty]

end Catalog

namespace Session

variable {session : Session}

/-- No workspace is forgotten while every workspace is bound to a name. -/
theorem dropWorkspaces_of_named
    (hworkspaces : ∀ e ∈ session.workspaces.entries, e.1 ∈ session.namedObjects .workspace) :
    session.dropWorkspaces = session := by
  -- Only what has no name and is not notifying is forgotten.
  have hnone : (session.workspaces.entries.filter fun e =>
      !(session.namedObjects .workspace).contains e.1 && !e.2.workspace.notifying) = [] := by
    rw [List.filter_eq_nil_iff]
    intro e he
    simp [hworkspaces e he]
  rw [dropWorkspaces, hnone]
  rfl

/-- Nothing is let go of while every workspace, queue, listener and worker is bound to a name. -/
theorem letGo_of_named
    (hworkspaces : ∀ e ∈ session.workspaces.entries, e.1 ∈ session.namedObjects .workspace)
    (hqueues : ∀ e ∈ session.queues.entries, e.1 ∈ session.namedObjects .queue)
    (hlisteners : ∀ e ∈ session.listeners.entries, e.1 ∈ session.namedObjects .listener)
    (hworkers : ∀ e ∈ session.workers.entries, e.1 ∈ session.namedObjects .worker) :
    session.letGo = session := by
  have hqueue : session.droppedQueues = [] := by
    rw [droppedQueues, List.append_eq_nil_iff, List.map_eq_nil_iff, List.map_eq_nil_iff,
      List.filter_eq_nil_iff, List.filter_eq_nil_iff]
    refine ⟨fun e he => by simp [hqueues e he], fun e he => ?_⟩
    simp [heldListeners, hlisteners e he]
  have hworker : session.droppedWorkers = [] := by
    rw [droppedWorkers, List.map_eq_nil_iff, List.filter_eq_nil_iff]
    intro e he
    simp [hworkers e he]
  rw [letGo, dropWorkspaces_of_named hworkspaces, hqueue, List.foldl_nil, hworker]
  rfl

end Session

/-- How a pipeline is set up: one workspace, one listener that is on, and one worker, whose service
succeeds at every call. -/
structure Pipeline where
  /-- The capacity of the registry. -/
  capacity : ℕ
  /-- What the worker's service does with its calls. -/
  script : Script
  /-- How the listener is set up. -/
  config : Config
  /-- The identity of the workspace. -/
  id : WorkspaceId
  /-- What the workspace was asked before the listener listened to it. -/
  before : List Command
  /-- The service succeeds, after any delay. -/
  succeeds : ∀ response ∈ script, response.reply = .succeed
  /-- The listener is on. -/
  enabled : config.enabled = true
  /-- The workspace was asked for what keeps it sound. -/
  faithful : ∀ command ∈ before, command.Faithful

namespace Pipeline

/-- The number of the registry. -/
def registry : Handle := 0

/-- The number of the worker. -/
def worker : Handle := 1

/-- The number of the host. -/
def host : Handle := 2

/-- The number of the dispatcher. -/
def dispatcher : Handle := 3

/-- The number of the listener. -/
def listener : Handle := 4

/-- The number of the workspace. -/
def workspace : Handle := 5

/-- The names of the objects. -/
def names : Catalog ObjectName Handle where
  entries := [(⟨.registry, "registry"⟩, registry), (⟨.worker, "worker"⟩, worker),
    (⟨.host, "host"⟩, host), (⟨.dispatcher, "dispatcher"⟩, dispatcher),
    (⟨.listener, "listener"⟩, listener), (⟨.workspace, "workspace"⟩, workspace)]
  nodup := by decide

/-- The listener with a given keeper. -/
def listening (p : Pipeline) (keeper : Keeper Event) : Listener := ⟨dispatcher, p.config, ⟨[0]⟩, keeper⟩

/-- The dispatcher, which asks the host for its worker. -/
def dispatching : Dispatcher := ⟨host, registry, true⟩

/-- The session in which the objects of the pipeline were made and nobody listens yet. -/
def built (p : Pipeline) : Session :=
  let (registry, session) := Session.newRegistry {} "registry" p.capacity
  let (worker, session) := session.newWorker "worker" registry none p.script
  let (host, session) := session.newHost "host" (.attached (some worker))
  let (dispatcher, session) := session.newDispatcher "dispatcher" ⟨host, registry, true⟩
  let (_, session) := session.newListener "listener" dispatcher p.config none
  session.newWorkspace "workspace" p.id

/-- What a command makes of a session. -/
def afterCommand (session : Session) (command : Command) : Session :=
  (session.ask (.command "workspace" command)).2

/-- The session in which the listener begins to listen. -/
def start (p : Pipeline) : Session :=
  ((p.before.foldl afterCommand p.built).listen listener workspace).2

/-- The workspace when the listener begins to listen to it. -/
def origin (p : Pipeline) : Workspace :=
  (p.before.foldl Workspace.after (.initial p.id)).subscribe.2

/-- The events that the listener is told when the workspace is asked for one thing after another. They
depend on the workspace only, and on nothing that comes after it in the pipeline. -/
def heard (p : Pipeline) (commands : List Command) : List Event := p.origin.raised commands

/-- The parts of a pipeline that change. -/
structure Parts where
  /-- The workspace and its observers. -/
  workspace : WorkspaceState
  /-- The keeper of the listener's queue. -/
  keeper : Keeper Event
  /-- The worker. -/
  worker : WorkerState
  /-- The registry. -/
  registry : SnapshotRegistry
  /-- The errands that go on. -/
  errands : Catalog Handle Errand := .empty
  /-- The calls that the worker has not ended. -/
  calls : Catalog Handle Call := .empty

/-- A session is the pipeline with these parts, on any clock and with any tasks awake. -/
structure Describes (p : Pipeline) (parts : Parts) (session : Session) : Prop where
  names : session.names = names
  hosts : session.hosts = .single host (.attached (some worker))
  dispatchers : session.dispatchers = .single dispatcher dispatching
  queues : session.queues = .empty
  tokens : session.tokens.cancelled = []
  workspaces : session.workspaces = .single workspace parts.workspace
  listeners : session.listeners = .single listener (p.listening parts.keeper)
  workers : session.workers = .single worker parts.worker
  registries : session.registries = .single registry parts.registry
  errands : session.errands = parts.errands
  calls : session.calls = parts.calls

/-- The parts of the pipeline as it was built. -/
def builtParts (p : Pipeline) : Parts where
  workspace := { workspace := .initial p.id, snapshot := 6 }
  keeper := { queue := { delay := p.config.debounce, limit := p.config.batchLimit }, token := ⟨[1, 0]⟩ }
  worker := { registry := registry, graph := worker, script := p.script }
  registry := .withCapacity p.capacity

/-- Building the pipeline makes its objects and wakes the keeper of the listener's queue. -/
theorem built_eq (p : Pipeline) : p.built = { ({} : Session) with
    next := 7
    tokens := { next := 2 }
    names := names
    registries := .single registry p.builtParts.registry
    workers := .single worker p.builtParts.worker
    hosts := .single host (.attached (some worker))
    dispatchers := .single dispatcher dispatching
    listeners := .single listener (p.listening p.builtParts.keeper)
    agenda := [.events listener]
    workspaces := .single workspace p.builtParts.workspace } := by
  -- The objects are made one after the other. Each is bound to a name, so nothing is let go of.
  let withRegistry : Session :=
    { next := 1
      names := .single ⟨.registry, "registry"⟩ registry
      registries := .single registry p.builtParts.registry }
  let withWorker : Session := { withRegistry with
    next := 2
    names := withRegistry.names.insert ⟨.worker, "worker"⟩ worker
    workers := .single worker p.builtParts.worker }
  let withHost : Session := { withWorker with
    next := 3
    names := withWorker.names.insert ⟨.host, "host"⟩ host
    hosts := .single host (.attached (some worker)) }
  let withDispatcher : Session := { withHost with
    next := 4
    names := withHost.names.insert ⟨.dispatcher, "dispatcher"⟩ dispatcher
    dispatchers := .single dispatcher dispatching }
  let withListener : Session := { withDispatcher with
    next := 5
    tokens := { next := 2 }
    names := withDispatcher.names.insert ⟨.listener, "listener"⟩ listener
    listeners := .single listener (p.listening p.builtParts.keeper)
    agenda := [.events listener] }
  have hregistry : Session.newRegistry {} "registry" p.capacity = (registry, withRegistry) := rfl
  have hworker : withRegistry.newWorker "worker" registry none p.script = (worker, withWorker) := rfl
  have hhost : withWorker.newHost "host" (.attached (some worker)) = (host, withHost) := rfl
  have hdispatcher : withHost.newDispatcher "dispatcher" ⟨host, registry, true⟩ =
      (dispatcher, withDispatcher) := rfl
  have hlistener : withDispatcher.newListener "listener" dispatcher p.config none =
      (listener, withListener) := by
    refine congrArg (Prod.mk listener) (Session.letGo_of_named (fun e he => nomatch he)
      (fun e he => nomatch he) (fun e he => ?_) fun e he => ?_ : withListener.letGo = withListener)
    · exact List.mem_singleton.mp he ▸ List.mem_singleton_self listener
    · exact List.mem_singleton.mp he ▸ List.mem_singleton_self worker
  have hbuilt : p.built = withListener.newWorkspace "workspace" p.id := by
    simp only [built, hregistry, hworker, hhost, hdispatcher, hlistener]
  rw [hbuilt]
  rfl

/-- The pipeline as it was built has its parts. -/
theorem describes_built (p : Pipeline) : p.Describes p.builtParts p.built := by
  rw [built_eq]
  exact ⟨rfl, rfl, rfl, rfl, rfl, rfl, rfl, rfl, rfl, rfl, rfl⟩

namespace Describes

variable {p : Pipeline} {parts : Parts} {session : Session}

/-- No token of the pipeline is cancelled. -/
theorem isCancelled (d : p.Describes parts session) (token : Token) :
    session.isCancelled token = false := by
  simp [Session.isCancelled, TokenPool.isCancelled, d.tokens]

/-- The registry is the one of the parts. -/
theorem registry_eq (d : p.Describes parts session) :
    session.registry Pipeline.registry = parts.registry := by
  simp [Session.registry, d.registries]

/-- The dispatcher finds the worker while it runs. -/
theorem client?_eq (d : p.Describes parts session) (hrunning : parts.worker.running = true) :
    session.client? dispatching = some (.worker Pipeline.worker) := by
  simp [Session.client?, dispatching, d.hosts, d.workers, hrunning]

/-- The workspace is bound to a name, so it is not forgotten. -/
theorem namedWorkspaces (d : p.Describes parts session) :
    ∀ e ∈ session.workspaces.entries, e.1 ∈ session.namedObjects .workspace := by
  have hworkspace : workspace ∈ session.namedObjects .workspace := by
    rw [Session.namedObjects, d.names]
    decide
  simpa [d.workspaces] using hworkspace

/-- Everything is bound to a name, so nothing is let go of. -/
theorem letGo_eq (d : p.Describes parts session) : session.letGo = session := by
  have hlistener : listener ∈ session.namedObjects .listener := by
    rw [Session.namedObjects, d.names]
    decide
  have hworker : Pipeline.worker ∈ session.namedObjects .worker := by
    rw [Session.namedObjects, d.names]
    decide
  refine Session.letGo_of_named d.namedWorkspaces ?_ ?_ ?_
  · simp [d.queues]
  · simpa [d.listeners] using hlistener
  · simpa [d.workers] using hworker

/-- The workspace is bound to its name. -/
theorem workspace?_eq (d : p.Describes parts session) :
    session.workspace? "workspace" = some (workspace, parts.workspace) := by
  have hnamed : session.named? .workspace "workspace" = some workspace := by
    rw [Session.named?, d.names]
    decide
  simp [Session.workspace?, hnamed, d.workspaces]

/-- Waking a task changes no part. -/
theorem wake (d : p.Describes parts session) (task : Task) :
    p.Describes parts (session.wake task) := by
  unfold Session.wake
  split
  · exact d
  · exact { d with }

/-- Setting an alarm changes no part. -/
theorem wakeAfter (d : p.Describes parts session) (act : Act) (task : Task) :
    p.Describes parts (session.wakeAfter act task) := by
  unfold Session.wakeAfter
  split
  · exact { d with }
  · exact d

end Describes

end Pipeline

end SolutionWatch
