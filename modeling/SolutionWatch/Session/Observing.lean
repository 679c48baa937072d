import SolutionWatch.Session.Clock

/-!
# Carrying out actions

A command on a workspace is carried out in three parts: the workspace takes its step, the observers
that were subscribed when it began to tell are told one after the other, and the workspace ends the
notification. A listener queues what it is told. A recorder writes it down, and the first time it
also carries out its own actions; it can ask any workspace for anything, and one that is telling
refuses.

A recorder that breaks down cuts short everything that led to it: observers that come later are not
told, whether by this workspace or by one whose notification it answered, and no workspace does what
it does after a notification. The snapshots stay.
-/

namespace SolutionWatch.Session

/-- Adds a record. -/
def record (session : Session) (name : String) (sighting : Sighting) : Session :=
  { session with sightings := session.sightings ++ [(name, sighting)] }

/-- Reads the records of observers and clears them. -/
def takeSightings (session : Session) : List (String × Sighting) × Session :=
  (session.sightings, { session with sightings := [] })

/-- What a workspace looks like. -/
def viewOf (state : WorkspaceState) (documents : List DocumentId) : WorkspaceView where
  id := state.workspace.id
  solution := state.workspace.current
  snapshot := state.snapshot
  observers := state.workspace.subscriptions.length
  isOpen := documents.map state.workspace.isOpen

/-- The workspace of a name. -/
def workspace? (session : Session) (name : String) : Option (Handle × WorkspaceState) :=
  (session.named? .workspace name).bind fun handle =>
    (session.workspaces.get? handle).map fun state => (handle, state)

/-- Makes a workspace, which takes over a name. -/
def newWorkspace (session : Session) (name : String) (id : WorkspaceId) : Session :=
  let (handle, session) := session.newHandle
  let (snapshot, session) := session.newHandle
  let session :=
    { session with
      workspaces := session.workspaces.insert handle
        { workspace := .initial id, snapshot := snapshot } }
  (session.bind .workspace name handle).dropWorkspaces

/-- Subscribes an observer to a workspace; the number of the subscription is returned. -/
def subscribe (session : Session) (handle : Handle) (observer : Observer) : Nat × Session :=
  match session.workspaces.get? handle with
  | none => (0, session)
  | some state =>
    let (subscription, workspace) := state.workspace.subscribe
    (subscription,
      { session with
        workspaces := session.workspaces.insert handle
          { state with
            workspace := workspace
            observers := state.observers.insert subscription observer } })

/-- Subscribes a recorder under a name. The subscription that had the name ends after that. -/
def subscribeAs (session : Session) (handle : Handle) (name : String) (reactions : List Action) :
    Session :=
  let old := session.subscriptions.get? name
  let (subscription, session) := session.subscribe handle (.recorder name reactions)
  let session :=
    { session with subscriptions := session.subscriptions.insert name (handle, subscription) }
  match old with
  | some (handle, subscription) => session.unsubscribe handle subscription
  | none => session

/-- Whether a subscription is in force: it is as long as there is the workspace. -/
def isSubscribed (session : Session) (handle : Handle) : Bool := session.workspaces.contains handle

/-- Changes a workspace. -/
def modifyWorkspace (session : Session) (handle : Handle) (f : Workspace → Workspace) : Session :=
  { session with
    workspaces := session.workspaces.modify handle fun state =>
      { state with workspace := f state.workspace } }

/-- Takes over the first half of a command. A change leads to a new snapshot. -/
def install (session : Session) (handle : Handle) (workspace : Workspace) (event : Event) :
    Session :=
  match event with
  | .changed _ =>
    let (snapshot, session) := session.newHandle
    { session with
      workspaces := session.workspaces.modify handle fun state =>
        { state with workspace := workspace, snapshot := snapshot } }
  | _ => session.modifyWorkspace handle fun _ => workspace

/-- The observers of a workspace with the numbers of their subscriptions, oldest first. -/
def observersOf (session : Session) (handle : Handle) : List (Nat × Observer) :=
  match session.workspaces.get? handle with
  | some state => state.observers.entries
  | none => []

/-- Lets a recorder carry out its actions; `perform` carries out one of them. Whether it broke down
is returned. -/
def react (perform : Action → Session → Option Outcome × Session) (name : String) :
    List Action → Session → Bool × Session
  | [], session => (false, session)
  | action :: rest, session =>
    match perform action session with
    | (none, session) => (true, session)
    | (some outcome, session) =>
      react perform name rest (session.record name (.inside outcome))

/-- An observer gets to know about an event. A recorder has yet to react, and if it is still subscribed it
does not react a second time. -/
def hand (session : Session) (workspace : Handle) (event : Event) (subscription : Nat) :
    Observer → Session
  | .listener handle => session.addEvent handle event
  | .recorder name _ =>
    let session := session.record name (.event event)
    { session with
      workspaces := session.workspaces.modify workspace fun state =>
        { state with observers := state.observers.modify subscription fun _ => .recorder name [] } }

/-- Tells one observer about an event. Whether it broke down is returned. -/
def tellOne (perform : Action → Session → Option Outcome × Session) (workspace : Handle)
    (event : Event) (subscription : Nat) (observer : Observer) (session : Session) :
    Bool × Session :=
  let session := session.hand workspace event subscription observer
  match observer with
  | .listener _ => (false, session)
  | .recorder name reactions => react perform name reactions session

/-- Tells observers about an event, one after the other, until one breaks down. -/
def tell (perform : Action → Session → Option Outcome × Session) (workspace : Handle)
    (event : Event) : List (Nat × Observer) → Session → Bool × Session
  | [], session => (false, session)
  | (subscription, observer) :: rest, session =>
    match tellOne perform workspace event subscription observer session with
    | (true, session) => (true, session)
    | (false, session) => tell perform workspace event rest session

/-- What a command comes to when it goes through. -/
def outcomeOf (workspace : Workspace) : Command → Outcome
  | .openDocument _ | .closeDocument _ => .done
  | _ => .moved workspace.current

/-- Carries out a command on a workspace; `perform` carries out the actions of observers. There is
no outcome if an observer broke down. -/
def carryOut (perform : Action → Session → Option Outcome × Session) (handle : Handle)
    (state : WorkspaceState) (command : Command) (session : Session) : Option Outcome × Session :=
  match state.workspace.begin command with
  | .error failure => (some (.failed failure), session)
  | .ok (workspace, none) => (some (outcomeOf workspace command), session)
  | .ok (workspace, some event) =>
    let session := session.install handle workspace event
    match tell perform handle event (session.observersOf handle) session with
    | (true, session) =>
      (none, (session.modifyWorkspace handle Workspace.interrupt).dropWorkspaces)
    | (false, session) =>
      (some (outcomeOf workspace command),
        (session.modifyWorkspace handle fun workspace => workspace.finish command).dropWorkspaces)

/-- Carries out an action, with the actions of observers nested less than `depth` deep. There is no
outcome if something broke down. -/
def perform : Nat → Action → Session → Option Outcome × Session
  | 0, _, session => (some (.failed .reentrantMutation), session)
  | depth + 1, action, session =>
    match action with
    | .create name id => (some .done, session.newWorkspace name id)
    | .forget name =>
      (some (.forgotten (session.named? .workspace name).isSome),
        (session.unbind .workspace name).dropWorkspaces)
    | .command name command =>
      match session.workspace? name with
      | some (handle, state) => carryOut (perform depth) handle state command session
      | none => (some .missing, session)
    | .inspect name documents =>
      match session.workspace? name with
      | some (_, state) => (some (.view (viewOf state documents)), session)
      | none => (some .missing, session)
    | .subscribe workspace name reactions =>
      match session.named? .workspace workspace with
      | some handle =>
        let session := session.subscribeAs handle name reactions
        (some (.observers (session.observersOf handle).length), session)
      | none => (some .missing, session)
    | .unsubscribe name =>
      match session.subscriptions.get? name with
      | some (handle, subscription) =>
        let session := { session with subscriptions := session.subscriptions.erase name }
        (some (.ended (session.isSubscribed handle)), session.unsubscribe handle subscription)
      | none => (some .missing, session)
    | .check name =>
      match session.subscriptions.get? name with
      | some (handle, _) => (some (.active (session.isSubscribed handle)), session)
      | none => (some .missing, session)
    | .refused outcome => (some outcome, session)
    | .refusedBy name outcome =>
      (some (if (session.named? .workspace name).isSome then outcome else .missing), session)
    | .breakDown => (none, session)

/-- The number of observers that have not reacted yet or that such a one can subscribe. -/
def reactors (session : Session) : Nat :=
  (session.workspaces.values.map fun state =>
    (state.observers.values.map Observer.reactors).foldr (· + ·) 0).foldr (· + ·) 0

/-- Carries out an action. Each level of nesting uses up the actions of one observer. There is no
outcome if an observer broke down. -/
def ask (session : Session) (action : Action) : Option Outcome × Session :=
  perform (session.reactors + action.subscribers + 2) action session

end SolutionWatch.Session
