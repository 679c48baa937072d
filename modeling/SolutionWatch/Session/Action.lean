import SolutionWatch.Workspace

/-!
# What workspaces are asked, by name

An action asks for something by name: the name of a workspace, or the name under which somebody
subscribed to one. Names are looked up when the action is carried out and not before, so an action
may name what does not exist yet. Observers may have actions of their own, which they carry out the
first time they are told about something.
-/

namespace SolutionWatch

/-- The number of an object of a session. -/
abbrev Handle := Nat

/-- What a workspace looks like from outside. -/
structure WorkspaceView where
  /-- The identity of the workspace. -/
  id : WorkspaceId
  /-- The current snapshot. -/
  solution : Solution
  /-- The number of the current snapshot; another snapshot has another number. -/
  snapshot : Handle
  /-- The number of observers. -/
  observers : Nat
  /-- Whether the documents asked about are open. -/
  isOpen : List Bool

/-- What came of an action. -/
inductive Outcome where
  /-- The workspace moved to a snapshot. -/
  | moved (solution : Solution)
  /-- It was done, or there was nothing left to do. -/
  | done
  /-- Something was forgotten, if it was there. -/
  | forgotten (existed : Bool)
  /-- A workspace has so many observers now. -/
  | observers (count : Nat)
  /-- A subscription was ended, which was in force or not. -/
  | ended (wasActive : Bool)
  /-- A subscription is in force or not. -/
  | active (isActive : Bool)
  /-- What the workspace looks like. -/
  | view (view : WorkspaceView)
  /-- The workspace refused. -/
  | failed (failure : Failure)
  /-- Something that was named does not exist. -/
  | missing
  /-- The action made no sense. -/
  | senseless

/-- Something that can be asked for. -/
inductive Action where
  /-- Make a workspace, in the place of the one that has the name. -/
  | create (name : String) (id : WorkspaceId)
  /-- Forget a workspace. -/
  | forget (name : String)
  /-- Ask a workspace to do something. -/
  | command (workspace : String) (command : Command)
  /-- Look at a workspace, and at whether some documents are open. -/
  | inspect (workspace : String) (documents : List DocumentId)
  /-- Subscribe an observer to a workspace under a name, in the place of the one that has it. -/
  | subscribe (workspace name : String) (reactions : List Action)
  /-- End a subscription. -/
  | unsubscribe (name : String)
  /-- See whether a subscription is in force. -/
  | check (name : String)
  /-- Nothing that can be done, which comes to this at once. -/
  | refused (outcome : Outcome)
  /-- Nothing that can be done, which comes to this if there is such a workspace. -/
  | refusedBy (workspace : String) (outcome : Outcome)
  /-- Break down. -/
  | breakDown

namespace Action

mutual

/-- The number of observers that an action can subscribe, their own actions included. -/
def subscribers : Action → Nat
  | .subscribe _ _ reactions => 1 + subscribersIn reactions
  | _ => 0

/-- The number of observers that a list of actions can subscribe. -/
def subscribersIn : List Action → Nat
  | [] => 0
  | action :: rest => subscribers action + subscribersIn rest

end

end Action

/-- Who is told about the changes of a workspace. -/
inductive Observer where
  /-- A listener. -/
  | listener (handle : Handle)
  /-- An observer that keeps a record under its name and then reacts. -/
  | recorder (name : String) (reactions : List Action)

/-- The number of observers that reacting can still subscribe or be. -/
def Observer.reactors : Observer → Nat
  | .recorder _ (action :: rest) => 1 + Action.subscribersIn (action :: rest)
  | _ => 0

/-- What an observer recorded. -/
inductive Sighting where
  /-- It was told about something. -/
  | event (event : Event)
  /-- It did something itself. -/
  | inside (outcome : Outcome)

/-- A workspace and its observers, by the number of their subscription. -/
structure WorkspaceState where
  /-- The workspace. -/
  workspace : Workspace
  /-- The number of its current snapshot. -/
  snapshot : Handle
  /-- The observers, oldest first. -/
  observers : Catalog Nat Observer := {}

end SolutionWatch
