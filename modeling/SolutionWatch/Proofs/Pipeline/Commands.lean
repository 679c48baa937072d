import SolutionWatch.Proofs.Pipeline.Setting
import SolutionWatch.Proofs.Queue.Turns

/-!
# What commands do to the parts of a pipeline

A command that is carried out installs the next state of the workspace, tells the observers, and ends
the notification. In a pipeline the only observer is the listener, which queues what it is told; before
it listens there is none. A command that fails, or that changes nothing, leaves the session as it is.
-/

namespace SolutionWatch

/-- A command is carried out on the workspace that has the name. -/
theorem Session.perform_command (depth : ℕ) (name : String) (command : Command) (session : Session) :
    perform (depth + 1) (.command name command) session =
      match session.workspace? name with
      | some (handle, state) => carryOut (perform depth) handle state command session
      | none => (some .missing, session) := rfl

namespace Pipeline

variable {p : Pipeline} {parts : Parts} {session : Session} {command : Command}
  {next : Workspace} {event : Event}

/-- The parts after the workspace told its observers about a command. -/
def Parts.afterTelling (parts : Parts) (command : Command) (next : Workspace) (snapshot : Handle) :
    Parts :=
  { parts with
    workspace := { parts.workspace with workspace := next.finish command, snapshot := snapshot } }

namespace Describes

/-- Asking for a command is carrying it out on the workspace. -/
theorem afterCommand_eq (d : p.Describes parts session) (command : Command) :
    ∃ perform, afterCommand session command =
      (Session.carryOut perform Pipeline.workspace parts.workspace command session).2 := by
  refine ⟨Session.perform (session.reactors + 1), ?_⟩
  -- A command subscribes nobody, so the depth of the session's reactions stays what it is.
  have hsubscribers : (Action.command "workspace" command).subscribers = 0 := by
    simp [Action.subscribers]
  rw [afterCommand, Session.ask, hsubscribers, Session.perform_command, d.workspace?_eq]

/-- A command that raises no event changes nothing. -/
theorem afterCommand_of_quiet (d : p.Describes parts session)
    (hquiet : ∀ next event, parts.workspace.workspace.begin command ≠ .ok (next, some event)) :
    afterCommand session command = session := by
  obtain ⟨perform, hcarry⟩ := d.afterCommand_eq command
  rw [hcarry, Session.carryOut]
  cases hbegin : parts.workspace.workspace.begin command with
  | error failure => rfl
  | ok result =>
    obtain ⟨next, _ | event⟩ := result
    · rfl
    · exact absurd hbegin (hquiet next event)

/-- Installing the next state of the workspace changes the workspace only. -/
theorem install (d : p.Describes parts session) (next : Workspace) (event : Event) :
    ∃ snapshot, p.Describes { parts with
        workspace := { parts.workspace with workspace := next, snapshot := snapshot } }
      (session.install Pipeline.workspace next event) := by
  unfold Session.install
  split
  · exact ⟨session.next, { d with workspaces := by simp [Session.newHandle, d.workspaces] }⟩
  · exact ⟨parts.workspace.snapshot,
      { d with workspaces := by simp [Session.modifyWorkspace, d.workspaces] }⟩

/-- Ending the notification changes the workspace only. -/
theorem finish (d : p.Describes parts session) (command : Command) :
    p.Describes { parts with
        workspace := { parts.workspace with
          workspace := parts.workspace.workspace.finish command } }
      (session.modifyWorkspace Pipeline.workspace fun workspace =>
        workspace.finish command).dropWorkspaces := by
  have h : p.Describes { parts with
        workspace := { parts.workspace with
          workspace := parts.workspace.workspace.finish command } }
      (session.modifyWorkspace Pipeline.workspace fun workspace => workspace.finish command) :=
    { d with workspaces := by simp [Session.modifyWorkspace, d.workspaces] }
  rw [Session.dropWorkspaces_of_named h.namedWorkspaces]
  exact h

/-- The listener queues what it is told. -/
theorem addEvent (d : p.Describes parts session) (event : Event) :
    p.Describes { parts with
        keeper := { parts.keeper with queue := parts.keeper.queue.add session.now [event] } }
      (session.addEvent listener event) := by
  have hlistener : session.listeners.get? listener = some (p.listening parts.keeper) := by
    simp [d.listeners]
  have h : p.Describes { parts with
        keeper := { parts.keeper with queue := parts.keeper.queue.add session.now [event] } }
      { session with
        listeners := session.listeners.insert listener (p.listening
          { parts.keeper with queue := parts.keeper.queue.add session.now [event] }) } :=
    { d with listeners := by simp [d.listeners] }
  rw [Session.addEvent, hlistener]
  -- The keeper is woken if the event opens a window; that changes the agenda only.
  by_cases hawaited : (parts.keeper.add session.now [event]).1 = true
  · simp only [listening, hawaited, if_true]
    exact h.wake _
  · simp only [listening, hawaited]
    exact h

/-- A command that raises an event while nobody listens leads to the next state of the workspace. -/
theorem afterCommand_unheard (d : p.Describes parts session)
    (hobservers : parts.workspace.observers = .empty)
    (hbegin : parts.workspace.workspace.begin command = .ok (next, some event)) :
    ∃ snapshot, p.Describes (parts.afterTelling command next snapshot)
      (afterCommand session command) := by
  obtain ⟨perform, hcarry⟩ := d.afterCommand_eq command
  obtain ⟨snapshot, hinstall⟩ := d.install next event
  have hnobody : (session.install Pipeline.workspace next event).observersOf Pipeline.workspace =
      [] := by
    simp [Session.observersOf, hinstall.workspaces, hobservers]
  refine ⟨snapshot, ?_⟩
  rw [hcarry, Session.carryOut, hbegin]
  simp only [hnobody, Session.tell]
  exact hinstall.finish command

/-- A command that raises an event while the listener listens leads to the next state of the workspace,
and to the event in the listener's queue. -/
theorem afterCommand_heard (d : p.Describes parts session) {subscription : ℕ}
    (hobservers : parts.workspace.observers = .single subscription (.listener listener))
    (hbegin : parts.workspace.workspace.begin command = .ok (next, some event)) :
    ∃ snapshot now, p.Describes { parts.afterTelling command next snapshot with
        keeper := { parts.keeper with queue := parts.keeper.queue.add now [event] } }
      (afterCommand session command) := by
  obtain ⟨perform, hcarry⟩ := d.afterCommand_eq command
  obtain ⟨snapshot, hinstall⟩ := d.install next event
  have hlistener : (session.install Pipeline.workspace next event).observersOf Pipeline.workspace =
      [(subscription, .listener listener)] := by
    simp [Session.observersOf, hinstall.workspaces, hobservers]
  refine ⟨snapshot, (session.install Pipeline.workspace next event).now, ?_⟩
  rw [hcarry, Session.carryOut, hbegin]
  simp only [hlistener, Session.tell, Session.tellOne]
  exact (hinstall.addEvent event).finish command

/-- A listener that begins to listen becomes an observer of the workspace. -/
theorem listen (d : p.Describes parts session) (hobservers : parts.workspace.observers = .empty) :
    ∃ subscription, p.Describes { parts with
        workspace := { parts.workspace with
          workspace := parts.workspace.workspace.subscribe.2
          observers := .single subscription (.listener listener) } }
      (session.listen listener Pipeline.workspace).2 := by
  have hlistener : session.listeners.get? listener = some (p.listening parts.keeper) := by
    simp [d.listeners]
  have hworkspace : session.workspaces.get? Pipeline.workspace = some parts.workspace := by
    simp [d.workspaces]
  have h : p.Describes { parts with
        workspace := { parts.workspace with
          workspace := parts.workspace.workspace.subscribe.2
          observers := .single parts.workspace.workspace.subscribe.1 (.listener listener) } }
      (session.subscribe Pipeline.workspace (.listener listener)).2 := by
    rw [Session.subscribe, hworkspace]
    exact { d with workspaces := by simp [d.workspaces, hobservers] }
  refine ⟨parts.workspace.workspace.subscribe.1, ?_⟩
  rw [Session.listen, hlistener]
  simp only [listening, p.enabled, if_true]
  refine wake ?_ _
  exact { h with }

end Describes

end Pipeline

end SolutionWatch
