import SolutionWatch.Proofs.Observing.Actions

/-!
# What observers are told

A session is followed from its beginning (`Watched.Course`), through anything that it and the observers of
its workspaces can do. At every point each observer of a workspace has been told, or is just being told,
what was raised while it was subscribed, every event once and in order; events lead from snapshot to
snapshot without a gap, up to the current one; whatever observers ask of the workspace while it tells them
something is refused; and whatever it is asked at other times is answered and told
(`Watched.observers_informed`). Asking a session for one thing after another stays on course
(`Watched.Course.asks`).
-/

namespace SolutionWatch

/-- A session is asked for one thing after another, and no observer breaks down. -/
inductive Session.Asks : Session → List Action → Session → Prop
  /-- Nothing is asked. -/
  | nil {session : Session} : Asks session [] session
  /-- One thing is asked, and then others. -/
  | cons {session between after : Session} {action : Action} {actions : List Action}
      {outcome : Outcome} : session.ask action = (some outcome, between) →
      Asks between actions after → Asks session (action :: actions) after

namespace Watched

/-- A session from its beginning. Between the steps records may be read, time may pass, and so on. -/
inductive Course : Watched → Prop
  /-- A session begins empty. -/
  | start : Course ⟨{}, fun _ => {}⟩
  /-- Something happens to the workspaces or their observers. -/
  | step {watched next : Watched} : Course watched → Step watched next → Course next
  /-- Something happens that leaves the workspaces alone. -/
  | aside {session next : Session} {chronicles : Handle → Chronicle} : Course ⟨session, chronicles⟩ →
      next.workspaces = session.workspaces → session.next ≤ next.next → Course ⟨next, chronicles⟩

/-- The observers of a workspace know what they should. -/
structure Informed (handle : Handle) (watched : Watched) (state : WorkspaceState) : Prop where
  /-- A subscription was told what was raised while it was in force, or it still waits to be told. -/
  once : ∀ k, (watched.chronicles handle).toldTo k ++ (watched.chronicles handle).owedTo k =
    (watched.chronicles handle).raisedFor k
  /-- What was raised leads from the empty snapshot to the current one. -/
  unbroken : Unbroken (.initial state.workspace.id)
    ((watched.chronicles handle).raised.map Prod.fst) state.workspace.current
  /-- What was raised for one subscription has no gaps, and it leads to the current snapshot if the
  subscription is in force. -/
  each : ∀ k, ∃ first last, Unbroken first ((watched.chronicles handle).raisedFor k) last ∧
    (k ∈ state.workspace.subscriptions → last = state.workspace.current)
  /-- A command that goes through does what it is asked, and says so if that changes anything. -/
  answers : ∀ {command next told}, state.workspace.begin command = .ok (next, told) →
    state.workspace.Answers command next told
  /-- A command is refused without a trace, or what it does is told to whoever is subscribed. -/
  answered : ∀ {depth command outcome after},
    Session.carryOut (Session.perform depth) handle state command watched.session =
        (some outcome, after) →
      Session.Answered handle watched state command outcome after
  /-- While observers are told something, the workspace refuses every command. -/
  refuses : (watched.chronicles handle).tellings ≠ [] → ∀ depth command,
    Session.carryOut (Session.perform depth) handle state command watched.session =
      (some (.failed (state.workspace.refusal command)), watched.session)
  /-- At other times nobody is taken for an observer, except by a step of the asker's own. -/
  admits : (watched.chronicles handle).tellings = [] → ∀ {command},
    state.workspace.begin command = .error .reentrantMutation →
      ∃ kind project document next, command = .apply kind project document next ∧
        next state.workspace.current = .error .reentrantMutation
  /-- Whatever is asked of the session, by whomever, the course goes on from here. -/
  follows : ∀ {depth action outcome after},
    Session.perform depth action watched.session = (some outcome, after) → Follows watched after

variable {handle : Handle} {watched : Watched} {state : WorkspaceState}

/-- The chronicles are right at the beginning, and go on being right. -/
theorem Course.sound (h : Course watched) : watched.Sound := by
  induction h with
  | start => exact ⟨(nomatch ·), fun _ => ⟨rfl, rfl⟩⟩
  | step _ hstep ih => exact ih.step hstep
  | aside _ hworkspaces hnext ih => exact ih.elsewhere hworkspaces hnext

/-- Steps lead from course to course. -/
theorem Course.run {next : Watched} (h : Course watched) (hrun : Run watched next) : Course next := by
  induction hrun with
  | refl => exact h
  | tail _ hstep ih => exact ih.step hstep

/-- Whatever a session is asked, one thing after another, is on course, and nothing is being told after
that which was not being told before. -/
theorem Course.asks (h : Course watched) {actions : List Action} {after : Session}
    (hasks : watched.session.Asks actions after) :
    ∃ chronicles, Course ⟨after, chronicles⟩ ∧
      ∀ handle, (watched.chronicles handle).Keeps (chronicles handle) := by
  generalize hbefore : watched.session = before at hasks
  induction hasks generalizing watched with
  | nil => exact ⟨watched.chronicles, hbefore ▸ h, fun _ => .refl _⟩
  | cons hask _ ih =>
    subst hbefore
    obtain ⟨between, hrun, hkeeps⟩ := Session.kept_perform _ h.sound hask
    obtain ⟨later, hlater, hkeepsLater⟩ := ih (h.run hrun) rfl
    exact ⟨later, hlater, fun handle => (hkeeps handle).trans (hkeepsLater handle)⟩

/-- If the chronicles are right, observers know what they should. -/
theorem Sound.informed (h : watched.Sound)
    (hget : watched.session.workspaces.get? handle = some state) : Informed handle watched state := by
  have hfits := h.fits hget
  constructor
  case once => exact hfits.balance
  case unbroken => exact hfits.unbroken
  case each => exact hfits.each
  case answers => exact Workspace.answers_of_begin
  case answered =>
    intro depth command outcome after
    exact Session.answered_carryOut (Session.kept_perform depth) h hget
  case refuses =>
    intro htellings depth command
    rw [Session.carryOut, Workspace.begin_of_notifying (hfits.notifying htellings)]
  case admits =>
    intro htellings command
    exact Workspace.eq_apply_of_reentrant (hfits.quiet htellings)
  case follows =>
    intro depth action outcome after
    exact Session.kept_perform depth h

/-- Whatever happens in a session, and whoever comes and goes, the observers of each of its workspaces know
what they should. -/
theorem observers_informed (hcourse : Course watched)
    (hget : watched.session.workspaces.get? handle = some state) : Informed handle watched state :=
  hcourse.sound.informed hget

/-- A recorder is told about a new project, and while it is, the workspace refuses to be cleared. -/
theorem observers_informed_of_callback :
    ∃ watched state, watched.session.workspaces.get? 0 = some state ∧
      (watched.chronicles 0).toldTo 1 ≠ [] ∧ Informed 0 watched state ∧
      Session.carryOut (Session.perform 1) 0 state .clear watched.session =
        (some (.failed .reentrantMutation), watched.session) := by
  let command : Command := .addProject { id := ⟨1⟩, config := .named "P1" }
  let recorder : Observer := .recorder "r" []
  let state : WorkspaceState :=
    { workspace := (Workspace.initial ⟨7⟩).subscribe.2, snapshot := 1
      observers := Catalog.empty.insert 1 recorder }
  let session : Session := { next := 2, workspaces := Catalog.empty.insert 0 state }
  have hsubscribed : Course ⟨session, fun _ => {}⟩ :=
    (Course.start.step (.makes ⟨7⟩)).step (.subscribes 0 recorder)
  have hstate : session.workspaces.get? 0 = some state := rfl
  obtain ⟨next, event, hbegin⟩ : ∃ next event, state.workspace.begin command = .ok (next, some event) :=
    ⟨_, _, rfl⟩
  let chronicles : Handle → Chronicle :=
    Function.update (fun _ => {}) 0 (Chronicle.raise {} ⟨command, event, [(1, recorder)]⟩ [1])
  have hbegun : Course ⟨session.install 0 next event, chronicles⟩ :=
    hsubscribed.step (.begins hstate hbegin)
  have htellings : (chronicles 0).tellings = [⟨command, event, [(1, recorder)]⟩] := rfl
  have htold := hbegun.step (.tells htellings)
  -- The recorder has been told, and the telling is not over.
  obtain ⟨snapshot, hinstalled⟩ := Session.get?_install hstate next event
  have hinformed := observers_informed htold ((Catalog.get?_modify _ _ _).trans (congrArg _ hinstalled))
  refine ⟨_, _, (Catalog.get?_modify _ _ _).trans (congrArg _ hinstalled), ?_, hinformed, ?_⟩
  · exact List.cons_ne_nil event []
  · exact hinformed.refuses (List.cons_ne_nil _ _) 1 .clear

end Watched

end SolutionWatch
