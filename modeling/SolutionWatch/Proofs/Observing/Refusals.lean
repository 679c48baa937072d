import SolutionWatch.Proofs.Workspace.Refusals
import SolutionWatch.Session.Observing

/-!
# What is refused leaves no trace

A session asks the workspace of a name for something, perhaps in the middle of telling an observer
something else. A command fails exactly if the workspace refuses it, and whatever fails leaves the session
as it was, whoever asked: the same snapshots, open documents and observers, and nobody was told anything
(`Session.eq_of_perform_failed`). So a session that is asked for one thing after another would have come to
the same had it not been asked for what it refused (`Session.Dialogue.without_refused`), and all that an
observer has of what it was refused is its own record of it.
-/

namespace SolutionWatch

/-- Whether something was refused. -/
def Outcome.isRefusal : Outcome → Bool
  | .failed _ => true
  | _ => false

namespace Session

/-- A session is asked for one thing after another, and what comes of each is written down. There is no
outcome if something broke down. -/
inductive Dialogue : Session → List (Action × Option Outcome) → Session → Prop
  /-- Nothing is asked. -/
  | nil {session : Session} : Dialogue session [] session
  /-- One thing is asked, and then others. -/
  | cons {session between after : Session} {action : Action} {outcome : Option Outcome}
      {exchanges : List (Action × Option Outcome)} : session.ask action = (outcome, between) →
      Dialogue between exchanges after → Dialogue session ((action, outcome) :: exchanges) after

/-- Whether the answer to a request was a refusal. -/
def refused (exchange : Action × Option Outcome) : Bool := exchange.2.any Outcome.isRefusal

/-- What a session refuses, and what that leaves behind. -/
structure RefusesWithoutTrace (session : Session) : Prop where
  /-- A command fails exactly if the workspace has a reason to refuse it, and then nothing changes. -/
  fails_iff : ∀ {name handle state}, session.workspace? name = some (handle, state) →
    ∀ depth command failure after,
      perform (depth + 1) (.command name command) session = (some (.failed failure), after) ↔
        state.workspace.Refuses command failure ∧ after = session
  /-- Nothing that fails changes anything, whoever asked for it. -/
  unchanged : ∀ {depth action failure after},
    perform depth action session = (some (.failed failure), after) → after = session
  /-- An observer that is refused something goes on with no more than its record of that. -/
  recorded : ∀ {depth action failure after},
    perform depth action session = (some (.failed failure), after) → ∀ name rest,
      react (perform depth) name (action :: rest) session =
        react (perform depth) name rest (session.record name (.inside (.failed failure)))
  /-- What is asked later is answered as if what was refused had not been asked. -/
  forgotten : ∀ {exchanges after}, session.Dialogue exchanges after →
    session.Dialogue (exchanges.filter fun exchange => !refused exchange) after

variable {session after : Session}

/-- What comes of a command that goes through is not a failure. -/
theorem outcomeOf_ne_failed (workspace : Workspace) (command : Command) (failure : Failure) :
    outcomeOf workspace command ≠ .failed failure := by
  cases command <;> nofun

/-- A command on a workspace fails exactly if the workspace refuses it, and then nothing changes. -/
theorem carryOut_eq_failed_iff {perform : Action → Session → Option Outcome × Session} {handle : Handle}
    {state : WorkspaceState} {command : Command} {failure : Failure} :
    carryOut perform handle state command session = (some (.failed failure), after) ↔
      state.workspace.Refuses command failure ∧ after = session := by
  rw [← Workspace.begin_eq_error_iff]
  unfold carryOut
  split
  · next refusal hbegin =>
    rw [hbegin, Prod.mk.injEq, Option.some_inj, Outcome.failed.injEq, Except.error.injEq,
      eq_comm (a := after)]
  · next next hbegin =>
    simp [hbegin, outcomeOf_ne_failed]
  · next next event hbegin =>
    dsimp only
    split
    · simp [hbegin]
    · simp [hbegin, outcomeOf_ne_failed]

/-- Whatever fails leaves the session as it was. -/
theorem eq_of_perform_failed {depth : ℕ} {action : Action} {failure : Failure}
    (h : perform depth action session = (some (.failed failure), after)) : after = session := by
  cases depth with
  | zero => exact (Prod.mk.inj h).2.symm
  | succ depth =>
    cases action with
    | command name command =>
      simp only [perform] at h
      split at h
      · exact (carryOut_eq_failed_iff.mp h).2
      · exact (Prod.mk.inj h).2.symm
    | inspect name documents =>
      simp only [perform] at h
      split at h <;> exact (Prod.mk.inj h).2.symm
    | check name =>
      simp only [perform] at h
      split at h <;> exact (Prod.mk.inj h).2.symm
    | subscribe workspace name reactions =>
      simp only [perform] at h
      split at h
      · simp at h
      · exact (Prod.mk.inj h).2.symm
    | unsubscribe name =>
      simp only [perform] at h
      split at h
      · simp at h
      · exact (Prod.mk.inj h).2.symm
    | create | forget => simp [perform] at h
    | refused | refusedBy | breakDown => exact (Prod.mk.inj h).2.symm

/-- The answer was a refusal if it says that something failed. -/
theorem refused_iff {action : Action} {outcome : Option Outcome} :
    refused (action, outcome) = true ↔ ∃ failure, outcome = some (.failed failure) := by
  constructor
  · intro h
    cases outcome with
    | none => contradiction
    | some outcome =>
      cases outcome with
      | failed failure => exact ⟨failure, rfl⟩
      | moved | done | forgotten | observers | ended | active | view | missing | senseless =>
        contradiction
  · rintro ⟨failure, rfl⟩
    rfl

/-- A session that was refused something goes on as if it had not asked for it. -/
theorem Dialogue.without_refused {exchanges : List (Action × Option Outcome)}
    (h : session.Dialogue exchanges after) :
    session.Dialogue (exchanges.filter fun exchange => !refused exchange) after := by
  induction h with
  | nil => exact .nil
  | cons hask _ ih =>
    rw [List.filter_cons]
    split
    · exact .cons hask ih
    · next hrefused =>
      rw [Bool.not_eq_true, Bool.not_eq_false'] at hrefused
      -- What comes next is asked of the very session that refused.
      obtain ⟨failure, rfl⟩ := refused_iff.mp hrefused
      rwa [eq_of_perform_failed hask] at ih

/-- Whatever a session refuses, it has a reason to, and it leaves no trace. -/
theorem refuses_without_trace (session : Session) : session.RefusesWithoutTrace where
  fails_iff hfound depth command failure after := by
    simp only [perform, hfound]
    exact carryOut_eq_failed_iff
  unchanged := eq_of_perform_failed
  recorded h name rest := by rw [react, h, eq_of_perform_failed h]
  forgotten := Dialogue.without_refused

end Session

end SolutionWatch
