import Mathlib.Data.List.Basic
import SolutionWatch.Session.Script
import SolutionWatch.Worker

/-!
# What a call to a worker comes to

A call ends in one of three ways: the worker's service is done with it, the caller's token is cancelled,
or the worker is stopped. Whichever comes first decides what the caller is told. A `Course` is all of
that for one call: when it was made, what the service does with it, when its token was cancelled and
when the worker was stopped. It says nothing of other calls.

`Course.Outcome` is what a call comes to when one of the three is strictly first. When two happen at one
instant either may decide, and `Course.Allows` is what a call may come to then. The second says no more
than the first where the first says anything (`Course.Outcome.eq_of_allows`), and it stays true while
time passes (`Course.Allows.later`).
-/

namespace SolutionWatch

/-- How a call with this reply ends once its delay is over. A call that waits for its token goes on until
the token is cancelled. -/
def Reply.ending? (cancelled : Bool) : Reply → Option Ending
  | .succeed | .cancel _ => some .succeeded
  | .fail failure => some (.failed failure)
  | .crash => some .crashed
  | .refuse => some .refused
  | .awaitCancel => if cancelled then some (.failed .cancelled) else none

/-- What the caller is told when the worker's service is done. Of a service that breaks down nothing comes
back. -/
def Ending.told : Ending → Ending
  | .crashed => .failed .workerDisconnected
  | .succeeded => .succeeded
  | .failed failure => .failed failure
  | .refused => .refused

/-- What a call to a worker is up to. -/
structure Course where
  /-- When the call was made. -/
  made : ℕ
  /-- Whether the worker had stopped by then. -/
  gone : Bool
  /-- What becomes of the request: the call that the service gets, or a refusal. -/
  accepted : Except Failure ServiceCall
  /-- What the service does with the call. -/
  response : Response
  /-- When the token was cancelled, if it was. -/
  cancelled : Option ℕ
  /-- When the worker was stopped, if it was. -/
  stopped : Option ℕ

namespace Course

/-- When the service is over with its delay. -/
def due (course : Course) : ℕ := course.made + course.response.delay

/-- How and when the handling of the call ends, if nothing comes before that. -/
def handling (course : Course) : Option (Ending × ℕ) :=
  match course.accepted with
  | .error failure => some (.failed failure, course.made)
  | .ok _ =>
    match course.response.reply with
    | .awaitCancel => course.cancelled.map fun time => (.failed .cancelled, max time course.due)
    | reply => (reply.ending? false).map fun ending => (ending, course.due)

/-- What a call comes to, and when, if what decides it is strictly first. -/
inductive Outcome (course : Course) : Ending → ℕ → Prop
  /-- The worker had stopped before the call was made. -/
  | gone : course.gone = true → Outcome course (.failed .workerDisconnected) course.made
  /-- The handling ended first, with a result. -/
  | handled {ending : Ending} {time : ℕ} : course.gone = false →
      course.handling = some (ending, time) → ending ≠ .crashed →
      (∀ t, course.cancelled = some t → time < t) → (∀ t, course.stopped = some t → time < t) →
      Outcome course ending time
  /-- The handling broke down first. -/
  | crashed {time : ℕ} : course.gone = false → course.handling = some (.crashed, time) →
      (∀ t, course.cancelled = some t → time < t) → (∀ t, course.stopped = some t → time < t) →
      Outcome course (.failed .workerDisconnected) time
  /-- The token was cancelled first; a handling that waits for just that ends at the same time. -/
  | cancelled {time : ℕ} : course.gone = false → course.cancelled = some time →
      (∀ ending t, course.handling = some (ending, t) →
        time < t ∨ time = t ∧ ending = .failed .cancelled) →
      (∀ t, course.stopped = some t → time < t) →
      Outcome course (.failed .cancelled) (max time course.made)
  /-- The worker was stopped first. -/
  | stopped {time : ℕ} : course.gone = false → course.stopped = some time →
      (∀ ending t, course.handling = some (ending, t) → time < t) →
      (∀ t, course.cancelled = some t → time < t) →
      Outcome course (.failed .workerDisconnected) time

/-- What a call may come to, and when, if other things may happen at the instant that decides it. -/
inductive Allows (course : Course) : Ending → ℕ → Prop
  /-- The worker had stopped before the call was made. -/
  | gone : course.gone = true → Allows course (.failed .workerDisconnected) course.made
  /-- Nothing came before the end of the handling. -/
  | handled {ending : Ending} {time : ℕ} : course.gone = false →
      course.handling = some (ending, time) →
      (∀ t, course.cancelled = some t → time ≤ t) → (∀ t, course.stopped = some t → time ≤ t) →
      Allows course ending.told time
  /-- Nothing came before the cancellation. -/
  | cancelled {time : ℕ} : course.gone = false → course.cancelled = some time →
      (∀ ending t, course.handling = some (ending, t) → time ≤ t) →
      (∀ t, course.stopped = some t → max time course.made ≤ t) →
      Allows course (.failed .cancelled) (max time course.made)
  /-- Nothing came before the stop. -/
  | stopped {time : ℕ} : course.gone = false → course.stopped = some time →
      (∀ ending t, course.handling = some (ending, t) → time ≤ t) →
      (∀ t, course.cancelled = some t → time ≤ t) →
      Allows course (.failed .workerDisconnected) time

variable {course other : Course} {ending : Ending} {time now : ℕ}

/-- The handling does not end before the call is made. -/
theorem made_le_of_handling (h : course.handling = some (ending, time)) : course.made ≤ time := by
  unfold handling at h
  split at h
  · obtain ⟨-, rfl⟩ := Prod.mk.inj (Option.some.inj h)
    exact Nat.le_refl _
  · split at h
    · obtain ⟨t, -, h⟩ := Option.map_eq_some_iff.mp h
      obtain ⟨-, rfl⟩ := Prod.mk.inj h
      exact Nat.le_trans (Nat.le_add_right _ _) (Nat.le_max_right _ _)
    · obtain ⟨_, -, h⟩ := Option.map_eq_some_iff.mp h
      obtain ⟨-, rfl⟩ := Prod.mk.inj h
      exact Nat.le_add_right _ _

/-- What a handling that broke down tells is that the worker is gone, and what any other tells is how it
ended. -/
theorem told_of_ne_crashed (h : ending ≠ .crashed) : ending.told = ending := by
  cases ending with
  | crashed => contradiction
  | succeeded | failed | refused => rfl

/-- A call whose course has an outcome comes to nothing else. -/
theorem Outcome.eq_of_allows {told : Ending} {moment : ℕ} (h : course.Outcome ending time)
    (hallows : course.Allows told moment) : told = ending ∧ moment = time := by
  cases h with
  | gone hgone =>
    cases hallows with
    | gone => exact ⟨rfl, rfl⟩
    | handled hhere | cancelled hhere | stopped hhere => exact absurd (hgone.symm.trans hhere) nofun
  | handled hhere hhandling hresult hcancel hstop =>
    cases hallows with
    | gone hgone => exact absurd (hgone.symm.trans hhere) nofun
    | handled _ hother =>
      obtain ⟨rfl, rfl⟩ := Prod.mk.inj (Option.some.inj (hhandling.symm.trans hother))
      exact ⟨told_of_ne_crashed hresult, rfl⟩
    | cancelled _ htoken hfirst =>
      exact absurd (hcancel _ htoken) (Nat.not_lt.mpr (hfirst _ _ hhandling))
    | stopped _ hstopped hfirst =>
      exact absurd (hstop _ hstopped) (Nat.not_lt.mpr (hfirst _ _ hhandling))
  | crashed hhere hhandling hcancel hstop =>
    cases hallows with
    | gone hgone => exact absurd (hgone.symm.trans hhere) nofun
    | handled _ hother =>
      obtain ⟨rfl, rfl⟩ := Prod.mk.inj (Option.some.inj (hhandling.symm.trans hother))
      exact ⟨rfl, rfl⟩
    | cancelled _ htoken hfirst =>
      exact absurd (hcancel _ htoken) (Nat.not_lt.mpr (hfirst _ _ hhandling))
    | stopped _ hstopped hfirst =>
      exact absurd (hstop _ hstopped) (Nat.not_lt.mpr (hfirst _ _ hhandling))
  | cancelled hhere htoken hfirst hstop =>
    cases hallows with
    | gone hgone => exact absurd (hgone.symm.trans hhere) nofun
    | handled _ hhandling hbefore =>
      -- The handling ended with the cancellation, and told the same.
      have hle := hbefore _ htoken
      obtain hlt | ⟨rfl, rfl⟩ := hfirst _ _ hhandling
      · omega
      · exact ⟨rfl, (Nat.max_eq_left (made_le_of_handling hhandling)).symm⟩
    | cancelled _ hother =>
      obtain rfl := Option.some.inj (htoken.symm.trans hother)
      exact ⟨rfl, rfl⟩
    | stopped _ hstopped _ hbefore =>
      exact absurd (hstop _ hstopped) (Nat.not_lt.mpr (hbefore _ htoken))
  | stopped hhere hstopped hfirst hcancel =>
    cases hallows with
    | gone hgone => exact absurd (hgone.symm.trans hhere) nofun
    | handled _ hhandling _ hbefore =>
      exact absurd (hfirst _ _ hhandling) (Nat.not_lt.mpr (hbefore _ hstopped))
    | cancelled _ htoken _ hbefore =>
      have hlt := hcancel _ htoken
      have hle := hbefore _ hstopped
      omega
    | stopped _ hother => exact ⟨rfl, Option.some.inj (hother.symm.trans hstopped)⟩

/-- No two of the things that decide a call happen at one instant. A handling that waits for the token ends
when the token is cancelled, and that is no tie. -/
structure Untied (course : Course) : Prop where
  /-- The token is not cancelled when the handling ends, unless it ends with just that. -/
  cancelled : ∀ ending t, course.handling = some (ending, t) → course.cancelled = some t →
    ending = .failed .cancelled
  /-- The worker is not stopped when the handling ends. -/
  stopped : ∀ ending t, course.handling = some (ending, t) → course.stopped ≠ some t
  /-- The worker is not stopped when the token is cancelled. -/
  apart : ∀ t, course.cancelled = some t → course.stopped ≠ some t

/-- Something comes of every call for which anything happens that decides it, if there is no tie. -/
theorem Untied.exists_outcome (h : course.Untied)
    (hdecided : course.gone = true ∨ course.handling.isSome = true ∨
      course.cancelled.isSome = true ∨ course.stopped.isSome = true) :
    ∃ ending time, course.Outcome ending time := by
  cases hgone : course.gone with
  | true => exact ⟨_, _, .gone hgone⟩
  | false =>
    have hhandled : ∀ ending time, course.handling = some (ending, time) →
        (∀ t, course.cancelled = some t → time < t) → (∀ t, course.stopped = some t → time < t) →
        ∃ ending time, course.Outcome ending time := by
      intro ending time hhandling hcancel hstop
      by_cases hcrash : ending = .crashed
      · exact ⟨_, time, .crashed hgone (hcrash ▸ hhandling) hcancel hstop⟩
      · exact ⟨ending, time, .handled hgone hhandling hcrash hcancel hstop⟩
    have hcancelled : ∀ time, course.cancelled = some time →
        (∀ ending t, course.handling = some (ending, t) → time ≤ t) →
        (∀ t, course.stopped = some t → time < t) → ∃ ending time, course.Outcome ending time := by
      intro time htoken hfirst hstop
      refine ⟨_, _, .cancelled hgone htoken (fun ending t hhandling => ?_) hstop⟩
      rcases Nat.lt_or_eq_of_le (hfirst ending t hhandling) with hlt | rfl
      · exact .inl hlt
      · exact .inr ⟨rfl, h.cancelled ending time hhandling htoken⟩
    have hstopped : ∀ time, course.stopped = some time →
        (∀ ending t, course.handling = some (ending, t) → time < t) →
        (∀ t, course.cancelled = some t → time < t) → ∃ ending time, course.Outcome ending time :=
      fun time hstop hfirst hcancel => ⟨_, time, .stopped hgone hstop hfirst hcancel⟩
    obtain ⟨hcancelTie, hstopTie, happart⟩ := h
    -- Which of the three is first.
    rcases hhandling : course.handling with _ | ⟨ending, t⟩ <;>
      rcases htoken : course.cancelled with _ | c <;> rcases hstop : course.stopped with _ | s <;>
      grind

/-- The course of the same call later on: what happened stays, and what happens anew happens from now
on. -/
structure Later (now : ℕ) (course later : Course) : Prop where
  /-- The call was made when it was made. -/
  made : later.made = course.made
  /-- The worker was there, or it was not. -/
  gone : later.gone = course.gone
  /-- The request is the same. -/
  accepted : later.accepted = course.accepted
  /-- The service does the same. -/
  response : later.response = course.response
  /-- A token that was cancelled stays cancelled. -/
  cancelled : ∀ t, course.cancelled = some t → later.cancelled = some t
  /-- A token that was not is cancelled from now on. -/
  cancels : ∀ t, later.cancelled = some t → course.cancelled = some t ∨ now ≤ t
  /-- A worker that was stopped stays stopped. -/
  stopped : ∀ t, course.stopped = some t → later.stopped = some t
  /-- A worker that was not is stopped from now on. -/
  stops : ∀ t, later.stopped = some t → course.stopped = some t ∨ now ≤ t

namespace Later

variable {later : Course}

/-- Nothing need happen. -/
theorem refl (now : ℕ) (course : Course) : Later now course course where
  made := rfl
  gone := rfl
  accepted := rfl
  response := rfl
  cancelled _ h := h
  cancels _ h := .inl h
  stopped _ h := h
  stops _ h := .inl h

/-- The handling that had its end in sight keeps it. -/
theorem handling (h : Later now course later) (hhandling : course.handling = some (ending, time)) :
    later.handling = some (ending, time) := by
  unfold Course.handling at hhandling ⊢
  rw [h.accepted, h.response, h.made, due, h.made, h.response]
  split at hhandling
  · exact hhandling
  · split at hhandling
    · obtain ⟨t, ht, hend⟩ := Option.map_eq_some_iff.mp hhandling
      rw [h.cancelled t ht]
      exact congrArg some hend
    · exact hhandling

/-- A handling ends as it would have ended, or from now on. -/
theorem handles (h : Later now course later) (hhandling : later.handling = some (ending, time)) :
    course.handling = some (ending, time) ∨ now ≤ time := by
  unfold Course.handling at hhandling ⊢
  rw [h.accepted, h.response, h.made, due, h.made, h.response] at hhandling
  split at hhandling
  · exact .inl hhandling
  · split at hhandling
    · obtain ⟨t, ht, hend⟩ := Option.map_eq_some_iff.mp hhandling
      obtain ⟨rfl, rfl⟩ := Prod.mk.inj hend
      obtain hcancelled | hle := h.cancels t ht
      · rw [hcancelled]
        exact .inl rfl
      · exact .inr (Nat.le_trans hle (Nat.le_max_left _ _))
    · exact .inl hhandling

end Later

/-- What a call may have come to by now stays what it may have come to. -/
theorem Allows.later {later : Course} (h : course.Allows ending time) (hnow : time ≤ now)
    (hlater : Later now course later) : later.Allows ending time := by
  cases h with
  | gone hgone =>
    rw [← hlater.made]
    exact .gone (hlater.gone.trans hgone)
  | handled hhere hhandling hcancel hstop =>
    refine .handled (hlater.gone.trans hhere) (hlater.handling hhandling) (fun t ht => ?_) fun t ht => ?_
    · exact (hlater.cancels t ht).elim (hcancel t) (Nat.le_trans hnow)
    · exact (hlater.stops t ht).elim (hstop t) (Nat.le_trans hnow)
  | cancelled hhere htoken hfirst hstop =>
    rw [← hlater.made] at hnow hstop ⊢
    refine .cancelled (hlater.gone.trans hhere) (hlater.cancelled _ htoken) (fun e t ht => ?_)
      fun t ht => ?_
    · exact (hlater.handles ht).elim (hfirst e t) (Nat.le_trans (Nat.le_trans (Nat.le_max_left _ _) hnow))
    · exact (hlater.stops t ht).elim (hstop t) (Nat.le_trans hnow)
  | stopped hhere hstopped hfirst hcancel =>
    refine .stopped (hlater.gone.trans hhere) (hlater.stopped _ hstopped) (fun e t ht => ?_)
      fun t ht => ?_
    · exact (hlater.handles ht).elim (hfirst e t) (Nat.le_trans hnow)
    · exact (hlater.cancels t ht).elim (hcancel t) (Nat.le_trans hnow)

end Course

end SolutionWatch
