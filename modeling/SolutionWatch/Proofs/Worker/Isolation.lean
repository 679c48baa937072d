import SolutionWatch.Proofs.Worker.Keeping

/-!
# Calls to a worker do not get in each other's way

Whatever calls are made to a worker, and in whatever order they, their callers and the worker have their
turns, each caller is told what comes of his own call: how the handling ended, that the worker is gone,
or that he cancelled, whichever is first (`Course.Outcome`). He is told it once and at that time
(`Session.CallRun.calls_isolated`). The course of a call is about the call itself, its token and when the
worker was stopped, so nothing that becomes of one call depends on another one; and a service that
breaks down over one call goes on with the others.
-/

namespace SolutionWatch

namespace Session

variable {worker : Handle} {known : SnapshotRegistry} {service : Handle → Response} {log : CallLog}
  {session : Session} {course : Course} {p : Invocation} {act : Option Act} {ending : Ending}
  {time : ℕ}

/-- What decides a call that goes on has not happened before now. -/
theorem Underway.le_of_outcome (h : session.Underway worker course p act)
    (houtcome : course.Outcome ending time) : session.now ≤ time := by
  cases houtcome with
  | gone hgone => simp [h.here] at hgone
  | handled _ hhandling => exact h.le_of_handling hhandling
  | crashed _ hhandling => exact h.le_of_handling hhandling
  | cancelled _ hcancelled =>
    rw [h.cancelled _ hcancelled]
    exact Nat.le_max_left _ _
  | stopped _ hstopped => exact Nat.le_of_eq (h.stopped _ hstopped).symm

/-- What decides a call that goes on and is in no hurry is still to come. -/
theorem Underway.lt_of_outcome (h : session.Underway worker course p act)
    (hcalm : ¬ session.Pressing course act) (hlive : course.cancelled = none)
    (houtcome : course.Outcome ending time) : session.now < time := by
  have hstopped : course.stopped = none :=
    Option.not_isSome_iff_eq_none.mp fun hstopped => hcalm (.inr (.inr hstopped))
  -- The handling would have to end with the delay, and then the call is in a hurry.
  have hhandled : ∀ ending time, course.handling = some (ending, time) → session.now < time := by
    intro ending time hhandling
    refine Nat.lt_of_le_of_ne (h.le_of_handling hhandling) fun hnow => ?_
    cases hact : act with
    | none => exact hcalm (.inl hact)
    | some a =>
      obtain ⟨⟨serviceCall, haccepted⟩, rfl⟩ := h.begun a hact
      simp only [Course.handling, haccepted, hlive, Option.map_none] at hhandling
      cases hreply : course.response.reply <;>
        simp only [hreply, Option.map_eq_some_iff, Prod.mk.injEq, reduceCtorEq] at hhandling
      all_goals
        obtain ⟨-, -, -, hdue⟩ := hhandling
        refine hcalm (.inr (.inl ⟨_, hact, ?_, ?_⟩))
        · rw [hnow, ← hdue]
          exact Nat.le_refl _
        · simp [Response.act, hreply]
  cases houtcome with
  | gone hgone => simp [h.here] at hgone
  | handled _ hhandling => exact hhandled _ _ hhandling
  | crashed _ hhandling => exact hhandled _ _ hhandling
  | cancelled _ hcancelled => simp [hlive] at hcancelled
  | stopped _ hgone => simp [hstopped] at hgone

/-- Once it has happened and everybody has had his turn, the caller of a call was told what decides it,
and before he was told nothing. -/
theorem Standing.told_of_outcome {told : List (Ending × ℕ)}
    (h : session.Standing worker course p told) (hanswer : session.answer = none)
    (htoken : session.isCancelled p.token = course.cancelled.isSome)
    (houtcome : course.Outcome ending time) :
    (told = [] ∨ told = [(ending, time)]) ∧
      (time < session.now → told = [(ending, time)]) ∧
      (time ≤ session.now → (lookAtErrand p.errand session).1 = none →
        ¬ session.Stirs worker p.call → told = [(ending, time)]) := by
  cases h with
  | told _ _ hallows =>
    obtain ⟨rfl, rfl⟩ := houtcome.eq_of_allows hallows
    exact ⟨.inr rfl, fun _ => rfl, fun _ _ _ => rfl⟩
  | answered hanswered hallows =>
    obtain ⟨-, hnow⟩ := houtcome.eq_of_allows hallows
    refine ⟨.inl rfl, fun hlt => absurd hnow (Nat.ne_of_gt hlt), fun _ hlook => ?_⟩
    rw [lookAtErrand_of_ended hanswer hanswered] at hlook
    contradiction
  | waiting hwaits hunderway hstirs =>
    refine ⟨.inl rfl, fun hlt => absurd (hunderway.le_of_outcome houtcome) (Nat.not_le.mpr hlt),
      fun hle hlook hasleep => ?_⟩
    have hlive : course.cancelled = none := by
      cases hcancelled : course.cancelled with
      | none => rfl
      | some t =>
        rw [hcancelled] at htoken
        rw [lookAtErrand_of_cancelled hanswer hwaits htoken] at hlook
        contradiction
    have hlt := hunderway.lt_of_outcome (fun hpressing => hasleep (hstirs hpressing)) hlive houtcome
    exact absurd hle (Nat.not_le.mpr hlt)

/-- In every session in which calls to a worker go on, each caller has an errand of his own. What comes of
his call is decided by its own course, and he is told that and nothing else: at once when it is decided,
if everybody has his turn then, and in any case before the clock has moved on. The service gets of each
call what the call asks for, and that once at most, and the worker runs until it is stopped. -/
theorem CallRun.calls_isolated (h : CallRun worker known service log session) :
    (log.invocations.map Invocation.errand).Nodup ∧
    (∀ p ∈ log.invocations,
      (∀ ending time, (log.course known service p).Outcome ending time →
        (log.toldTo p.errand = [] ∨ log.toldTo p.errand = [(ending, time)]) ∧
        (time < session.now ∨ time = session.now ∧ session.Rests worker log.invocations →
          log.toldTo p.errand = [(ending, time)])) ∧
      (p.gone = false → log.servedTo p.call = [] ∨
        ∃ serviceCall, (Worker.accept known p.request).1 = .ok serviceCall ∧
          log.servedTo p.call = [serviceCall])) ∧
    session.Serves worker known log.stopped.isNone (log.served.map Prod.snd) := by
  have hfits := h.fits
  refine ⟨hfits.distinct, fun p hp => ⟨fun ending time houtcome => ?_, fun hhere => ?_⟩, hfits.serves⟩
  · obtain ⟨honly, hpast, hnow⟩ :=
      (hfits.standing p hp).told_of_outcome hfits.answer (hfits.tokens p.token) houtcome
    refine ⟨honly, ?_⟩
    rintro (hlt | ⟨hle, hrests⟩)
    · exact hpast hlt
    · exact hnow (Nat.le_of_eq hle) (hrests.callers p hp) (hrests.asleep p.call)
  · exact (hfits.records p hp hhere).served

deriving instance DecidableEq for Response, Call

/-- A registry with the empty snapshot. -/
def emptyKnown : SnapshotRegistry := .file (.withCapacity 4) (.initial ⟨1⟩)

/-- A request to look at the empty snapshot again. -/
def emptyRequest : Request Address :=
  ⟨.fingerprint (Solution.initial ⟨1⟩).fingerprint, .solutionEvent .documentChanged⟩

/-- What the service does with four calls: it breaks down after 5 milliseconds, succeeds after 10, waits
for the token, and fails after 1000. -/
def fourResponses : Handle → Response
  | 3 => { delay := 5, reply := .crash }
  | 5 => { delay := 10 }
  | 7 => { reply := .awaitCancel }
  | _ => { delay := 1000, reply := .fail (.remote "scripted") }

/-- A worker whose service gets the calls in another order than that in which they are made. -/
def fourCallers : Session where
  next := 2
  registries := Catalog.empty.insert 0 emptyKnown
  workers := Catalog.empty.insert 1
    { registry := 0, graph := 0
      script := [fourResponses 5, fourResponses 3, fourResponses 9, fourResponses 7] }

/-- Four callers of one worker: the service breaks down over the first call, is done with the second and
waits with the third, whose token is cancelled; the fourth is outstanding when the worker is stopped, and
a fifth call is made after that. Each caller is told what becomes of his own call. -/
theorem calls_isolated_of_fourCallers : ∃ log session,
    CallRun 1 emptyKnown fourResponses log session ∧
      log.toldTo 2 = [(.failed .workerDisconnected, 5)] ∧ log.toldTo 4 = [(.succeeded, 10)] ∧
      log.toldTo 6 = [(.failed .cancelled, 7)] ∧
      log.toldTo 8 = [(.failed .workerDisconnected, 20)] ∧
      log.toldTo 10 = [(.failed .workerDisconnected, 20)] ∧
      session.Serves 1 emptyKnown false (log.served.map Prod.snd) := by
  have hused : emptyKnown.Used := .file (.new 4) (Solution.filed_initial _)
  have h : CallRun 1 emptyKnown fourResponses (.start fourCallers) fourCallers :=
    .start rfl nofun ⟨_, rfl, rfl, rfl, hused.like⟩
  -- The calls are made, and the service gets them.
  have h := h.invoke emptyRequest ⟨[9]⟩
  have h := h.invoke emptyRequest ⟨[9]⟩
  have h := h.invoke emptyRequest ⟨[0]⟩
  have h := h.invoke emptyRequest ⟨[9]⟩
  have h := h.inbox
  have h := h.turn 5 ⟨1, emptyRequest, ⟨[9]⟩, 4, none⟩ (by decide +kernel) rfl
    fun _ => by decide +kernel
  have h := h.turn 3 ⟨1, emptyRequest, ⟨[9]⟩, 2, none⟩ (by decide +kernel) rfl
    fun _ => by decide +kernel
  have h := h.turn 9 ⟨1, emptyRequest, ⟨[9]⟩, 8, none⟩ (by decide +kernel) rfl
    fun _ => by decide +kernel
  have h := h.turn 7 ⟨1, emptyRequest, ⟨[0]⟩, 6, none⟩ (by decide +kernel) rfl
    fun _ => by decide +kernel
  -- The service breaks down over the first call.
  have h := h.tick 5 ⟨by decide +kernel, by decide +kernel⟩ (by decide +kernel)
  have h := h.turn 3 ⟨1, emptyRequest, ⟨[9]⟩, 2, some ⟨5, .crash⟩⟩ (by decide +kernel) rfl nofun
  have h := h.look ⟨2, emptyRequest, ⟨[9]⟩, 0, false⟩ (by decide +kernel)
  -- The token of the third call is cancelled.
  have h := h.tick 7 ⟨by decide +kernel, by decide +kernel⟩ (by decide +kernel)
  have h := h.cancelToken ⟨[0]⟩
  have h := h.look ⟨6, emptyRequest, ⟨[0]⟩, 0, false⟩ (by decide +kernel)
  have h := h.turn 7 ⟨1, emptyRequest, ⟨[0]⟩, 6, some ⟨0, .awaitCancel⟩⟩ (by decide +kernel) rfl nofun
  -- The service is done with the second call.
  have h := h.tick 10 ⟨by decide +kernel, by decide +kernel⟩ (by decide +kernel)
  have h := h.turn 5 ⟨1, emptyRequest, ⟨[9]⟩, 4, some ⟨10, .succeed⟩⟩ (by decide +kernel) rfl nofun
  have h := h.look ⟨4, emptyRequest, ⟨[9]⟩, 0, false⟩ (by decide +kernel)
  -- The worker is stopped before it is done with the fourth call, and a fifth call is made.
  have h := h.tick 20 ⟨by decide +kernel, by decide +kernel⟩ (by decide +kernel)
  have h := h.stop
  have h := h.turn 9 ⟨1, emptyRequest, ⟨[9]⟩, 8, some ⟨1000, .fail (.remote "scripted")⟩⟩
    (by decide +kernel) rfl nofun
  have h := h.look ⟨8, emptyRequest, ⟨[9]⟩, 0, false⟩ (by decide +kernel)
  have h := h.invoke emptyRequest ⟨[9]⟩
  have h := h.tick 30 ⟨by decide +kernel, by decide +kernel⟩ (by decide +kernel)
  obtain ⟨-, hcalls, hserves⟩ := h.calls_isolated
  have htold := fun p hp ending time houtcome hpast =>
    ((hcalls p hp).1 ending time houtcome).2 (.inl hpast)
  have hbefore : ∀ (moment : Option ℕ) (time : ℕ), moment.all (time < ·) = true →
      ∀ t, moment = some t → time < t := by
    rintro _ time hall t rfl
    simpa using hall
  refine ⟨_, _, h, ?_, ?_, ?_, ?_, ?_, hserves⟩
  · exact htold ⟨2, emptyRequest, ⟨[9]⟩, 0, false⟩ (by decide +kernel) _ 5
      (.crashed rfl (by decide +kernel) (hbefore _ _ (by decide +kernel))
        (hbefore _ _ (by decide +kernel))) (by decide +kernel)
  · exact htold ⟨4, emptyRequest, ⟨[9]⟩, 0, false⟩ (by decide +kernel) _ 10
      (.handled rfl (by decide +kernel) nofun (hbefore _ _ (by decide +kernel))
        (hbefore _ _ (by decide +kernel))) (by decide +kernel)
  · -- The handling ends with the cancellation, which is no tie.
    have hending : ∀ handling : Option (Ending × ℕ),
        handling.all (fun e => e = (.failed .cancelled, 7)) = true → ∀ ending t,
          handling = some (ending, t) → 7 < t ∨ 7 = t ∧ ending = .failed .cancelled := by
      rintro _ hall ending t rfl
      simp_all
    exact htold ⟨6, emptyRequest, ⟨[0]⟩, 0, false⟩ (by decide +kernel) _ (max 7 0)
      (.cancelled rfl (by decide +kernel) (hending _ (by decide +kernel))
        (hbefore _ _ (by decide +kernel))) (by decide +kernel)
  · have hending : ∀ handling : Option (Ending × ℕ), handling.all (fun e => 20 < e.2) = true →
        ∀ ending t, handling = some (ending, t) → 20 < t := by
      rintro _ hall ending t rfl
      simpa using hall
    exact htold ⟨8, emptyRequest, ⟨[9]⟩, 0, false⟩ (by decide +kernel) _ 20
      (.stopped rfl (by decide +kernel) (hending _ (by decide +kernel))
        (hbefore _ _ (by decide +kernel))) (by decide +kernel)
  · exact htold ⟨10, emptyRequest, ⟨[9]⟩, 20, true⟩ (by decide +kernel) _ 20 (.gone rfl)
      (by decide +kernel)

end Session

end SolutionWatch
