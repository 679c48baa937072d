import SolutionWatch.Proofs.Worker.Calls

/-!
# How a call stands

Somebody who calls a worker waits for the call, has an answer that he has not seen, or was told how the
call ended (`Standing`). While a call goes on, its service has it or not, and it is at most at the
instant at which something has to become of it (`Underway`): as long as it has a turn before the clock
moves, nothing that decides it is missed.

What happens to others leaves a standing as it is (`Standing.spared`); what happens to the token and to
the worker changes what the call may come to only from now on (`Standing.later`); and in its own turn a
call goes on or ends as it may (`Underway.turn`).
-/

namespace SolutionWatch

/-- A call to a worker that somebody makes. -/
structure Invocation where
  /-- The errand that waits for the call. -/
  errand : Handle
  /-- The request. -/
  request : Request Address
  /-- The token that the call runs under. -/
  token : Token
  /-- When the call was made. -/
  made : ℕ
  /-- Whether the worker had been stopped by then. -/
  gone : Bool
  deriving DecidableEq

/-- The call that an errand waits for has the next number after its own. -/
def Invocation.call (invocation : Invocation) : Handle := invocation.errand + 1

/-- The errand of a call, which waits for something. -/
def Invocation.awaits (invocation : Invocation) (pending : Pending) : Errand :=
  ⟨.asker, invocation.token, .request pending⟩

namespace Session

variable {session before after : Session} {worker handle : Handle} {course : Course}
  {p : Invocation} {act : Option Act}

/-- A caller that waits for one call does not care about another. -/
theorem ignores_of_waits (h : session.errands.get? p.errand = some (p.awaits (.call p.call)))
    (hne : p.call ≠ handle) : session.Ignores p.errand handle := by
  intro e he ending
  obtain rfl := Option.some.inj (h.symm.trans he)
  simp [Errand.learns, Invocation.awaits, ErrandStage.learn, Pending.learn, hne]

/-- A caller that has an answer does not care about any call. -/
theorem ignores_of_ended {ending : Ending}
    (h : session.errands.get? p.errand = some (p.awaits (.ended ending))) (handle : Handle) :
    session.Ignores p.errand handle := by
  intro e he _
  obtain rfl := Option.some.inj (h.symm.trans he)
  rfl

/-- A caller that is gone does not care about any call. -/
theorem ignores_of_none (h : session.errands.get? p.errand = none) (handle : Handle) :
    session.Ignores p.errand handle := by
  intro e he
  rw [h] at he
  contradiction

/-- A call that somebody waits for goes on. -/
structure Underway (session : Session) (worker : Handle) (course : Course) (p : Invocation)
    (act : Option Act) : Prop where
  /-- The worker was there when the call was made. -/
  here : course.gone = false
  /-- The call was not made later than now. -/
  made : course.made ≤ session.now
  /-- The call is what was asked for. -/
  call : session.calls.get? p.call = some ⟨worker, p.request, p.token, p.errand, act⟩
  /-- A call that the service has not got was made just now. -/
  fresh : act = none → course.made = session.now
  /-- A call that the service has got does what the service does. -/
  begun : ∀ a, act = some a →
    (∃ serviceCall, course.accepted = .ok serviceCall) ∧ a = course.response.act course.made
  /-- A service that takes its time has set an alarm. -/
  asleep : ∀ a, act = some a → session.now < a.due → (a.due, .call p.call) ∈ session.alarms
  /-- A service that is over with its delay is so just now, unless it waits for the token. -/
  awake : ∀ a, act = some a → a.due ≤ session.now →
    a.reply = .awaitCancel ∨ a.due = session.now
  /-- If the token was cancelled, it was just now. -/
  cancelled : ∀ t, course.cancelled = some t → t = session.now
  /-- If the worker was stopped, it was just now. -/
  stopped : ∀ t, course.stopped = some t → t = session.now

/-- Something has to become of a call before the clock moves. -/
def Pressing (session : Session) (course : Course) (act : Option Act) : Prop :=
  act = none ∨ (∃ a, act = some a ∧ a.due ≤ session.now ∧ a.reply ≠ .awaitCancel) ∨
    course.stopped.isSome = true

namespace Underway

/-- The handling of a call that goes on has not ended before now. -/
theorem le_of_handling (h : session.Underway worker course p act) {ending : Ending} {time : ℕ}
    (hhandling : course.handling = some (ending, time)) : session.now ≤ time := by
  cases hact : act with
  | none => exact h.fresh hact ▸ Course.made_le_of_handling hhandling
  | some a =>
    obtain ⟨⟨serviceCall, haccepted⟩, rfl⟩ := h.begun a hact
    -- The end is that of the delay, or comes with the cancellation.
    have hover := h.awake _ hact
    simp only [Response.act, Course.handling, haccepted, Course.due] at hover hhandling
    cases hreply : course.response.reply <;>
      simp only [hreply, Option.map_eq_some_iff, Prod.mk.injEq, reduceCtorEq, false_or] at hover hhandling
    case awaitCancel =>
      obtain ⟨t, ht, -, rfl⟩ := hhandling
      rw [h.cancelled t ht]
      exact Nat.le_max_left _ _
    all_goals
      obtain ⟨-, -, -, rfl⟩ := hhandling
      omega

/-- If the worker was stopped, the call may be told that the worker is gone. -/
theorem lost (h : session.Underway worker course p act) {time : ℕ}
    (hstopped : course.stopped = some time) :
    course.Allows (.failed .workerDisconnected) session.now := by
  have htime := h.stopped time hstopped
  subst htime
  exact .stopped h.here hstopped (fun _ _ hhandling => h.le_of_handling hhandling)
    fun t ht => Nat.le_of_eq (h.cancelled t ht).symm

/-- If the token was cancelled, the call may be told so. -/
theorem gaveUp (h : session.Underway worker course p act) {time : ℕ}
    (hcancelled : course.cancelled = some time) :
    course.Allows (.failed .cancelled) session.now := by
  have htime := h.cancelled time hcancelled
  have hmax : max time course.made = session.now := by
    rw [htime]
    exact Nat.max_eq_left h.made
  rw [← hmax]
  refine .cancelled h.here hcancelled (fun _ _ hhandling => ?_) fun t ht => ?_
  · rw [htime]
    exact h.le_of_handling hhandling
  · rw [hmax]
    exact Nat.le_of_eq (h.stopped t ht).symm

/-- If the handling ends now, the call may be told how. -/
theorem ended (h : session.Underway worker course p act) {ending : Ending}
    (hhandling : course.handling = some (ending, session.now)) :
    course.Allows ending.told session.now :=
  .handled h.here hhandling (fun t ht => Nat.le_of_eq (h.cancelled t ht).symm)
    fun t ht => Nat.le_of_eq (h.stopped t ht).symm

/-- A service that is done with a call is done now. -/
theorem handling_of_look {a : Act} (h : session.Underway worker course p (some a))
    (htoken : session.isCancelled p.token = course.cancelled.isSome) {ending : Ending}
    (hlook : (session.lookAtAct a p.token).1 = some ending) :
    course.handling = some (ending, session.now) := by
  rw [lookAtAct_fst, htoken] at hlook
  obtain ⟨⟨serviceCall, haccepted⟩, rfl⟩ := h.begun _ rfl
  by_cases hdue : session.now < (course.response.act course.made).due
  · rw [if_pos hdue] at hlook
    contradiction
  · rw [if_neg hdue] at hlook
    have hdue := Nat.not_lt.mp hdue
    have hnow := h.awake _ rfl hdue
    simp only [Response.act] at hlook hdue hnow
    simp only [Course.handling, haccepted, Course.due]
    cases hreply : course.response.reply <;>
      simp only [hreply, reduceCtorEq, false_or, Reply.ending?] at hlook hnow ⊢
    case awaitCancel =>
      cases hcancelled : course.cancelled with
      | none => simp [hcancelled] at hlook
      | some t =>
        simp only [hcancelled, Option.isSome_some, if_true] at hlook
        obtain rfl := Option.some.inj hlook
        rw [Option.map_some, h.cancelled t hcancelled, Nat.max_eq_left hdue]
    all_goals
      obtain rfl := Option.some.inj hlook
      rw [Option.map_some, hnow]

/-- A request that is refused is refused when the call is made. -/
theorem handling_of_refused (h : session.Underway worker course p none) {failure : Failure}
    (haccepted : course.accepted = .error failure) :
    course.handling = some (.failed failure, session.now) := by
  rw [Course.handling, haccepted, h.fresh rfl]

/-- A call goes on where no time passes and neither it nor its alarm changes. -/
theorem of_same (h : before.Underway worker course p act) (hnow : after.now = before.now)
    (hcall : after.calls.get? p.call = before.calls.get? p.call)
    (halarms : ∀ time, (time, .call p.call) ∈ before.alarms → (time, .call p.call) ∈ after.alarms) :
    after.Underway worker course p act where
  here := h.here
  made := hnow ▸ h.made
  call := hcall.trans h.call
  fresh hact := (h.fresh hact).trans hnow.symm
  begun := h.begun
  asleep a hact hdue := halarms _ (h.asleep a hact (hnow ▸ hdue))
  awake a hact hdue := hnow ▸ h.awake a hact (hnow ▸ hdue)
  cancelled t ht := (h.cancelled t ht).trans hnow.symm
  stopped t ht := (h.stopped t ht).trans hnow.symm

/-- A call goes on when its token is cancelled or its worker stopped just now. -/
theorem later {course' : Course} (h : session.Underway worker course p act)
    (hlater : Course.Later session.now course course')
    (hcancels : ∀ t, course'.cancelled = some t → t ≤ session.now)
    (hstops : ∀ t, course'.stopped = some t → t ≤ session.now) :
    session.Underway worker course' p act where
  here := hlater.gone.trans h.here
  made := hlater.made ▸ h.made
  call := h.call
  fresh hact := hlater.made.trans (h.fresh hact)
  begun a hact := by
    rw [hlater.accepted, hlater.response, hlater.made]
    exact h.begun a hact
  asleep := h.asleep
  awake := h.awake
  cancelled t ht :=
    (hlater.cancels t ht).elim (h.cancelled t) fun hle => Nat.le_antisymm (hcancels t ht) hle
  stopped t ht :=
    (hlater.stops t ht).elim (h.stopped t) fun hle => Nat.le_antisymm (hstops t ht) hle

/-- A call goes on when the service has just got it. -/
theorem begin (h : session.Underway worker course p none) {state : WorkerState}
    (hresponse : responseOf state = course.response) {serviceCall : ServiceCall}
    (haccepted : course.accepted = .ok serviceCall) :
    (session.begun p.call ⟨worker, p.request, p.token, p.errand, none⟩ state
      serviceCall).Underway worker course p (some (course.response.act session.now)) := by
  obtain ⟨alarms, heq, halarm⟩ := session.begun_eq p.call
    ⟨worker, p.request, p.token, p.errand, none⟩ state serviceCall
  rw [heq]
  rw [hresponse] at halarm ⊢
  exact
    { here := h.here
      made := h.made
      call := by rw [Catalog.get?_insert, if_pos rfl]
      fresh := nofun
      begun := fun a ha => by
        rw [h.fresh rfl]
        exact ⟨⟨serviceCall, haccepted⟩, (Option.some.inj ha).symm⟩
      asleep := fun a ha hdue => by
        obtain rfl := Option.some.inj ha
        exact List.mem_append_right _ (halarm hdue)
      awake := fun a ha hdue => by
        obtain rfl := Option.some.inj ha
        exact .inr (Nat.le_antisymm hdue (Nat.le_add_right _ _))
      cancelled := h.cancelled
      stopped := h.stopped }

end Underway

/-- How a call stands: what its caller was told is the list at the end. -/
inductive Standing (session : Session) (worker : Handle) (course : Course) (p : Invocation) :
    List (Ending × ℕ) → Prop
  /-- The caller waits for the call, and the call has a turn before the clock moves if it must. -/
  | waiting {act : Option Act} : session.errands.get? p.errand = some (p.awaits (.call p.call)) →
      session.Underway worker course p act →
      (session.Pressing course act → session.Stirs worker p.call) →
      Standing session worker course p []
  /-- The caller has not seen the answer yet. -/
  | answered {ending : Ending} :
      session.errands.get? p.errand = some (p.awaits (.ended ending)) →
      course.Allows ending session.now → Standing session worker course p []
  /-- The caller was told how the call ended. -/
  | told {ending : Ending} {time : ℕ} : session.errands.get? p.errand = none →
      time ≤ session.now → course.Allows ending time →
      Standing session worker course p [(ending, time)]

namespace Standing

variable {told : List (Ending × ℕ)}

/-- A call that is spared stands as it stood. -/
theorem spared (h : before.Standing worker course p told) (hnow : after.now = before.now)
    (herrand : after.errands.get? p.errand = before.errands.get? p.errand)
    (hspares : course.gone = false → Spares p.call before after) :
    after.Standing worker course p told := by
  cases h with
  | waiting hwaits hunderway hstirs =>
    have hspares := hspares hunderway.here
    refine .waiting (herrand.trans hwaits) (hunderway.of_same hnow hspares.call hspares.alarms)
      fun hpressing => ?_
    refine hspares.stirs worker (hstirs ?_)
    unfold Pressing at hpressing ⊢
    rwa [hnow] at hpressing
  | answered hanswered hallows => exact .answered (herrand.trans hanswered) (hnow ▸ hallows)
  | told hover htime hallows => exact .told (herrand.trans hover) (hnow ▸ htime) hallows

/-- A call stands as it stood when its token is cancelled or its worker is stopped just now, if all calls
of a worker that is stopped have a turn. -/
theorem later {course' : Course} (h : session.Standing worker course p told)
    (hlater : Course.Later session.now course course')
    (hcancels : ∀ t, course'.cancelled = some t → t ≤ session.now)
    (hstops : ∀ t, course'.stopped = some t → t ≤ session.now)
    (hlost : course'.stopped.isSome = true → course.stopped.isSome = true ∨
      ∀ call, session.calls.get? p.call = some call → call.worker = worker →
        session.Stirs worker p.call) :
    session.Standing worker course' p told := by
  cases h with
  | waiting hwaits hunderway hstirs =>
    refine .waiting hwaits (hunderway.later hlater hcancels hstops) ?_
    rintro (hfresh | hover | hstopped)
    · exact hstirs (.inl hfresh)
    · exact hstirs (.inr (.inl hover))
    · exact (hlost hstopped).elim (fun hstopped => hstirs (.inr (.inr hstopped)))
        fun hall => hall _ hunderway.call rfl
  | answered hanswered hallows => exact .answered hanswered (hallows.later (Nat.le_refl _) hlater)
  | told hover htime hallows => exact .told hover htime (hallows.later htime hlater)

/-- When a call ends its caller has an answer. -/
theorem of_endCall (hwaits : session.errands.get? p.errand = some (p.awaits (.call p.call)))
    {call : Call} (herrand : call.errand = p.errand) {ending : Ending}
    (hallows : course.Allows ending session.now) :
    (session.endCall p.call call ending).Standing worker course p [] := by
  have hnow := (session.apart_endCall p.call call ending).now
  have hanswered : (session.endCall p.call call ending).errands.get? p.errand =
      some (p.awaits (.ended ending)) := by
    rw [← herrand] at hwaits ⊢
    rw [get?_errands_endCall hwaits ending]
    simp [Errand.learns, Invocation.awaits, ErrandStage.learn, Pending.learn]
  exact .answered hanswered (hnow ▸ hallows)

end Standing

/-- A call that is looked at ends, or it goes on and waits for its delay or for its token. -/
theorem Underway.finish {a : Act} (h : session.Underway worker course p (some a))
    (hwaits : session.errands.get? p.errand = some (p.awaits (.call p.call)))
    (htoken : session.isCancelled p.token = course.cancelled.isSome)
    (hruns : course.stopped = none) :
    (session.finishCall p.call ⟨worker, p.request, p.token, p.errand, some a⟩ a).Standing worker
      course p [] := by
  rcases session.finishCall_cases p.call ⟨worker, p.request, p.token, p.errand, some a⟩ a with
    ⟨hlook, heq⟩ | ⟨ending, next, hlook, hnext, heq⟩ <;> rw [heq]
  · refine .waiting hwaits h ?_
    rintro (hfresh | ⟨b, hb, hdue, hreply⟩ | hstopped)
    · contradiction
    · -- What is over with its delay ends, unless it waits for the token.
      obtain rfl := Option.some.inj hb
      rw [lookAtAct_fst, if_neg (Nat.not_lt.mpr hdue)] at hlook
      cases hkind : a.reply <;> simp_all [Reply.ending?]
    · rw [hruns] at hstopped
      contradiction
  · have hallows := h.ended (h.handling_of_look htoken hlook)
    have hsame : next.errands = session.errands ∧ next.now = session.now := by
      rcases hnext with rfl | ⟨other, rfl⟩
      · exact ⟨rfl, rfl⟩
      · exact ⟨(session.cancelToken_same other).2.1, (session.apart_cancelToken p.call other).now⟩
    exact .of_endCall (hsame.1 ▸ hwaits) rfl (hsame.2 ▸ hallows)

/-- What the service of a worker does with the call that it gets next. -/
def response (session : Session) (worker : Handle) : Response :=
  ((session.workers.get? worker).map responseOf).getD {}

/-- In its turn a call goes on or ends as it may: it is lost if the worker was stopped, and else it is
refused, or the service has got it and is done with it or not. -/
theorem Underway.turn (h : session.Underway worker course p act)
    (hwaits : session.errands.get? p.errand = some (p.awaits (.call p.call)))
    {known : SnapshotRegistry} {calls : List ServiceCall}
    (hserves : session.Serves worker known course.stopped.isNone calls)
    (haccepted : course.accepted = (Worker.accept known p.request).1)
    (htoken : session.isCancelled p.token = course.cancelled.isSome)
    (hresponse : act = none → session.response worker = course.response) :
    (session.callTurn p.call).Standing worker course p [] := by
  obtain ⟨state, hworker, hrunning, -, hlike⟩ := hserves
  rw [callTurn_eq h.call hworker, hrunning]
  cases hstopped : course.stopped with
  | some time =>
    simp only [Option.isNone_some, Bool.false_eq_true, if_false]
    exact .of_endCall hwaits (Eq.refl p.errand) (h.lost hstopped)
  | none =>
    simp only [Option.isNone_none, if_true]
    cases hact : act with
    | some a => exact (hact ▸ h).finish hwaits htoken hstopped
    | none =>
      subst hact
      have hresponse : responseOf state = course.response := by
        rw [← hresponse rfl, response, hworker]
        rfl
      dsimp only
      rw [beginCall_eq, hlike.accept, ← haccepted]
      cases hserved : course.accepted with
      | error failure =>
        have hwaits : (session.resolved state p.request).errands.get? p.errand =
            some (p.awaits (.call p.call)) := hwaits
        exact .of_endCall hwaits (Eq.refl p.errand) (h.ended (h.handling_of_refused hserved))
      | ok serviceCall =>
        have hbegun := h.begin hresponse hserved
        obtain ⟨alarms, heq, -⟩ := session.begun_eq p.call
          ⟨worker, p.request, p.token, p.errand, none⟩ state serviceCall
        rw [hresponse]
        exact hbegun.finish (heq ▸ hwaits) (heq ▸ htoken) hstopped

/-- What a caller finds when he looks is what he is told, and nothing changes for anybody else. -/
theorem Standing.look {told : List (Ending × ℕ)} (h : session.Standing worker course p told)
    (hanswer : session.answer = none)
    (htoken : session.isCancelled p.token = course.cancelled.isSome) :
    ∃ found errands, lookAtErrand p.errand session = (found, session.withErrands errands) ∧
      (∀ other, other ≠ p.errand → errands.get? other = session.errands.get? other) ∧
      (session.withErrands errands).Standing worker course p
        (told ++ (found.map fun ending => (ending, session.now)).toList) := by
  have hothers : ∀ other, other ≠ p.errand →
      (session.errands.erase p.errand).get? other = session.errands.get? other := by
    intro other hother
    rw [Catalog.get?_erase, if_neg (Ne.symm hother)]
  have herased : (session.errands.erase p.errand).get? p.errand = none := by
    rw [Catalog.get?_erase, if_pos rfl]
  cases h with
  | told hover htime hallows =>
    refine ⟨none, session.errands, lookAtErrand_of_none hanswer hover, fun _ _ => rfl, ?_⟩
    exact .told hover htime hallows
  | @answered ending hanswered hallows =>
    refine ⟨some ending, _, lookAtErrand_of_ended hanswer hanswered, hothers, ?_⟩
    exact .told herased (Nat.le_refl _) hallows
  | waiting hwaits hunderway hstirs =>
    cases hcancelled : course.cancelled with
    | none =>
      rw [hcancelled] at htoken
      refine ⟨none, session.errands, lookAtErrand_of_waits hanswer hwaits htoken, fun _ _ => rfl, ?_⟩
      exact .waiting hwaits hunderway hstirs
    | some time =>
      rw [hcancelled] at htoken
      refine ⟨some (.failed .cancelled), _, lookAtErrand_of_cancelled hanswer hwaits htoken, hothers, ?_⟩
      exact .told herased (Nat.le_refl _) (hunderway.gaveUp hcancelled)

/-- A call stands as it stood when the clock moves, if its caller has nothing to find, the call has had
its turns, and the clock does not move past an alarm of the call. -/
theorem Standing.tick {told : List (Ending × ℕ)} (h : session.Standing worker course p told)
    (hanswer : session.answer = none) (htoken : session.isCancelled p.token = course.cancelled.isSome) {time : ℕ}
    (hlook : (lookAtErrand p.errand session).1 = none) (hasleep : ¬ session.Stirs worker p.call)
    (halarms : ∀ t, (t, .call p.call) ∈ session.alarms → time ≤ t) :
    (session.moveClock time).Standing worker course p told := by
  obtain ⟨woken, heq, -, hawake⟩ := session.moveClock_eq time
  rw [heq]
  cases h with
  | told hover htime hallows => exact .told hover (Nat.le_trans htime (Nat.le_max_left _ _)) hallows
  | answered hanswered =>
    rw [lookAtErrand_of_ended hanswer hanswered] at hlook
    contradiction
  | @waiting act hwaits hunderway hstirs =>
    -- Nothing presses, so the service has the call and goes on with it.
    have hcalm : ¬ session.Pressing course act := fun hpressing => hasleep (hstirs hpressing)
    have hcancelled : course.cancelled = none := by
      cases hcancelled : course.cancelled with
      | none => rfl
      | some t =>
        rw [hcancelled] at htoken
        rw [lookAtErrand_of_cancelled hanswer hwaits htoken] at hlook
        contradiction
    have hstopped : course.stopped = none :=
      Option.not_isSome_iff_eq_none.mp fun hstopped => hcalm (.inr (.inr hstopped))
    have hserved : act ≠ none := fun hfresh => hcalm (.inl hfresh)
    have hover : ∀ a, act = some a → a.due ≤ session.now → a.reply = .awaitCancel :=
      fun a ha hdue => not_not.mp fun hreply => hcalm (.inr (.inl ⟨a, ha, hdue, hreply⟩))
    have hdue : ∀ a, act = some a → session.now < a.due → time ≤ a.due :=
      fun a ha hdue => halarms _ (hunderway.asleep a ha hdue)
    refine .waiting hwaits
      { here := hunderway.here
        made := Nat.le_trans hunderway.made (Nat.le_max_left _ _)
        call := hunderway.call
        fresh := fun hfresh => absurd hfresh hserved
        begun := hunderway.begun
        asleep := fun a ha hlater => ?_
        awake := fun a ha hnow => ?_
        cancelled := fun t ht => absurd (hcancelled.symm.trans ht) nofun
        stopped := fun t ht => absurd (hstopped.symm.trans ht) nofun } ?_
    · have hlater : max session.now time < a.due := hlater
      refine List.mem_filter.mpr ⟨hunderway.asleep a ha (by omega), ?_⟩
      simp only [Bool.not_eq_eq_eq_not, Bool.not_true, decide_eq_false_iff_not]
      omega
    · have hnow : a.due ≤ max session.now time := hnow
      by_cases hpast : a.due ≤ session.now
      · exact .inl (hover a ha hpast)
      · have hle := hdue a ha (Nat.not_le.mp hpast)
        refine .inr ?_
        dsimp only
        omega
    · rintro (hfresh | ⟨a, ha, hnow, hreply⟩ | hgone)
      · exact absurd hfresh hserved
      · -- The delay is over just now, and the alarm goes off.
        have hnow : a.due ≤ max session.now time := hnow
        have hahead : session.now < a.due := by
          by_contra hpast
          exact hreply (hover a ha (Nat.not_lt.mp hpast))
        exact .inl (hawake _ (hunderway.asleep a ha hahead) (by dsimp only; omega) rfl)
      · rw [hstopped] at hgone
        contradiction

/-- Sending a request gives the caller an errand, and changes neither the other errands nor the tokens. -/
theorem sent_same {state : WorkerState} (hworker : session.workers.get? worker = some state)
    (request : Request Address) (token : Token) :
    (session.sent worker request token).now = session.now ∧
      (session.sent worker request token).answer = session.answer ∧
      (session.sent worker request token).tokens = session.tokens ∧
      ∀ other, other ≠ session.next →
        (session.sent worker request token).errands.get? other = session.errands.get? other := by
  cases hrunning : state.running with
  | true =>
    obtain ⟨woken, heq, -⟩ := sent_of_running hworker hrunning request token
    rw [heq]
    refine ⟨rfl, rfl, rfl, fun other hother => ?_⟩
    dsimp only
    rw [Catalog.get?_insert, if_neg (Ne.symm hother)]
  | false =>
    rw [sent_of_stopped hworker hrunning]
    refine ⟨rfl, rfl, rfl, fun other hother => ?_⟩
    dsimp only
    rw [Catalog.get?_insert, if_neg (Ne.symm hother)]

/-- The caller of a worker that was stopped has an answer. -/
theorem standing_sent_of_stopped {state : WorkerState}
    (hworker : session.workers.get? worker = some state) (hstopped : state.running = false)
    (herrand : p.errand = session.next) (hmade : course.made = session.now)
    (hgone : course.gone = true) :
    (session.sent worker p.request p.token).Standing worker course p [] := by
  rw [sent_of_stopped hworker hstopped]
  have hanswered : (session.errands.insert session.next
      ⟨.asker, p.token, .request (.ended (.failed .workerDisconnected))⟩).get? p.errand =
      some (p.awaits (.ended (.failed .workerDisconnected))) := by
    rw [herrand, Catalog.get?_insert, if_pos rfl]
    rfl
  exact .answered hanswered (hmade ▸ .gone hgone)

/-- The caller of a worker that runs waits for a call that lies in the inbox. -/
theorem standing_sent_of_running {state : WorkerState}
    (hworker : session.workers.get? worker = some state) (hrunning : state.running = true)
    (herrand : p.errand = session.next) (hmade : course.made = session.now)
    (hhere : course.gone = false) (hcancelled : course.cancelled = none)
    (hstopped : course.stopped = none) :
    (session.sent worker p.request p.token).Standing worker course p [] := by
  obtain ⟨woken, heq, hawake⟩ := sent_of_running hworker hrunning p.request p.token
  rw [heq, ← herrand]
  have hcall : ((session.calls.insert (p.errand + 1)
      (⟨worker, p.request, p.token, p.errand, none⟩ : Call)).get? p.call) =
      some ⟨worker, p.request, p.token, p.errand, none⟩ :=
    (Catalog.get?_insert _ _ _ _).trans (if_pos rfl)
  refine .waiting ?_
    { here := hhere
      made := Nat.le_of_eq hmade
      call := hcall
      fresh := fun _ => hmade
      begun := nofun
      asleep := nofun
      awake := nofun
      cancelled := fun t ht => absurd (hcancelled.symm.trans ht) nofun
      stopped := fun t ht => absurd (hstopped.symm.trans ht) nofun } fun _ => ?_
  · exact (Catalog.get?_insert _ _ _ _).trans (if_pos rfl)
  · refine .inr ⟨hawake, { state with inbox := state.inbox ++ [p.errand + 1] }, ?_,
      List.mem_append_right _ (List.mem_singleton_self _)⟩
    exact (Catalog.get?_insert _ _ _ _).trans (if_pos rfl)

/-- Whoever makes a call looks for an answer at once: he is told that the worker is gone if it was
stopped, or that his token is cancelled if it was, and else he waits. -/
theorem standing_invoke {known : SnapshotRegistry} {calls : List ServiceCall}
    (hanswer : session.answer = none)
    (hserves : session.Serves worker known course.stopped.isNone calls)
    (herrand : p.errand = session.next) (hmade : course.made = session.now)
    (hgone : course.gone = course.stopped.isSome)
    (hcancels : ∀ t, course.cancelled = some t → t ≤ session.now)
    (htoken : session.isCancelled p.token = course.cancelled.isSome) :
    ∃ found errands, lookAtErrand p.errand (session.sent worker p.request p.token) =
        (found, (session.sent worker p.request p.token).withErrands errands) ∧
      (∀ other, other ≠ p.errand → errands.get? other = session.errands.get? other) ∧
      ((session.sent worker p.request p.token).withErrands errands).Standing worker course p
        (found.map fun ending => (ending, session.now)).toList := by
  obtain ⟨state, hworker, hrunning, -, -⟩ := hserves
  obtain ⟨hnow, hsame, htokens, hothers⟩ := sent_same hworker p.request p.token
  have htoken' : (session.sent worker p.request p.token).isCancelled p.token =
      course.cancelled.isSome := by
    rw [isCancelled, htokens]
    exact htoken
  rw [← herrand] at hothers
  -- Where the caller stands once the request is sent, looking is what it always is.
  have hlook : (session.sent worker p.request p.token).Standing worker course p [] → _ := fun h =>
    h.look (hsame.trans hanswer) htoken'
  rw [hnow] at hlook
  cases hstopped : course.stopped with
  | some time =>
    rw [hstopped] at hrunning hgone
    obtain ⟨found, errands, hfound, hrest, hstanding⟩ :=
      hlook (standing_sent_of_stopped hworker hrunning herrand hmade hgone)
    exact ⟨found, errands, hfound, fun other hother => (hrest other hother).trans
      (hothers other hother), hstanding⟩
  | none =>
    rw [hstopped] at hrunning hgone
    cases hcancelled : course.cancelled with
    | none =>
      obtain ⟨found, errands, hfound, hrest, hstanding⟩ :=
        hlook (standing_sent_of_running hworker hrunning herrand hmade hgone hcancelled hstopped)
      exact ⟨found, errands, hfound, fun other hother => (hrest other hother).trans
        (hothers other hother), hstanding⟩
    | some time =>
      rw [hcancelled] at htoken'
      have hwaits : (session.sent worker p.request p.token).errands.get? p.errand =
          some ⟨.asker, p.token, .request (.call p.call)⟩ := by
        obtain ⟨woken, heq, -⟩ := sent_of_running hworker hrunning p.request p.token
        rw [heq, ← herrand]
        dsimp only
        rw [Catalog.get?_insert, if_pos rfl]
        rfl
      have hle := hcancels time hcancelled
      have hmax : max time course.made = session.now := by
        rw [hmade]
        exact Nat.max_eq_right hle
      refine ⟨some (.failed .cancelled), _,
        lookAtErrand_of_cancelled (hsame.trans hanswer) hwaits htoken', fun other hother => ?_,
        .told ((Catalog.get?_erase _ _ _).trans (if_pos rfl)) (Nat.le_of_eq hnow.symm) ?_⟩
      · rw [Catalog.get?_erase, if_neg (Ne.symm hother), hothers other hother]
      · rw [← hmax]
        refine .cancelled hgone hcancelled (fun _ t hhandling => ?_) fun t ht => ?_
        · exact Nat.le_trans (hmade ▸ hle) (Course.made_le_of_handling hhandling)
        · rw [hstopped] at ht
          contradiction

end Session

end SolutionWatch
