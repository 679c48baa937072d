import SolutionWatch.Proofs.Worker.Run

/-!
# What holds while calls go on

What is in a session of a run fits what happened to the calls (`CallLog.Fits`): each call stands as it may
(`Session.Standing`), its caller being told what the log says, and the worker's service got what the call
asks for, once at most (`CallLog.Records`). Each step keeps this. A step of one call changes how this call
stands and leaves the others as they are; a token that is cancelled and a worker that is stopped change
what the calls may come to from now on.
-/

namespace SolutionWatch

namespace CallLog

variable {worker handle : Handle} {known : SnapshotRegistry} {service : Handle → Response}
  {log : CallLog} {session before after : Session} {p : Invocation}

/-- What the service got because of a call is what the request asks for in what is known, and it got it
once at most. -/
structure Records (log : CallLog) (worker : Handle) (known : SnapshotRegistry) (session : Session)
    (p : Invocation) : Prop where
  /-- As long as the call is there it is the one that was made; the service gets it no more than once. -/
  call : ∀ call, session.calls.get? p.call = some call → call.worker = worker ∧
    call.request = p.request ∧ (call.act = none → log.servedTo p.call = [])
  /-- The service got nothing, or what the request asks for. -/
  served : log.servedTo p.call = [] ∨
    ∃ serviceCall, (Worker.accept known p.request).1 = .ok serviceCall ∧
      log.servedTo p.call = [serviceCall]

/-- What is in a session fits what happened to the calls of a worker. -/
structure Fits (log : CallLog) (worker : Handle) (known : SnapshotRegistry)
    (service : Handle → Response) (session : Session) : Prop where
  /-- The foreground has taken every answer. -/
  answer : session.answer = none
  /-- The calls have numbers that were given out. -/
  numbered : session.Numbered
  /-- The worker runs until it is stopped, and its service got what it got. -/
  serves : session.Serves worker known log.stopped.isNone (log.served.map Prod.snd)
  /-- The cancelled tokens are those that were cancelled at some time. -/
  tokens : ∀ token, session.isCancelled token = (log.cancelled token).isSome
  /-- No token was cancelled later than now. -/
  cancels : ∀ token time, log.cancelled token = some time → time ≤ session.now
  /-- The worker was not stopped later than now. -/
  stops : ∀ time, log.stopped = some time → time ≤ session.now
  /-- The errands and calls have numbers that were given out. -/
  invocations : ∀ p ∈ log.invocations, p.errand < session.next ∧
    (p.gone = false → p.call < session.next)
  /-- Each call has an errand of its own. -/
  distinct : (log.invocations.map Invocation.errand).Nodup
  /-- Only errands were told anything. -/
  returned : ∀ entry ∈ log.returned, entry.1 < session.next
  /-- The service got only calls. -/
  served : ∀ entry ∈ log.served, entry.1 < session.next
  /-- Each call stands as it may. -/
  standing : ∀ p ∈ log.invocations,
    session.Standing worker (log.course known service p) p (log.toldTo p.errand)
  /-- What the service got because of each call is what the call asks for. -/
  records : ∀ p ∈ log.invocations, p.gone = false → log.Records worker known session p

/-- Where a call is what it was and the service got nothing more because of it, the records are right. -/
theorem Records.of_same {other : CallLog} (h : log.Records worker known before p)
    (hserved : other.servedTo p.call = log.servedTo p.call)
    (hcall : after.calls.get? p.call = before.calls.get? p.call) :
    other.Records worker known after p where
  call := by
    rw [hcall, hserved]
    exact h.call
  served := by
    rw [hserved]
    exact h.served

namespace Fits

/-- At the start nothing happened. -/
theorem start (hanswer : session.answer = none) (hnumbered : session.Numbered)
    (hserves : session.Serves worker known true []) :
    (CallLog.start session).Fits worker known service session where
  answer := hanswer
  numbered := hnumbered
  serves := hserves
  tokens token := by
    cases htoken : session.isCancelled token <;> simp [CallLog.start, htoken]
  cancels token time htime := by
    simp only [CallLog.start] at htime
    split at htime
    · exact Nat.le_of_eq (Option.some.inj htime).symm
    · contradiction
  stops := nofun
  invocations _ hp := absurd hp List.not_mem_nil
  distinct := List.nodup_nil
  returned _ hentry := absurd hentry List.not_mem_nil
  served _ hentry := absurd hentry List.not_mem_nil
  standing _ hp := absurd hp List.not_mem_nil
  records _ hp := absurd hp List.not_mem_nil

/-- Whatever others do fits, once the tokens that they cancelled are heeded. -/
theorem leaves (h : log.Fits worker known service before)
    (hleaves : Session.LeavesCalls worker known log.invocations before after) :
    (log.heed after).Fits worker known service after := by
  have hcancels := le_of_heed hleaves.now h.cancels
  have hstops : ∀ time, log.stopped = some time → time ≤ after.now :=
    fun time htime => hleaves.now ▸ h.stops time htime
  exact
    { answer := hleaves.answer.trans h.answer
      numbered := hleaves.numbered h.numbered
      serves := hleaves.serves _ _ h.serves
      tokens := isSome_heed h.tokens hleaves.tokens
      cancels := hcancels
      stops := hstops
      invocations := fun p hp =>
        ⟨Nat.lt_of_lt_of_le (h.invocations p hp).1 hleaves.next,
          fun hhere => Nat.lt_of_lt_of_le ((h.invocations p hp).2 hhere) hleaves.next⟩
      distinct := h.distinct
      returned := fun entry hentry => Nat.lt_of_lt_of_le (h.returned entry hentry) hleaves.next
      served := fun entry hentry => Nat.lt_of_lt_of_le (h.served entry hentry) hleaves.next
      standing := fun p hp => by
        have hspared := (h.standing p hp).spared hleaves.now (hleaves.errands p hp)
          (hleaves.spares p hp)
        exact hspared.later (heed_later rfl known service p) (hcancels p.token) hstops .inl
      records := fun p hp hhere =>
        (h.records p hp hhere).of_same rfl (hleaves.spares p hp hhere).call }

/-- Whatever others do fits if they cancel nothing. -/
theorem leaves_of_tokens (h : log.Fits worker known service before)
    (hleaves : Session.LeavesCalls worker known log.invocations before after)
    (htokens : after.tokens = before.tokens) : log.Fits worker known service after := by
  have hheed : log.heed after = log := heed_eq_self fun token => by
    rw [Session.isCancelled, htokens]
    exact h.tokens token
  exact hheed ▸ h.leaves hleaves

/-- The turn of the inbox fits. -/
theorem inbox (h : log.Fits worker known service session) :
    log.Fits worker known service (session.afterTurn (.inbox worker)) := by
  obtain ⟨state, hworker, -⟩ := h.serves
  refine h.leaves_of_tokens (Session.leavesCalls_inbox hworker known log.invocations) ?_
  have herased : ({ session with agenda := session.agenda.erase (.inbox worker) } :
      Session).workers.get? worker = some state := hworker
  obtain ⟨woken, heq, -⟩ := Session.inboxTurn_eq herased
  show (Session.inboxTurn _ worker).tokens = session.tokens
  rw [heq]

/-- A caller that looks is told what he finds, and this fits. -/
theorem look (h : log.Fits worker known service session) (hp : p ∈ log.invocations) :
    (log.tell p.errand (Session.lookAtErrand p.errand session).1 session.now).Fits worker known
      service (Session.lookAtErrand p.errand session).2 := by
  obtain ⟨found, errands, hfound, hothers, -⟩ := (h.standing p hp).look h.answer (h.tokens p.token)
  rw [hfound]
  exact
    { answer := h.answer
      numbered := h.numbered
      serves := h.serves
      tokens := h.tokens
      cancels := h.cancels
      stops := h.stops
      invocations := h.invocations
      distinct := h.distinct
      returned := lt_of_mem_returned_tell h.returned (h.invocations p hp).1 _ _
      served := h.served
      standing := fun q hq => by
        by_cases hsame : q.errand = p.errand
        · -- The same errand finds the same.
          obtain ⟨found', errands', hfound', -, hstanding⟩ :=
            (h.standing q hq).look h.answer (h.tokens q.token)
          rw [hsame, hfound, Prod.mk.injEq] at hfound'
          obtain ⟨rfl, hafter⟩ := hfound'
          rw [hafter, hsame, toldTo_tell_self, ← hsame]
          exact hstanding
        · rw [toldTo_tell hsame]
          exact (h.standing q hq).spared rfl (hothers _ hsame) fun _ =>
            .of_subset rfl (List.Subset.refl _) rfl rfl
      records := fun q hq hhere => (h.records q hq hhere).of_same rfl rfl }

/-- A call that is made fits, and so does what its caller finds at once. -/
theorem invoke (h : log.Fits worker known service session) (request : Request Address)
    (token : Token) :
    ((log.invoke (log.invocation session request token)).tell session.next
      (Session.lookAtErrand session.next (session.sent worker request token)).1 session.now).Fits
        worker known service
        (Session.lookAtErrand session.next (session.sent worker request token)).2 := by
  obtain ⟨state, hstate, hrunning, -, -⟩ := h.serves
  obtain ⟨-, -, htokens, -⟩ := Session.sent_same hstate request token
  obtain ⟨hnumber, hnew⟩ := Session.sent_new hstate request token
  have hserves : session.Serves worker known
      (log.course known service (log.invocation session request token)).stopped.isNone
      (log.served.map Prod.snd) := h.serves
  obtain ⟨found, errands, hfound, hothers, hstanding⟩ := Session.standing_invoke
    (p := log.invocation session request token) h.answer hserves rfl rfl rfl (h.cancels token)
    (h.tokens token)
  have hfound : Session.lookAtErrand session.next (session.sent worker request token) =
      (found, (session.sent worker request token).withErrands errands) := hfound
  have hruns : log.stopped.isSome = false → state.running = true := by
    rw [hrunning]
    cases log.stopped <;> simp
  -- First the others, then the new call.
  have hfits := h.leaves_of_tokens
    (Session.leavesCalls_sent h.serves request token h.invocations hothers) htokens
  rw [hfound]
  exact
    { answer := hfits.answer
      numbered := hfits.numbered
      serves := hfits.serves
      tokens := hfits.tokens
      cancels := hfits.cancels
      stops := hfits.stops
      invocations := fun p hp => by
        rcases List.mem_append.mp hp with hold | hmade
        · exact hfits.invocations p hold
        · obtain rfl := List.mem_singleton.mp hmade
          exact ⟨hnumber, fun hhere => (hnew (hruns hhere)).1⟩
      distinct := by
        show ((log.invocations ++ [_]).map Invocation.errand).Nodup
        rw [List.map_append, List.nodup_append]
        refine ⟨h.distinct, by simp, fun errand hold other hnew => ?_⟩
        obtain ⟨p, hp, rfl⟩ := List.mem_map.mp hold
        rw [List.mem_map] at hnew
        obtain ⟨q, hq, rfl⟩ := hnew
        obtain rfl := List.mem_singleton.mp hq
        exact Nat.ne_of_lt (h.invocations p hp).1
      returned := lt_of_mem_returned_tell hfits.returned hnumber _ _
      served := hfits.served
      standing := fun p hp => by
        rcases List.mem_append.mp hp with hold | hmade
        · have hne : p.errand ≠ session.next := Nat.ne_of_lt (h.invocations p hold).1
          rw [toldTo_tell hne]
          exact hfits.standing p hold
        · obtain rfl := List.mem_singleton.mp hmade
          have hnothing : (log.invoke (log.invocation session request token)).toldTo session.next = [] :=
            toldTo_of_lt h.returned
          have htold := toldTo_tell_self (log.invoke (log.invocation session request token))
            session.next found session.now
          rw [hnothing, List.nil_append] at htold
          exact htold ▸ hstanding
      records := fun p hp hhere => by
        rcases List.mem_append.mp hp with hold | hmade
        · exact (hfits.records p hold hhere).of_same rfl rfl
        · obtain rfl := List.mem_singleton.mp hmade
          have hnothing : log.servedTo (session.next + 1) = [] :=
            servedTo_of_lt fun entry hentry => Nat.lt_succ_of_lt (h.served entry hentry)
          refine ⟨fun call hcall => ?_, .inl hnothing⟩
          obtain rfl := Option.some.inj ((hnew (hruns hhere)).2.symm.trans hcall)
          exact ⟨rfl, rfl, fun _ => hnothing⟩ }

/-- After the turn of a call all calls stand as they may: this one because of what it does itself, the
others because nothing changes for them. -/
theorem standing_turn (h : log.Fits worker known service session) {call : Call}
    (hcall : session.calls.get? handle = some call) (hworker : call.worker = worker)
    (hresponse : call.act = none → session.response worker = service handle)
    (hp : p ∈ log.invocations) :
    (session.afterTurn (.call handle)).Standing worker (log.course known service p) p
      (log.toldTo p.errand) := by
  subst hworker
  obtain ⟨state, hstate, -⟩ := h.serves
  have hapart := Session.apart_afterTurn hcall hstate
  have hold := h.standing p hp
  generalize log.toldTo p.errand = told at hold ⊢
  cases hold with
  | told hover htime hallows =>
    refine .told ?_ (hapart.now ▸ htime) hallows
    exact (hapart.errands _ (Session.ignores_of_none hover handle)).trans hover
  | answered hanswered hallows =>
    refine .answered ?_ (hapart.now ▸ hallows)
    exact (hapart.errands _ (Session.ignores_of_ended hanswered handle)).trans hanswered
  | @waiting act hwaits hunderway hstirs =>
    by_cases hown : p.call = handle
    · subst hown
      have hact : act = call.act :=
        congrArg Call.act (Option.some.inj (hunderway.call.symm.trans hcall))
      have herased : ({ session with agenda := session.agenda.erase (.call p.call) } :
          Session).Underway call.worker (log.course known service p) p act :=
        hunderway.of_same rfl rfl fun _ halarm => halarm
      exact herased.turn hwaits (h.serves.of_same rfl rfl) rfl (h.tokens p.token)
        fun hfresh => hresponse (hact ▸ hfresh)
    · refine (Session.Standing.waiting hwaits hunderway hstirs).spared hapart.now ?_
        fun _ => hapart.spares p.call hown
      exact hapart.errands _ (Session.ignores_of_waits hwaits hown)

/-- What the service gets in the turn of a call is what that call asks for. -/
theorem records_turn (h : log.Fits worker known service session) {call : Call}
    (hcall : session.calls.get? handle = some call) (hworker : call.worker = worker)
    (running : Bool) (hp : p ∈ log.invocations) (hhere : p.gone = false) :
    (log.serve handle (call.service known running)).Records worker known
      (session.afterTurn (.call handle)) p := by
  subst hworker
  obtain ⟨state, hstate, -⟩ := h.serves
  have hrecords := h.records p hp hhere
  by_cases hown : p.call = handle
  · subst hown
    obtain ⟨-, hrequest, hfirst⟩ := hrecords.call call hcall
    have hserved := servedTo_serve_self log p.call (call.service known running)
    have herased : ({ session with agenda := session.agenda.erase (.call p.call) } :
        Session).calls.get? p.call = some call := hcall
    refine ⟨fun later hlater => ?_, ?_⟩
    · obtain ⟨hworker, hsame, hact⟩ := Session.get?_calls_callTurn herased hstate hlater
      exact ⟨hworker, hsame.trans hrequest, fun hfresh => absurd hfresh hact⟩
    · rw [hserved, Call.service, hrequest]
      cases hact : call.act with
      | some act => simpa using hrecords.served
      | none =>
        rw [hfirst hact]
        cases running with
        | false => exact .inl rfl
        | true => cases Worker.accept known p.request with
          | mk accepted registry => cases accepted <;> simp [Except.toOption]
  · exact hrecords.of_same (servedTo_serve hown log _)
      ((Session.apart_afterTurn hcall hstate).spares p.call hown).call

/-- What becomes of a call in its turn fits, and so does what the service gets. -/
theorem turn (h : log.Fits worker known service session) {call : Call}
    (hcall : session.calls.get? handle = some call) (hworker : call.worker = worker)
    (hresponse : call.act = none → session.response worker = service handle) :
    ((log.serve handle (((session.afterTurn (.call handle)).serviceCalls worker).drop
      (session.serviceCalls worker).length)).heed (session.afterTurn (.call handle))).Fits worker known
        service (session.afterTurn (.call handle)) := by
  have hstanding := fun p => h.standing_turn (p := p) hcall hworker hresponse
  have hrecords := fun p => h.records_turn (p := p) hcall hworker log.stopped.isNone
  subst hworker
  have hserves := h.serves
  obtain ⟨state, hstate, -⟩ := h.serves
  have hapart := Session.apart_afterTurn hcall hstate
  have herased : ({ session with agenda := session.agenda.erase (.call handle) } :
      Session).Serves call.worker known log.stopped.isNone (log.served.map Prod.snd) :=
    hserves.of_same rfl rfl
  have hafter : (session.afterTurn (.call handle)).Serves call.worker known log.stopped.isNone
      (log.served.map Prod.snd ++ call.service known log.stopped.isNone) := herased.callTurn hcall
  have hgot : ((session.afterTurn (.call handle)).serviceCalls call.worker).drop
      (session.serviceCalls call.worker).length = call.service known log.stopped.isNone := by
    rw [hserves.serviceCalls_eq, hafter.serviceCalls_eq, List.drop_left]
  have hcancels := le_of_heed hapart.now h.cancels
  have hstops : ∀ time, log.stopped = some time → time ≤ (session.afterTurn (.call handle)).now :=
    fun time htime => hapart.now ▸ h.stops time htime
  rw [hgot]
  exact
    { answer := hapart.answer.trans h.answer
      numbered := fun other found hfound => by
        rw [hapart.next]
        by_cases hsame : other = handle
        · exact hsame ▸ h.numbered handle call hcall
        · exact h.numbered other found ((hapart.spares other hsame).call ▸ hfound)
      serves := by simpa [heed, serve, Function.comp_def] using hafter
      tokens := isSome_heed h.tokens hapart.tokens
      cancels := hcancels
      stops := hstops
      invocations := by
        rw [hapart.next]
        exact h.invocations
      distinct := h.distinct
      returned := by
        rw [hapart.next]
        exact h.returned
      served := fun entry hentry => by
        rw [hapart.next]
        rcases List.mem_append.mp hentry with hold | hnew
        · exact h.served entry hold
        · obtain ⟨got, -, rfl⟩ := List.mem_map.mp hnew
          exact h.numbered handle call hcall
      standing := fun p hp =>
        (hstanding p hp).later (heed_later rfl known service p) (hcancels p.token) hstops .inl
      records := fun p hp hhere => (hrecords p hp hhere).of_same rfl rfl }

/-- A worker that is stopped fits. -/
theorem stop (h : log.Fits worker known service session) :
    (log.stop session.now).Fits worker known service (session.stopWorker worker) := by
  obtain ⟨woken, heq, hawake⟩ := session.stopWorker_eq worker
  have hspared : ∀ p ∈ log.invocations, (session.stopWorker worker).Standing worker
      (log.course known service p) p (log.toldTo p.errand) := fun p hp =>
    (h.standing p hp).spared (by rw [heq]) (by rw [heq]) fun _ => session.spares_stopWorker worker _
  -- All calls of the worker have a turn now.
  have hlost : ∀ other call, (session.stopWorker worker).calls.get? other = some call →
      call.worker = worker → (session.stopWorker worker).Stirs worker other := by
    rw [heq]
    exact fun other call hcall hworker => .inl (hawake other call hcall hworker)
  rw [heq] at hspared hlost ⊢
  have hstops : ∀ time, (log.stop session.now).stopped = some time → time ≤ session.now := by
    intro time htime
    simp only [CallLog.stop, Option.or_eq_some_iff] at htime
    rcases htime with hold | ⟨-, hnew⟩
    · exact h.stops time hold
    · exact Nat.le_of_eq (Option.some.inj hnew).symm
  exact
    { answer := h.answer
      numbered := h.numbered
      serves := by
        obtain ⟨state, hstate, -, hcalls, hlike⟩ := h.serves
        have hstopped : (log.stop session.now).stopped.isNone = false := by
          cases hlog : log.stopped <;> simp [CallLog.stop, hlog]
        rw [hstopped]
        refine ⟨{ state with running := false }, ?_, rfl, hcalls, hlike⟩
        exact (Catalog.get?_modify _ _ _).trans (hstate ▸ rfl)
      tokens := h.tokens
      cancels := h.cancels
      stops := hstops
      invocations := h.invocations
      distinct := h.distinct
      returned := h.returned
      served := h.served
      standing := fun p hp =>
        (hspared p hp).later (stop_later log session.now known service p) (h.cancels p.token) hstops
          fun _ => .inr (hlost p.call)
      records := fun p hp hhere => (h.records p hp hhere).of_same rfl rfl }

/-- A clock that moves while calls and callers rest fits. -/
theorem tick (h : log.Fits worker known service session) {time : ℕ}
    (hrests : session.Rests worker log.invocations)
    (halarms : ∀ alarm ∈ session.alarms, alarm.2.servesCalls worker = true → time ≤ alarm.1) :
    log.Fits worker known service (session.moveClock time) := by
  have hstanding : ∀ p ∈ log.invocations,
      (session.moveClock time).Standing worker (log.course known service p) p
        (log.toldTo p.errand) := fun p hp =>
    (h.standing p hp).tick h.answer (h.tokens p.token) (hrests.callers p hp)
      (hrests.asleep p.call)
      fun t ht => halarms _ ht rfl
  obtain ⟨woken, heq, -, -⟩ := session.moveClock_eq time
  rw [heq] at hstanding ⊢
  exact
    { answer := h.answer
      numbered := h.numbered
      serves := h.serves.of_same rfl rfl
      tokens := h.tokens
      cancels := fun token t ht => Nat.le_trans (h.cancels token t ht) (Nat.le_max_left _ _)
      stops := fun t ht => Nat.le_trans (h.stops t ht) (Nat.le_max_left _ _)
      invocations := h.invocations
      distinct := h.distinct
      returned := h.returned
      served := h.served
      standing := hstanding
      records := fun p hp hhere => (h.records p hp hhere).of_same rfl rfl }

end Fits

end CallLog

/-- What is in a session of a run fits what happened until then. -/
theorem Session.CallRun.fits {worker : Handle} {known : SnapshotRegistry}
    {service : Handle → Response} {log : CallLog} {session : Session}
    (h : CallRun worker known service log session) : log.Fits worker known service session := by
  induction h with
  | start hanswer hnumbered hserves => exact .start hanswer hnumbered hserves
  | invoke request token _ ih => exact ih.invoke request token
  | look p _ hp ih => exact ih.look hp
  | inbox _ ih => exact ih.inbox
  | turn handle call _ hcall hworker hresponse ih => exact ih.turn hcall hworker hresponse
  | stop _ ih => exact ih.stop
  | tick time _ hrests halarms ih => exact ih.tick hrests halarms
  | elsewhere _ hleaves ih => exact ih.leaves hleaves

end SolutionWatch
