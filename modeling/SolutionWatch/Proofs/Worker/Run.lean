import SolutionWatch.Proofs.Worker.Standing

/-!
# Many calls to one worker

`Session.CallRun` is every session in which calls to one worker go on, with what happened to them on the
way: anybody makes a call at any moment and looks for its result at any moment, the inbox of the worker
and the calls have turns in any order, tokens are cancelled and the worker is stopped at any moment, and
the clock moves as long as no call has a turn to come and no caller a result to find. Others do whatever
leaves the calls alone, and the worker's service does with each call what it does.

What others do is a matter of what they leave alone (`Session.LeavesCalls`). Cancelling a token, the turn of
the inbox and the making of a further call are of that kind for the calls that were made before.
-/

namespace SolutionWatch

/-- What happened to the calls of a worker. -/
structure CallLog where
  /-- The calls that were made, in their order. -/
  invocations : List Invocation := []
  /-- What the callers were told, by the errand that waited, and when. -/
  returned : List (Handle × Ending × ℕ) := []
  /-- What the worker's service got, by the call. -/
  served : List (Handle × ServiceCall) := []
  /-- When a token was cancelled, if it was. -/
  cancelled : Token → Option ℕ
  /-- When the worker was stopped, if it was. -/
  stopped : Option ℕ := none

namespace CallLog

variable {log : CallLog} {p : Invocation}

/-- What was told to the caller whose errand this is. -/
def toldTo (log : CallLog) (errand : Handle) : List (Ending × ℕ) :=
  (log.returned.filter fun entry => entry.1 = errand).map Prod.snd

/-- What the service got because of a call. -/
def servedTo (log : CallLog) (handle : Handle) : List ServiceCall :=
  (log.served.filter fun entry => entry.1 = handle).map Prod.snd

/-- What one call is up to: nothing in it is about another call. -/
def course (log : CallLog) (known : SnapshotRegistry) (service : Handle → Response)
    (p : Invocation) : Course where
  made := p.made
  gone := p.gone
  accepted := (Worker.accept known p.request).1
  response := service p.call
  cancelled := log.cancelled p.token
  stopped := log.stopped

/-- The log at the start. -/
def start (session : Session) : CallLog where
  cancelled token := if session.isCancelled token then some session.now else none

/-- A call that is made now. -/
def invocation (log : CallLog) (session : Session) (request : Request Address) (token : Token) :
    Invocation :=
  ⟨session.next, request, token, session.now, log.stopped.isSome⟩

/-- A call is made. -/
def invoke (log : CallLog) (p : Invocation) : CallLog :=
  { log with invocations := log.invocations ++ [p] }

/-- A caller is told something, if he found anything. -/
def tell (log : CallLog) (errand : Handle) (found : Option Ending) (now : ℕ) : CallLog :=
  { log with
    returned := log.returned ++ (found.map fun ending => (errand, ending, now)).toList }

/-- The service gets what it gets because of a call. -/
def serve (log : CallLog) (handle : Handle) (calls : List ServiceCall) : CallLog :=
  { log with served := log.served ++ calls.map fun call => (handle, call) }

/-- Somebody looks which tokens were cancelled. -/
def heed (log : CallLog) (session : Session) : CallLog :=
  { log with
    cancelled := fun token =>
      (log.cancelled token).or (if session.isCancelled token then some session.now else none) }

/-- The worker is stopped. -/
def stop (log : CallLog) (now : ℕ) : CallLog := { log with stopped := log.stopped.or (some now) }

/-- What a caller is told is the last thing that he was told. -/
theorem toldTo_tell_self (log : CallLog) (errand : Handle) (found : Option Ending) (now : ℕ) :
    (log.tell errand found now).toldTo errand =
      log.toldTo errand ++ (found.map fun ending => (ending, now)).toList := by
  cases found <;> simp [toldTo, tell]

/-- What a caller is told is told to nobody else. -/
theorem toldTo_tell {errand other : Handle} (h : other ≠ errand) (log : CallLog)
    (found : Option Ending) (now : ℕ) : (log.tell errand found now).toldTo other = log.toldTo other := by
  cases found <;> simp [toldTo, tell, Ne.symm h]

/-- Only an errand with a number that was given out is told anything. -/
theorem lt_of_mem_returned_tell {next errand : Handle} (h : ∀ entry ∈ log.returned, entry.1 < next)
    (herrand : errand < next) (found : Option Ending) (now : ℕ) :
    ∀ entry ∈ (log.tell errand found now).returned, entry.1 < next := by
  intro entry hentry
  rcases List.mem_append.mp hentry with hold | hnew
  · exact h entry hold
  · obtain ⟨ending, -, rfl⟩ := Option.map_eq_some_iff.mp (Option.mem_toList.mp hnew)
    exact herrand

/-- What the service gets because of a call is the last that it got because of it. -/
theorem servedTo_serve_self (log : CallLog) (handle : Handle) (calls : List ServiceCall) :
    (log.serve handle calls).servedTo handle = log.servedTo handle ++ calls := by
  simp [servedTo, serve, List.filter_map, Function.comp_def]

/-- What the service gets because of a call it gets because of no other. -/
theorem servedTo_serve {handle other : Handle} (h : other ≠ handle) (log : CallLog)
    (calls : List ServiceCall) : (log.serve handle calls).servedTo other = log.servedTo other := by
  simp [servedTo, serve, List.filter_map, Function.comp_def, Ne.symm h]

/-- Nothing was told to an errand that nobody has yet. -/
theorem toldTo_of_lt {next : Handle} (h : ∀ entry ∈ log.returned, entry.1 < next) :
    log.toldTo next = [] := by
  rw [toldTo, List.map_eq_nil_iff, List.filter_eq_nil_iff]
  intro entry hentry
  simpa using Nat.ne_of_lt (h entry hentry)

/-- The service got nothing because of a call that nobody has made yet. -/
theorem servedTo_of_lt {next : Handle} (h : ∀ entry ∈ log.served, entry.1 < next) :
    log.servedTo next = [] := by
  rw [servedTo, List.map_eq_nil_iff, List.filter_eq_nil_iff]
  intro entry hentry
  simpa using Nat.ne_of_lt (h entry hentry)

/-- Where no token was cancelled anew there is nothing to heed. -/
theorem heed_eq_self {session : Session}
    (h : ∀ token, session.isCancelled token = (log.cancelled token).isSome) :
    log.heed session = log := by
  have hsame : (log.heed session).cancelled = log.cancelled := by
    funext token
    have htoken := h token
    cases hlog : log.cancelled token with
    | some time => simp [heed, hlog]
    | none =>
      rw [hlog] at htoken
      simp [heed, hlog, htoken]
  calc log.heed session = { log with cancelled := (log.heed session).cancelled } := rfl
    _ = log := by rw [hsame]

/-- What is cancelled was cancelled at some time, once it is heeded. -/
theorem isSome_heed {before after : Session}
    (htokens : ∀ token, before.isCancelled token = (log.cancelled token).isSome)
    (hstays : ∀ token, before.isCancelled token = true → after.isCancelled token = true)
    (token : Token) : after.isCancelled token = ((log.heed after).cancelled token).isSome := by
  have hold := htokens token
  have hstays := hstays token
  cases hlog : log.cancelled token with
  | some time =>
    rw [hlog] at hold
    simp [heed, hlog, hstays hold]
  | none => cases hnew : after.isCancelled token <;> simp [heed, hlog, hnew]

/-- What is heeded now was not cancelled later than now. -/
theorem le_of_heed {before after : Session} (hnow : after.now = before.now)
    (hcancels : ∀ token time, log.cancelled token = some time → time ≤ before.now) (token : Token)
    (time : ℕ) (h : (log.heed after).cancelled token = some time) : time ≤ after.now := by
  simp only [heed, Option.or_eq_some_iff] at h
  rcases h with hold | ⟨-, hnew⟩
  · exact hnow ▸ hcancels token time hold
  · split at hnew
    · exact Nat.le_of_eq (Option.some.inj hnew).symm
    · contradiction

/-- What is heeded now happens now. -/
theorem heed_later {session : Session} {now : ℕ} (h : session.now = now) (known : SnapshotRegistry)
    (service : Handle → Response) (p : Invocation) :
    Course.Later now (log.course known service p) ((log.heed session).course known service p) where
  made := rfl
  gone := rfl
  accepted := rfl
  response := rfl
  cancelled t ht := by
    have ht : log.cancelled p.token = some t := ht
    simp [course, heed, ht]
  cancels t ht := by
    simp only [course, heed, Option.or_eq_some_iff] at ht
    rcases ht with hold | ⟨-, hnew⟩
    · exact .inl hold
    · split at hnew
      · exact .inr (Nat.le_of_eq (h.symm.trans (Option.some.inj hnew)))
      · contradiction
  stopped t ht := ht
  stops t ht := .inl ht

/-- A worker that is stopped now is stopped now, if it was not stopped before. -/
theorem stop_later (log : CallLog) (now : ℕ) (known : SnapshotRegistry)
    (service : Handle → Response) (p : Invocation) :
    Course.Later now (log.course known service p) ((log.stop now).course known service p) where
  made := rfl
  gone := rfl
  accepted := rfl
  response := rfl
  cancelled t ht := ht
  cancels t ht := .inl ht
  stopped t ht := by
    have ht : log.stopped = some t := ht
    simp [course, stop, ht]
  stops t ht := by
    simp only [course, stop, Option.or_eq_some_iff] at ht
    rcases ht with hold | ⟨-, hnew⟩
    · exact .inl hold
    · exact .inr (Nat.le_of_eq (Option.some.inj hnew))

end CallLog

/-- The tasks of a worker: its inbox, and the calls. -/
def Task.servesCalls (worker : Handle) : Task → Bool
  | .inbox other => other = worker
  | .call _ => true
  | .numbers _ | .batch _ | .events _ | .errand _ | .departure _ => false

namespace Session

variable {worker handle : Handle} {known : SnapshotRegistry} {service : Handle → Response}
  {log : CallLog} {session next before after : Session} {p : Invocation}

/-- What the service of a worker has got. -/
def serviceCalls (session : Session) (worker : Handle) : List ServiceCall :=
  ((session.workers.get? worker).map WorkerState.calls).getD []

/-- The service of a worker has got what it is said to have got. -/
theorem Serves.serviceCalls_eq {running : Bool} {calls : List ServiceCall}
    (h : session.Serves worker known running calls) : session.serviceCalls worker = calls := by
  obtain ⟨state, hstate, -, rfl, -⟩ := h
  rw [serviceCalls, hstate]
  rfl

/-- The calls have numbers that were given out. -/
def Numbered (session : Session) : Prop :=
  ∀ handle call, session.calls.get? handle = some call → handle < session.next

/-- What others do takes no time, leaves some calls and the errands that wait for them alone, and keeps the
worker, the registry and the cancelled tokens; it may cancel further tokens. -/
structure LeavesCalls (worker : Handle) (known : SnapshotRegistry) (invocations : List Invocation)
    (before after : Session) : Prop where
  /-- No time passes. -/
  now : after.now = before.now
  /-- Numbers are given out once. -/
  next : before.next ≤ after.next
  /-- The foreground gets no answer. -/
  answer : after.answer = before.answer
  /-- New calls get new numbers. -/
  numbered : before.Numbered → after.Numbered
  /-- A cancelled token stays cancelled. -/
  tokens : ∀ token, before.isCancelled token = true → after.isCancelled token = true
  /-- The worker goes on. -/
  serves : ∀ running calls, before.Serves worker known running calls →
    after.Serves worker known running calls
  /-- The callers wait for what they waited for. -/
  errands : ∀ p ∈ invocations, after.errands.get? p.errand = before.errands.get? p.errand
  /-- The calls are what they were. -/
  spares : ∀ p ∈ invocations, p.gone = false → Spares p.call before after

/-- No call has a turn to come, and no caller finds anything. -/
structure Rests (session : Session) (worker : Handle) (invocations : List Invocation) : Prop where
  /-- No task of the worker is awake. -/
  agenda : ∀ task ∈ session.agenda, task.servesCalls worker = false
  /-- Whoever looks finds nothing. -/
  callers : ∀ p ∈ invocations, (lookAtErrand p.errand session).1 = none

/-- A call that rests has no turn to come. -/
theorem Rests.asleep {invocations : List Invocation} (h : session.Rests worker invocations)
    (handle : Handle) : ¬ session.Stirs worker handle := by
  rintro (hcall | ⟨hinbox, -⟩)
  · exact absurd (h.agenda _ hcall) nofun
  · exact absurd (h.agenda _ hinbox) (by simp [Task.servesCalls])

/-- The sessions in which calls to a worker go on, whose requests are resolved in what is known and with
whose calls the service does what it does, and what happened to the calls until then. -/
inductive CallRun (worker : Handle) (known : SnapshotRegistry) (service : Handle → Response) :
    CallLog → Session → Prop
  /-- The worker runs, and its service has got nothing yet. -/
  | start {session : Session} : session.answer = none → session.Numbered →
      session.Serves worker known true [] → CallRun worker known service (.start session) session
  /-- Somebody makes a call, and looks for its result. -/
  | invoke {log : CallLog} {session : Session} (request : Request Address) (token : Token) :
      CallRun worker known service log session →
      CallRun worker known service
        ((log.invoke (log.invocation session request token)).tell session.next
          (lookAtErrand session.next (session.sent worker request token)).1 session.now)
        (lookAtErrand session.next (session.sent worker request token)).2
  /-- A caller looks for the result. -/
  | look {log : CallLog} {session : Session} (p : Invocation) :
      CallRun worker known service log session → p ∈ log.invocations →
      CallRun worker known service
        (log.tell p.errand (lookAtErrand p.errand session).1 session.now)
        (lookAtErrand p.errand session).2
  /-- The inbox of the worker has a turn. -/
  | inbox {log : CallLog} {session : Session} : CallRun worker known service log session →
      CallRun worker known service log (session.afterTurn (.inbox worker))
  /-- A call has a turn; if the service gets it, it does what it does. -/
  | turn {log : CallLog} {session : Session} (handle : Handle) (call : Call) :
      CallRun worker known service log session → session.calls.get? handle = some call →
      call.worker = worker → (call.act = none → session.response worker = service handle) →
      CallRun worker known service
        ((log.serve handle (((session.afterTurn (.call handle)).serviceCalls worker).drop
          (session.serviceCalls worker).length)).heed (session.afterTurn (.call handle)))
        (session.afterTurn (.call handle))
  /-- The worker is stopped. -/
  | stop {log : CallLog} {session : Session} : CallRun worker known service log session →
      CallRun worker known service (log.stop session.now) (session.stopWorker worker)
  /-- The clock moves, and not past an alarm of a call. -/
  | tick {log : CallLog} {session : Session} (time : ℕ) :
      CallRun worker known service log session → session.Rests worker log.invocations →
      (∀ alarm ∈ session.alarms, alarm.2.servesCalls worker = true → time ≤ alarm.1) →
      CallRun worker known service log (session.moveClock time)
  /-- Others do something; they may cancel tokens. -/
  | elsewhere {log : CallLog} {session next : Session} :
      CallRun worker known service log session →
      LeavesCalls worker known log.invocations session next →
      CallRun worker known service (log.heed next) next

/-- Cancelling a token leaves all calls alone. -/
theorem leavesCalls_cancelToken (session : Session) (worker : Handle) (known : SnapshotRegistry)
    (invocations : List Invocation) (token : Token) :
    LeavesCalls worker known invocations session (session.cancelToken token) := by
  obtain ⟨hcalls, herrands, hworkers, hregistries⟩ := session.cancelToken_same token
  have hapart := session.apart_cancelToken 0 token
  exact
    { now := hapart.now
      next := Nat.le_of_eq hapart.next.symm
      answer := hapart.answer
      numbered := fun h handle call hcall => hapart.next ▸ h handle call (hcalls ▸ hcall)
      tokens := hapart.tokens
      serves := fun _ _ h => h.of_same hworkers hregistries
      errands := fun _ _ => by rw [herrands]
      spares := fun p _ _ => session.spares_cancelToken p.call token }

/-- Anybody may cancel any token. -/
theorem CallRun.cancelToken (h : CallRun worker known service log session) (token : Token) :
    CallRun worker known service (log.heed (session.cancelToken token)) (session.cancelToken token) :=
  h.elsewhere (session.leavesCalls_cancelToken worker known log.invocations token)

/-- The turn of the inbox leaves all calls alone: those in it are awake afterwards. -/
theorem leavesCalls_inbox {state : WorkerState} (hworker : session.workers.get? worker = some state)
    (known : SnapshotRegistry) (invocations : List Invocation) :
    LeavesCalls worker known invocations session (session.afterTurn (.inbox worker)) := by
  have herased : ({ session with agenda := session.agenda.erase (.inbox worker) } :
      Session).workers.get? worker = some state := hworker
  obtain ⟨woken, heq, hawake⟩ := inboxTurn_eq herased
  have heq : session.afterTurn (.inbox worker) =
      { session with
        workers := session.workers.insert worker { state with inbox := [] }
        agenda := session.agenda.erase (.inbox worker) ++ woken } := heq
  have hstays : ∀ task : Task, task ≠ .inbox worker → task ∈ session.agenda →
      task ∈ session.agenda.erase (.inbox worker) ++ woken :=
    fun task hne hin => List.mem_append_left _ ((List.mem_erase_of_ne hne).mpr hin)
  rw [heq]
  refine
    { now := rfl
      next := Nat.le_refl _
      answer := rfl
      numbered := fun h => h
      tokens := fun _ h => h
      serves := ?_
      errands := fun _ _ => rfl
      spares := fun p _ _ => ⟨rfl, ?_, fun _ h => h⟩ }
  · rintro running calls ⟨other, hother, hrunning, hcalls, hlike⟩
    obtain rfl := Option.some.inj (hworker.symm.trans hother)
    exact ⟨{ state with inbox := [] }, (Catalog.get?_insert _ _ _ _).trans (if_pos rfl), hrunning,
      hcalls, hlike⟩
  · rintro other (hcall | ⟨hinbox, found, hfound, hin⟩)
    · exact .inl (hstays _ nofun hcall)
    · by_cases hsame : worker = other
      · subst hsame
        obtain rfl := Option.some.inj (hworker.symm.trans hfound)
        exact .inl (hawake _ hin)
      · refine .inr ⟨hstays _ (fun h => hsame (Task.inbox.inj h).symm) hinbox, found, ?_, hin⟩
        exact (Catalog.get?_insert _ _ _ _).trans ((if_neg hsame).trans hfound)

/-- A call that is made leaves the others alone, whatever its caller finds at once. -/
theorem leavesCalls_sent {running : Bool} {calls : List ServiceCall}
    (hserves : session.Serves worker known running calls) (request : Request Address) (token : Token)
    {invocations : List Invocation}
    (hinvocations : ∀ p ∈ invocations, p.errand < session.next ∧
      (p.gone = false → p.call < session.next)) {errands : Catalog Handle Errand}
    (herrands : ∀ other, other ≠ session.next → errands.get? other = session.errands.get? other) :
    LeavesCalls worker known invocations session
      ((session.sent worker request token).withErrands errands) := by
  obtain ⟨state, hworker, hrunning, -, -⟩ := hserves
  have hothers : ∀ p ∈ invocations, errands.get? p.errand = session.errands.get? p.errand :=
    fun p hp => herrands _ (Nat.ne_of_lt (hinvocations p hp).1)
  cases hstate : state.running with
  | false =>
    rw [sent_of_stopped hworker hstate]
    exact
      { now := rfl
        next := Nat.le_succ _
        answer := rfl
        numbered := fun h handle call hcall => Nat.lt_succ_of_lt (h handle call hcall)
        tokens := fun _ h => h
        serves := fun _ _ h => h.of_same rfl rfl
        errands := hothers
        spares := fun _ _ _ => .of_subset rfl (List.Subset.refl _) rfl rfl }
  | true =>
    obtain ⟨woken, heq, -⟩ := sent_of_running hworker hstate request token
    rw [heq]
    refine
      { now := rfl
        next := Nat.le_add_right _ _
        answer := rfl
        numbered := fun h handle call hcall => ?_
        tokens := fun _ h => h
        serves := ?_
        errands := hothers
        spares := fun p hp hhere => ⟨?_, ?_, fun _ h => h⟩ }
    · show handle < session.next + 2
      rcases Catalog.of_get?_insert hcall with ⟨rfl, -⟩ | ⟨-, hold⟩
      · exact Nat.lt_succ_self _
      · exact Nat.lt_of_lt_of_le (h handle call hold) (Nat.le_add_right _ _)
    · rintro running calls ⟨other, hother, hruns, hcalls, hlike⟩
      obtain rfl := Option.some.inj (hworker.symm.trans hother)
      exact ⟨_, (Catalog.get?_insert _ _ _ _).trans (if_pos rfl), hruns, hcalls, hlike⟩
    · have hlt := (hinvocations p hp).2 hhere
      have hne : session.next + 1 ≠ p.call := Nat.ne_of_gt (Nat.lt_succ_of_lt hlt)
      exact (Catalog.get?_insert _ _ _ _).trans (if_neg hne)
    · rintro other (hcall | ⟨hinbox, found, hfound, hin⟩)
      · exact .inl (List.mem_append_left _ hcall)
      · refine .inr ⟨List.mem_append_left _ hinbox, ?_⟩
        by_cases hsame : worker = other
        · subst hsame
          obtain rfl := Option.some.inj (hworker.symm.trans hfound)
          exact ⟨_, (Catalog.get?_insert _ _ _ _).trans (if_pos rfl), List.mem_append_left _ hin⟩
        · exact ⟨found, (Catalog.get?_insert _ _ _ _).trans ((if_neg hsame).trans hfound), hin⟩

/-- The errand of a call has a new number, and so has the call, if the worker runs. -/
theorem sent_new {state : WorkerState} (hworker : session.workers.get? worker = some state)
    (request : Request Address) (token : Token) :
    session.next < (session.sent worker request token).next ∧
      (state.running = true → session.next + 1 < (session.sent worker request token).next ∧
        (session.sent worker request token).calls.get? (session.next + 1) =
          some ⟨worker, request, token, session.next, none⟩) := by
  cases hrunning : state.running with
  | false =>
    rw [sent_of_stopped hworker hrunning]
    exact ⟨Nat.lt_succ_self _, nofun⟩
  | true =>
    obtain ⟨woken, heq, -⟩ := sent_of_running hworker hrunning request token
    rw [heq]
    exact ⟨Nat.lt_add_of_pos_right (by decide), fun _ =>
      ⟨Nat.lt_succ_self _, (Catalog.get?_insert _ _ _ _).trans (if_pos rfl)⟩⟩

/-- A worker that is stopped leaves all calls alone, and serves no longer. -/
theorem spares_stopWorker (session : Session) (worker handle : Handle) :
    Spares handle session (session.stopWorker worker) := by
  obtain ⟨woken, heq, -⟩ := session.stopWorker_eq worker
  rw [heq]
  refine ⟨rfl, ?_, fun _ h => h⟩
  rintro other (hcall | ⟨hinbox, found, hfound, hin⟩)
  · exact .inl (List.mem_append_left _ hcall)
  · refine .inr ⟨List.mem_append_left _ hinbox, ?_⟩
    dsimp only
    by_cases hsame : worker = other
    · subst hsame
      rw [Catalog.get?_modify, hfound]
      exact ⟨{ found with running := false }, rfl, hin⟩
    · rw [Catalog.get?_modify_of_ne _ hsame]
      exact ⟨found, hfound, hin⟩

end Session

end SolutionWatch
