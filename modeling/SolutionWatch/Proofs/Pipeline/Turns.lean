import SolutionWatch.Proofs.Pipeline.Setting
import SolutionWatch.Proofs.Queue.Turns

/-!
# What tasks do to the parts of a pipeline

For each thing that a task of the pipeline can do in its turn, one lemma says which parts it leads to.
Everything that comes later knows the turns by these lemmas only.

At most one errand and at most one call go on at a time, so the catalogues of both have one entry or
none; the lemmas are stated for such catalogues.
-/

namespace SolutionWatch

namespace Pipeline

variable {p : Pipeline} {parts : Parts} {session : Session}

/-- The keeper of the listener's queue after it has learnt how its batch ended. -/
def Parts.afterErrand (parts : Parts) (ending : Ending) : Parts :=
  { parts with keeper := parts.keeper.learn ending, errands := .empty }

/-- The parts after an item's snapshot was filed and the request for the item was sent. -/
def Parts.afterPosting (parts : Parts) (errand : Handle) (token : Token) (item : WorkItem)
    (rest : List WorkItem) (sent : ℕ) (call : Handle) : Parts :=
  { parts with
    registry := parts.registry.file item.solution
    worker := { parts.worker with inbox := parts.worker.inbox ++ [call] }
    errands := .single errand ⟨.listener listener, token,
      .delivery (.worker Pipeline.worker) Pipeline.registry ⟨item :: rest, sent⟩ (.call call)⟩
    calls := .single call
      ⟨Pipeline.worker, ⟨.fingerprint item.solution.fingerprint, item.operation⟩, token, errand, none⟩ }

/-- The parts after the service got a call for a snapshot that the registry has. -/
def Parts.afterService (parts : Parts) (handle : Handle) (call : Call) (print : Fingerprint)
    (found : Solution) (serviceCall : ServiceCall) (act : Act) : Parts :=
  { parts with
    registry := parts.registry.touch print found
    worker := { parts.worker with
      script := parts.worker.script.take.2, calls := parts.worker.calls ++ [serviceCall] }
    calls := .single handle { call with act := some act } }

/-- The parts after the keeper of the listener's queue handed its next batch to an errand. -/
def Parts.afterHanding (parts : Parts) (errand : Handle) : Parts :=
  { parts with
    keeper := { parts.keeper.notice with
      queue := parts.keeper.notice.queue.take.2, isArmed := false }
    errands := parts.errands.insert errand ⟨.listener listener, parts.keeper.notice.token,
      .events dispatcher parts.keeper.notice.queue.take.1⟩ }

/-- A service that succeeds ends the call with success once it is done. -/
theorem finishCall_of_due (session : Session) (handle : Handle) (call : Call) {act : Act}
    (hact : act.reply = .succeed) (hdue : act.due ≤ session.now) :
    session.finishCall handle call act = session.endCall handle call .succeeded := by
  have hlook : session.lookAtAct act call.token = (some .succeeded, session) := by
    rw [Session.lookAtAct, if_neg (Nat.not_lt.mpr hdue), hact]
  rw [Session.finishCall, hlook]

/-- A service that succeeds is not done yet, or ends the call with success. -/
theorem finishCall_eq (session : Session) (handle : Handle) (call : Call) {act : Act}
    (hact : act.reply = .succeed) :
    session.finishCall handle call act = session ∨
      session.finishCall handle call act = session.endCall handle call .succeeded := by
  by_cases h : session.now < act.due
  · have hlook : session.lookAtAct act call.token = (none, session) := if_pos h
    rw [Session.finishCall, hlook]
    exact .inl rfl
  · exact .inr (finishCall_of_due session handle call hact (Nat.le_of_not_lt h))

namespace Describes

/-- An errand that is over is forgotten, and the keeper learns how it ended. -/
theorem endErrand (d : p.Describes parts session) {errand : Handle} {x : Errand}
    (herrands : parts.errands = .single errand x) (ending : Ending) :
    p.Describes (parts.afterErrand ending)
      (session.endErrand errand (.listener listener) ending) := by
  have h : p.Describes (parts.afterErrand ending) { session with
      errands := session.errands.erase errand
      listeners := session.listeners.modify listener fun state =>
        { state with keeper := state.keeper.learn ending } } :=
    { d with
      errands := by simp [d.errands, herrands, Parts.afterErrand]
      listeners := by simp [d.listeners, listening, Parts.afterErrand] }
  exact h.wake _

/-- A request to the running worker becomes a call. -/
theorem post (d : p.Describes parts session) (hrunning : parts.worker.running = true)
    (hcalls : parts.calls = .empty) (request : Request Address) (token : Token)
    (errand : Handle) :
    ∃ call posted, session.post Pipeline.worker request token errand = (.call call, posted) ∧
      p.Describes { parts with
        worker := { parts.worker with inbox := parts.worker.inbox ++ [call] }
        calls := .single call ⟨Pipeline.worker, request, token, errand, none⟩ } posted := by
  have hworker : session.workers.get? Pipeline.worker = some parts.worker := by simp [d.workers]
  have h : p.Describes { parts with
        worker := { parts.worker with inbox := parts.worker.inbox ++ [session.next] }
        calls := .single session.next ⟨Pipeline.worker, request, token, errand, none⟩ }
      { session with
        next := session.next + 1
        calls := session.calls.insert session.next ⟨Pipeline.worker, request, token, errand, none⟩
        workers := session.workers.insert Pipeline.worker
          { parts.worker with inbox := parts.worker.inbox ++ [session.next] } } :=
    { d with
      workers := by simp [d.workers]
      calls := by simp [d.calls, hcalls] }
  -- The worker is woken for its inbox, which is a matter of the agenda.
  refine ⟨session.next, _, ?_, h.wake (.inbox Pipeline.worker)⟩
  simp only [Session.post, hworker, hrunning, if_true, Session.newHandle]

/-- A delivery that goes on files the snapshot of the next item, sends the request for the item, and
waits. -/
theorem carryOn (d : p.Describes parts session) (hrunning : parts.worker.running = true)
    (hcalls : parts.calls = .empty) {errand : Handle} {x : Errand}
    (herrands : parts.errands = .single errand x) (token : Token) (item : WorkItem)
    (rest : List WorkItem) (sent : ℕ) :
    ∃ call, p.Describes (parts.afterPosting errand token item rest sent call)
      (session.carryOn errand (.listener listener) token (.worker Pipeline.worker)
        Pipeline.registry ⟨item :: rest, sent⟩) := by
  have hfiled : p.Describes { parts with registry := parts.registry.file item.solution }
      { session with
        registries := session.registries.insert Pipeline.registry
          (parts.registry.file item.solution) } :=
    { d with registries := by simp [d.registries] }
  obtain ⟨call, posted, hpost, hposted⟩ :=
    hfiled.post hrunning hcalls ⟨.fingerprint item.solution.fingerprint, item.operation⟩ token errand
  -- The call has just been sent, so the errand has to wait for it.
  have hlook : posted.lookAt (.call call) token = (none, posted) := by
    rw [Session.lookAt, hposted.isCancelled, if_neg Bool.false_ne_true]
  have hsend : Session.sendFrom errand (.worker Pipeline.worker) Pipeline.registry token
      ((item :: rest).length + 1) ⟨item :: rest, sent⟩ session =
        (.waiting ⟨item :: rest, sent⟩ (.call call), posted) := by
    rw [Session.sendFrom, d.isCancelled, d.registry_eq]
    simp only [Delivery.turn, Bool.false_eq_true, if_false, Session.invoke, WorkItem.request,
      hpost, hlook]
  refine ⟨call, ?_⟩
  rw [Session.carryOn, hsend]
  exact { hposted with errands := by simp [hposted.errands, herrands, Parts.afterPosting] }

/-- A delivery of nothing is over. -/
theorem carryOn_nil (d : p.Describes parts session) {errand : Handle} {x : Errand}
    (herrands : parts.errands = .single errand x) (token : Token) (client : Client)
    (registry : Handle) (sent : ℕ) :
    p.Describes (parts.afterErrand .succeeded)
      (session.carryOn errand (.listener listener) token client registry ⟨[], sent⟩) := by
  rw [Session.carryOn, List.length_nil, Session.sendFrom, Delivery.turn]
  exact d.endErrand herrands .succeeded

/-- A batch of events is worked on by delivering its items to the worker. -/
theorem processBatch_eq (d : p.Describes parts session) (hrunning : parts.worker.running = true)
    (errand : Handle) (token : Token) {events : List Event} {items : List WorkItem}
    (hitems : Event.batchItems events false = .ok items) :
    session.processBatch errand (.listener listener) token dispatcher events =
      session.carryOn errand (.listener listener) token (.worker Pipeline.worker)
        Pipeline.registry ⟨items, 0⟩ := by
  have hdispatcher : session.dispatchers.get? dispatcher = some dispatching := by
    simp [d.dispatchers]
  rw [Session.processBatch]
  cases events with
  | nil =>
    obtain rfl := Except.ok.inj hitems
    rfl
  | cons event events =>
    rw [List.isEmpty_cons, if_neg Bool.false_ne_true, d.isCancelled, hitems, hdispatcher]
    simp only [Session.deliver, d.client?_eq hrunning]
    rfl

/-- A call that has ended is forgotten, and the errand that waits for it learns how it ended. -/
theorem endCall (d : p.Describes parts session) {handle : Handle} {call x : Call} {errand : Errand}
    (hcalls : parts.calls = .single handle x)
    (herrands : parts.errands = .single call.errand errand) (ending : Ending) :
    p.Describes { parts with
        calls := .empty
        errands := .single call.errand { errand with stage := errand.stage.learn handle ending } }
      (session.endCall handle call ending) := by
  have herrand : session.errands.get? call.errand = some errand := by simp [d.errands, herrands]
  have h : p.Describes { parts with
        calls := .empty
        errands := .single call.errand { errand with stage := errand.stage.learn handle ending } }
      { session with
        calls := session.calls.erase handle
        errands := session.errands.insert call.errand
          { errand with stage := errand.stage.learn handle ending } } :=
    { d with
      calls := by simp [d.calls, hcalls]
      errands := by simp [d.errands, herrands] }
  simp only [Session.endCall, herrand]
  exact h.wake _

/-- The worker looks the snapshot of a call up, and its service gets the call. -/
theorem beginCall (d : p.Describes parts session) {handle : Handle} {call : Call}
    (hworker : call.worker = Pipeline.worker) (hcalls : parts.calls = .single handle call)
    (hregistry : parts.worker.registry = Pipeline.registry) {print : Fingerprint}
    (haddress : call.request.address = .fingerprint print) {found : Solution}
    (hfind : parts.registry.find? print = some found) {serviceCall : ServiceCall}
    (hcall : Worker.callFor found call.request.operation = .ok serviceCall) :
    ∃ act begun, act.reply = parts.worker.script.take.1.reply ∧
      p.Describes (parts.afterService handle call print found serviceCall act) begun ∧
      session.beginCall handle call parts.worker =
        begun.finishCall handle { call with act := some act } act := by
  have haccept : Worker.accept (session.registry parts.worker.registry) call.request =
      (.ok serviceCall, parts.registry.touch print found) := by
    rw [hregistry, d.registry_eq, Worker.accept, haddress,
      SnapshotRegistry.lookup_of_find? hfind]
    exact congrArg (·, _) hcall
  -- Looking the snapshot up makes it the one that was asked for last.
  have h : ∀ act, p.Describes (parts.afterService handle call print found serviceCall act)
      { session with
        registries := session.registries.insert parts.worker.registry
          (parts.registry.touch print found)
        workers := session.workers.insert call.worker { parts.worker with
          script := parts.worker.script.take.2, calls := parts.worker.calls ++ [serviceCall] }
        calls := session.calls.insert handle { call with act := some act } } := fun act =>
    { d with
      registries := by simp [d.registries, hregistry, Parts.afterService]
      workers := by simp [d.workers, hworker, Parts.afterService]
      calls := by simp [d.calls, hcalls, Parts.afterService] }
  refine ⟨parts.worker.script.take.1.act session.now, _, rfl,
    (h _).wakeAfter (parts.worker.script.take.1.act session.now) (.call handle), ?_⟩
  rw [Session.beginCall, haccept]

/-- Waking the tasks of some calls changes no part. -/
theorem wakeCalls (d : p.Describes parts session) (calls : List Handle) :
    p.Describes parts (calls.foldl (fun session call => session.wake (.call call)) session) := by
  induction calls generalizing session with
  | nil => exact d
  | cons call calls ih => exact ih (d.wake (.call call))

/-- Looking at its inbox, the worker makes tasks of its calls. -/
theorem inboxTurn (d : p.Describes parts session) (handle : Handle) :
    ∃ inbox, p.Describes { parts with worker := { parts.worker with inbox := inbox } }
      (session.inboxTurn handle) := by
  have hworker : session.workers.get? handle =
      if Pipeline.worker = handle then some parts.worker else none := by
    rw [d.workers, Catalog.get?_single]
  by_cases hhandle : Pipeline.worker = handle
  · subst hhandle
    have h : p.Describes { parts with worker := { parts.worker with inbox := [] } }
        { session with
          workers := session.workers.insert Pipeline.worker { parts.worker with inbox := [] } } :=
      { d with workers := by simp [d.workers] }
    rw [Session.inboxTurn, hworker, if_pos rfl]
    exact ⟨[], h.wakeCalls parts.worker.inbox⟩
  · rw [Session.inboxTurn, hworker, if_neg hhandle]
    exact ⟨parts.worker.inbox, d⟩

/-- Neither queues of numbers nor the listener's departure change a part: there are no such queues, and
the listener is not told to stop. -/
theorem giveTurn_of_other (d : p.Describes parts session) {task : Task}
    (htask : (∃ queue, task = .numbers queue) ∨ (∃ queue, task = .batch queue) ∨
      ∃ departure, task = .departure departure) :
    p.Describes parts (session.giveTurn task) := by
  obtain ⟨queue, rfl⟩ | ⟨queue, rfl⟩ | ⟨departure, rfl⟩ := htask
  · rw [Session.giveTurn, Session.numbersTurn, d.queues]
    exact d
  · rw [Session.giveTurn, Session.batchTurn, d.queues]
    exact d
  · rw [Session.giveTurn, Session.departureTurn]
    split
    · exact d
    · rw [d.isCancelled, if_neg Bool.false_ne_true]
      exact d

/-- A keeper of the listener's queue that hands out a batch makes an errand of it. -/
theorem eventsTurn_of_hand (d : p.Describes parts session)
    (hturn : parts.keeper.notice.turnWindowFirst session.now =
      (.hand parts.keeper.notice.queue.take.1, { parts.keeper.notice with
        queue := parts.keeper.notice.queue.take.2, isArmed := false })) :
    ∃ errand, p.Describes (parts.afterHanding errand) (session.eventsTurn listener) := by
  have hlistener : session.listeners.get? listener = some (p.listening parts.keeper) := by
    simp [d.listeners]
  refine ⟨session.next, ?_⟩
  rw [Session.eventsTurn, hlistener]
  simp only [listening, hturn, Session.newHandle]
  refine wake ?_ _
  exact { d with
    listeners := by simp [d.listeners, listening, Parts.afterHanding]
    errands := by simp [d.errands, Parts.afterHanding] }

/-- In its turn the keeper of the listener's queue notices how its batch ended. After that it rests or
asks to be woken, or it hands the batch that is due to an errand. -/
theorem eventsTurn (d : p.Describes parts session) (handle : Handle)
    (hcancelled : parts.keeper.queue.cancelled = false) :
    p.Describes parts (session.eventsTurn handle) ∨
      (∃ isArmed, p.Describes
        { parts with keeper := { parts.keeper.notice with isArmed := isArmed } }
        (session.eventsTurn handle)) ∨
      ∃ time errand, parts.keeper.notice.queue.due = some time ∧
        p.Describes (parts.afterHanding errand) (session.eventsTurn handle) := by
  have hlistener : session.listeners.get? handle =
      if listener = handle then some (p.listening parts.keeper) else none := by
    rw [d.listeners, Catalog.get?_single]
  by_cases hhandle : listener = handle
  · subst hhandle
    have h : ∀ keeper, p.Describes { parts with keeper := keeper } { session with
        counters := parts.keeper.count session.counters
        listeners := session.listeners.insert listener (p.listening keeper) } := fun keeper =>
      { d with listeners := by simp [d.listeners] }
    -- What the keeper does is decided after it has noticed how its batch ended.
    have hnotice : parts.keeper.notice.queue.cancelled = false :=
      Keeper.cancelled_notice.trans hcancelled
    have hcases := Keeper.turn_cases hnotice session.now
    rw [← Keeper.turnWindowFirst_eq_turn hnotice] at hcases
    obtain ⟨isArmed, hturn⟩ | ⟨time, isArmed, hturn⟩ | ⟨time, hdue, hturn⟩ := hcases
    · refine .inr (.inl ⟨isArmed, ?_⟩)
      rw [Session.eventsTurn, hlistener, if_pos rfl]
      simp only [listening, hturn]
      exact h _
    · refine .inr (.inl ⟨isArmed, ?_⟩)
      rw [Session.eventsTurn, hlistener, if_pos rfl]
      simp only [listening, hturn]
      exact { h { parts.keeper.notice with isArmed := isArmed } with }
    · obtain ⟨errand, hhanded⟩ := d.eventsTurn_of_hand hturn
      exact .inr (.inr ⟨time, errand, hdue, hhanded⟩)
  · rw [Session.eventsTurn, hlistener, if_neg hhandle]
    exact .inl d

end Describes

end Pipeline

end SolutionWatch
