import SolutionWatch.Proofs.Pipeline.Line
import SolutionWatch.Session.Setup

/-!
# Turns on a line

What the listener's keeper, its errand and the calls do in their turns leaves a line orderly, too.

A delivery has something filed only when `Line.Clear` holds: no call waits to be looked at, or the
token is cancelled and the delivery ends. An errand that begins with a batch, or that finds that the call
it waited for has ended, is in that position (`Orderly.clear_of_idle`), and it has the next snapshot filed
and at once waits for the next call. When the worker looks at the call it therefore finds a snapshot of
the item's fingerprint, and accepts the request (`Orderly.accept_eq`).
-/

namespace SolutionWatch

/-- If a batch comes to items, they are those of its events. -/
theorem Event.eq_of_batchItems {batch : List Event} {cancelled : Bool} {items : List WorkItem}
    (hdeliverable : ∀ event ∈ batch, event.Deliverable)
    (h : batchItems batch cancelled = .ok items) : items = batch.flatMap Event.items := by
  cases batch with
  | nil => exact (Except.ok.inj h).symm
  | cons first rest =>
    -- Neither a stray event nor a cancelled token leaves any items.
    simp only [batchItems] at h
    split at h
    · contradiction
    · split at h
      · contradiction
      · rw [mapM_diff_eq hdeliverable] at h
        rw [List.flatMap_def]
        exact (Except.ok.inj h).symm

/-- In its turn a keeper notices how its batch ended. After that it takes nothing in and hands nothing out,
or it was waiting and hands out the next batch. -/
theorem Keeper.steady_or_hand (keeper : Keeper Event) (now : ℕ) :
    (∃ move after, keeper.notice.turnWindowFirst now = (move, after) ∧ keeper.Steady after ∧
        ∀ batch, move ≠ .hand batch) ∨
      (¬Pipeline.Busy keeper ∧ keeper.notice.turnWindowFirst now =
        (.hand keeper.notice.queue.take.1,
          { keeper.notice with queue := keeper.notice.queue.take.2, isArmed := false })) := by
  -- A keeper whose batch is worked on has nothing to notice, and does not wait.
  have hidle : keeper.notice.queue.phase = .waiting → ¬Pipeline.Busy keeper := by
    intro hphase hbusy
    rw [hbusy.notice_eq, hbusy.working] at hphase
    contradiction
  have hnoticed : keeper.Steady keeper.notice :=
    ⟨Keeper.token_notice, Keeper.pending_notice, fun hbusy => hbusy.notice_eq.symm ▸ hbusy⟩
  obtain hsame | ⟨time, hdue, -, hhand⟩ := keeper.notice.turnWindowFirst_cases now
  · rw [hsame]
    have hturn := keeper.notice.turnCase now
    generalize keeper.notice.turn now = result at hturn ⊢
    cases hturn with
    | occupied | closed | armed => exact .inl ⟨_, _, rfl, hnoticed, nofun⟩
    | stopping hphase | arming hphase =>
      exact .inl ⟨_, _, rfl, ⟨hnoticed.token, hnoticed.pending, fun hb => absurd hb (hidle hphase)⟩,
        nofun⟩
    | elapsed hphase => exact .inr ⟨hidle hphase, rfl⟩
  · exact .inr ⟨hidle (WorkQueue.due_eq_some.mp hdue).1, hhand⟩

/-- Whoever waits for another call goes on waiting when a call has ended. -/
theorem ErrandStage.WaitsFor.learn {stage : ErrandStage} {call other : Handle}
    (h : stage.WaitsFor call) (hne : call ≠ other) (ending : Ending) :
    (stage.learn other ending).WaitsFor call := by
  obtain ⟨client, registry, delivery, rfl⟩ := h
  refine ⟨client, registry, delivery, ?_⟩
  rw [ErrandStage.learn, Pending.learn, if_neg hne]

namespace Session

variable {session : Session}

/-- The session after a request was sent to a worker, for which the errand waits. -/
def afterPosting (session : Session) (errand : Handle) (owner : ErrandOwner) (token : Token)
    (worker : Handle) (state : WorkerState) (registry : Handle) (delivery : Delivery)
    (request : Request Address) : Session :=
  { session with
    next := session.next + 1
    calls := session.calls.insert session.next ⟨worker, request, token, errand, none⟩
    workers := session.workers.insert worker { state with inbox := state.inbox ++ [session.next] }
    errands := session.errands.insert errand
      ⟨owner, token, .delivery (.worker worker) registry delivery (.call session.next)⟩ }

/-- What has just been sent to a worker is waited for; without the worker the delivery is over. -/
theorem lookAt_post (session : Session) (worker : Handle) (request : Request Address) (token : Token)
    (errand : Handle) (hgoing : session.isCancelled token = false) :
    (∃ failure, session.post worker request token errand = (.ended (.failed failure), session)) ∨
      ∃ state posted woken, session.workers.get? worker = some state ∧
        session.post worker request token errand = (.call session.next, posted) ∧
        posted.lookAt (.call session.next) token = (none, posted) ∧
        posted = { session with
          next := session.next + 1
          calls := session.calls.insert session.next ⟨worker, request, token, errand, none⟩
          workers := session.workers.insert worker
            { state with inbox := state.inbox ++ [session.next] }
          agenda := session.agenda ++ woken } := by
  unfold post
  split
  · next state hstate =>
    split
    · obtain ⟨woken, hwoken, -⟩ := wake_eq { session with
        next := session.next + 1
        calls := session.calls.insert session.next ⟨worker, request, token, errand, none⟩
        workers := session.workers.insert worker
          { state with inbox := state.inbox ++ [session.next] } } (.inbox worker)
      refine .inr ⟨state, _, woken, hstate, rfl, ?_, hwoken⟩
      simp only [hwoken, lookAt]
      exact congrArg (·, _) (if_neg (ne_true_of_eq_false hgoing))
    · exact .inl ⟨_, rfl⟩
  · exact .inl ⟨_, rfl⟩

/-- A delivery to a worker is over, with or without one more snapshot that was filed, or the request for
its next item was sent and is waited for. Nothing is filed under a cancelled token. -/
theorem carryOn_cases (session : Session) (handle : Handle) (owner : ErrandOwner) (token : Token)
    (worker registry : Handle) (delivery : Delivery) :
    (∃ ending, session.carryOn handle owner token (.worker worker) registry delivery =
        session.endErrand handle owner ending) ∨
      (session.isCancelled token = false ∧ ∃ item ∈ delivery.remaining,
        (∃ ending, session.carryOn handle owner token (.worker worker) registry delivery =
          (session.fileSnapshot registry item.solution).2.endErrand handle owner ending) ∨
        ∃ state woken, session.workers.get? worker = some state ∧
          session.carryOn handle owner token (.worker worker) registry delivery =
            { (session.fileSnapshot registry item.solution).2.afterPosting handle owner token worker
                state registry delivery item.posted with agenda := session.agenda ++ woken }) := by
  obtain ⟨remaining, sent⟩ := delivery
  cases remaining with
  | nil => exact .inl ⟨.succeeded, rfl⟩
  | cons item rest =>
    cases hcancelled : session.isCancelled token with
    | true =>
      refine .inl ⟨.failed .cancelled, ?_⟩
      rw [carryOn, sendFrom, hcancelled]
      rfl
    | false =>
      refine .inr ⟨rfl, item, List.mem_cons_self, ?_⟩
      obtain ⟨failure, hpost⟩ | ⟨state, posted, woken, hstate, hpost, hlook, hposted⟩ :=
        lookAt_post (session.fileSnapshot registry item.solution).2 worker item.posted token handle
          hcancelled
      · refine .inl ⟨.failed failure, ?_⟩
        simp only [fileSnapshot, WorkItem.posted] at hpost
        simp only [carryOn, sendFrom, hcancelled, Delivery.turn, Bool.false_eq_true, if_false, invoke,
          WorkItem.request, hpost, lookAt, fileSnapshot]
      · refine .inr ⟨state, woken, hstate, ?_⟩
        simp only [fileSnapshot, WorkItem.posted] at hpost hlook
        simp only [carryOn, sendFrom, hcancelled, Delivery.turn, Bool.false_eq_true, if_false, invoke,
          WorkItem.request, hpost, hlook]
        rw [hposted]
        rfl

end Session

namespace Line

variable {line : Line} {session : Session} {raised : List Event}

/-- Nothing is in the way of filing a snapshot: every call was looked at, or the token is cancelled, under
which nothing is filed. -/
def Clear (line : Line) (session : Session) : Prop :=
  session.isCancelled line.token = false → ∀ handle call, ¬session.Unseen handle call

/-- A call that has not been looked at asks for an item of an event that was raised, and the worker accepts
it, with a known snapshot of the item's fingerprint. -/
theorem Orderly.accept_eq (h : line.Orderly session raised) {handle : Handle} {call : Call}
    (hunseen : session.Unseen handle call) :
    ∃ item ∈ raised.flatMap Event.items, call.request = item.posted ∧ ∃ found,
      found.fingerprint = item.solution.fingerprint ∧ found.Filed ∧ found ∈ line.known raised ∧
      Worker.accept (session.registry line.registry) call.request =
        (.ok ⟨item.scope, item.reasons, found⟩,
          (session.registry line.registry).touch item.solution.fingerprint found) := by
  obtain ⟨item, hitem, hrequest, found, hfind⟩ := h.findable handle call hunseen
  obtain ⟨event, hevent, hof⟩ := List.mem_flatMap.mp hitem
  obtain ⟨hprint, hfiled⟩ := h.kept.of_find? hfind
  have hknown := h.origin _ (Registry.mem_of_find? hfind)
  refine ⟨item, hitem, hrequest, found, hprint, hfiled, hknown, ?_⟩
  have hcall := ((h.deliverable event hevent).of_mem hof).callFor_eq_ok hfiled hprint
  rw [hrequest, WorkItem.posted, Worker.accept, SnapshotRegistry.lookup_of_find? hfind]
  exact congrArg (·, _) hcall

/-! ## Errands -/

/-- An errand that is in the way of nothing waits for no call that has not been looked at. -/
theorem Orderly.clear_of_idle (h : line.Orderly session raised) {handle : Handle} {errand : Errand}
    (herrand : session.errands.get? handle = some errand)
    (hidle : ∀ call, ¬errand.stage.WaitsFor call) : line.Clear session := by
  intro hgoing call unseen hunseen
  obtain ⟨other, another, hanother, hwaits⟩ := h.awaited call unseen hunseen hgoing
  obtain rfl := h.alone handle errand other another herrand hanother
  obtain rfl := Option.some.inj (herrand.symm.trans hanother)
  exact hidle call hwaits

/-- An errand that is over leaves nobody at work. -/
theorem Orderly.endErrand (h : line.Orderly session raised) {handle : Handle} {errand : Errand}
    (herrand : session.errands.get? handle = some errand) (hclear : line.Clear session)
    (ending : Ending) :
    line.Orderly (session.endErrand handle (.listener line.listener) ending) raised := by
  -- There was no other errand, so the keeper may learn how this one ended.
  have hnone : ∀ other another, (session.errands.erase handle).get? other ≠ some another := by
    intro other another hanother
    obtain ⟨hne, hbefore⟩ := Catalog.of_get?_erase hanother
    exact hne (h.alone handle errand other another herrand hbefore)
  refine Orderly.wake ?_ _
  exact { h with
    waiting := fun other after hafter => by
      obtain ⟨before, hbefore, rfl | rfl⟩ := Catalog.of_get?_modify hafter
      · exact h.waiting other _ hbefore
      · exact h.waiting other before hbefore
    errands := fun other another hanother => absurd hanother (hnone other another)
    busy := fun other another _ hanother => absurd hanother (hnone other another)
    alone := fun other another _ _ hanother => absurd hanother (hnone other another)
    awaited := fun call unseen hunseen hgoing => absurd hunseen (hclear hgoing call unseen) }

/-- A snapshot may be filed when nothing is in the way. -/
theorem Orderly.fileSnapshot (h : line.Orderly session raised)
    (hunseen : ∀ handle call, ¬session.Unseen handle call) {solution : Solution}
    (hfiled : solution.Filed) (hknown : solution ∈ line.known raised) :
    line.Orderly (session.fileSnapshot line.registry solution).2 raised ∧
      (session.fileSnapshot line.registry solution).2.registry line.registry =
        (session.registry line.registry).file solution := by
  have hregistry : (session.fileSnapshot line.registry solution).2.registry line.registry =
      (session.registry line.registry).file solution := by
    simp [Session.fileSnapshot, Session.registry]
  refine ⟨{ h with
    kept := hregistry.symm ▸ h.kept.file hfiled
    origin := hregistry.symm ▸ SnapshotRegistry.entries_file h.origin hknown
    findable := fun handle call hcall => absurd hcall (hunseen handle call) }, hregistry⟩

/-- An errand that has sent the request for an item waits for the call. -/
theorem Orderly.afterPosting (h : line.Orderly session raised)
    (hunseen : ∀ handle call, ¬session.Unseen handle call) {handle : Handle} {errand : Errand}
    (herrand : session.errands.get? handle = some errand) {worker : Handle} {state : WorkerState}
    (hworker : session.workers.get? worker = some state) {delivery : Delivery}
    (hremaining : delivery.remaining ⊆ raised.flatMap Event.items) {item : WorkItem}
    (hitem : item ∈ delivery.remaining) {found : Solution}
    (hfind : (session.registry line.registry).find? item.solution.fingerprint = some found) :
    line.Orderly (session.afterPosting handle (.listener line.listener) line.token worker state
      line.registry delivery item.posted) raised := by
  -- The only call that has not been looked at is the one that was just sent, and the errand that sent
  -- it is the only errand.
  have hsent : ∀ other call, (session.afterPosting handle (.listener line.listener) line.token worker
      state line.registry delivery item.posted).Unseen other call →
        session.next = other ∧ call.request = item.posted := by
    intro other call ⟨hcall, hact⟩
    obtain ⟨hnew, rfl⟩ | ⟨-, hbefore⟩ := Catalog.of_get?_insert hcall
    · exact ⟨hnew, rfl⟩
    · exact absurd ⟨hbefore, hact⟩ (hunseen other call)
  have hwho : ∀ other another, (session.errands.insert handle
      ⟨.listener line.listener, line.token, .delivery (.worker worker) line.registry delivery
        (.call session.next)⟩).get? other = some another → handle = other := by
    intro other another hanother
    obtain ⟨hhandle, -⟩ | ⟨-, hbefore⟩ := Catalog.of_get?_insert hanother
    · exact hhandle
    · exact h.alone handle errand other another herrand hbefore
  exact { h with
    serves := fun other after hafter => by
      obtain ⟨-, rfl⟩ | ⟨-, hbefore⟩ := Catalog.of_get?_insert hafter
      · have hserves := h.serves worker state hworker
        exact ⟨hserves.registry, hserves.calls⟩
      · exact h.serves other after hbefore
    errands := fun other another hanother => by
      obtain ⟨-, rfl⟩ | ⟨-, hbefore⟩ := Catalog.of_get?_insert hanother
      · exact ⟨rfl, rfl, .delivery hremaining nofun⟩
      · exact h.errands other another hbefore
    busy := fun _ _ listener _ hlistener => h.busy handle errand listener herrand hlistener
    alone := fun other another third fourth hanother hfourth =>
      (hwho other another hanother).symm.trans (hwho third fourth hfourth)
    findable := fun other call hcall =>
      ⟨item, hremaining hitem, (hsent other call hcall).2, found, hfind⟩
    single := fun other call third fourth hcall hfourth =>
      (hsent other call hcall).1.symm.trans (hsent third fourth hfourth).1
    awaited := fun other call hcall _ => by
      obtain ⟨rfl, -⟩ := hsent other call hcall
      exact ⟨handle, _, (Catalog.get?_insert _ _ _ _).trans (if_pos rfl), _, _, _, rfl⟩ }

/-- A delivery that goes on is over, or it has had the snapshot of its next item filed and waits. -/
theorem Orderly.carryOn (h : line.Orderly session raised) {handle : Handle} {errand : Errand}
    (herrand : session.errands.get? handle = some errand) (hclear : line.Clear session)
    (worker : Handle) {delivery : Delivery}
    (hremaining : delivery.remaining ⊆ raised.flatMap Event.items) :
    line.Orderly (session.carryOn handle (.listener line.listener) line.token (.worker worker)
      line.registry delivery) raised := by
  obtain ⟨ending, hover⟩ | ⟨hgoing, item, hitem, hfiling⟩ :=
    session.carryOn_cases handle (.listener line.listener) line.token worker line.registry delivery
  · rw [hover]
    exact h.endErrand herrand hclear ending
  · have hunseen := hclear hgoing
    obtain ⟨event, hevent, hof⟩ := List.mem_flatMap.mp (hremaining hitem)
    have hfiled : item.solution.Filed := ((h.deliverable event hevent).of_mem hof).filed
    obtain ⟨hkept, hregistry⟩ := h.fileSnapshot hunseen hfiled
      (line.mem_known (hremaining hitem))
    obtain ⟨ending, hover⟩ | ⟨state, woken, hworker, hposted⟩ := hfiling
    · rw [hover]
      exact hkept.endErrand herrand (fun _ => hunseen) ending
    · -- What was filed last is found, however little room the registry has.
      obtain ⟨found, hfind, -⟩ := h.kept.find?_file hfiled
      rw [← hregistry] at hfind
      rw [hposted]
      exact { hkept.afterPosting hunseen herrand hworker hremaining hitem hfind with }

/-- Requests go to workers. -/
theorem Orderly.client_eq (h : line.Orderly session raised) {dispatcher : Dispatcher} {client : Client}
    (hclient : session.client? dispatcher = some client) : ∃ worker, client = .worker worker := by
  unfold Session.client? at hclient
  split at hclient
  · split at hclient
    · next hhost =>
      obtain ⟨worker, hattached⟩ := h.attaches _ _ hhost
      contradiction
    · obtain ⟨state, -, hworker⟩ := Option.bind_eq_some_iff.mp hclient
      split at hworker
      · exact ⟨_, (Option.some.inj hworker).symm⟩
      · contradiction
    · contradiction
  · contradiction

/-- An errand that begins with a batch of events that were raised is over, or it delivers their items. -/
theorem Orderly.processBatch (h : line.Orderly session raised) {handle : Handle} {errand : Errand}
    (herrand : session.errands.get? handle = some errand) (hclear : line.Clear session)
    (dispatcher : Handle) {batch : List Event} (hbatch : batch ⊆ raised) :
    line.Orderly (session.processBatch handle (.listener line.listener) line.token dispatcher batch)
      raised := by
  unfold Session.processBatch
  split
  · exact h.endErrand herrand hclear _
  · split
    · exact h.endErrand herrand hclear _
    · next items target hitems htarget =>
      obtain rfl := Event.eq_of_batchItems (fun event he => h.deliverable event (hbatch he)) hitems
      unfold Session.deliver
      split
      · next client hclient =>
        obtain ⟨worker, rfl⟩ := h.client_eq hclient
        rw [h.files dispatcher target htarget]
        refine h.carryOn herrand hclear worker fun item hitem => ?_
        obtain ⟨event, hevent, hof⟩ := List.mem_flatMap.mp hitem
        exact List.mem_flatMap.mpr ⟨event, hbatch hevent, hof⟩
      · have hcounted : line.Orderly { session with
            counters := { session.counters with
              batchesNotDelegated := session.counters.batchesNotDelegated + 1 } } raised := { h with }
        exact hcounted.endErrand herrand hclear _
    · exact h.endErrand herrand hclear _

/-- An errand may have its turn. -/
theorem Orderly.errandTurn (h : line.Orderly session raised) (handle : Handle) :
    line.Orderly (session.errandTurn handle) raised := by
  cases herrand : session.errands.get? handle with
  | none =>
    rw [Session.errandTurn, herrand]
    exact h
  | some errand =>
    obtain ⟨howner, htoken, hstage⟩ := h.errands handle errand herrand
    obtain ⟨owner, token, stage⟩ := errand
    obtain rfl : owner = _ := howner
    obtain rfl : token = _ := htoken
    rw [Session.errandTurn, herrand]
    cases hstage with
    | batch hbatch =>
      -- An errand that has not begun waits for no call.
      refine h.processBatch herrand (h.clear_of_idle herrand ?_) _ hbatch
      rintro call ⟨_, _, _, hwaits⟩
      contradiction
    | @delivery worker delivery pending hremaining hpending =>
      cases pending with
      | act act => exact absurd rfl (hpending act)
      | call call =>
        cases hcancelled : session.isCancelled line.token with
        | false =>
          simp only [Session.lookAt, hcancelled, Bool.false_eq_true, if_false]
          exact h
        | true =>
          -- Nobody waits under a cancelled token, and nothing is filed under it any more.
          have hclear : line.Clear session := fun hgoing =>
            absurd hcancelled (ne_true_of_eq_false hgoing)
          simp only [Session.lookAt, hcancelled, if_true]
          exact h.endErrand herrand hclear _
      | ended ending =>
        have hclear := h.clear_of_idle herrand (by
          rintro call ⟨_, _, _, hwaits⟩
          simp at hwaits)
        cases ending with
        | succeeded =>
          have hcounted : line.Orderly session.countSent raised := { h with }
          exact hcounted.carryOn herrand hclear worker fun item hitem =>
            hremaining (List.mem_of_mem_tail hitem)
        | failed | crashed | refused => exact h.endErrand herrand hclear _

/-! ## The listener -/

/-- A listener whose keeper does not wait for an errand may begin with one. -/
theorem Orderly.hand (h : line.Orderly session raised) {listener : Listener}
    (hlistener : session.listeners.get? line.listener = some listener)
    (hidle : ¬Pipeline.Busy listener.keeper) (keeper : Keeper Event)
    (htoken : keeper.token = line.token) (hbusy : Pipeline.Busy keeper)
    (hpending : keeper.queue.pending ⊆ raised) (handle dispatcher : Handle) {batch : List Event}
    (hbatch : batch ⊆ raised) :
    line.Orderly { session with
      listeners := session.listeners.insert line.listener { listener with keeper := keeper }
      errands := session.errands.insert handle
        ⟨.listener line.listener, keeper.token, .events dispatcher batch⟩ } raised := by
  -- An errand would keep the keeper waiting.
  have hnone : ∀ other another, session.errands.get? other ≠ some another := fun other another
    hanother => hidle (h.busy other another listener hanother hlistener)
  have hwho : ∀ other another, (session.errands.insert handle
      ⟨.listener line.listener, keeper.token, .events dispatcher batch⟩).get? other = some another →
        handle = other ∧ another = ⟨.listener line.listener, keeper.token, .events dispatcher batch⟩ := by
    intro other another hanother
    obtain hnew | ⟨-, hbefore⟩ := Catalog.of_get?_insert hanother
    · exact hnew
    · exact absurd hbefore (hnone other another)
  exact { h with
    waiting := fun other after hafter => by
      obtain ⟨rfl, rfl⟩ | ⟨-, hbefore⟩ := Catalog.of_get?_insert hafter
      · exact ⟨rfl, htoken, hpending⟩
      · exact h.waiting other after hbefore
    errands := fun other another hanother => by
      obtain ⟨-, rfl⟩ := hwho other another hanother
      exact ⟨rfl, htoken, .batch hbatch⟩
    busy := fun _ _ after _ hafter => by
      obtain ⟨-, rfl⟩ | ⟨hne, -⟩ := Catalog.of_get?_insert hafter
      · exact hbusy
      · exact absurd rfl hne
    alone := fun other another third fourth hanother hfourth =>
      (hwho other another hanother).1.symm.trans (hwho third fourth hfourth).1
    awaited := fun call unseen hunseen hgoing => by
      obtain ⟨other, another, hanother, -⟩ := h.awaited call unseen hunseen hgoing
      exact absurd hanother (hnone other another) }

/-- The keeper of the listener's queue may have its turn. -/
theorem Orderly.eventsTurn (h : line.Orderly session raised) (handle : Handle) :
    line.Orderly (session.eventsTurn handle) raised := by
  cases hlistener : session.listeners.get? handle with
  | none =>
    rw [Session.eventsTurn, hlistener]
    exact h
  | some listener =>
    obtain ⟨rfl, htoken, hpending⟩ := h.waiting handle listener hlistener
    obtain ⟨move, after, hturn, hsame, hhand⟩ | ⟨hidle, hturn⟩ :=
      listener.keeper.steady_or_hand session.now
    · have hsteady := h.steady (session.listeners.insert line.listener
          { listener with keeper := after }) fun other later hlater => by
        obtain ⟨rfl, rfl⟩ | ⟨-, hbefore⟩ := Catalog.of_get?_insert hlater
        · exact ⟨listener, hlistener, hsame⟩
        · exact ⟨later, hbefore, rfl, rfl, id⟩
      simp only [Session.eventsTurn, hlistener, hturn]
      cases move with
      | rest => exact { hsteady with }
      | sleep time => exact { hsteady with }
      | hand batch => exact absurd rfl (hhand batch)
    · -- The batch and what it leaves are what waited.
      have hsplit := listener.keeper.notice.queue.take_append_pending
      rw [Keeper.pending_notice] at hsplit
      have hbatch : listener.keeper.notice.queue.take.1 ⊆ raised := fun event he =>
        hpending (hsplit ▸ List.mem_append_left _ he)
      have hleft : listener.keeper.notice.queue.take.2.pending ⊆ raised := fun event he =>
        hpending (hsplit ▸ List.mem_append_right _ he)
      have hhanded := h.hand hlistener hidle
        { listener.keeper.notice with
          queue := listener.keeper.notice.queue.take.2, isArmed := false }
        (Keeper.token_notice.trans htoken) ⟨rfl, Keeper.outcome_notice⟩ hleft session.next
        listener.dispatcher hbatch
      simp only [Session.eventsTurn, hlistener, hturn]
      refine Orderly.wake ?_ _
      exact { hhanded with }

/-! ## Calls -/

/-- Learning how a call ended changes what is waited for only if that call is. -/
theorem AtWork.learn {stage : ErrandStage} (h : line.AtWork raised stage) (call : Handle)
    (ending : Ending) : line.AtWork raised (stage.learn call ending) := by
  cases h with
  | batch hbatch => exact .batch hbatch
  | @delivery worker delivery pending hremaining hpending =>
    refine .delivery hremaining fun act => ?_
    unfold Pending.learn
    split
    · split
      · exact nofun
      · exact hpending act
    · exact hpending act

/-- A call that has ended is forgotten, and the errand that waits for it learns how it ended. -/
theorem Orderly.endCall (h : line.Orderly session raised) (handle : Handle) (call : Call)
    (ending : Ending) : line.Orderly (session.endCall handle call ending) raised := by
  -- Whoever waited for another call that has not been looked at still does.
  have hbefore : ∀ other unseen, { session with calls := session.calls.erase handle }.Unseen other
      unseen → handle ≠ other ∧ session.Unseen other unseen := fun other unseen hunseen =>
    ⟨(Catalog.of_get?_erase hunseen.1).1, (Catalog.of_get?_erase hunseen.1).2, hunseen.2⟩
  have herased : line.Orderly { session with calls := session.calls.erase handle } raised :=
    { h with
      findable := fun other unseen hunseen => h.findable other unseen (hbefore other unseen hunseen).2
      single := fun other unseen third fourth hunseen hfourth =>
        h.single other unseen third fourth (hbefore other unseen hunseen).2
          (hbefore third fourth hfourth).2
      awaited := fun other unseen hunseen => h.awaited other unseen (hbefore other unseen hunseen).2 }
  rw [Session.endCall]
  dsimp only
  split
  · exact herased
  · next errand herrand =>
    -- The errand that learns of it is no other than before.
    have hold : ∀ other another, (session.errands.insert call.errand
        { errand with stage := errand.stage.learn handle ending }).get? other = some another →
          ∃ old, session.errands.get? other = some old ∧
            (another = old ∨ another = { old with stage := old.stage.learn handle ending }) := by
      intro other another hanother
      obtain ⟨rfl, rfl⟩ | ⟨-, hold⟩ := Catalog.of_get?_insert hanother
      · exact ⟨errand, herrand, .inr rfl⟩
      · exact ⟨another, hold, .inl rfl⟩
    refine Orderly.wake ?_ _
    exact { herased with
      errands := fun other another hanother => by
        obtain ⟨old, hold, rfl | rfl⟩ := hold other another hanother
        · exact h.errands other _ hold
        · obtain ⟨howner, htoken, hstage⟩ := h.errands other old hold
          exact ⟨howner, htoken, hstage.learn handle ending⟩
      busy := fun _ _ listener _ hlistener => h.busy call.errand errand listener herrand hlistener
      alone := fun other another third fourth hanother hfourth => by
        obtain ⟨first, hfirst, -⟩ := hold other another hanother
        obtain ⟨second, hsecond, -⟩ := hold third fourth hfourth
        exact h.alone other first third second hfirst hsecond
      awaited := fun other unseen hunseen hgoing => by
        obtain ⟨hne, hunseen⟩ := hbefore other unseen hunseen
        obtain ⟨third, fourth, hfourth, hwaits⟩ := h.awaited other unseen hunseen hgoing
        obtain rfl := h.alone call.errand errand third fourth herrand hfourth
        obtain rfl := Option.some.inj (herrand.symm.trans hfourth)
        exact ⟨call.errand, _, (Catalog.get?_insert _ _ _ _).trans (if_pos rfl),
          hwaits.learn hne.symm ending⟩ }

/-- A service that is looked at goes on or has ended its call, and it may have cancelled a token. -/
theorem Orderly.finishCall (h : line.Orderly session raised) (handle : Handle) (call : Call)
    (act : Act) : line.Orderly (session.finishCall handle call act) raised := by
  obtain ⟨ending, hlook⟩ | ⟨other, hlook⟩ := session.lookAtAct_cases act call.token
  · rw [Session.finishCall, hlook]
    cases ending with
    | none => exact h
    | some ending => cases ending <;> exact h.endCall _ _ _
  · rw [Session.finishCall, hlook]
    exact (h.cancelToken other).endCall _ _ _

/-- Once the call that had not been looked at is looked at, every call was. -/
theorem Orderly.looked (h : line.Orderly session raised) {handle : Handle} {call : Call}
    (hunseen : session.Unseen handle call) {found : Solution} (hfiled : found.Filed)
    (hknown : found ∈ line.known raised) {worker : WorkerState}
    (hserves : line.Serves raised worker) (act : Act) :
    line.Orderly { session with
      registries := session.registries.insert line.registry
        ((session.registry line.registry).touch found.fingerprint found)
      workers := session.workers.insert call.worker worker
      calls := session.calls.insert handle { call with act := some act } } raised := by
  have hseen : ∀ other unseen, (session.calls.insert handle { call with act := some act }).get?
      other = some unseen → unseen.act ≠ none := by
    intro other unseen hother hnone
    obtain ⟨-, rfl⟩ | ⟨hne, hother⟩ := Catalog.of_get?_insert hother
    · exact nomatch hnone
    · exact hne (h.single handle call other unseen hunseen ⟨hother, hnone⟩)
  have hregistry : Session.registry { session with
      registries := session.registries.insert line.registry
        ((session.registry line.registry).touch found.fingerprint found) } line.registry =
      (session.registry line.registry).touch found.fingerprint found := by
    simp [Session.registry]
  exact { h with
    kept := by
      refine Eq.mpr (congrArg _ hregistry) ?_
      exact h.kept.touch rfl hfiled
    origin := fun e he => by
      rcases Registry.mem_touch (hregistry ▸ he) with rfl | he
      · exact hknown
      · exact h.origin e he
    serves := fun other after hafter => by
      obtain ⟨-, rfl⟩ | ⟨-, hbefore⟩ := Catalog.of_get?_insert hafter
      · exact hserves
      · exact h.serves other after hbefore
    -- Nothing is left to find, or to wait for.
    findable := fun other unseen hother => absurd hother.2 (hseen other unseen hother.1)
    single := fun other unseen _ _ hother => absurd hother.2 (hseen other unseen hother.1)
    awaited := fun other unseen hother => absurd hother.2 (hseen other unseen hother.1) }

/-- A worker that looks at a call finds the snapshot, and its service gets the call. -/
theorem Orderly.beginCall (h : line.Orderly session raised) {handle : Handle} {call : Call}
    (hunseen : session.Unseen handle call) {worker : WorkerState}
    (hworker : session.workers.get? call.worker = some worker) :
    line.Orderly (session.beginCall handle call worker) raised := by
  obtain ⟨item, hitem, -, found, hprint, hfiled, hknown, haccept⟩ := h.accept_eq hunseen
  have hserves := h.serves call.worker worker hworker
  rw [Session.beginCall, hserves.registry, haccept, ← hprint]
  refine ((h.looked hunseen hfiled hknown ⟨rfl, fun other hother => ?_⟩ _).wakeAfter _ _).finishCall
    _ _ _
  obtain hother | hother := List.mem_append.mp hother
  · exact hserves.calls other hother
  · rw [List.mem_singleton.mp hother]
    exact ⟨item, hitem, .of_label (congrArg (item.scope, item.reasons, ·) hprint) hknown
      (line.mem_known hitem)⟩

/-- A call may have its turn. -/
theorem Orderly.callTurn (h : line.Orderly session raised) (handle : Handle) :
    line.Orderly (session.callTurn handle) raised := by
  unfold Session.callTurn
  split
  · exact h
  · next call hcall =>
    split
    · exact h.endCall _ _ _
    · next worker hworker hact =>
      exact h.beginCall ⟨hcall, hact⟩ (Option.filter_eq_some_iff.mp hworker).1
    · exact h.finishCall _ _ _

/-- Any task may have its turn. -/
theorem Orderly.giveTurn (h : line.Orderly session raised) (task : Task) :
    line.Orderly (session.giveTurn task) raised := by
  cases task with
  | numbers handle => exact h.numbersTurn handle
  | batch handle => exact h.batchTurn handle
  | events handle => exact h.eventsTurn handle
  | errand handle => exact h.errandTurn handle
  | inbox handle => exact h.inboxTurn handle
  | call handle => exact h.callTurn handle
  | departure handle => exact h.departureTurn handle

end Line

end SolutionWatch
