import SolutionWatch.Proofs.Pipeline.Loop
import SolutionWatch.Session.Asking

/-!
# Nobody but a caller starts a search

A session counts the searches that it asked a worker for and those that it carried out itself. While a
search waits, every other task of the session may have its turns, the clock may move and tokens may be
cancelled. None of that starts a search: the two counts stay what they were through every turn
(`Session.searches_giveTurn`), so through every wait (`Session.searches_waitFor`). What a search adds to
the counts is therefore added by the search itself.
-/

namespace SolutionWatch

/-- The number of searches that a worker was asked for, and of those carried out in this process. -/
def Counters.searches (counters : Counters) : ℕ × ℕ := (counters.remoteSearches, counters.localSearches)

/-- The end of a batch is no search. -/
@[simp] theorem Counters.searches_afterBatch (counters : Counters) (cancelled : Bool)
    (ending : Ending) : (counters.afterBatch cancelled ending).searches = counters.searches := by
  cases ending with
  | succeeded | crashed => rfl
  | failed failure | refused =>
    simp only [afterBatch]
    split <;> rfl

/-- A keeper that notices the end of its batch has not searched. -/
@[simp] theorem Keeper.searches_count {α : Type} (keeper : Keeper α) (counters : Counters) :
    (keeper.count counters).searches = counters.searches := by
  unfold count
  split
  · exact counters.searches_afterBatch _ _
  · rfl

namespace Session

/-- The number of searches that the session asked a worker for, and of those that it carried out. -/
def searches (session : Session) : ℕ × ℕ := session.counters.searches

/-- Doing things that are no searches, one after the other, is no search. -/
theorem searches_foldl {ι : Type} {f : Session → ι → Session}
    (hf : ∀ session i, (f session i).searches = session.searches) (items : List ι)
    (session : Session) : (items.foldl f session).searches = session.searches := by
  induction items generalizing session with
  | nil => rfl
  | cons i items ih => exact (ih _).trans (hf session i)

/-! ## Waking tasks and cancelling tokens -/

@[simp] theorem searches_wake (session : Session) (task : Task) :
    (session.wake task).searches = session.searches := by
  obtain ⟨woken, hwake, -⟩ := session.wake_eq task
  rw [hwake]
  rfl

@[simp] theorem searches_wakeAt (session : Session) (time : ℕ) (task : Task) :
    (session.wakeAt time task).searches = session.searches := rfl

@[simp] theorem searches_wakeAfter (session : Session) (act : Act) (task : Task) :
    (session.wakeAfter act task).searches = session.searches := by
  obtain ⟨alarms, hwake, -⟩ := session.wakeAfter_eq act task
  rw [hwake]
  rfl

@[simp] theorem searches_cancelToken (session : Session) (token : Token) :
    (session.cancelToken token).searches = session.searches := by
  obtain ⟨base, woken, rfl | ⟨other, rfl⟩, hcancel, -⟩ := session.cancelToken_eq token <;>
    · rw [hcancel]
      rfl

@[simp] theorem searches_cancelAfter (session : Session) (token : Token) (point : CancelPoint)
    (events : List SearchEvent) :
    (session.cancelAfter token point events).searches = session.searches := by
  unfold cancelAfter
  split
  · exact session.searches_cancelToken token
  · rfl

/-! ## Errands -/

@[simp] theorem searches_lookAtAct (session : Session) (act : Act) (token : Token) :
    (session.lookAtAct act token).2.searches = session.searches := by
  rcases session.lookAtAct_cases act token with ⟨ending, hlook⟩ | ⟨other, hlook⟩
  · rw [hlook]
  · rw [hlook]
    exact session.searches_cancelToken other

@[simp] theorem searches_lookAt (session : Session) (pending : Pending) (token : Token) :
    (session.lookAt pending token).2.searches = session.searches := by
  cases pending with
  | act act => exact session.searches_lookAtAct act token
  | call _ | ended _ => rfl

@[simp] theorem searches_takeResponse (session : Session) (host : Handle)
    (request : Request Fingerprint) :
    (session.takeResponse host request).2.searches = session.searches := by
  unfold takeResponse
  split <;> rfl

@[simp] theorem searches_post (session : Session) (worker : Handle) (request : Request Address)
    (token : Token) (errand : Handle) :
    (session.post worker request token errand).2.searches = session.searches := by
  unfold post
  split
  · split
    · exact searches_wake _ _
    · rfl
  · rfl

@[simp] theorem searches_invoke (session : Session) (client : Client) (request : Request Fingerprint)
    (token : Token) (errand : Handle) :
    (session.invoke client request token errand).2.searches = session.searches := by
  cases client with
  | worker worker => exact session.searches_post worker _ token errand
  | scripted host => exact (searches_wakeAfter _ _ _).trans (session.searches_takeResponse host request)

/-- Sending the requests of a delivery is no search. -/
theorem searches_sendFrom (errand : Handle) (client : Client) (registry : Handle) (token : Token)
    (limit : ℕ) (delivery : Delivery) (session : Session) :
    (sendFrom errand client registry token limit delivery session).2.searches =
      session.searches := by
  induction limit generalizing delivery session with
  | zero => rfl
  | succ limit ih =>
    rw [sendFrom]
    split
    · rfl
    · rfl
    · next request filed _ =>
      -- The request was sent and looked at.
      generalize hfiled : { session with registries := session.registries.insert registry filed } = base
      have hbase : base.searches = session.searches := hfiled ▸ rfl
      have hinvoke := base.searches_invoke client request token errand
      have hlook := (base.invoke client request token errand).2.searches_lookAt
        (base.invoke client request token errand).1 token
      dsimp only
      split
      · next hnone => rw [hnone] at hlook; exact hlook.trans (hinvoke.trans hbase)
      · next hsent =>
        rw [hsent] at hlook
        exact (ih _ _).trans (hlook.trans (hinvoke.trans hbase))
      · next hover => rw [hover] at hlook; exact hlook.trans (hinvoke.trans hbase)

@[simp] theorem searches_endErrand (session : Session) (handle : Handle) (owner : ErrandOwner)
    (ending : Ending) : (session.endErrand handle owner ending).searches = session.searches := by
  cases owner with
  | asker => rfl
  | listener listener => exact searches_wake _ _

@[simp] theorem searches_carryOn (session : Session) (handle : Handle) (owner : ErrandOwner)
    (token : Token) (client : Client) (registry : Handle) (delivery : Delivery) :
    (session.carryOn handle owner token client registry delivery).searches = session.searches := by
  have hsend := searches_sendFrom handle client registry token (delivery.remaining.length + 1)
    delivery session
  unfold carryOn
  split
  · next hover =>
    rw [hover] at hsend
    exact (searches_endErrand _ _ _ _).trans hsend
  · next hwaiting =>
    rw [hwaiting] at hsend
    exact hsend

@[simp] theorem searches_processBatch (session : Session) (handle : Handle) (owner : ErrandOwner)
    (token : Token) (dispatcher : Handle) (events : List Event) :
    (session.processBatch handle owner token dispatcher events).searches = session.searches := by
  unfold processBatch deliver
  split
  · exact searches_endErrand _ _ _ _
  · split
    · exact searches_endErrand _ _ _ _
    · split
      · exact searches_carryOn _ _ _ _ _ _ _
      · exact searches_endErrand _ _ _ _
    · exact searches_endErrand _ _ _ _

@[simp] theorem searches_errandTurn (session : Session) (handle : Handle) :
    (session.errandTurn handle).searches = session.searches := by
  unfold errandTurn
  split
  · rfl
  · next errand _ =>
    split
    · exact searches_processBatch _ _ _ _ _ _
    · next pending _ =>
      have hlook := session.searches_lookAt pending errand.token
      split
      · next hnone => rw [hnone] at hlook; exact hlook
      · next hover => rw [hover] at hlook; exact (searches_endErrand _ _ _ _).trans hlook
    · next pending _ =>
      have hlook := session.searches_lookAt pending errand.token
      split
      · next hnone => rw [hnone] at hlook; exact hlook
      · next hsent => rw [hsent] at hlook; exact (searches_carryOn _ _ _ _ _ _ _).trans hlook
      · next hover => rw [hover] at hlook; exact (searches_endErrand _ _ _ _).trans hlook

/-! ## Calls -/

@[simp] theorem searches_endCall (session : Session) (handle : Handle) (call : Call)
    (ending : Ending) : (session.endCall handle call ending).searches = session.searches := by
  unfold endCall
  dsimp only
  split
  · rfl
  · exact searches_wake _ _

@[simp] theorem searches_finishCall (session : Session) (handle : Handle) (call : Call)
    (act : Act) : (session.finishCall handle call act).searches = session.searches := by
  have hlook := session.searches_lookAtAct act call.token
  unfold finishCall
  split
  · next hnone => rw [hnone] at hlook; exact hlook
  · next hcrash => rw [hcrash] at hlook; exact (searches_endCall _ _ _ _).trans hlook
  · next hover => rw [hover] at hlook; exact (searches_endCall _ _ _ _).trans hlook

@[simp] theorem searches_callTurn (session : Session) (handle : Handle) :
    (session.callTurn handle).searches = session.searches := by
  unfold callTurn
  split
  · rfl
  · split
    · exact searches_endCall _ _ _ _
    · unfold beginCall
      dsimp only
      split
      · exact searches_endCall _ _ _ _
      · exact (searches_finishCall _ _ _ _).trans (searches_wakeAfter _ _ _)
    · exact searches_finishCall _ _ _ _

@[simp] theorem searches_inboxTurn (session : Session) (worker : Handle) :
    (session.inboxTurn worker).searches = session.searches := by
  unfold inboxTurn
  split
  · rfl
  · exact searches_foldl (fun session call => session.searches_wake (.call call)) _ _

@[simp] theorem searches_stopWorker (session : Session) (worker : Handle) :
    (session.stopWorker worker).searches = session.searches := by
  exact searches_foldl (fun session (e : Handle × Call) => session.searches_wake (.call e.1)) _ _

/-! ## Turns -/

@[simp] theorem searches_numbersTurn (session : Session) (handle : Handle) :
    (session.numbersTurn handle).searches = session.searches := by
  unfold numbersTurn
  split
  · rfl
  · next q _ =>
    have hcount := q.keeper.searches_count session.counters
    dsimp only
    split
    · exact hcount
    · exact hcount
    · exact (searches_wake _ _).trans hcount

@[simp] theorem searches_finishBatch (session : Session) (handle : Handle) (token : Token)
    (act : Act) : (session.finishBatch handle token act).searches = session.searches := by
  have hlook := session.searches_lookAtAct act token
  unfold finishBatch
  split
  · next hnone => rw [hnone] at hlook; exact hlook
  · next hover => rw [hover] at hlook; exact (searches_wake _ _).trans hlook

@[simp] theorem searches_batchTurn (session : Session) (handle : Handle) :
    (session.batchTurn handle).searches = session.searches := by
  unfold batchTurn
  split
  · rfl
  · split
    · rfl
    · exact searches_finishBatch _ _ _ _
    · exact (searches_finishBatch _ _ _ _).trans (searches_wakeAfter _ _ _)

@[simp] theorem searches_eventsTurn (session : Session) (handle : Handle) :
    (session.eventsTurn handle).searches = session.searches := by
  unfold eventsTurn
  split
  · rfl
  · next listener _ =>
    have hcount := listener.keeper.searches_count session.counters
    dsimp only
    split
    · exact hcount
    · exact hcount
    · exact (searches_wake _ _).trans hcount

@[simp] theorem searches_departureTurn (session : Session) (handle : Handle) :
    (session.departureTurn handle).searches = session.searches := by
  unfold departureTurn
  split
  · rfl
  · split <;> rfl

/-- No task searches in its turn. -/
@[simp] theorem searches_giveTurn (session : Session) (task : Task) :
    (session.giveTurn task).searches = session.searches := by
  cases task with
  | numbers handle => exact session.searches_numbersTurn handle
  | batch handle => exact session.searches_batchTurn handle
  | events handle => exact session.searches_eventsTurn handle
  | errand handle => exact session.searches_errandTurn handle
  | inbox handle => exact session.searches_inboxTurn handle
  | call handle => exact session.searches_callTurn handle
  | departure handle => exact session.searches_departureTurn handle

@[simp] theorem searches_letGo (session : Session) : session.letGo.searches = session.searches := by
  have hstop := searches_foldl searches_stopWorker
  have hcancel := searches_foldl searches_cancelToken
  exact (hstop _ _).trans (hcancel _ _)

/-! ## Waiting -/

/-- The counts last. -/
theorem lasting_searches (count : ℕ × ℕ) : Lasting fun session => session.searches = count where
  elapse _ _ _ _ h := h
  turn session task h := (searches_letGo _).trans ((session.searches_giveTurn task).trans h)
  letGo session h := session.searches_letGo.trans h

/-- Nobody searches while the foreground waits, if the foreground does not search when it looks. -/
theorem searches_waitFor {α : Type} {look : Session → Option α × Session}
    (hlook : ∀ session, (look session).2.searches = session.searches) (session : Session)
    (time : ℕ) : (session.waitFor time look).2.searches = session.searches :=
  (lasting_searches session.searches).waitFor (fun after h => (hlook after).trans h) rfl time

/-- Waiting for an errand is no search. -/
@[simp] theorem searches_awaitErrand (session : Session) (errand : Handle) :
    (session.awaitErrand errand).2.searches = session.searches := by
  have hlook : ∀ session, (lookAtErrand errand session).2.searches = session.searches :=
    fun session => session.searches_errandTurn errand
  have hwait := searches_waitFor hlook session patience
  unfold awaitErrand
  split
  · rfl
  · split
    · next hended => rw [hended] at hwait; exact hwait
    · next hnone => rw [hnone] at hwait; exact hwait

@[simp] theorem searches_awaitRequest (session : Session) (errand : Handle) (pending : Pending)
    (token : Token) : (session.awaitRequest errand pending token).2.searches = session.searches :=
  searches_awaitErrand _ _

@[simp] theorem searches_streamWorker (session : Session) (worker : Handle)
    (request : Request Address) (token : Token) :
    (session.streamWorker worker request token).2.searches = session.searches := by
  unfold streamWorker
  split
  · split <;> rfl
  · rfl

@[simp] theorem searches_findScripted (session : Session) (host : Handle)
    (request : Request Fingerprint) (token : Token) (point : CancelPoint) :
    (session.findScripted host request token point).2.searches = session.searches := by
  unfold findScripted
  generalize htaken : session.takeResponse host request = taken
  have hcount : taken.2.searches = session.searches :=
    htaken ▸ session.searches_takeResponse host request
  dsimp only
  generalize hread : readable taken.1.messages = read
  generalize hreading : StreamReading.ofMessages point _ = reading
  generalize hbase : (taken.2.cancelAfter token point reading.events).newHandle = base
  have hbase : base.2.searches = session.searches :=
    hbase ▸ (taken.2.searches_cancelAfter token point reading.events).trans hcount
  generalize hanswer : (if read.2 = true then _ else _ : Option Ending × Session) = answer
  have hanswer : answer.2.searches = session.searches := by
    rw [← hanswer]
    split
    · exact (searches_awaitRequest _ _ _ _).trans ((searches_wakeAfter _ _ _).trans hbase)
    · exact hbase
  split <;> exact hanswer

end Session

end SolutionWatch
