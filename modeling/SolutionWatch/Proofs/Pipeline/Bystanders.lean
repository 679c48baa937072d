import SolutionWatch.Proofs.Pipeline.Batches
import SolutionWatch.Proofs.Pipeline.Loop
import SolutionWatch.Proofs.Worker.Calls

/-!
# Who leaves a batch to itself

In a run of a batch others may do what they like as long as they leave the batch to itself
(`Session.LeavesBatch`). In a session everybody does: the keepers of queues and their batches, the other
errands, the inboxes and calls of workers, the ends of subscriptions, and whoever lets go of what nobody
holds (`Session.bystands_giveTurn`, `Session.leavesErrands_letGo`). Most of them touch no errand at all, and a
call that has ended only tells so to the errand that waits for it. A new errand has a new number.

So whatever the loop of a session does while a batch is worked on makes a run of the batch
(`BatchRun.lasting`), in whatever order the tasks have their turns.
-/

namespace SolutionWatch

namespace Session

variable {session before middle after : Session} {errand other : Handle}

/-! ## What touches no errand -/

/-- No errand changes and nobody is answered, and numbers are given away in order. -/
structure LeavesErrands (before after : Session) : Prop where
  /-- The errands are what they were. -/
  errands : after.errands = before.errands
  /-- The foreground gets no answer. -/
  answer : after.answer = before.answer
  /-- Numbers are given away in order. -/
  next : before.next ≤ after.next

namespace LeavesErrands

/-- Whoever touches neither errands nor numbers, and answers nobody. -/
theorem of_eq (herrands : after.errands = before.errands) (hanswer : after.answer = before.answer)
    (hnext : after.next = before.next) :
    before.LeavesErrands after where
  errands := herrands
  answer := hanswer
  next := Nat.le_of_eq hnext.symm

/-- One thing may happen after the other. -/
theorem trans (h : before.LeavesErrands middle) (h' : middle.LeavesErrands after) :
    before.LeavesErrands after where
  errands := h'.errands.trans h.errands
  answer := h'.answer.trans h.answer
  next := Nat.le_trans h.next h'.next

/-- Many things may happen one after the other. -/
theorem foldl {α : Type} {step : Session → α → Session}
    (h : ∀ (session : Session) (item : α), session.LeavesErrands (step session item)) (items : List α)
    (session : Session) :
    session.LeavesErrands (items.foldl step session) := by
  induction items generalizing session with
  | nil => exact .of_eq rfl rfl rfl
  | cons item rest ih => exact (h session item).trans (ih _)

end LeavesErrands

theorem leavesErrands_wake (session : Session) (task : Task) :
    session.LeavesErrands (session.wake task) := by
  obtain ⟨woken, heq, -⟩ := session.wake_eq task
  rw [heq]
  exact .of_eq rfl rfl rfl

theorem leavesErrands_wakeAfter (session : Session) (act : Act) (task : Task) :
    session.LeavesErrands (session.wakeAfter act task) := by
  obtain ⟨alarms, heq, -⟩ := session.wakeAfter_eq act task
  rw [heq]
  exact .of_eq rfl rfl rfl

theorem leavesErrands_cancelToken (session : Session) (token : Token) :
    session.LeavesErrands (session.cancelToken token) := by
  obtain ⟨base, woken, rfl | ⟨other, rfl⟩, heq, -⟩ := session.cancelToken_eq token <;>
    · rw [heq]
      exact .of_eq rfl rfl rfl

theorem leavesErrands_lookAtAct (session : Session) (act : Act) (token : Token) :
    session.LeavesErrands (session.lookAtAct act token).2 := by
  rcases session.lookAtAct_cases act token with ⟨ending, hlook⟩ | ⟨other, hlook⟩
  · rw [hlook]
    exact .of_eq rfl rfl rfl
  · rw [hlook]
    exact session.leavesErrands_cancelToken other

theorem leavesErrands_lookAt (session : Session) (pending : Pending) (token : Token) :
    session.LeavesErrands (session.lookAt pending token).2 := by
  cases pending with
  | act act => exact session.leavesErrands_lookAtAct act token
  | call _ | ended _ => exact .of_eq rfl rfl rfl

theorem leavesErrands_post (session : Session) (worker : Handle) (request : Request Address) (token : Token)
    (errand : Handle) : session.LeavesErrands (session.post worker request token errand).2 := by
  have hsame : session.LeavesErrands session := .of_eq rfl rfl rfl
  have hcall : ∀ state,
      session.LeavesErrands (session.withCall worker state ⟨worker, request, token, errand, none⟩) :=
    fun state => ⟨rfl, rfl, Nat.le_succ _⟩
  unfold post
  split
  · split
    · exact (hcall _).trans (leavesErrands_wake _ _)
    · exact hsame
  · exact hsame

theorem leavesErrands_takeResponse (session : Session) (host : Handle) (request : Request Fingerprint) :
    session.LeavesErrands (session.takeResponse host request).2 := by
  unfold takeResponse
  split <;> exact .of_eq rfl rfl rfl

theorem leavesErrands_invoke (session : Session) (client : Client) (request : Request Fingerprint)
    (token : Token) (errand : Handle) :
    session.LeavesErrands (session.invoke client request token errand).2 := by
  cases client with
  | worker worker => exact session.leavesErrands_post worker _ token errand
  | scripted host =>
    exact (session.leavesErrands_takeResponse host request).trans (leavesErrands_wakeAfter _ _ _)

/-- The errand of a delivery changes only when its turn is over. -/
theorem leavesErrands_sendFrom (errand : Handle) (client : Client) (registry : Handle) (token : Token)
    (limit : ℕ) (delivery : Delivery) (session : Session) :
    session.LeavesErrands (sendFrom errand client registry token limit delivery session).2 := by
  have hsame : ∀ session : Session, session.LeavesErrands session := fun _ => .of_eq rfl rfl rfl
  induction limit generalizing delivery session with
  | zero => exact hsame session
  | succ limit ih =>
    obtain ⟨remaining, sent⟩ := delivery
    cases remaining with
    | nil => exact hsame session
    | cons item rest =>
      cases hcancelled : session.isCancelled token with
      | true =>
        simp only [sendFrom, Delivery.turn, hcancelled, if_true]
        exact hsame session
      | false =>
        have hfiled : session.LeavesErrands (session.fileSnapshot registry item.solution).2 :=
          .of_eq rfl rfl rfl
        have hexchanged : session.LeavesErrands
            (session.exchange errand client registry token item).2.2 :=
          (hfiled.trans (leavesErrands_invoke _ client item.request token errand)).trans
            (leavesErrands_lookAt _ _ token)
        rw [sendFrom_cons errand client registry item rest limit sent hcancelled]
        generalize session.exchange errand client registry token item = exchanged at hexchanged ⊢
        obtain ⟨pending, _ | _ | _ | _ | _, after⟩ := exchanged
        · exact hexchanged
        · have hcounted : after.LeavesErrands after.countSent := .of_eq rfl rfl rfl
          exact (hexchanged.trans hcounted).trans (ih ⟨rest, sent + 1⟩ after.countSent)
        · exact hexchanged
        · exact hexchanged
        · exact hexchanged

theorem leavesErrands_stopWorker (session : Session) (worker : Handle) :
    session.LeavesErrands (session.stopWorker worker) := by
  obtain ⟨woken, heq, -⟩ := session.stopWorker_eq worker
  rw [heq]
  exact .of_eq rfl rfl rfl

/-- Letting go of what nobody holds touches no errand. -/
theorem leavesErrands_letGo (session : Session) : session.LeavesErrands session.letGo := by
  have hdropped : session.LeavesErrands session.dropWorkspaces := .of_eq rfl rfl rfl
  exact (hdropped.trans (.foldl leavesErrands_cancelToken _ _)).trans (.foldl leavesErrands_stopWorker _ _)

theorem leavesErrands_numbersTurn (session : Session) (handle : Handle) :
    session.LeavesErrands (session.numbersTurn handle) := by
  have hsame : session.LeavesErrands session := .of_eq rfl rfl rfl
  unfold numbersTurn
  split
  · exact hsame
  · dsimp only
    split
    · exact .of_eq rfl rfl rfl
    · exact .of_eq rfl rfl rfl
    · refine LeavesErrands.trans ?_ (leavesErrands_wake _ _)
      exact .of_eq rfl rfl rfl

theorem leavesErrands_finishBatch (session : Session) (handle : Handle) (token : Token) (act : Act) :
    session.LeavesErrands (session.finishBatch handle token act) := by
  rcases session.finishBatch_cases handle token act with heq | ⟨base, ending, woken, htells, heq, -⟩
  · rw [heq]
    exact .of_eq rfl rfl rfl
  · rw [heq]
    rcases htells with rfl | ⟨other, rfl⟩ <;> exact .of_eq rfl rfl rfl

theorem leavesErrands_batchTurn (session : Session) (handle : Handle) :
    session.LeavesErrands (session.batchTurn handle) := by
  have hsame : session.LeavesErrands session := .of_eq rfl rfl rfl
  unfold batchTurn
  split
  · exact hsame
  · split
    · exact hsame
    · exact leavesErrands_finishBatch _ _ _ _
    · refine LeavesErrands.trans ?_ (leavesErrands_finishBatch _ _ _ _)
      refine LeavesErrands.trans ?_ (leavesErrands_wakeAfter _ _ _)
      exact .of_eq rfl rfl rfl

theorem leavesErrands_inboxTurn (session : Session) (worker : Handle) :
    session.LeavesErrands (session.inboxTurn worker) := by
  unfold inboxTurn
  split
  · exact .of_eq rfl rfl rfl
  · next state _ =>
    have hread : session.LeavesErrands
        { session with workers := session.workers.insert worker { state with inbox := [] } } :=
      .of_eq rfl rfl rfl
    exact hread.trans (.foldl (fun session call => session.leavesErrands_wake (.call call)) _ _)

theorem leavesErrands_departureTurn (session : Session) (handle : Handle) :
    session.LeavesErrands (session.departureTurn handle) := by
  unfold departureTurn
  split
  · exact .of_eq rfl rfl rfl
  · split <;> exact .of_eq rfl rfl rfl

/-! ## What touches other errands -/

/-- No errand but this one is for the foreground. -/
def AskedOnly (session : Session) (errand : Handle) : Prop :=
  ∀ other found, session.errands.get? other = some found → found.owner = .asker → other = errand

/-- A batch is left to itself, and numbers are given away in order. If no other errand is for the foreground
none will be, and the foreground gets no answer. -/
structure Bystands (errand : Handle) (before after : Session) : Prop where
  /-- The batch is left to itself. -/
  leaves : before.LeavesBatch errand after
  /-- Numbers are given away in order. -/
  next : before.next ≤ after.next
  /-- The foreground is not answered. -/
  asked : before.AskedOnly errand → after.AskedOnly errand ∧ after.answer = before.answer

/-- What touches no errand leaves a batch to itself. -/
theorem LeavesErrands.bystands (h : before.LeavesErrands after) (errand : Handle) :
    before.Bystands errand after where
  leaves :=
    { gone := fun hgone => h.errands ▸ hgone
      waits := fun _ _ _ _ _ pending hbefore => ⟨pending, .inl rfl, h.errands ▸ hbefore⟩ }
  next := h.next
  asked hasked := ⟨fun other found hfound => hasked other found (h.errands ▸ hfound), h.answer⟩

/-- Who an errand is not for does not change with what touches no errand. -/
theorem LeavesErrands.asked (h : before.LeavesErrands after) {owner : ErrandOwner}
    (howner : before.AskedOnly errand → owner ≠ .asker) : after.AskedOnly errand → owner ≠ .asker :=
  fun hasked => howner fun other found hfound => hasked other found (h.errands ▸ hfound)

/-- One thing may happen after the other. -/
theorem Bystands.trans (h : before.Bystands errand middle)
    (h' : middle.Bystands errand after) : before.Bystands errand after := by
  refine ⟨⟨fun hgone => h'.leaves.gone (h.leaves.gone hgone), ?_⟩, Nat.le_trans h.next h'.next,
    fun hasked => ?_⟩
  · intro owner token client handle delivery pending hbefore
    obtain ⟨later, hlater, hmiddle⟩ := h.leaves.waits owner token client handle delivery pending hbefore
    obtain ⟨last, hlast, hafter⟩ := h'.leaves.waits owner token client handle delivery later hmiddle
    refine ⟨last, ?_, hafter⟩
    -- What has come to an end stays what it is.
    rcases hlater with rfl | ⟨call, ending, rfl, rfl⟩
    · exact hlast
    · rcases hlast with rfl | ⟨other, otherwise, hcall, -⟩
      · exact .inr ⟨call, ending, rfl, rfl⟩
      · contradiction
  · obtain ⟨hmiddle, hanswer⟩ := h.asked hasked
    obtain ⟨hafter, hsame⟩ := h'.asked hmiddle
    exact ⟨hafter, hsame.trans hanswer⟩

/-- What touches no errand may happen before what leaves a batch to itself. -/
theorem LeavesErrands.trans_bystands (h : before.LeavesErrands middle)
    (h' : middle.Bystands errand after) : before.Bystands errand after :=
  (h.bystands errand).trans h'

/-- An errand that is not for the foreground may be put in the place of another errand than the batch's. -/
theorem bystands_insert (hne : other ≠ errand) (session : Session) (found : Errand)
    (howner : session.AskedOnly errand → found.owner ≠ .asker) :
    session.Bystands errand { session with errands := session.errands.insert other found } := by
  have hget : (session.errands.insert other found).get? errand = session.errands.get? errand :=
    (Catalog.get?_insert _ _ _ _).trans (if_neg hne)
  refine ⟨⟨fun hgone => hget.trans hgone, ?_⟩, Nat.le_refl _, fun hasked => ⟨?_, rfl⟩⟩
  · intro owner token client handle delivery pending hbefore
    exact ⟨pending, .inl rfl, hget.trans hbefore⟩
  · intro third last hthird hasker
    rcases Catalog.of_get?_insert hthird with ⟨-, rfl⟩ | ⟨-, hbefore⟩
    · exact absurd hasker (howner hasked)
    · exact hasked third last hbefore hasker

/-- The end of another errand that is not for the foreground leaves a batch to itself. -/
theorem bystands_endErrand (hne : other ≠ errand) (session : Session)
    {owner : ErrandOwner} (howner : session.AskedOnly errand → owner ≠ .asker) (ending : Ending) :
    session.Bystands errand (session.endErrand other owner ending) := by
  have herrands := session.errands_endErrand other owner ending
  have hbooks := session.books_endErrand other owner ending
  have hget : (session.endErrand other owner ending).errands.get? errand = session.errands.get? errand := by
    rw [herrands, Catalog.get?_erase, if_neg hne]
  refine ⟨⟨fun hgone => hget.trans hgone, ?_⟩, ?_, fun hasked => ⟨?_, ?_⟩⟩
  · intro owner token client handle delivery pending hbefore
    exact ⟨pending, .inl rfl, hget.trans hbefore⟩
  · exact Nat.le_of_eq (congrArg Books.next hbooks).symm
  · intro third found hthird
    rw [herrands] at hthird
    exact hasked third found (Catalog.of_get?_erase hthird).2
  · cases owner with
    | asker => exact absurd rfl (howner hasked)
    | listener listener => exact (leavesErrands_wake _ _).answer

/-- A batch is left to itself by another delivery that goes on. -/
theorem bystands_carryOn (hne : other ≠ errand) (session : Session)
    {owner : ErrandOwner} (howner : session.AskedOnly errand → owner ≠ .asker) (token : Token)
    (client : Client) (handle : Handle) (delivery : Delivery) :
    session.Bystands errand (session.carryOn other owner token client handle delivery) := by
  have hsent := leavesErrands_sendFrom other client handle token (delivery.remaining.length + 1) delivery
    session
  cases hresult : sendFrom other client handle token (delivery.remaining.length + 1) delivery session with
  | mk progress last =>
    rw [hresult] at hsent
    have hlast := hsent.asked howner
    rcases progress with ending | ⟨rest, pending⟩
    · rw [carryOn_of_over hresult]
      exact hsent.trans_bystands (bystands_endErrand hne last hlast ending)
    · rw [carryOn_of_waiting hresult]
      exact hsent.trans_bystands (bystands_insert hne last _ hlast)

/-- A batch is left to itself by another batch that is begun with. -/
theorem bystands_processBatch (hne : other ≠ errand) (session : Session)
    {owner : ErrandOwner} (howner : session.AskedOnly errand → owner ≠ .asker) (token : Token)
    (dispatcher : Handle) (events : List Event) :
    session.Bystands errand
      (session.processBatch other owner token dispatcher events) := by
  have hended := fun ending => bystands_endErrand hne session howner ending
  unfold processBatch deliver
  split
  · exact hended _
  · split
    · exact hended _
    · split
      · exact bystands_carryOn hne session howner token _ _ _
      · refine LeavesErrands.trans_bystands ?_ (bystands_endErrand hne _ ?_ _)
        · exact .of_eq rfl rfl rfl
        · exact howner
    · exact hended _

/-- A batch is left to itself by another errand. -/
theorem bystands_errandTurn (hne : other ≠ errand) (session : Session) :
    session.Bystands errand (session.errandTurn other) := by
  unfold errandTurn
  split
  · exact LeavesErrands.bystands (.of_eq rfl rfl rfl) errand
  · next found hfound =>
    have howner : session.AskedOnly errand → found.owner ≠ .asker :=
      fun hasked hasker => hne (hasked other found hfound hasker)
    split
    · exact bystands_processBatch hne session howner _ _ _
    · next pending _ =>
      have hlook := session.leavesErrands_lookAt pending found.token
      split
      · next hnone => rw [hnone] at hlook; exact hlook.bystands errand
      · next hended =>
        rw [hended] at hlook
        exact hlook.trans_bystands (bystands_endErrand hne _ (hlook.asked howner) _)
    · next pending _ =>
      have hlook := session.leavesErrands_lookAt pending found.token
      split
      · next hnone => rw [hnone] at hlook; exact hlook.bystands errand
      · next last hsucceeded =>
        rw [hsucceeded] at hlook
        have hcounted : last.LeavesErrands last.countSent := .of_eq rfl rfl rfl
        have hgoes := hlook.trans hcounted
        exact hgoes.trans_bystands (bystands_carryOn hne _ (hgoes.asked howner) _ _ _ _)
      · next hended =>
        rw [hended] at hlook
        exact hlook.trans_bystands (bystands_endErrand hne _ (hlook.asked howner) _)

/-- A call that has ended only tells so to the errand that waits for it. -/
theorem bystands_endCall (errand : Handle) (session : Session) (handle : Handle) (call : Call)
    (ending : Ending) : session.Bystands errand (session.endCall handle call ending) := by
  obtain ⟨woken, heq⟩ := session.endCall_eq handle call ending
  rw [heq]
  refine ⟨⟨fun hgone => ?_, fun owner token client registry delivery pending hbefore => ?_⟩,
    Nat.le_refl _, fun hasked => ⟨fun third found hthird hasker => ?_, rfl⟩⟩
  · by_cases herrand : call.errand = errand
    · subst herrand
      exact (Catalog.get?_modify _ _ _).trans (by rw [hgone]; rfl)
    · exact (Catalog.get?_modify_of_ne _ herrand _).trans hgone
  · by_cases herrand : call.errand = errand
    · subst herrand
      refine ⟨pending.learn handle ending, ?_, (Catalog.get?_modify _ _ _).trans (by rw [hbefore]; rfl)⟩
      cases pending with
      | act act => exact .inl rfl
      | ended other => exact .inl rfl
      | call other =>
        by_cases hother : other = handle
        · exact .inr ⟨other, ending, rfl, if_pos hother⟩
        · exact .inl (if_neg hother)
    · exact ⟨pending, .inl rfl, (Catalog.get?_modify_of_ne _ herrand _).trans hbefore⟩
  · -- Learning of the end of a call does not change who an errand is for.
    obtain ⟨found, hbefore, rfl | rfl⟩ := Catalog.of_get?_modify hthird
    · exact hasked third _ hbefore hasker
    · exact hasked third found hbefore hasker

/-- A call that goes on or ends leaves a batch to itself. -/
theorem bystands_finishCall (errand : Handle) (session : Session) (handle : Handle) (call : Call)
    (act : Act) : session.Bystands errand (session.finishCall handle call act) := by
  have hsame : session.LeavesErrands session := .of_eq rfl rfl rfl
  rcases session.finishCall_cases handle call act with ⟨-, heq⟩ | ⟨ending, next, -, hnext, heq⟩
  · rw [heq]
    exact hsame.bystands errand
  · have hcancelled : session.LeavesErrands next := by
      rcases hnext with rfl | ⟨other, rfl⟩
      · exact hsame
      · exact session.leavesErrands_cancelToken other
    rw [heq]
    exact hcancelled.trans_bystands (next.bystands_endCall errand handle call _)

/-- A call leaves a batch to itself in its turn. -/
theorem bystands_callTurn (errand : Handle) (session : Session) (handle : Handle) :
    session.Bystands errand (session.callTurn handle) := by
  unfold callTurn
  split
  · exact LeavesErrands.bystands (.of_eq rfl rfl rfl) errand
  · next call _ =>
    split
    · exact session.bystands_endCall errand handle call _
    · next state _ _ =>
      have hresolved : session.LeavesErrands (session.resolved state call.request) :=
        .of_eq rfl rfl rfl
      rw [beginCall_eq]
      split
      · exact hresolved.trans_bystands (bystands_endCall errand _ _ _ _)
      · next serviceCall _ =>
        refine LeavesErrands.trans_bystands ?_ (bystands_finishCall errand _ _ _ _)
        refine hresolved.trans (LeavesErrands.trans ?_ (leavesErrands_wakeAfter _ _ _))
        exact .of_eq rfl rfl rfl
    · exact session.bystands_finishCall errand handle call _

/-- A batch is left to itself by a new one, which has a new number and is for its listener. -/
theorem bystands_hand (hlt : errand < session.next) (handle : Handle) (listener : Listener)
    (counters : Counters) (token : Token) (stage : ErrandStage) :
    session.Bystands errand { session with
      next := session.next + 1
      counters := counters
      listeners := session.listeners.insert handle listener
      errands := session.errands.insert session.next ⟨.listener handle, token, stage⟩ } := by
  have hnew : session.Bystands errand { session with
      errands := session.errands.insert session.next ⟨.listener handle, token, stage⟩ } :=
    bystands_insert (Nat.ne_of_gt hlt) session _ fun _ => nofun
  refine hnew.trans (LeavesErrands.bystands ?_ errand)
  exact ⟨rfl, rfl, Nat.le_succ _⟩

/-- The keeper of a listener's queue leaves a batch to itself in its turn. -/
theorem bystands_eventsTurn (hlt : errand < session.next) (handle : Handle) :
    session.Bystands errand (session.eventsTurn handle) := by
  have hsame : session.LeavesErrands session := .of_eq rfl rfl rfl
  unfold eventsTurn
  split
  · exact hsame.bystands errand
  · dsimp only
    split
    · refine LeavesErrands.bystands ?_ errand
      exact .of_eq rfl rfl rfl
    · refine LeavesErrands.bystands ?_ errand
      exact .of_eq rfl rfl rfl
    · refine Bystands.trans ?_ ((leavesErrands_wake _ _).bystands errand)
      exact bystands_hand hlt handle _ _ _ _

/-- In its turn a task leaves a batch to itself, if it is not the batch's own errand. -/
theorem bystands_giveTurn (hlt : errand < session.next) {task : Task}
    (htask : task ≠ .errand errand) : session.Bystands errand (session.giveTurn task) := by
  cases task with
  | numbers handle => exact (session.leavesErrands_numbersTurn handle).bystands errand
  | batch handle => exact (session.leavesErrands_batchTurn handle).bystands errand
  | events handle => exact bystands_eventsTurn hlt handle
  | errand handle => exact bystands_errandTurn (fun heq => htask (congrArg Task.errand heq)) session
  | inbox handle => exact (session.leavesErrands_inboxTurn handle).bystands errand
  | call handle => exact session.bystands_callTurn errand handle
  | departure handle => exact (session.leavesErrands_departureTurn handle).bystands errand

end Session

/-- Whatever the loop of a session does while a batch is worked on makes a run of the batch. -/
theorem BatchRun.lasting (batch : Batch) (dispatcher : Dispatcher) (start moment : Session) :
    Session.Lasting fun session => batch.errand < session.next ∧
      ∃ steps, BatchRun batch dispatcher start moment steps session := by
  -- Others may do something, and the batch goes on.
  have helsewhere : ∀ {session after : Session},
      (batch.errand < session.next ∧ ∃ steps, BatchRun batch dispatcher start moment steps session) →
      session.Bystands batch.errand after →
      batch.errand < after.next ∧ ∃ steps, BatchRun batch dispatcher start moment steps after := by
    rintro session after ⟨hlt, steps, hrun⟩ hbystands
    exact ⟨Nat.lt_of_lt_of_le hlt hbystands.next, steps, hrun.elsewhere hbystands.leaves⟩
  have hletGo : ∀ session : Session, session.Bystands batch.errand session.letGo :=
    fun session => session.leavesErrands_letGo.bystands _
  refine ⟨fun session now agenda alarms h => ?_, fun session task h => ?_, fun session h => ?_⟩
  · refine helsewhere h (Session.LeavesErrands.bystands ?_ _)
    exact .of_eq rfl rfl rfl
  · by_cases htask : task = .errand batch.errand
    · subst htask
      obtain ⟨hlt, steps, hrun⟩ := h
      refine helsewhere ⟨?_, _, hrun.turn⟩ (hletGo _)
      have hstep := hrun.turn.invariant.2 _ (List.mem_append_right _ (List.mem_singleton_self _))
      exact Nat.lt_of_lt_of_le hlt hstep.accounts.keeps.next
    · exact helsewhere (helsewhere h (Session.bystands_giveTurn h.1 htask)) (hletGo _)
  · exact helsewhere h (hletGo session)

end SolutionWatch
