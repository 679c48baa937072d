import SolutionWatch.Proofs.Queue.Conservation
import SolutionWatch.Proofs.Queue.Effects

/-!
# A queue of numbers in a session

`Session.QueueRun` is every session that a queue of numbers is part of, with what happened to the queue
on the way: numbers are added at any moment, its two tasks have turns at any moment, the clock moves as
long as no task of the queue is awake and not past an alarm that one of them has set, and others do
whatever leaves the queue alone or tells it to stop.

What happened to a batch is read off what the processor was doing before a turn and is doing after it.
`Session.numbersTurn_spec` and `Session.batchTurn_spec` say what a turn comes to for the queue, and
`Session.QueueRun.keeperRun` that the keeper of the queue goes through one of the runs of
`Keeper.Run`: whatever holds of those holds of the queues of sessions.
-/

namespace SolutionWatch

/-- What happened to a batch when the processor did one thing before and does another after. -/
def Processing.happenings (now : ℕ) : Processing → Processing → History ℕ
  | .idle, .handed batch => [.handed now batch]
  | .handed batch, .busy _ => [.started now batch]
  | .handed batch, .idle => [.started now batch, .ended now]
  | .busy _, .idle => [.ended now]
  | _, _ => []

/-- Nothing happened if the processor goes on with what it was doing. -/
theorem Processing.happenings_self (now : ℕ) (processing : Processing) :
    processing.happenings now processing = [] := by
  cases processing <;> rfl

/-- What the processor is doing after a move of the keeper. -/
def KeeperMove.processing : KeeperMove ℕ → Processing → Processing
  | .hand batch, _ => .handed batch
  | .rest, processing | .sleep _, processing => processing

/-- What becomes of a batch in its turn. -/
inductive NumberQueue.BatchCase (q : NumberQueue) : NumberQueue → Prop
  /-- No batch is at hand. -/
  | resting : q.processing = .idle → BatchCase q q
  /-- The processor is not done. -/
  | goesOn {act : Act} : q.processing = .busy act → BatchCase q q
  /-- The processor begins with the batch. -/
  | begins {batch : List ℕ} (act : Act) (script : Script) (log : List QueueEntry) :
      q.processing = .handed batch →
      BatchCase q { q with script := script, processing := .busy act, log := log }
  /-- The processor is done; before it was, it may have told the queue to stop. -/
  | ends {keeper : Keeper ℕ} (ending : Ending) (script : Script) (log : List QueueEntry) :
      q.processing ≠ .idle → keeper = q.keeper ∨ keeper = q.keeper.cancel →
      BatchCase q
        { q with keeper := keeper.learn ending, script := script, processing := .idle, log := log }

/-- Items that are accepted are not handed out by that. -/
theorem History.atHand_accepts {α : Type} (history : History α) (queue : WorkQueue α) (now : ℕ)
    (items : List α) : History.atHand (history ++ queue.accepts now items) = history.atHand := by
  unfold WorkQueue.accepts
  split
  · rw [List.append_nil]
  · rw [History.atHand_concat]
    rfl

namespace Keeper

variable {α : Type} {keeper : Keeper α}

/-- A batch whose end the keeper has yet to notice is not worked on any more. -/
theorem isWorking_of_outcome (h : keeper.outcome ≠ none) : keeper.isWorking = false :=
  eq_false_of_ne_true fun hworking => h (isWorking_iff.mp hworking).2

/-- Noticing how a batch ended does not end one. -/
theorem isWorking_notice (keeper : Keeper α) : keeper.notice.isWorking = keeper.isWorking := by
  by_cases houtcome : keeper.outcome = none
  · rw [notice_eq_self houtcome]
  · rw [isWorking_of_waiting (phase_notice houtcome), isWorking_of_outcome houtcome]

/-- In its turn a keeper that works on no batch hands one out, or it stays with what is worked on. -/
theorem isWorking_turn {now : ℕ} {move : KeeperMove α} {next : Keeper α}
    (h : keeper.notice.turnWindowFirst now = (move, next)) :
    (∃ batch, move = .hand batch ∧ keeper.isWorking = false ∧ next.isWorking = true) ∨
      ((move = .rest ∨ ∃ time, move = .sleep time) ∧ next.isWorking = keeper.isWorking) := by
  have hnoticed := keeper.isWorking_notice
  have houtcome : keeper.notice.outcome = none := outcome_notice
  rw [← hnoticed]
  obtain hsame | ⟨time, hdue, -, hhand⟩ := keeper.notice.turnWindowFirst_cases now
  case inr =>
    obtain ⟨rfl, rfl⟩ := Prod.mk.inj (h.symm.trans hhand)
    refine .inl ⟨_, rfl, isWorking_of_waiting (WorkQueue.due_eq_some.mp hdue).1, ?_⟩
    rw [isWorking, houtcome]
    rfl
  have hturn := keeper.notice.turnCase now
  rw [← hsame, h] at hturn
  cases hturn with
  | occupied | closed | armed => exact .inr ⟨.inl rfl, rfl⟩
  | stopping hphase =>
    refine .inr ⟨.inl rfl, ?_⟩
    rw [isWorking_of_waiting hphase]
    rfl
  | elapsed hphase =>
    refine .inl ⟨_, rfl, isWorking_of_waiting hphase, ?_⟩
    rw [isWorking, houtcome]
    rfl
  | arming => exact .inr ⟨.inr ⟨_, rfl⟩, rfl⟩

end Keeper

/-- What the processor of a queue is doing fits what happened to the queue. -/
structure NumberQueue.Fits (history : History ℕ) (q : NumberQueue) : Prop where
  /-- Without a batch the processor has nothing to do. -/
  idle : q.processing = .idle → q.keeper.isWorking = false
  /-- The processor was handed the batch that is at hand. -/
  handed : ∀ batch, q.processing = .handed batch →
    q.keeper.isWorking = true ∧ ∃ time, history.atHand = some (time, batch)
  /-- The processor works on a batch that has not ended. -/
  busy : ∀ act, q.processing = .busy act → q.keeper.isWorking = true

namespace NumberQueue.Fits

variable {history later : History ℕ} {q after : NumberQueue}

/-- It is a matter of the processor, of whether a batch is worked on, and of what is at hand. -/
theorem of_same (h : q.Fits history) (hprocessing : after.processing = q.processing)
    (hworking : after.keeper.isWorking = q.keeper.isWorking)
    (hlater : later.atHand = history.atHand) : after.Fits later := by
  obtain ⟨hidle, hhanded, hbusy⟩ := h
  rw [← hprocessing, ← hworking] at hidle hbusy
  rw [← hprocessing, ← hworking, ← hlater] at hhanded
  exact ⟨hidle, hhanded, hbusy⟩

/-- The processor has nothing to do while no batch is worked on. -/
theorem idle_of_resting (h : q.Fits history) (hworking : q.keeper.isWorking = false) :
    q.processing = .idle := by
  cases hprocessing : q.processing with
  | idle => rfl
  | handed batch =>
    rw [(h.handed batch hprocessing).1] at hworking
    contradiction
  | busy act =>
    rw [h.busy act hprocessing] at hworking
    contradiction

/-- A batch is worked on while the processor has something to do. -/
theorem isWorking (h : q.Fits history) (hprocessing : q.processing ≠ .idle) :
    q.keeper.isWorking = true := by
  by_contra hworking
  exact hprocessing (h.idle_of_resting (eq_false_of_ne_true hworking))

/-- What a turn of the keeper changes about the processor is what the keeper's move makes happen. -/
theorem happenings_of_turn (h : q.Fits history) {now : ℕ} {move : KeeperMove ℕ} {next : Keeper ℕ}
    (hturn : q.keeper.notice.turnWindowFirst now = (move, next)) :
    q.processing.happenings now (move.processing q.processing) = move.happenings now := by
  rcases Keeper.isWorking_turn hturn with ⟨batch, rfl, hbefore, -⟩ | ⟨rfl | ⟨time, rfl⟩, -⟩
  · -- A keeper that hands out a batch works on none, so the processor has nothing to do.
    rw [h.idle_of_resting hbefore]
    rfl
  · exact Processing.happenings_self now q.processing
  · exact Processing.happenings_self now q.processing

end NumberQueue.Fits

/-- A queue that was not told to stop in the turn of a batch or before was not told to before. -/
theorem NumberQueue.BatchCase.cancelled_eq_false {q after : NumberQueue} (h : q.BatchCase after)
    (hlive : after.keeper.queue.cancelled = false) : q.keeper.queue.cancelled = false := by
  cases h with
  | resting | goesOn | begins => exact hlive
  | ends _ _ _ _ hkeeper =>
    rcases hkeeper with rfl | rfl
    · exact hlive
    · contradiction

namespace Session

variable {handle : Handle} {delay limit : ℕ} {history : History ℕ} {session next : Session}
  {q : NumberQueue}

/-! ## What a turn comes to -/

/-- No time passes, the tasks of a queue stay awake, and the alarms that they have set stay set. -/
structure Keeps (handle : Handle) (session next : Session) : Prop where
  /-- No time passes. -/
  now : next.now = session.now
  /-- The tasks of the queue stay awake. -/
  agenda : ∀ task : Task, task.IsOf handle → task ∈ session.agenda → task ∈ next.agenda
  /-- The alarms of the queue stay set. -/
  alarms : ∀ alarm ∈ session.alarms, alarm.2.IsOf handle → alarm ∈ next.alarms

/-- Nothing is lost where tasks are put on the agenda and alarms are added. -/
theorem Keeps.of_append {agenda : List Task} {alarms : List (ℕ × Task)}
    (hnow : next.now = session.now) (hagenda : next.agenda = session.agenda ++ agenda)
    (halarms : next.alarms = session.alarms ++ alarms) : Keeps handle session next where
  now := hnow
  agenda task _ htask := by
    rw [hagenda]
    exact List.mem_append_left _ htask
  alarms alarm halarm _ := by
    rw [halarms]
    exact List.mem_append_left _ halarm

/-- A session keeps what it has. -/
theorem Keeps.refl (handle : Handle) (session : Session) : Keeps handle session session :=
  ⟨rfl, fun _ _ h => h, fun _ h _ => h⟩

/-- Adding numbers keeps everything and puts them in the queue; a keeper that waits for a window is
awake if they open one. -/
theorem addNumbers_spec (hq : session.queues.get? handle = some q) (items : List ℕ) :
    Keeps handle session (session.addNumbers handle items) ∧
      (session.addNumbers handle items).queues.get? handle =
        some { q with keeper := (q.keeper.add session.now items).2 } ∧
      ((q.keeper.add session.now items).1 = true →
        .numbers handle ∈ (session.addNumbers handle items).agenda) := by
  obtain ⟨woken, heq, -, hawake⟩ := addNumbers_eq hq items
  rw [heq]
  exact ⟨.of_append rfl rfl (List.append_nil _).symm, by rw [Catalog.get?_insert, if_pos rfl], hawake⟩

/-- The turn of a keeper keeps everything. The queue is what the keeper makes of it; a batch that is
handed out is awake, and an alarm that is asked for is set. -/
theorem numbersTurn_spec {move : KeeperMove ℕ} {keeper : Keeper ℕ}
    (hq : session.queues.get? handle = some q)
    (hturn : q.keeper.notice.turnWindowFirst session.now = (move, keeper)) :
    Keeps handle session (session.numbersTurn handle) ∧
      (session.numbersTurn handle).queues.get? handle =
        some { q with keeper := keeper, processing := move.processing q.processing } ∧
      (∀ time, move = .sleep time →
        (time, .numbers handle) ∈ (session.numbersTurn handle).alarms) ∧
      ∀ batch, move = .hand batch → .batch handle ∈ (session.numbersTurn handle).agenda := by
  cases move with
  | rest =>
    rw [numbersTurn_of_rest hq hturn]
    exact ⟨.of_append rfl (List.append_nil _).symm (List.append_nil _).symm,
      by rw [Catalog.get?_insert, if_pos rfl]; rfl, nofun, nofun⟩
  | sleep time =>
    rw [numbersTurn_of_sleep hq hturn]
    refine ⟨.of_append rfl (List.append_nil _).symm rfl,
      by rw [Catalog.get?_insert, if_pos rfl]; rfl, ?_, nofun⟩
    intro other hother
    obtain rfl : time = other := KeeperMove.sleep.inj hother
    exact List.mem_append_right _ (List.mem_singleton_self _)
  | hand batch =>
    obtain ⟨woken, heq, -, hawake⟩ := numbersTurn_of_hand hq hturn
    rw [heq]
    exact ⟨.of_append rfl rfl (List.append_nil _).symm,
      by rw [Catalog.get?_insert, if_pos rfl]; rfl, nofun, fun _ _ => hawake⟩

/-- A batch that is looked at keeps everything. It goes on, or it ends and the keeper is awake. -/
theorem finishBatch_spec (hq : session.queues.get? handle = some q) (token : Token) (act : Act) :
    Keeps handle session (session.finishBatch handle token act) ∧
      ((session.finishBatch handle token act).queues.get? handle = some q ∨
        ∃ keeper ending log, (keeper = q.keeper ∨ keeper = q.keeper.cancel) ∧
          (session.finishBatch handle token act).queues.get? handle =
            some { q with keeper := keeper.learn ending, processing := .idle, log := log } ∧
          .numbers handle ∈ (session.finishBatch handle token act).agenda) := by
  rcases session.finishBatch_cases handle token act with
    heq | ⟨base, ending, woken, htells, heq, -, hawake⟩
  · rw [heq]
    exact ⟨.refl _ _, .inl hq⟩
  · have hkeeps : Keeps handle session (session.finishBatch handle token act) := by
      rw [heq]
      exact .of_append htells.now_eq rfl (htells.alarms_eq.trans (List.append_nil _).symm)
    obtain ⟨keeper, hkeeper, hbase⟩ := htells.queue hq
    refine ⟨hkeeps, .inr ⟨keeper, ending, q.log ++ ending.logEntry base.now, hkeeper, ?_, ?_⟩⟩
    · rw [heq, Catalog.get?_modify, hbase]
      rfl
    · rw [heq]
      exact hawake

/-- The turn of a batch keeps everything, and the keeper is awake if the batch has ended. -/
theorem batchTurn_spec (hq : session.queues.get? handle = some q) :
    Keeps handle session (session.batchTurn handle) ∧
      ∃ after, (session.batchTurn handle).queues.get? handle = some after ∧ q.BatchCase after ∧
        (q.processing ≠ .idle → after.processing = .idle →
          .numbers handle ∈ (session.batchTurn handle).agenda) := by
  cases hprocessing : q.processing with
  | idle =>
    rw [batchTurn_of_idle hq hprocessing]
    exact ⟨.refl _ _, q, hq, .resting hprocessing, fun hne => absurd rfl hne⟩
  | busy act =>
    rw [batchTurn_of_busy hq hprocessing]
    obtain ⟨hkeeps, hcase⟩ := finishBatch_spec hq q.keeper.token act
    refine ⟨hkeeps, ?_⟩
    rcases hcase with hafter | ⟨keeper, ending, log, hkeeper, hafter, hawake⟩
    · refine ⟨q, hafter, .goesOn hprocessing, fun _ hidle => ?_⟩
      rw [hprocessing] at hidle
      contradiction
    · have hne : q.processing ≠ .idle := by rw [hprocessing]; exact nofun
      exact ⟨_, hafter, .ends ending q.script log hne hkeeper, fun _ _ => hawake⟩
  | handed batch =>
    obtain ⟨act, script, alarms, heq, -⟩ := batchTurn_of_handed hq hprocessing
    rw [heq]
    -- The batch is looked at in the session in which it was begun with.
    generalize hbegun : ({ session with
      queues := session.queues.insert handle
        { q with
          script := script
          processing := .busy act
          log := q.log ++ [QueueEntry.started session.now batch] }
      alarms := session.alarms ++ alarms } : Session) = begun
    have hqueue : begun.queues.get? handle = some
        { q with
          script := script
          processing := .busy act
          log := q.log ++ [QueueEntry.started session.now batch] } := by
      rw [← hbegun, Catalog.get?_insert, if_pos rfl]
    obtain ⟨hkeeps, hcase⟩ := finishBatch_spec hqueue q.keeper.token act
    have hkeeps : Keeps handle session (begun.finishBatch handle q.keeper.token act) := by
      subst hbegun
      exact
        { now := hkeeps.now
          agenda := hkeeps.agenda
          alarms := fun alarm halarm => hkeeps.alarms alarm (List.mem_append_left _ halarm) }
    refine ⟨hkeeps, ?_⟩
    rcases hcase with hafter | ⟨keeper, ending, log, hkeeper, hafter, hawake⟩
    · exact ⟨_, hafter, .begins act script _ hprocessing, fun _ => nofun⟩
    · have hne : q.processing ≠ .idle := by rw [hprocessing]; exact nofun
      exact ⟨_, hafter, .ends ending script log hne hkeeper, fun _ _ => hawake⟩

/-! ## Runs -/

/-- What others do leaves a queue of numbers alone or tells it to stop. -/
structure Leaves (handle : Handle) (session next : Session) : Prop extends
    Keeps handle session next where
  /-- The processor goes on with what it was doing, and the keeper may have been told to stop. -/
  queue : ∀ q, session.queues.get? handle = some q →
    ∃ after, next.queues.get? handle = some after ∧ after.processing = q.processing ∧
      (after.keeper = q.keeper ∨ after.keeper = q.keeper.cancel)

/-- Cancelling a token leaves a queue alone or tells it to stop. -/
theorem leaves_cancelToken (session : Session) (handle : Handle) (token : Token) :
    Leaves handle session (session.cancelToken token) := by
  obtain ⟨base, woken, htells, heq, -⟩ := session.cancelToken_eq token
  have hkeeps : Keeps handle session (session.cancelToken token) := by
    rw [heq]
    exact .of_append htells.now_eq rfl (htells.alarms_eq.trans (List.append_nil _).symm)
  refine ⟨hkeeps, fun q hq => ?_⟩
  obtain ⟨keeper, hkeeper, hbase⟩ := htells.queue hq
  rw [heq]
  exact ⟨_, hbase, rfl, hkeeper⟩

/-- What the processor of a queue is doing. -/
def processing (session : Session) (handle : Handle) : Processing :=
  ((session.queues.get? handle).map NumberQueue.processing).getD .idle

/-- What happens to a queue because numbers are added to it. -/
def accepts (session : Session) (handle : Handle) (items : List ℕ) : History ℕ :=
  match session.queues.get? handle with
  | some q => q.keeper.queue.accepts session.now items
  | none => []

/-- The session after a task had a turn. -/
def afterTurn (session : Session) (task : Task) : Session :=
  ({ session with agenda := session.agenda.erase task }).giveTurn task

/-- What happens to a queue because a task has a turn. -/
def happenings (session : Session) (handle : Handle) (task : Task) : History ℕ :=
  (session.processing handle).happenings session.now ((session.afterTurn task).processing handle)

/-- The sessions that a queue of numbers with this delay and limit is part of, and what happened to the
queue until then. -/
inductive QueueRun (handle : Handle) (delay limit : ℕ) : History ℕ → Session → Prop
  /-- The queue is made; the token that it is made under may be cancelled already. -/
  | made {session : Session} (token : Token) (cancelled : Bool) (script : Script) :
      session.queues.get? handle =
        some { keeper := { queue := { delay := delay, limit := limit, cancelled := cancelled }
                           token := token }
               script := script } →
      QueueRun handle delay limit [] session
  /-- Others do something. -/
  | elsewhere {history : History ℕ} {session next : Session} :
      QueueRun handle delay limit history session → Leaves handle session next →
      QueueRun handle delay limit history next
  /-- Numbers are added. -/
  | add {history : History ℕ} {session : Session} (items : List ℕ) :
      QueueRun handle delay limit history session →
      QueueRun handle delay limit (history ++ session.accepts handle items)
        (session.addNumbers handle items)
  /-- A task of the queue has a turn. -/
  | turn {history : History ℕ} {session : Session} (task : Task) :
      QueueRun handle delay limit history session → task.IsOf handle →
      QueueRun handle delay limit (history ++ session.happenings handle task)
        (session.afterTurn task)
  /-- The clock moves while the tasks of the queue wait, and not past their alarms. -/
  | tick {history : History ℕ} {session : Session} (time : ℕ) :
      QueueRun handle delay limit history session →
      (∀ task ∈ session.agenda, ¬ task.IsOf handle) →
      (∀ alarm ∈ session.alarms, alarm.2.IsOf handle → time ≤ alarm.1) →
      QueueRun handle delay limit history (session.moveClock time)

/-- Somebody may cancel a token, which may be the queue's own. -/
theorem QueueRun.cancelToken (h : QueueRun handle delay limit history session) (token : Token) :
    QueueRun handle delay limit history (session.cancelToken token) :=
  h.elsewhere (session.leaves_cancelToken handle token)

/-! ## The runs of the keeper -/

/-- What is in the session for the queue, which goes with a run of its keeper. -/
def Holds (handle : Handle) (delay limit : ℕ) (history : History ℕ) (session : Session) : Prop :=
  ∃ q, session.queues.get? handle = some q ∧ q.Fits history ∧
    Keeper.Run delay limit history q.keeper

/-- What the processor of a queue in the session is doing. -/
theorem processing_eq (hq : session.queues.get? handle = some q) :
    session.processing handle = q.processing := by
  rw [processing, hq]
  rfl

/-- What the turn of a keeper comes to, once it was taken off the agenda. -/
theorem afterTurn_numbers_spec {move : KeeperMove ℕ} {keeper : Keeper ℕ}
    (hq : session.queues.get? handle = some q)
    (hturn : q.keeper.notice.turnWindowFirst session.now = (move, keeper)) :
    Keeps handle { session with agenda := session.agenda.erase (.numbers handle) }
        (session.afterTurn (.numbers handle)) ∧
      (session.afterTurn (.numbers handle)).queues.get? handle =
        some { q with keeper := keeper, processing := move.processing q.processing } ∧
      (∀ time, move = .sleep time →
        (time, .numbers handle) ∈ (session.afterTurn (.numbers handle)).alarms) ∧
      ∀ batch, move = .hand batch →
        .batch handle ∈ (session.afterTurn (.numbers handle)).agenda := by
  have herased : ({ session with agenda := session.agenda.erase (.numbers handle) } :
      Session).queues.get? handle = some q := hq
  exact numbersTurn_spec herased hturn

/-- What the turn of a batch comes to, once it was taken off the agenda. -/
theorem afterTurn_batch_spec (hq : session.queues.get? handle = some q) :
    Keeps handle { session with agenda := session.agenda.erase (.batch handle) }
        (session.afterTurn (.batch handle)) ∧
      ∃ after, (session.afterTurn (.batch handle)).queues.get? handle = some after ∧
        q.BatchCase after ∧
        (q.processing ≠ .idle → after.processing = .idle →
          .numbers handle ∈ (session.afterTurn (.batch handle)).agenda) := by
  have herased : ({ session with agenda := session.agenda.erase (.batch handle) } :
      Session).queues.get? handle = some q := hq
  exact batchTurn_spec herased

/-- What happens in a turn of the keeper is what its move makes happen. -/
theorem happenings_numbers {move : KeeperMove ℕ} {keeper : Keeper ℕ}
    (hq : session.queues.get? handle = some q) (hfits : q.Fits history)
    (hturn : q.keeper.notice.turnWindowFirst session.now = (move, keeper)) :
    session.happenings handle (.numbers handle) = move.happenings session.now := by
  obtain ⟨-, hafter, -, -⟩ := afterTurn_numbers_spec hq hturn
  rw [happenings, processing_eq hq, processing_eq hafter]
  exact hfits.happenings_of_turn hturn

namespace Holds

/-- A new queue holds what it is made with. -/
theorem made {token : Token} {cancelled : Bool} {script : Script}
    (hq : session.queues.get? handle =
      some { keeper := { queue := { delay := delay, limit := limit, cancelled := cancelled }
                         token := token }
             script := script }) : Holds handle delay limit [] session :=
  ⟨_, hq, ⟨fun _ => rfl, nofun, nofun⟩, .new token cancelled⟩

/-- What others do is no more than to tell the keeper to stop. -/
theorem elsewhere (h : Holds handle delay limit history session)
    (hleaves : Leaves handle session next) : Holds handle delay limit history next := by
  obtain ⟨q, hq, hfits, hrun⟩ := h
  obtain ⟨after, hafter, hprocessing, hkeeper⟩ := hleaves.queue q hq
  have hworking : after.keeper.isWorking = q.keeper.isWorking := by
    rcases hkeeper with heq | heq
    · rw [heq]
    · rw [heq]
      rfl
  refine ⟨after, hafter, hfits.of_same hprocessing hworking rfl, ?_⟩
  rcases hkeeper with heq | heq <;> rw [heq]
  · exact hrun
  · exact hrun.cancel

/-- Numbers that are added are accepted by the keeper's queue. -/
theorem add (h : Holds handle delay limit history session) (items : List ℕ) :
    Holds handle delay limit (history ++ session.accepts handle items)
      (session.addNumbers handle items) := by
  obtain ⟨q, hq, hfits, hrun⟩ := h
  obtain ⟨-, hafter, -⟩ := addNumbers_spec hq items
  have haccepts : session.accepts handle items = q.keeper.queue.accepts session.now items := by
    rw [accepts, hq]
  rw [haccepts]
  refine ⟨_, hafter, hfits.of_same rfl ?_ ?_, hrun.step (.add session.now items)⟩
  · exact Keeper.isWorking_of_phase (WorkQueue.phase_add session.now items)
  · exact History.atHand_accepts history _ _ _

/-- The turn of a queue's keeper is one of the keeper's turns. -/
theorem numbersTurn (h : Holds handle delay limit history session) :
    Holds handle delay limit (history ++ session.happenings handle (.numbers handle))
      (session.afterTurn (.numbers handle)) := by
  obtain ⟨q, hq, hfits, hrun⟩ := h
  have hturned := hrun.turnWindowFirst session.now
  generalize hturn : q.keeper.notice.turnWindowFirst session.now = result at hturned
  obtain ⟨move, keeper⟩ := result
  obtain ⟨-, hafter, -, -⟩ := afterTurn_numbers_spec hq hturn
  rw [happenings_numbers hq hfits hturn]
  refine ⟨_, hafter, ?_, hturned⟩
  rcases Keeper.isWorking_turn hturn with ⟨batch, rfl, -, hworking⟩ | ⟨hmove, hworking⟩
  · refine ⟨nofun, fun other hother => ?_, nofun⟩
    obtain rfl : batch = other := Processing.handed.inj hother
    exact ⟨hworking, session.now, History.atHand_concat _ _⟩
  · have hsame : move.processing q.processing = q.processing := by
      rcases hmove with rfl | ⟨time, rfl⟩ <;> rfl
    have hnothing : move.happenings session.now = [] := by
      rcases hmove with rfl | ⟨time, rfl⟩ <;> rfl
    exact hfits.of_same hsame hworking (by rw [hnothing, List.append_nil])

/-- In its turn a batch is begun with, or it ends, or both, if anything happens. -/
theorem batchTurn (h : Holds handle delay limit history session) :
    Holds handle delay limit (history ++ session.happenings handle (.batch handle))
      (session.afterTurn (.batch handle)) := by
  obtain ⟨q, hq, hfits, hrun⟩ := h
  obtain ⟨-, after, hafter, hcase, -⟩ := afterTurn_batch_spec hq
  rw [happenings, processing_eq hq, processing_eq hafter]
  refine ⟨after, hafter, ?_⟩
  cases hcase with
  | resting | goesOn =>
    rw [Processing.happenings_self, List.append_nil]
    exact ⟨hfits, hrun⟩
  | begins act script log hhanded =>
    obtain ⟨hworking, time, hatHand⟩ := hfits.handed _ hhanded
    rw [hhanded]
    exact ⟨⟨nofun, nofun, fun _ _ => hworking⟩, hrun.step (.start session.now hatHand)⟩
  | @ends keeper ending script log hne hkeeper =>
    have hworking := hfits.isWorking hne
    have hlearns : ∀ {history}, Keeper.Run delay limit history q.keeper →
        Keeper.Run delay limit (history ++ [.ended session.now]) (keeper.learn ending) := by
      intro history hrun
      obtain ⟨hphase, houtcome⟩ := Keeper.isWorking_iff.mp hworking
      rcases hkeeper with rfl | rfl
      · exact hrun.step (.learn session.now ending hphase houtcome)
      · exact hrun.cancel.step (.learn session.now ending hphase houtcome)
    have hended : (keeper.learn ending).isWorking = false := Keeper.isWorking_of_outcome nofun
    refine ⟨⟨fun _ => hended, nofun, nofun⟩, ?_⟩
    cases hprocessing : q.processing with
    | idle => exact absurd hprocessing hne
    | handed batch =>
      obtain ⟨-, time, hatHand⟩ := hfits.handed _ hprocessing
      have hboth := hlearns (hrun.step (.start session.now hatHand))
      rw [List.append_assoc] at hboth
      exact hboth
    | busy act => exact hlearns hrun

/-- A turn of either task goes with a run of the keeper. -/
theorem turn (h : Holds handle delay limit history session) {task : Task} (htask : task.IsOf handle) :
    Holds handle delay limit (history ++ session.happenings handle task)
      (session.afterTurn task) := by
  rcases htask with rfl | rfl
  · exact h.numbersTurn
  · exact h.batchTurn

/-- The clock leaves the queue as it is. -/
theorem tick (h : Holds handle delay limit history session) (time : ℕ) :
    Holds handle delay limit history (session.moveClock time) := by
  obtain ⟨woken, heq, -, -⟩ := session.moveClock_eq time
  rw [heq]
  exact h

end Holds

/-- In every session that a queue is part of, its keeper has gone through one of its runs, and the
processor is doing what fits what happened. -/
theorem QueueRun.holds (h : QueueRun handle delay limit history session) :
    Holds handle delay limit history session := by
  induction h with
  | made token cancelled script hq => exact .made hq
  | elsewhere _ hleaves ih => exact ih.elsewhere hleaves
  | add items _ ih => exact ih.add items
  | turn task _ htask ih => exact ih.turn htask
  | tick time _ _ _ ih => exact ih.tick time

end Session

end SolutionWatch
