import SolutionWatch.Proofs.Pipeline.Setting
import SolutionWatch.Proofs.Queue.Punctuality
import SolutionWatch.Session.Clock

/-!
# The session's own loop is one of the runs of a queue

`Session.run` gives turns to the tasks on the agenda, moves the clock to the next alarm when there is
none, and gives up after a number of steps. In a session in which there is nothing but one queue
(`Session.Alone`) the loop never gives up: `Session.workLeft` goes down with every turn and every
alarm, and `Session.load` is a bound on it. So `Session.advance` takes the queue along one of its runs to
the time that it was asked for (`Session.QueueRun.advance`), and whatever holds of the runs holds of
every session in which numbers are added on a schedule (`Session.QueueRun.follow`).
-/

namespace SolutionWatch

/-- What the processor may have to do until it has nothing to do, in turns that are counted double: it
begins with its batch and sets an alarm, and it ends the batch and wakes whoever waits for that. -/
def Processing.work : Processing → ℕ
  | .idle => 0
  | .busy _ => 6
  | .handed _ => 12

/-- What a keeper may have to do until nothing waits: it asks to be woken, and it hands out what
waits. -/
def Keeper.work {α : Type} (keeper : Keeper α) : ℕ :=
  (if keeper.isArmed then 0 else 4) + 20 * keeper.queue.pending.length

/-- Noticing how a batch ended is no work. -/
theorem Keeper.work_notice {α : Type} (keeper : Keeper α) : keeper.notice.work = keeper.work := by
  rw [work, work, isArmed_notice, pending_notice]

/-- Handing out a batch makes up for the work that there is with it. -/
theorem Keeper.work_take {α : Type} {keeper : Keeper α} (hpending : keeper.queue.pending ≠ []) :
    ({ keeper with queue := keeper.queue.take.2, isArmed := false } : Keeper α).work + 16 ≤
      keeper.work := by
  have hsplit := congrArg List.length keeper.queue.take_append_pending
  have hbatch := List.length_pos_iff.mpr (WorkQueue.take_ne_nil hpending)
  rw [List.length_append] at hsplit
  show 4 + 20 * keeper.queue.take.2.pending.length + 16 ≤
    (if keeper.isArmed then 0 else 4) + 20 * keeper.queue.pending.length
  omega

/-- So does asking to be woken for the alarm that is set. -/
theorem Keeper.work_arm {α : Type} {keeper : Keeper α} (hunarmed : keeper.isArmed = false) :
    ({ keeper with isArmed := true } : Keeper α).work + 4 = keeper.work := by
  show 0 + 20 * keeper.queue.pending.length + 4 =
    (if keeper.isArmed then 0 else 4) + 20 * keeper.queue.pending.length
  rw [hunarmed, if_neg Bool.false_ne_true]
  omega

namespace Session

variable {handle : Handle} {delay limit : ℕ} {history : History ℕ} {session next : Session}
  {q : NumberQueue}

/-! ## A session with nothing but one queue -/

/-- There is nothing in the session but one queue, which is bound to a name. -/
structure Alone (handle : Handle) (session : Session) (q : NumberQueue) : Prop where
  /-- The queue is the only one. -/
  queues : session.queues = .single handle q
  /-- It is bound to a name. -/
  named : handle ∈ session.namedObjects .queue
  /-- There is no workspace. -/
  workspaces : session.workspaces = .empty
  /-- There is no listener. -/
  listeners : session.listeners = .empty
  /-- There is no worker. -/
  workers : session.workers = .empty
  /-- There is no errand. -/
  errands : session.errands = .empty
  /-- There is no call. -/
  calls : session.calls = .empty
  /-- There is no subscription that has to end. -/
  departures : session.departures = .empty
  /-- Only the queue's tasks are awake. -/
  agenda : ∀ task ∈ session.agenda, task.IsOf handle
  /-- Only the queue's tasks have set alarms. -/
  alarms : ∀ alarm ∈ session.alarms, alarm.2.IsOf handle

/-- What may have to be done until nothing is left to do: the tasks that are awake have their turns,
alarms go off and wake tasks, and the keeper and the processor of the queue do their work. -/
def workLeft (session : Session) (q : NumberQueue) : ℕ :=
  2 * session.agenda.length + 4 * session.alarms.length + q.keeper.work + q.processing.work

namespace Alone

/-- The queue can be looked up. -/
theorem get?_eq (h : Alone handle session q) : session.queues.get? handle = some q := by
  rw [h.queues, Catalog.get?_single_self]

/-- Nothing is let go of. -/
theorem letGo_eq (h : Alone handle session q) : session.letGo = session := by
  refine letGo_of_named ?_ ?_ ?_ ?_ <;> intro e he
  · rw [h.workspaces, Catalog.entries_empty] at he
    exact absurd he List.not_mem_nil
  · rw [h.queues, Catalog.entries_single, List.mem_singleton] at he
    rw [he]
    exact h.named
  · rw [h.listeners, Catalog.entries_empty] at he
    exact absurd he List.not_mem_nil
  · rw [h.workers, Catalog.entries_empty] at he
    exact absurd he List.not_mem_nil

/-- Only the queue's tasks can heed a token, and each of them once. -/
theorem heeding_sublist (h : Alone handle session q) :
    session.heeding.Sublist [.numbers handle, .batch handle] := by
  simp only [heeding, h.queues, h.listeners, h.errands, h.calls, h.departures,
    Catalog.entries_single, Catalog.entries_empty, List.filterMap_nil, List.append_nil,
    List.filterMap_cons]
  generalize (session.isCancelled q.keeper.token && q.keeper.isIdle) = numbers
  generalize (session.isCancelled q.keeper.token && q.heedsCancel session.now) = batch
  cases numbers <;> cases batch <;> simp

/-- The queue is still the only one after it has changed. -/
theorem queues_insert (h : Alone handle session q) (after : NumberQueue) :
    session.queues.insert handle after = .single handle after := by
  rw [h.queues, Catalog.insert_single]

/-- Only the queue's tasks are awake after some of them were woken. -/
theorem agenda_append (h : Alone handle session q) {woken : List Task}
    (hsub : woken.Sublist [.numbers handle, .batch handle, .numbers handle]) :
    ∀ task ∈ session.agenda ++ woken, task.IsOf handle := by
  intro task htask
  rcases List.mem_append.mp htask with htask | htask
  · exact h.agenda task htask
  · have hmem := hsub.subset htask
    simp only [List.mem_cons, List.not_mem_nil, or_false] at hmem
    unfold Task.IsOf
    tauto

/-- Only the queue's tasks have set alarms after one of them set one. -/
theorem alarms_append (h : Alone handle session q) {alarms : List (ℕ × Task)} {time : ℕ} {task : Task}
    (hsub : alarms.Sublist [(time, task)]) (htask : task.IsOf handle) :
    ∀ alarm ∈ session.alarms ++ alarms, alarm.2.IsOf handle := by
  intro alarm halarm
  rcases List.mem_append.mp halarm with halarm | halarm
  · exact h.alarms alarm halarm
  · rw [List.mem_singleton.mp (hsub.subset halarm)]
    exact htask

/-- It stays so when a token may have been cancelled. -/
theorem tells (h : Alone handle session q) {base : Session} (htells : session.Tells base) :
    ∃ keeper, (keeper = q.keeper ∨ keeper = q.keeper.cancel) ∧
      Alone handle base { q with keeper := keeper } := by
  obtain ⟨keeper, hkeeper, hbase⟩ := htells.queue h.get?_eq
  refine ⟨keeper, hkeeper, ?_⟩
  rcases htells with rfl | ⟨token, rfl⟩
  · rw [h.get?_eq] at hbase
    rw [← Option.some.inj hbase]
    exact h
  · have hqueues : (session.told token).queues =
        .single handle (toldBy (session.tokens.cancel token) q) := by
      rw [told, h.queues]
      rfl
    rw [hqueues, Catalog.get?_single_self] at hbase
    rw [← Option.some.inj hbase]
    exact
      { h with
        queues := hqueues
        listeners := by
          rw [told, h.listeners]
          rfl }

/-- Adding numbers leaves a queue alone in its session. -/
theorem addNumbers (h : Alone handle session q) (items : List ℕ) :
    Alone handle (session.addNumbers handle items)
      { q with keeper := (q.keeper.add session.now items).2 } := by
  obtain ⟨woken, heq, hsub, -⟩ := addNumbers_eq h.get?_eq items
  rw [heq]
  exact
    { h with
      queues := h.queues_insert _
      agenda := h.agenda_append (hsub.trans (by simp)) }

/-- The turn of the keeper makes no more work than it does. -/
theorem numbersTurn (h : Alone handle session q) (htidy : q.keeper.queue.Tidy) :
    ∃ after, Alone handle (session.numbersTurn handle) after ∧
      (session.numbersTurn handle).workLeft after ≤ session.workLeft q := by
  have hcase := q.keeper.notice.turnCase session.now
  have hwhere := q.keeper.notice.turnWindowFirst_cases session.now
  have hwork := q.keeper.work_notice
  have hnoticed : q.keeper.notice.queue.Tidy := by
    unfold WorkQueue.Tidy
    rw [Keeper.windowStart_notice, Keeper.pending_notice]
    exact htidy
  generalize hturn : q.keeper.notice.turnWindowFirst session.now = result at hwhere
  obtain ⟨noticed, hnotice⟩ : ∃ noticed, noticed = q.keeper.notice := ⟨_, rfl⟩
  rw [← hnotice] at hcase hwhere hwork hnoticed
  have hrests : ∀ {keeper : Keeper ℕ}, result = (.rest, keeper) → keeper.work = q.keeper.work →
      ∃ after, Alone handle (session.numbersTurn handle) after ∧
        (session.numbersTurn handle).workLeft after ≤ session.workLeft q := by
    intro keeper hresult hsame
    rw [numbersTurn_of_rest h.get?_eq (hturn.trans hresult)]
    refine ⟨_, { h with queues := h.queues_insert _ }, ?_⟩
    show 2 * session.agenda.length + 4 * session.alarms.length + keeper.work + q.processing.work ≤
      2 * session.agenda.length + 4 * session.alarms.length + q.keeper.work + q.processing.work
    omega
  have hhands : ∀ {start : ℕ}, noticed.queue.windowStart = some start →
      result = (.hand noticed.queue.take.1,
        { noticed with queue := noticed.queue.take.2, isArmed := false }) →
      ∃ after, Alone handle (session.numbersTurn handle) after ∧
        (session.numbersTurn handle).workLeft after ≤ session.workLeft q := by
    intro start hopen hresult
    obtain ⟨woken, heq, hsub, -⟩ := numbersTurn_of_hand h.get?_eq (hturn.trans hresult)
    have hlength := hsub.length_le
    have htaken := Keeper.work_take (hnoticed.pending_ne_nil hopen)
    rw [heq]
    refine ⟨_, { h with
      queues := h.queues_insert _
      agenda := h.agenda_append (hsub.trans (by simp)) }, ?_⟩
    show 2 * (session.agenda ++ woken).length + 4 * session.alarms.length +
        ({ noticed with queue := noticed.queue.take.2, isArmed := false } : Keeper ℕ).work + 12 ≤
      2 * session.agenda.length + 4 * session.alarms.length + q.keeper.work + q.processing.work
    rw [List.length_append]
    rw [List.length_singleton] at hlength
    omega
  obtain hsame | ⟨time, hdue, -, hhand⟩ := hwhere
  case inr =>
    obtain ⟨-, start, hopen, -⟩ := WorkQueue.due_eq_some.mp hdue
    exact hhands hopen hhand
  rw [← hsame] at hcase
  cases hcase with
  | occupied | stopping | closed | armed => exact hrests rfl hwork
  | elapsed _ _ hopen => exact hhands hopen rfl
  | @arming start _ _ _ _ hunarmed =>
    have harmed := Keeper.work_arm hunarmed
    rw [numbersTurn_of_sleep h.get?_eq hturn]
    refine ⟨_, { h with
      queues := h.queues_insert _
      alarms := h.alarms_append (List.Sublist.refl _) (.inl rfl) }, ?_⟩
    show 2 * session.agenda.length +
        4 * (session.alarms ++ [(start + noticed.queue.delay, Task.numbers handle)]).length +
        ({ noticed with isArmed := true } : Keeper ℕ).work + q.processing.work ≤
      2 * session.agenda.length + 4 * session.alarms.length + q.keeper.work + q.processing.work
    rw [List.length_append, List.length_singleton]
    omega

/-- A batch that is looked at makes no more work than there is with one that is worked on. -/
theorem finishBatch (h : Alone handle session q) {act : Act} (hbusy : q.processing = .busy act)
    (token : Token) :
    ∃ after, Alone handle (session.finishBatch handle token act) after ∧
      (session.finishBatch handle token act).workLeft after ≤ session.workLeft q := by
  rcases session.finishBatch_cases handle token act with
    heq | ⟨base, ending, woken, htells, heq, hsub, -⟩
  · rw [heq]
    exact ⟨q, h, Nat.le_refl _⟩
  · obtain ⟨keeper, hkeeper, hbase⟩ := h.tells htells
    have hwoken := hsub.trans (hbase.heeding_sublist.append_right [.numbers handle])
    have hlength := hwoken.length_le
    have hwork : keeper.work = q.keeper.work := by rcases hkeeper with rfl | rfl <;> rfl
    rw [heq]
    refine ⟨_, { hbase with
      queues := by rw [hbase.queues, Catalog.modify_single]
      agenda := h.agenda_append hwoken }, ?_⟩
    show 2 * (session.agenda ++ woken).length + 4 * base.alarms.length + keeper.work + 0 ≤
      2 * session.agenda.length + 4 * session.alarms.length + q.keeper.work + q.processing.work
    rw [List.length_append, htells.alarms_eq, hwork, hbusy]
    simp only [List.length_append, List.length_cons, List.length_nil] at hlength
    simp only [Processing.work]
    omega

/-- The turn of a batch makes no more work than it does. -/
theorem batchTurn (h : Alone handle session q) :
    ∃ after, Alone handle (session.batchTurn handle) after ∧
      (session.batchTurn handle).workLeft after ≤ session.workLeft q := by
  cases hprocessing : q.processing with
  | idle =>
    rw [batchTurn_of_idle h.get?_eq hprocessing]
    exact ⟨q, h, Nat.le_refl _⟩
  | busy act =>
    rw [batchTurn_of_busy h.get?_eq hprocessing]
    exact h.finishBatch hprocessing q.keeper.token
  | handed batch =>
    obtain ⟨act, script, alarms, heq, hsub⟩ := batchTurn_of_handed h.get?_eq hprocessing
    have hbegun : Alone handle
        { session with
          queues := session.queues.insert handle
            { q with
              script := script
              processing := .busy act
              log := q.log ++ [QueueEntry.started session.now batch] }
          alarms := session.alarms ++ alarms } _ :=
      { h with
        queues := h.queues_insert _
        alarms := h.alarms_append hsub (.inr rfl) }
    obtain ⟨after, hafter, hwork⟩ := hbegun.finishBatch rfl q.keeper.token
    rw [heq]
    refine ⟨after, hafter, Nat.le_trans hwork ?_⟩
    have hlength := hsub.length_le
    show 2 * session.agenda.length + 4 * (session.alarms ++ alarms).length + q.keeper.work + 6 ≤
      2 * session.agenda.length + 4 * session.alarms.length + q.keeper.work + q.processing.work
    rw [List.length_append, hprocessing]
    rw [List.length_singleton] at hlength
    simp only [Processing.work]
    omega

/-- The first task on the agenda has its turn, and there is less work left. -/
theorem takeTurn (h : Alone handle session q) (htidy : q.keeper.queue.Tidy)
    (hawake : session.agenda ≠ []) :
    ∃ task after, task.IsOf handle ∧ session.takeTurn = session.afterTurn task ∧
      Alone handle session.takeTurn after ∧
      session.takeTurn.workLeft after + 2 ≤ session.workLeft q := by
  cases hagenda : session.agenda with
  | nil => exact absurd hagenda hawake
  | cons task rest =>
    have herase : session.agenda.erase task = rest := by rw [hagenda, List.erase_cons_head]
    have hrest : Alone handle { session with agenda := rest } q :=
      { h with agenda := fun other hother => h.agenda other (hagenda ▸ List.mem_cons_of_mem _ hother) }
    have hwork : ({ session with agenda := rest } : Session).workLeft q + 2 = session.workLeft q := by
      rw [workLeft, workLeft, hagenda, List.length_cons]
      show 2 * rest.length + 4 * session.alarms.length + q.keeper.work + q.processing.work + 2 = _
      omega
    have htask : task.IsOf handle := h.agenda task (hagenda ▸ List.mem_cons_self)
    have hturn : ∃ after, Alone handle (session.afterTurn task) after ∧
        (session.afterTurn task).workLeft after ≤
          ({ session with agenda := rest } : Session).workLeft q := by
      rw [afterTurn, herase]
      rcases htask with rfl | rfl
      · exact hrest.numbersTurn htidy
      · exact hrest.batchTurn
    obtain ⟨after, hafter, hless⟩ := hturn
    have htake : session.takeTurn = session.afterTurn task := by
      rw [Session.takeTurn, hagenda]
      show ({ session with agenda := rest }.giveTurn task).letGo = _
      rw [← herase]
      exact hafter.letGo_eq
    rw [htake]
    exact ⟨task, after, htask, rfl, hafter, by omega⟩

/-- An alarm goes off, and there is less work left. -/
theorem moveClock (h : Alone handle session q) {alarm : ℕ × Task} {time : ℕ}
    (halarm : alarm ∈ session.alarms) (hdue : alarm.1 ≤ time) :
    Alone handle (session.moveClock time) q ∧
      (session.moveClock time).workLeft q + 2 ≤ session.workLeft q := by
  obtain ⟨woken, heq, hsub, -⟩ := session.moveClock_eq time
  rw [heq]
  refine ⟨{ h with agenda := ?_, alarms := ?_ }, ?_⟩
  · intro task htask
    rcases List.mem_append.mp htask with htask | htask
    · exact h.agenda task htask
    · obtain ⟨rung, hrung, rfl⟩ := List.mem_map.mp (hsub.subset htask)
      exact h.alarms rung (List.mem_of_mem_filter hrung)
  · exact fun other hother => h.alarms other (List.mem_of_mem_filter hother)
  · have hsplit := List.length_eq_length_filter_add (l := session.alarms)
      fun alarm => decide (alarm.1 ≤ time)
    have hpos : 0 < (session.alarms.filter fun alarm => decide (alarm.1 ≤ time)).length :=
      List.length_pos_of_mem (List.mem_filter.mpr ⟨halarm, decide_eq_true hdue⟩)
    have hlength := hsub.length_le
    rw [List.length_map] at hlength
    show 2 * (session.agenda ++ woken).length +
        4 * (session.alarms.filter fun alarm => !decide (alarm.1 ≤ time)).length + q.keeper.work +
          q.processing.work + 2 ≤
      2 * session.agenda.length + 4 * session.alarms.length + q.keeper.work + q.processing.work
    rw [List.length_append]
    omega

/-- The load of a session is more than the work that is left. -/
theorem workLeft_lt_load (h : Alone handle session q) : session.workLeft q < session.load := by
  have hpending : (session.queues.values.map fun q => q.keeper.queue.pending.length).foldr (· + ·) 0 =
      q.keeper.queue.pending.length := by
    rw [h.queues, Catalog.values_single, List.map_singleton]
    rfl
  have hkeeper : q.keeper.work ≤ 4 + 20 * q.keeper.queue.pending.length := by
    unfold Keeper.work
    split <;> omega
  have hprocessing : q.processing.work ≤ 12 := by
    unfold Processing.work
    split <;> omega
  rw [workLeft, load, tasksToCome, hpending]
  omega

end Alone

/-! ## The loop -/

/-- The foreground waits for nothing but the time. -/
def idleLook (session : Session) : Option Unit × Session := (none, session)

/-- The next alarm is the first of all that are set. -/
theorem nextAlarm?_eq_some {time : ℕ} (h : session.nextAlarm? = some time) :
    (∃ alarm ∈ session.alarms, alarm.1 = time) ∧ ∀ alarm ∈ session.alarms, time ≤ alarm.1 := by
  obtain ⟨hmem, hleast⟩ := List.min?_eq_some_iff.mp h
  exact ⟨List.mem_map.mp hmem, fun alarm halarm => hleast _ (List.mem_map_of_mem halarm)⟩

/-- There is no next alarm if none is set. -/
theorem nextAlarm?_eq_none (h : session.nextAlarm? = none) : session.alarms = [] :=
  List.map_eq_nil_iff.mp (List.min?_eq_none_iff.mp h)

/-- The clock may move where no alarm goes off, and nothing else happens. -/
theorem moveClock_of_early {time : ℕ} (h : ∀ alarm ∈ session.alarms, time < alarm.1) :
    session.moveClock time = { session with now := max session.now time } := by
  have hnone : (session.alarms.filter fun alarm => decide (alarm.1 ≤ time)) = [] :=
    List.filter_eq_nil_iff.mpr fun alarm halarm => by simpa using h alarm halarm
  have hall : (session.alarms.filter fun alarm => !decide (alarm.1 ≤ time)) = session.alarms :=
    List.filter_eq_self.mpr fun alarm halarm => by simpa using h alarm halarm
  simp only [moveClock, hnone, hall, List.foldl_nil]

/-- A queue that has come to a session on one of its runs has a window open exactly while items wait. -/
theorem QueueRun.tidy (h : QueueRun handle delay limit history session)
    (hq : session.queues.get? handle = some q) : q.keeper.queue.Tidy := by
  obtain ⟨other, hother, -, hrun⟩ := h.holds
  obtain rfl := Option.some.inj (hq.symm.trans hother)
  exact hrun.orderly.tidy

/-- A queue alone in its session that has come to a time on one of its runs, with nothing left to do
then. -/
structure Settled (handle : Handle) (delay limit time : ℕ) (history : History ℕ) (session : Session) :
    Prop where
  /-- The queue has come there on one of its runs, which goes on after the history. -/
  run : ∃ more, QueueRun handle delay limit (history ++ more) session
  /-- It is alone in the session. -/
  alone : ∃ q, Alone handle session q
  /-- It is so late. -/
  now : session.now = time
  /-- Nobody is awake. -/
  agenda : session.agenda = []
  /-- No alarm has to go off. -/
  alarms : ∀ alarm ∈ session.alarms, time < alarm.1

/-- Where nobody is awake and no alarm goes off until a deadline, the clock may move there. -/
theorem Settled.of_quiet (hrun : QueueRun handle delay limit history session)
    (halone : Alone handle session q) {deadline : ℕ} (hnow : session.now ≤ deadline)
    (hquiet : session.agenda = []) (halarms : ∀ alarm ∈ session.alarms, deadline < alarm.1) :
    Settled handle delay limit deadline history
      { session with now := max session.now deadline } := by
  have hmoved := hrun.tick deadline (by rw [hquiet]; exact List.forall_mem_nil _)
    fun alarm halarm _ => Nat.le_of_lt (halarms alarm halarm)
  rw [moveClock_of_early halarms] at hmoved
  exact
    { run := ⟨[], by rwa [List.append_nil]⟩
      alone := ⟨q, { halone with }⟩
      now := Nat.max_eq_right hnow
      agenda := hquiet
      alarms := halarms }

/-- What happened first belongs to what happened. -/
theorem Settled.of_append {time : ℕ} {first : History ℕ}
    (h : Settled handle delay limit time (history ++ first) session) :
    Settled handle delay limit time history session := by
  obtain ⟨more, hrun⟩ := h.run
  rw [List.append_assoc] at hrun
  exact { h with run := ⟨first ++ more, hrun⟩ }

/-- A turn takes no time. -/
theorem now_afterTurn (hq : session.queues.get? handle = some q) {task : Task}
    (htask : task.IsOf handle) : (session.afterTurn task).now = session.now := by
  rcases htask with rfl | rfl
  · exact (afterTurn_numbers_spec hq rfl).1.now
  · exact (afterTurn_batch_spec hq).1.now

/-- A turn takes the queue along its run to less work. -/
theorem QueueRun.takeTurn (hrun : QueueRun handle delay limit history session)
    (halone : Alone handle session q) (hawake : session.agenda ≠ []) :
    ∃ more after, QueueRun handle delay limit (history ++ more) session.takeTurn ∧
      Alone handle session.takeTurn after ∧ session.takeTurn.now = session.now ∧
      session.takeTurn.workLeft after + 2 ≤ session.workLeft q := by
  obtain ⟨task, after, htask, htake, hafter, hwork⟩ :=
    halone.takeTurn (hrun.tidy halone.get?_eq) hawake
  have hturned := hrun.turn task htask
  have hnow := now_afterTurn halone.get?_eq htask
  rw [← htake] at hturned hnow
  exact ⟨_, after, hturned, hafter, hnow, hwork⟩

/-- So does the next alarm, once nobody is awake. -/
theorem QueueRun.ring {time : ℕ} (hrun : QueueRun handle delay limit history session)
    (halone : Alone handle session q) (hquiet : session.agenda = [])
    (hnext : session.nextAlarm? = some time) :
    QueueRun handle delay limit history (session.moveClock time) ∧
      Alone handle (session.moveClock time) q ∧
      (session.moveClock time).now = max session.now time ∧
      (session.moveClock time).workLeft q + 2 ≤ session.workLeft q := by
  obtain ⟨⟨alarm, halarm, hfirst⟩, hleast⟩ := nextAlarm?_eq_some hnext
  obtain ⟨hmoved, hwork⟩ := halone.moveClock halarm (Nat.le_of_eq hfirst)
  have hticked := hrun.tick time (by rw [hquiet]; exact List.forall_mem_nil _)
    fun alarm halarm _ => hleast alarm halarm
  have hnow : (session.moveClock time).now = max session.now time := by
    obtain ⟨woken, heq, -, -⟩ := session.moveClock_eq time
    rw [heq]
  exact ⟨hticked, hmoved, hnow, hwork⟩

/-- The loop does not give up before the deadline. It takes the queue along one of its runs, until
nobody is awake and no alarm has to go off. -/
theorem QueueRun.run {deadline fuel turns : ℕ} (hrun : QueueRun handle delay limit history session)
    (halone : Alone handle session q) (hnow : session.now ≤ deadline)
    (hfuel : session.workLeft q + (if turns = 0 then 1 else 0) ≤ fuel) :
    Settled handle delay limit deadline history (Session.run deadline idleLook fuel turns session).2 := by
  induction fuel generalizing history session q turns with
  | zero =>
    -- Without any work left nobody is awake, and no alarm is set.
    unfold workLeft at hfuel
    have hagenda : session.agenda = [] := List.length_eq_zero_iff.mp (by omega)
    have halarms : session.alarms = [] := List.length_eq_zero_iff.mp (by omega)
    exact .of_quiet hrun halone hnow hagenda (by rw [halarms]; exact List.forall_mem_nil _)
  | succ fuel ih =>
    rw [Session.run]
    split
    · next hturn =>
      obtain ⟨more, after, htaken, hafter, hsame, hwork⟩ := hrun.takeTurn halone hturn.2
      refine (ih htaken hafter (hsame ▸ hnow) ?_).of_append
      split <;> omega
    · next hlook =>
      show Settled handle delay limit deadline history (if session.agenda ≠ [] then _ else _ : _ × _).2
      split
      · next hawake =>
        -- The foreground looked because its turns were used up.
        have hturns : turns = 0 := by
          by_contra hne
          exact hlook ⟨hne, hawake⟩
        rw [if_pos hturns] at hfuel
        exact ih hrun halone hnow (by rw [if_neg (by decide)]; omega)
      · next hquiet =>
        have hquiet : session.agenda = [] := not_not.mp hquiet
        cases hnext : session.nextAlarm? with
        | none =>
          have hnone := nextAlarm?_eq_none hnext
          exact .of_quiet hrun halone hnow hquiet (by rw [hnone]; exact List.forall_mem_nil _)
        | some time =>
          show Settled handle delay limit deadline history (if time ≤ deadline then _ else _ : _ × _).2
          split
          · next hbefore =>
            obtain ⟨hrung, hmoved, hlater, hwork⟩ := hrun.ring halone hquiet hnext
            exact ih hrung hmoved (hlater ▸ Nat.max_le.mpr ⟨hnow, hbefore⟩)
              (by rw [if_pos rfl]; omega)
          · next hafter =>
            obtain ⟨-, hleast⟩ := nextAlarm?_eq_some hnext
            exact .of_quiet hrun halone hnow hquiet fun alarm halarm =>
              Nat.lt_of_lt_of_le (Nat.lt_of_not_le hafter) (hleast alarm halarm)

namespace Settled

/-- Nothing is due any more. -/
theorem settle_eq {time : ℕ} (h : Settled handle delay limit time history session) :
    session.settle = session := by
  obtain ⟨q, halone⟩ := h.alone
  have hlate : (session.nextAlarm?.any fun next => next ≤ session.now) = false := by
    cases hnext : session.nextAlarm? with
    | none => rfl
    | some next =>
      obtain ⟨⟨alarm, halarm, rfl⟩, -⟩ := nextAlarm?_eq_some hnext
      have hearly := h.alarms alarm halarm
      rw [← h.now] at hearly
      simpa using hearly
  have hidle : session.isBusy = false := by
    rw [isBusy, h.agenda, hlate]
    rfl
  rw [settle, halone.letGo_eq, hidle, if_neg Bool.false_ne_true]

/-- What waits while no batch is worked on is not due yet. -/
theorem not_due {time : ℕ} (h : Settled handle delay limit time history session) :
    ∃ more, QueueRun handle delay limit (history ++ more) session ∧
      ∀ q, session.queues.get? handle = some q → q.keeper.queue.cancelled = false →
        (History.outlook (history ++ more)).waiting ≠ [] →
        History.begun (history ++ more) = History.ended (history ++ more) →
        time < (History.outlook (history ++ more)).due delay := by
  obtain ⟨more, hrun⟩ := h.run
  refine ⟨more, hrun, fun q hq hlive hwaiting hresting => ?_⟩
  obtain ⟨hle, hdue⟩ := hrun.awake_when_due hq hlive hwaiting hresting
  rw [h.now] at hle
  refine Nat.lt_of_le_of_ne hle fun hnow => ?_
  have hawake := (hdue (h.now.trans hnow)).1
  rw [h.agenda] at hawake
  exact absurd hawake List.not_mem_nil

end Settled

/-- Time takes a queue along one of its runs to the time that was asked for. -/
theorem QueueRun.advance (hrun : QueueRun handle delay limit history session)
    (halone : Alone handle session q) (time : ℕ) :
    Settled handle delay limit (session.now + time) history (session.advance time) := by
  have hfuel : session.workLeft q + (if 0 = 0 then 1 else 0) ≤ session.load := halone.workLeft_lt_load
  have hsettled := hrun.run halone (Nat.le_add_right session.now time) hfuel
  have hadvance : session.advance time =
      (Session.run (session.now + time) idleLook session.load 0 session).2.settle := by
    rw [Session.advance, waitFor, halone.letGo_eq]
    rfl
  rw [hadvance, hsettled.settle_eq]
  exact hsettled

/-- The session after numbers were added on a schedule, which says how long to wait before each call. -/
def follow (handle : Handle) (schedule : List (ℕ × List ℕ)) (session : Session) : Session :=
  schedule.foldl (fun session step => (session.advance step.1).addNumbers handle step.2) session

/-- A schedule takes a queue along one of its runs. -/
theorem QueueRun.follow (hrun : QueueRun handle delay limit history session)
    (halone : Alone handle session q) (schedule : List (ℕ × List ℕ)) :
    ∃ more after, QueueRun handle delay limit (history ++ more) (session.follow handle schedule) ∧
      Alone handle (session.follow handle schedule) after := by
  induction schedule generalizing history session q with
  | nil => exact ⟨[], q, by rwa [List.append_nil], halone⟩
  | cons step schedule ih =>
    have hsettled := hrun.advance halone step.1
    obtain ⟨more, hadvanced⟩ := hsettled.run
    obtain ⟨waiting, hwaiting⟩ := hsettled.alone
    obtain ⟨last, after, hfollowed, hafter⟩ :=
      ih (hadvanced.add step.2) (hwaiting.addNumbers step.2)
    rw [List.append_assoc, List.append_assoc] at hfollowed
    have hcons : session.follow handle (step :: schedule) =
        ((session.advance step.1).addNumbers handle step.2).follow handle schedule := by
      rw [Session.follow, List.foldl_cons, Session.follow]
    rw [hcons]
    exact ⟨more ++ ((session.advance step.1).accepts handle step.2 ++ last), after, hfollowed, hafter⟩

/-- The session with one new queue. -/
def onlyQueue (name : String) (delay limit : ℕ) (script : Script) : Session where
  next := 1
  tokens := { next := 1 }
  names := .single ⟨.queue, name⟩ 0
  queues := .single 0
    { keeper := { queue := { delay := delay, limit := limit }, token := ⟨[0]⟩ }, script := script }
  agenda := [.numbers 0]

/-- The queue is alone in the session. -/
theorem alone_onlyQueue (name : String) (delay limit : ℕ) (script : Script) :
    Alone 0 (onlyQueue name delay limit script)
      { keeper := { queue := { delay := delay, limit := limit }, token := ⟨[0]⟩ }
        script := script } where
  queues := rfl
  named := List.mem_singleton_self 0
  workspaces := rfl
  listeners := rfl
  workers := rfl
  errands := rfl
  calls := rfl
  departures := rfl
  agenda _ htask := .inl (List.mem_singleton.mp htask)
  alarms _ halarm := absurd halarm List.not_mem_nil

/-- It is the one that comes of making a queue in an empty session. -/
theorem newQueue_empty (name : String) (delay limit : ℕ) (script : Script) :
    newQueue {} name delay limit script none = (0, onlyQueue name delay limit script) := by
  show (0, (onlyQueue name delay limit script).letGo) = _
  rw [(alone_onlyQueue name delay limit script).letGo_eq]

/-- A queue is made, numbers are added to it on a schedule, and some time passes. Whatever the schedule
is, and the delay, the limit, and what the processor does: this is one of the runs of the queue, nobody is
left awake, no alarm has to go off, and unless the queue was told to stop, what waits while no batch is
worked on is not due yet. -/
theorem QueueRun.scheduled (name : String) (delay limit : ℕ) (script : Script)
    (schedule : List (ℕ × List ℕ)) (time : ℕ) {session : Session}
    (hsession : session =
      ((newQueue {} name delay limit script none).2.follow 0 schedule).advance time) :
    ∃ history, QueueRun 0 delay limit history session ∧ session.agenda = [] ∧
      (∀ alarm ∈ session.alarms, session.now < alarm.1) ∧
      ∀ q, session.queues.get? 0 = some q → q.keeper.queue.cancelled = false →
        history.outlook.waiting ≠ [] → history.begun = history.ended →
        session.now < history.outlook.due delay := by
  have hmade : QueueRun 0 delay limit [] (onlyQueue name delay limit script) :=
    .made ⟨[0]⟩ false script rfl
  obtain ⟨history, q, hfollowed, halone⟩ :=
    hmade.follow (alone_onlyQueue name delay limit script) schedule
  have hsettled := hfollowed.advance halone time
  rw [newQueue_empty] at hsession
  rw [← hsession] at hsettled
  obtain ⟨more, hrun, hearly⟩ := hsettled.not_due
  have halarms := hsettled.alarms
  rw [← hsettled.now] at hearly halarms
  exact ⟨_, hrun, hsettled.agenda, halarms, hearly⟩

/-- A number that the limit left over waits for the end of the slow batch before it, and goes together with
one that came meanwhile. -/
example :
    let session := (newQueue {} "pairs" 10 2 [⟨30, .succeed, []⟩] none).2.follow 0
      [(0, [1, 2, 3]), (12, [4])]
    ((session.advance 27).queues.get? 0).map (fun q => q.keeper.queue.pending) = some [3, 4] ∧
      ((session.advance 28).queues.get? 0).map (fun q => q.keeper.queue.pending) = some [] := by
  decide +kernel

end Session

end SolutionWatch
