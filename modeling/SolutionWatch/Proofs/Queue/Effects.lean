import SolutionWatch.Proofs.Queue.Turns
import SolutionWatch.Session.Turn

/-!
# What happens to a session because of a queue of numbers

Adding numbers, the turns of a queue's two tasks and the clock are each described by one equation: which
queue stands in the session afterwards, which tasks were woken, and which alarms were set. Everything
else stays what it was, and the equations say so by being about the session as a whole.

Tasks are only ever put at the end of the agenda, so an equation names the tasks that were woken and not
yet awake (`Session.wake_eq`). The turn of a keeper goes by the cases of `Keeper.TurnCase`. The turn of a
batch begins with it or looks at it again, and after that the batch goes on or ends
(`Session.finishBatch_cases`); a batch that ends may have cancelled a token, and that token may be the
queue's own.
-/

namespace SolutionWatch

/-- The tasks of a queue of numbers: its keeper and its batch. -/
def Task.IsOf (handle : Handle) (task : Task) : Prop :=
  task = .numbers handle ∨ task = .batch handle

instance (handle : Handle) (task : Task) : Decidable (task.IsOf handle) :=
  inferInstanceAs (Decidable (_ ∨ _))

namespace Session

variable {session : Session} {handle : Handle} {q : NumberQueue}

/-- A task that is woken stands at the end of the agenda if it was not awake. -/
theorem wake_eq (session : Session) (task : Task) :
    ∃ woken, session.wake task = { session with agenda := session.agenda ++ woken } ∧
      woken.Sublist [task] ∧
      (session.isForeground task = false → task ∈ session.agenda ++ woken) := by
  unfold wake
  split
  · next hawake =>
    refine ⟨[], by rw [List.append_nil], List.nil_sublist _, fun hforeground => ?_⟩
    rw [hforeground, Bool.or_false] at hawake
    rw [List.append_nil]
    exact List.contains_iff_mem.mp hawake
  · exact ⟨[task], rfl, List.Sublist.refl _, fun _ => by simp⟩

/-- Tasks that are woken stand at the end of the agenda if they were not awake. -/
theorem foldl_wake_eq (tasks : List Task) (session : Session) :
    ∃ woken, tasks.foldl wake session = { session with agenda := session.agenda ++ woken } ∧
      woken.Sublist tasks ∧
      ∀ task ∈ tasks, session.isForeground task = false → task ∈ session.agenda ++ woken := by
  induction tasks generalizing session with
  | nil => exact ⟨[], by simp, List.nil_sublist _, nofun⟩
  | cons first tasks ih =>
    obtain ⟨one, hone, hsub, hfirst⟩ := session.wake_eq first
    obtain ⟨others, hothers, hsubs, htasks⟩ :=
      ih { session with agenda := session.agenda ++ one }
    refine ⟨one ++ others, ?_, hsub.append hsubs, ?_⟩
    · rw [List.foldl_cons, hone, hothers, ← List.append_assoc]
    · intro task htask hforeground
      rw [← List.append_assoc]
      rcases List.mem_cons.mp htask with rfl | htask
      · exact List.mem_append_left _ (hfirst hforeground)
      · exact htasks task htask hforeground

/-- The clock moves on, and the tasks whose alarms go off are woken. -/
theorem moveClock_eq (session : Session) (time : ℕ) :
    ∃ woken, session.moveClock time =
        { session with
          now := max session.now time
          alarms := session.alarms.filter fun alarm => !(alarm.1 ≤ time)
          agenda := session.agenda ++ woken } ∧
      woken.Sublist ((session.alarms.filter fun alarm => alarm.1 ≤ time).map Prod.snd) ∧
      ∀ alarm ∈ session.alarms, alarm.1 ≤ time → session.isForeground alarm.2 = false →
        alarm.2 ∈ session.agenda ++ woken := by
  obtain ⟨woken, hwoken, hsub, hawake⟩ := foldl_wake_eq
    ((session.alarms.filter fun alarm => alarm.1 ≤ time).map Prod.snd)
    { session with
      now := max session.now time
      alarms := session.alarms.filter fun alarm => !(alarm.1 ≤ time) }
  refine ⟨woken, ?_, hsub, fun alarm halarm hdue hforeground => ?_⟩
  · rw [List.foldl_map] at hwoken
    exact hwoken
  · refine hawake alarm.2 (List.mem_map.mpr ⟨alarm, ?_, rfl⟩) hforeground
    exact List.mem_filter.mpr ⟨halarm, decide_eq_true hdue⟩

/-- Numbers that are added reach the queue, and the keeper is woken if they open a window that it waits
for. -/
theorem addNumbers_eq (hq : session.queues.get? handle = some q) (items : List ℕ) :
    ∃ woken, session.addNumbers handle items =
        { session with
          queues := session.queues.insert handle
            { q with keeper := (q.keeper.add session.now items).2 }
          agenda := session.agenda ++ woken } ∧
      woken.Sublist [.numbers handle] ∧
      ((q.keeper.add session.now items).1 = true → .numbers handle ∈ session.agenda ++ woken) := by
  simp only [addNumbers, hq]
  split
  · obtain ⟨woken, hwoken, hsub, hawake⟩ := wake_eq
      { session with
        queues := session.queues.insert handle
          { q with keeper := (q.keeper.add session.now items).2 } } (.numbers handle)
    exact ⟨woken, hwoken, hsub, fun _ => hawake rfl⟩
  · next hasleep =>
    exact ⟨[], by rw [List.append_nil], List.nil_sublist _, fun h => absurd h hasleep⟩

/-- A keeper that rests in its turn sets no alarm and wakes nobody. -/
theorem numbersTurn_of_rest {keeper : Keeper ℕ} (hq : session.queues.get? handle = some q)
    (hturn : q.keeper.notice.turnWindowFirst session.now = (.rest, keeper)) :
    session.numbersTurn handle =
      { session with
        counters := q.keeper.count session.counters
        queues := session.queues.insert handle { q with keeper := keeper } } := by
  simp only [numbersTurn, hq, hturn]

/-- A keeper that asks to be woken sets an alarm. -/
theorem numbersTurn_of_sleep {keeper : Keeper ℕ} {time : ℕ}
    (hq : session.queues.get? handle = some q)
    (hturn : q.keeper.notice.turnWindowFirst session.now = (.sleep time, keeper)) :
    session.numbersTurn handle =
      { session with
        counters := q.keeper.count session.counters
        queues := session.queues.insert handle { q with keeper := keeper }
        alarms := session.alarms ++ [(time, .numbers handle)] } := by
  simp only [numbersTurn, hq, hturn, wakeAt]

/-- A keeper that hands out a batch wakes the batch. -/
theorem numbersTurn_of_hand {keeper : Keeper ℕ} {batch : List ℕ}
    (hq : session.queues.get? handle = some q)
    (hturn : q.keeper.notice.turnWindowFirst session.now = (.hand batch, keeper)) :
    ∃ woken, session.numbersTurn handle =
        { session with
          counters := q.keeper.count session.counters
          queues := session.queues.insert handle
            { q with keeper := keeper, processing := .handed batch }
          agenda := session.agenda ++ woken } ∧
      woken.Sublist [.batch handle] ∧ .batch handle ∈ session.agenda ++ woken := by
  simp only [numbersTurn, hq, hturn]
  obtain ⟨woken, hwoken, hsub, hawake⟩ := wake_eq
    { session with
      counters := q.keeper.count session.counters
      queues := session.queues.insert handle
        { q with keeper := keeper, processing := .handed batch } } (.batch handle)
  exact ⟨woken, hwoken, hsub, hawake rfl⟩

/-- A processor that is looked at changes nothing, unless it cancels a token when it succeeds. -/
theorem lookAtAct_cases (session : Session) (act : Act) (token : Token) :
    (∃ ending, session.lookAtAct act token = (ending, session)) ∨
      ∃ other, session.lookAtAct act token = (some .succeeded, session.cancelToken other) := by
  unfold lookAtAct
  split
  · exact .inl ⟨none, rfl⟩
  · split
    case h_6 other _ => exact .inr ⟨other, rfl⟩
    all_goals exact .inl ⟨_, rfl⟩

/-- A queue of numbers after tokens may have been cancelled. -/
def toldBy (tokens : TokenPool) (q : NumberQueue) : NumberQueue :=
  if tokens.isCancelled q.keeper.token then { q with keeper := q.keeper.cancel } else q

/-- The session after a token was cancelled and before anybody was woken because of it. -/
def told (session : Session) (token : Token) : Session :=
  { session with
    tokens := session.tokens.cancel token
    queues := session.queues.mapValues (toldBy (session.tokens.cancel token))
    listeners := session.listeners.mapValues fun listener =>
      if (session.tokens.cancel token).isCancelled listener.keeper.token then
        { listener with keeper := listener.keeper.cancel }
      else listener }

/-- The session after a token may have been cancelled, and before anybody was woken because of it. -/
def Tells (session base : Session) : Prop := base = session ∨ ∃ token, base = session.told token

/-- Cancelling a token tells the queues and listeners below it to stop and wakes those that wait for
it. -/
theorem cancelToken_eq (session : Session) (token : Token) :
    ∃ base woken, session.Tells base ∧
      session.cancelToken token = { base with agenda := session.agenda ++ woken } ∧
      woken.Sublist base.heeding := by
  unfold cancelToken
  split
  · exact ⟨session, [], .inl rfl, by rw [List.append_nil], List.nil_sublist _⟩
  · obtain ⟨woken, hwoken, hsub, -⟩ := foldl_wake_eq (session.told token).heeding (session.told token)
    exact ⟨session.told token, woken, .inr ⟨token, rfl⟩, hwoken, hsub⟩

/-- Telling queues to stop takes as long as nothing. -/
theorem Tells.now_eq {base : Session} (h : session.Tells base) : base.now = session.now := by
  rcases h with rfl | ⟨token, rfl⟩ <;> rfl

/-- Telling queues to stop sets no alarm. -/
theorem Tells.alarms_eq {base : Session} (h : session.Tells base) : base.alarms = session.alarms := by
  rcases h with rfl | ⟨token, rfl⟩ <;> rfl

/-- The keeper of a queue is as it was, or it was told to stop. -/
theorem Tells.queue {base : Session} (h : session.Tells base)
    (hq : session.queues.get? handle = some q) :
    ∃ keeper, (keeper = q.keeper ∨ keeper = q.keeper.cancel) ∧
      base.queues.get? handle = some { q with keeper := keeper } := by
  rcases h with rfl | ⟨token, rfl⟩
  · exact ⟨q.keeper, .inl rfl, hq⟩
  · have htold : (session.told token).queues.get? handle =
        some (toldBy (session.tokens.cancel token) q) := by
      rw [told, Catalog.get?_mapValues, hq, Option.map_some]
    rw [htold]
    unfold toldBy
    split
    · exact ⟨q.keeper.cancel, .inr rfl, rfl⟩
    · exact ⟨q.keeper, .inl rfl, rfl⟩

/-- A queue of numbers after its batch has ended. -/
def withoutBatch (now : ℕ) (ending : Ending) (q : NumberQueue) : NumberQueue :=
  { q with
    keeper := q.keeper.learn ending
    processing := .idle
    log := q.log ++ ending.logEntry now }

/-- A batch goes on, or it ends and its keeper is woken. -/
theorem finishBatch_cases (session : Session) (handle : Handle) (token : Token) (act : Act) :
    session.finishBatch handle token act = session ∨
      ∃ base ending woken, session.Tells base ∧
        session.finishBatch handle token act =
          { base with
            queues := base.queues.modify handle (withoutBatch base.now ending)
            agenda := session.agenda ++ woken } ∧
        woken.Sublist (base.heeding ++ [.numbers handle]) ∧
        .numbers handle ∈ session.agenda ++ woken := by
  unfold finishBatch
  rcases session.lookAtAct_cases act token with ⟨ending, hlook⟩ | ⟨other, hlook⟩
  · rw [hlook]
    cases ending with
    | none => exact .inl rfl
    | some ending =>
      obtain ⟨woken, hwoken, hsub, hawake⟩ := wake_eq
        { session with
          queues := session.queues.modify handle (withoutBatch session.now ending) }
        (.numbers handle)
      exact .inr ⟨session, ending, woken, .inl rfl, hwoken,
        hsub.trans (List.sublist_append_right _ _), hawake rfl⟩
  · -- Whoever heeded the token was woken before the keeper.
    rw [hlook]
    obtain ⟨base, heeded, htells, hcancel, hheeded⟩ := session.cancelToken_eq other
    obtain ⟨woken, hwoken, hsub, hawake⟩ := wake_eq
      { base with
        queues := base.queues.modify handle (withoutBatch base.now .succeeded)
        agenda := session.agenda ++ heeded }
      (.numbers handle)
    have hawake := hawake rfl
    rw [List.append_assoc] at hwoken hawake
    refine .inr ⟨base, .succeeded, heeded ++ woken, htells, ?_, hheeded.append hsub, hawake⟩
    rw [hcancel]
    exact hwoken

/-- A batch that is not at hand has nothing to do. -/
theorem batchTurn_of_idle (hq : session.queues.get? handle = some q)
    (hidle : q.processing = .idle) : session.batchTurn handle = session := by
  simp only [batchTurn, hq, hidle]

/-- A batch that goes on is looked at again. -/
theorem batchTurn_of_busy {act : Act} (hq : session.queues.get? handle = some q)
    (hbusy : q.processing = .busy act) :
    session.batchTurn handle = session.finishBatch handle q.keeper.token act := by
  simp only [batchTurn, hq, hbusy]

/-- A processor that takes its time sets an alarm. -/
theorem wakeAfter_eq (session : Session) (act : Act) (task : Task) :
    ∃ alarms, session.wakeAfter act task = { session with alarms := session.alarms ++ alarms } ∧
      alarms.Sublist [(act.due, task)] := by
  unfold wakeAfter
  split
  · exact ⟨[(act.due, task)], rfl, List.Sublist.refl _⟩
  · exact ⟨[], by rw [List.append_nil], List.nil_sublist _⟩

/-- A batch that was handed out is begun with, and looked at for the first time. -/
theorem batchTurn_of_handed {batch : List ℕ} (hq : session.queues.get? handle = some q)
    (hhanded : q.processing = .handed batch) :
    ∃ act script alarms, session.batchTurn handle =
        ({ session with
          queues := session.queues.insert handle
            { q with
              script := script
              processing := .busy act
              log := q.log ++ [QueueEntry.started session.now batch] }
          alarms := session.alarms ++ alarms }).finishBatch handle q.keeper.token act ∧
      alarms.Sublist [(act.due, .batch handle)] := by
  simp only [batchTurn, hq, hhanded]
  generalize (if q.script.take.1.reply = .refuse then ⟨session.now, .refuse⟩
    else q.script.take.1.act session.now : Act) = act
  obtain ⟨alarms, hwake, hsub⟩ := wakeAfter_eq
    { session with
      queues := session.queues.insert handle
        { q with
          script := q.script.take.2
          processing := .busy act
          log := q.log ++ [QueueEntry.started session.now batch] } } act (.batch handle)
  exact ⟨act, q.script.take.2, alarms, by rw [hwake], hsub⟩

end Session

end SolutionWatch
