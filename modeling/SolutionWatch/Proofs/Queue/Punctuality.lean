import SolutionWatch.Proofs.Queue.Schedule
import SolutionWatch.Session.Setup

/-!
# A queue hands out its batches on time

What happened to a queue says when the next batch has to begin: `History.outlook` lists the numbers that
wait, when they began to, and when the last batch ended. A batch is due when the window of what waits
has elapsed and the batch before it has ended, whichever is later (`Outlook.due`).

`Session.Stage` is how far the queue is while nobody has told it to stop. Its keeper waits for a window,
is awake, or is asleep with an alarm at the end of the window; or a batch was handed out, is worked on,
or has ended without the keeper having noticed. The clock moves only where no task of the queue is awake
and stops at the alarm, so no stage is ever left too late, and a batch that is handed out is handed out
when it is due (`Session.QueueRun.punctual`).

The runs allow any interleaving of the queue's tasks with whatever else goes on. That the loop which drives
a session follows one of them is shown in `Proofs/Queue/Settling`.
-/

namespace SolutionWatch

/-- What a history says about the batch to come. -/
structure Outlook (α : Type) where
  /-- The items that were accepted and not handed out. -/
  waiting : List α := []
  /-- When items were last accepted while none waited. -/
  since : ℕ := 0
  /-- When the last batch ended. -/
  lastEnd : ℕ := 0

namespace Outlook

variable {α : Type}

/-- The outlook after something happened. -/
def after (outlook : Outlook α) : Happening α → Outlook α
  | .accepted time items =>
    { outlook with
      waiting := outlook.waiting ++ items
      since := if outlook.waiting.isEmpty && !items.isEmpty then time else outlook.since }
  | .handed _ batch => { outlook with waiting := outlook.waiting.drop batch.length }
  | .started _ _ => outlook
  | .ended time => { outlook with lastEnd := time }

/-- When the next batch is due, if windows are this long. -/
def due (delay : ℕ) (outlook : Outlook α) : ℕ := max (outlook.since + delay) outlook.lastEnd

/-- The next batch, if batches have this limit. -/
def batch (limit : ℕ) (outlook : Outlook α) : List α :=
  outlook.waiting.take
    (if limit = 0 then outlook.waiting.length else min limit outlook.waiting.length)

/-- The window of what waits began when items were accepted while none waited. -/
theorem since_after_accepted {outlook : Outlook α} (hnone : outlook.waiting = []) {items : List α}
    (hitems : items ≠ []) (time : ℕ) : (outlook.after (.accepted time items)).since = time := by
  have hempty : items.isEmpty = false := by simpa using hitems
  simp only [after, hnone, hempty, List.isEmpty_nil, Bool.not_false, Bool.and_true, if_true]

/-- Items that are accepted while others wait do not change since when. -/
theorem since_after_accepted_of_waiting {outlook : Outlook α} (hwaiting : outlook.waiting ≠ [])
    (items : List α) (time : ℕ) :
    (outlook.after (.accepted time items)).since = outlook.since := by
  have hempty : outlook.waiting.isEmpty = false := by simpa using hwaiting
  simp only [after, hempty, Bool.false_and, Bool.false_eq_true, if_false]

end Outlook

namespace History

variable {α : Type}

/-- What a history says about the batch to come. -/
def outlook (history : History α) : Outlook α := history.foldl Outlook.after {}

/-- The outlook is a matter of what it was and of what happened last. -/
theorem outlook_concat (history : History α) (happening : Happening α) :
    outlook (history ++ [happening]) = history.outlook.after happening := by
  rw [outlook, outlook, List.foldl_append, List.foldl_cons, List.foldl_nil]

/-- After this history, something happens when it has to: the batch that is due is handed out, or the
processor begins to work on a batch at the time at which it was handed out. -/
def Punctual (delay limit : ℕ) (before : History α) : Happening α → Prop
  | .handed time batch =>
    before.outlook.waiting ≠ [] ∧ time = before.outlook.due delay ∧
      batch = before.outlook.batch limit
  | .started time batch => before.atHand = some (time, batch)
  | .accepted _ _ | .ended _ => True

end History

/-- The batch that a queue takes is the one that the outlook promises, if the same items wait. -/
theorem WorkQueue.take_eq_batch {α : Type} {queue : WorkQueue α} {outlook : Outlook α}
    (hpending : queue.pending = outlook.waiting) : queue.take.1 = outlook.batch queue.limit := by
  rw [Outlook.batch, ← hpending]
  rfl

/-- What a queue leaves is what the outlook drops. -/
theorem WorkQueue.pending_take {α : Type} (queue : WorkQueue α) :
    queue.take.2.pending = queue.pending.drop queue.take.1.length := by
  have hlength : queue.take.1.length = queue.batchSize :=
    List.length_take.trans (Nat.min_eq_left queue.batchSize_le)
  rw [hlength]
  rfl

/-- A window that is open after a batch was taken was open before. -/
theorem WorkQueue.windowStart_of_take {α : Type} {queue : WorkQueue α} {start : ℕ}
    (h : queue.take.2.windowStart = some start) : queue.windowStart = some start := by
  have htake : queue.take.2.windowStart =
      if (queue.pending.drop queue.batchSize).isEmpty then none else queue.windowStart := rfl
  rw [htake] at h
  split at h
  · contradiction
  · exact h

namespace Session

variable {handle : Handle} {delay limit : ℕ} {history later : History ℕ} {session next : Session}
  {keeper : Keeper ℕ} {processing : Processing}

/-- How far a queue is that was not told to stop. -/
inductive Stage (handle : Handle) (history : History ℕ) (session : Session) (keeper : Keeper ℕ)
    (processing : Processing) : Prop
  /-- Nothing waits. -/
  | closed : keeper.queue.phase = .waiting → keeper.outcome = none →
      keeper.queue.windowStart = none → keeper.isArmed = false → Stage ..
  /-- A window is open and not overdue, and the keeper is awake. -/
  | awake {start : ℕ} : keeper.queue.phase = .waiting → keeper.outcome = none →
      keeper.queue.windowStart = some start →
      (keeper.isArmed = true → start + keeper.queue.delay ≤ session.now) →
      session.now ≤ max (start + keeper.queue.delay) history.outlook.lastEnd →
      .numbers handle ∈ session.agenda → Stage ..
  /-- A window is open, and the keeper is asleep until it has elapsed. -/
  | asleep {start : ℕ} : keeper.queue.phase = .waiting → keeper.outcome = none →
      keeper.queue.windowStart = some start → keeper.isArmed = true →
      session.now < start + keeper.queue.delay →
      (start + keeper.queue.delay, .numbers handle) ∈ session.alarms → Stage ..
  /-- A batch was handed out just now, and it is awake. -/
  | handed {batch : List ℕ} : keeper.isWorking = true → keeper.isArmed = false →
      processing = .handed batch → history.atHand = some (session.now, batch) →
      .batch handle ∈ session.agenda → Stage ..
  /-- A batch is worked on. -/
  | busy {act : Act} : keeper.isWorking = true → keeper.isArmed = false →
      processing = .busy act → history.atHand = none → Stage ..
  /-- A batch has ended just now, and the keeper is awake to notice. -/
  | ended : keeper.outcome ≠ none → keeper.isArmed = false →
      history.outlook.lastEnd = session.now → .numbers handle ∈ session.agenda → Stage ..

/-- A keeper attends to its queue now: it waits, has no alarm that is still to come, and what waits is not
overdue. -/
structure Attends (history : History ℕ) (now : ℕ) (keeper : Keeper ℕ) : Prop where
  /-- It waits. -/
  phase : keeper.queue.phase = .waiting
  /-- It has noticed how the last batch ended. -/
  outcome : keeper.outcome = none
  /-- Without an open window it has no alarm. -/
  closed : keeper.queue.windowStart = none → keeper.isArmed = false
  /-- Its alarm has gone off. -/
  rung : ∀ start, keeper.queue.windowStart = some start → keeper.isArmed = true →
    start + keeper.queue.delay ≤ now
  /-- What waits is not overdue. -/
  early : ∀ start, keeper.queue.windowStart = some start →
    now ≤ max (start + keeper.queue.delay) history.outlook.lastEnd

/-- What an elapsed window promises is due now, and not earlier. -/
theorem Attends.now_eq_due {now start : ℕ} (h : Attends history now keeper)
    (hopen : keeper.queue.windowStart = some start) (hsince : history.outlook.since = start)
    (hlast : history.outlook.lastEnd ≤ now) (helapsed : start + keeper.queue.delay ≤ now) :
    now = history.outlook.due keeper.queue.delay := by
  have hearly := h.early start hopen
  rw [Outlook.due, hsince]
  omega

namespace Stage

/-- A stage is a matter of the time, of the tasks and alarms of the queue, of when the last batch ended,
and of what is at hand. -/
theorem keep (h : Stage handle history session keeper processing)
    (hkeeps : Keeps handle session next)
    (hend : later.outlook.lastEnd = history.outlook.lastEnd)
    (hhand : later.atHand = history.atHand) : Stage handle later next keeper processing := by
  cases h with
  | closed hphase houtcome hclosed hunarmed => exact .closed hphase houtcome hclosed hunarmed
  | awake hphase houtcome hopen hrung hearly hawake =>
    rw [← hkeeps.now] at hrung hearly
    rw [← hend] at hearly
    exact .awake hphase houtcome hopen hrung hearly (hkeeps.agenda _ (.inl rfl) hawake)
  | asleep hphase houtcome hopen harmed hearly halarm =>
    rw [← hkeeps.now] at hearly
    exact .asleep hphase houtcome hopen harmed hearly (hkeeps.alarms _ halarm (.inl rfl))
  | handed hworking hunarmed hhanded hatHand hawake =>
    rw [← hkeeps.now, ← hhand] at hatHand
    exact .handed hworking hunarmed hhanded hatHand (hkeeps.agenda _ (.inr rfl) hawake)
  | busy hworking hunarmed hbusy hnone => exact .busy hworking hunarmed hbusy (hhand.trans hnone)
  | ended houtcome hunarmed hlast hawake =>
    rw [← hkeeps.now, ← hend] at hlast
    exact .ended houtcome hunarmed hlast (hkeeps.agenda _ (.inl rfl) hawake)

/-- Adding something leaves an open window as it is and opens one else, for which the keeper is awake if
it waits. -/
theorem add (h : Stage handle history session keeper processing)
    (hcancelled : keeper.queue.cancelled = false) {items : List ℕ} (hitems : items ≠ [])
    (hkeeps : Keeps handle session next)
    (hawake : (keeper.add session.now items).1 = true → .numbers handle ∈ next.agenda)
    (hend : later.outlook.lastEnd = history.outlook.lastEnd)
    (hhand : later.atHand = history.atHand) :
    Stage handle later next (keeper.add session.now items).2 processing := by
  have hkept := h.keep hkeeps hend hhand
  have hphaseAdd : (keeper.queue.add session.now items).phase = keeper.queue.phase :=
    WorkQueue.phase_add _ _
  have hdelay : (keeper.queue.add session.now items).delay = keeper.queue.delay :=
    WorkQueue.delay_add _ _
  have hwindow := WorkQueue.windowStart_add hcancelled hitems session.now
  have hworkingAdd : (keeper.add session.now items).2.isWorking = keeper.isWorking :=
    Keeper.isWorking_of_phase hphaseAdd
  cases hkept with
  | closed hphase houtcome hclosed hunarmed =>
    rw [hclosed, Option.none_or] at hwindow
    have hidle : keeper.isIdle = true := decide_eq_true hphase
    have hasked : (keeper.add session.now items).1 = true := by
      rw [Keeper.add, hclosed, hwindow, hidle]
      rfl
    refine .awake (hphaseAdd.trans hphase) houtcome hwindow (fun harmed => ?_) ?_ (hawake hasked)
    · exact absurd harmed (ne_true_of_eq_false hunarmed)
    · rw [hkeeps.now]
      exact Nat.le_trans (Nat.le_add_right _ _) (Nat.le_max_left _ _)
  | awake hphase houtcome hopen hrung hearly hawake =>
    rw [hopen, Option.some_or] at hwindow
    rw [← hdelay] at hrung hearly
    exact .awake (hphaseAdd.trans hphase) houtcome hwindow hrung hearly hawake
  | asleep hphase houtcome hopen harmed hearly halarm =>
    rw [hopen, Option.some_or] at hwindow
    rw [← hdelay] at hearly halarm
    exact .asleep (hphaseAdd.trans hphase) houtcome hwindow harmed hearly halarm
  | handed hworking hunarmed hhanded hatHand hawake =>
    exact .handed (hworkingAdd.trans hworking) hunarmed hhanded hatHand hawake
  | busy hworking hunarmed hbusy hnone =>
    exact .busy (hworkingAdd.trans hworking) hunarmed hbusy hnone
  | ended houtcome hunarmed hlast hawake => exact .ended houtcome hunarmed hlast hawake

/-- While no task of the queue is awake, the clock may move, though not past an alarm; the keeper is
woken at its own. -/
theorem tick (h : Stage handle history session keeper processing) {time : ℕ}
    (hquiet : ∀ task ∈ session.agenda, ¬ task.IsOf handle)
    (halarms : ∀ alarm ∈ session.alarms, alarm.2.IsOf handle → time ≤ alarm.1) :
    Stage handle history (session.moveClock time) keeper processing := by
  obtain ⟨woken, heq, -, hwoken⟩ := session.moveClock_eq time
  rw [heq]
  cases h with
  | closed hphase houtcome hclosed hunarmed => exact .closed hphase houtcome hclosed hunarmed
  | awake _ _ _ _ _ hawake | ended _ _ _ hawake => exact absurd (.inl rfl) (hquiet _ hawake)
  | handed _ _ _ _ hawake => exact absurd (.inr rfl) (hquiet _ hawake)
  | busy hworking hunarmed hbusy hnone => exact .busy hworking hunarmed hbusy hnone
  | @asleep start hphase houtcome hopen harmed hearly halarm =>
    have hle : time ≤ start + keeper.queue.delay := halarms _ halarm (.inl rfl)
    by_cases hrings : start + keeper.queue.delay ≤ time
    · refine .awake hphase houtcome hopen (fun _ => ?_) ?_ (hwoken _ halarm hrings rfl)
      · exact Nat.le_trans hrings (Nat.le_max_right _ _)
      · show max session.now time ≤ max (start + keeper.queue.delay) history.outlook.lastEnd
        omega
    · refine .asleep hphase houtcome hopen harmed ?_ (List.mem_filter.mpr ⟨halarm, ?_⟩)
      · show max session.now time < start + keeper.queue.delay
        omega
      · simpa using hrings

/-- In its turn a keeper attends to its queue once it has noticed what there is to notice, or it rests and
the queue stays in its stage. -/
theorem attends_or_rests (h : Stage handle history session keeper processing)
    (hcancelled : keeper.queue.cancelled = false) :
    Attends history session.now keeper.notice ∨
      (keeper.notice.turn session.now = (.rest, keeper) ∧
        ∀ {next : Session},
          Keeps handle { session with agenda := session.agenda.erase (.numbers handle) } next →
            Stage handle history next keeper processing) := by
  cases h with
  | closed hphase houtcome hclosed hunarmed =>
    refine .inl ?_
    rw [Keeper.notice_eq_self houtcome]
    exact
      { phase := hphase
        outcome := houtcome
        closed := fun _ => hunarmed
        rung := fun start hopen => absurd (hopen.symm.trans hclosed) (Option.some_ne_none start)
        early := fun start hopen => absurd (hopen.symm.trans hclosed) (Option.some_ne_none start) }
  | awake hphase houtcome hopen hrung hearly =>
    refine .inl ?_
    rw [Keeper.notice_eq_self houtcome]
    exact
      { phase := hphase
        outcome := houtcome
        closed := fun hclosed => absurd (hopen.symm.trans hclosed) (Option.some_ne_none _)
        rung := fun other hother => by
          obtain rfl := Option.some.inj (hopen.symm.trans hother)
          exact hrung
        early := fun other hother => by
          obtain rfl := Option.some.inj (hopen.symm.trans hother)
          exact hearly }
  | ended houtcome hunarmed hlast =>
    -- The keeper notices now that the batch has ended now.
    have hunarmedNotice : keeper.notice.isArmed = false := Keeper.isArmed_notice.trans hunarmed
    exact .inl
      { phase := Keeper.phase_notice houtcome
        outcome := Keeper.outcome_notice
        closed := fun _ => hunarmedNotice
        rung := fun _ _ harmed => absurd harmed (ne_true_of_eq_false hunarmedNotice)
        early := fun _ _ => hlast ▸ Nat.le_max_right _ _ }
  | asleep hphase houtcome hopen harmed hearly halarm =>
    rw [Keeper.notice_eq_self houtcome]
    refine .inr ⟨Keeper.turn_of_armed hcancelled hopen hearly harmed, fun hkeeps => ?_⟩
    rw [← hkeeps.now] at hearly
    exact .asleep hphase houtcome hopen harmed hearly (hkeeps.alarms _ halarm (.inl rfl))
  | handed hworking hunarmed hhanded hatHand hawake =>
    obtain ⟨hphase, houtcome⟩ := Keeper.isWorking_iff.mp hworking
    rw [Keeper.notice_eq_self houtcome]
    refine .inr ⟨Keeper.turn_of_working hphase _, fun hkeeps => ?_⟩
    rw [← hkeeps.now] at hatHand
    have hother : Task.batch handle ≠ .numbers handle := Task.noConfusion
    have herased : Task.batch handle ∈ session.agenda.erase (.numbers handle) :=
      (List.mem_erase_of_ne hother).mpr hawake
    exact .handed hworking hunarmed hhanded hatHand (hkeeps.agenda _ (.inr rfl) herased)
  | busy hworking hunarmed hbusy hnone =>
    obtain ⟨hphase, houtcome⟩ := Keeper.isWorking_iff.mp hworking
    rw [Keeper.notice_eq_self houtcome]
    exact .inr ⟨Keeper.turn_of_working hphase _, fun _ => .busy hworking hunarmed hbusy hnone⟩

/-- The turn of a batch concerns only the stage in which a batch was handed out. -/
theorem erase_batch (h : Stage handle history session keeper processing)
    (hhanded : ∀ batch, processing ≠ .handed batch) :
    Stage handle history { session with agenda := session.agenda.erase (.batch handle) } keeper
      processing := by
  have hother : Task.numbers handle ≠ .batch handle := nofun
  cases h with
  | closed hphase houtcome hclosed hunarmed => exact .closed hphase houtcome hclosed hunarmed
  | awake hphase houtcome hopen hrung hearly hawake =>
    exact .awake hphase houtcome hopen hrung hearly ((List.mem_erase_of_ne hother).mpr hawake)
  | asleep hphase houtcome hopen harmed hearly halarm =>
    exact .asleep hphase houtcome hopen harmed hearly halarm
  | handed _ _ hprocessing => exact absurd hprocessing (hhanded _)
  | busy hworking hunarmed hbusy hnone => exact .busy hworking hunarmed hbusy hnone
  | ended houtcome hunarmed hlast hawake =>
    exact .ended houtcome hunarmed hlast ((List.mem_erase_of_ne hother).mpr hawake)

/-- A keeper has no alarm while its batch is worked on. -/
theorem isArmed_eq_false (h : Stage handle history session keeper processing)
    (hworking : keeper.isWorking = true) : keeper.isArmed = false := by
  obtain ⟨hphase, houtcome⟩ := Keeper.isWorking_iff.mp hworking
  cases h with
  | closed _ _ _ hunarmed | handed _ hunarmed | busy _ hunarmed | ended _ hunarmed =>
    exact hunarmed
  | awake hother | asleep hother =>
    rw [hphase] at hother
    contradiction

/-- A batch that the processor was handed was handed out just now. -/
theorem atHand_eq {batch : List ℕ} (h : Stage handle history session keeper (.handed batch))
    (hworking : keeper.isWorking = true) : history.atHand = some (session.now, batch) := by
  obtain ⟨hphase, houtcome⟩ := Keeper.isWorking_iff.mp hworking
  cases h with
  | closed hother | awake hother | asleep hother =>
    rw [hphase] at hother
    contradiction
  | handed _ _ hhanded hatHand =>
    rw [Processing.handed.inj hhanded]
    exact hatHand
  | busy _ _ hbusy => contradiction
  | ended hother => exact absurd houtcome hother

/-- Only a batch that was handed out just now was not begun with. -/
theorem awake_of_atHand (h : Stage handle history session keeper processing)
    (hworking : keeper.isWorking = true) {time : ℕ} {batch : List ℕ}
    (hatHand : history.atHand = some (time, batch)) :
    session.now = time ∧ .batch handle ∈ session.agenda := by
  obtain ⟨hphase, houtcome⟩ := Keeper.isWorking_iff.mp hworking
  cases h with
  | closed hother | awake hother | asleep hother =>
    rw [hphase] at hother
    contradiction
  | handed _ _ _ hnow hawake =>
    rw [hnow] at hatHand
    exact ⟨congrArg Prod.fst (Option.some.inj hatHand), hawake⟩
  | busy _ _ _ hnone =>
    rw [hnone] at hatHand
    contradiction
  | ended hother => exact absurd houtcome hother

/-- What waits while no batch is worked on is not overdue, and when it is due the keeper is awake and
attends to it. -/
theorem awake_of_due (h : Stage handle history session keeper processing)
    (hresting : keeper.isWorking = false) {start : ℕ}
    (hopen : keeper.queue.windowStart = some start) :
    session.now ≤ max (start + keeper.queue.delay) history.outlook.lastEnd ∧
      (start + keeper.queue.delay ≤ session.now →
        .numbers handle ∈ session.agenda ∧ keeper.notice.queue.phase = .waiting) := by
  cases h with
  | closed _ _ hclosed =>
    rw [hclosed] at hopen
    contradiction
  | awake hphase houtcome hother _ hearly hawake =>
    obtain rfl := Option.some.inj (hother.symm.trans hopen)
    exact ⟨hearly, fun _ => ⟨hawake, (Keeper.notice_eq_self houtcome).symm ▸ hphase⟩⟩
  | asleep _ _ hother _ hearly =>
    obtain rfl := Option.some.inj (hother.symm.trans hopen)
    exact ⟨Nat.le_trans (Nat.le_of_lt hearly) (Nat.le_max_left _ _), fun hdue => by omega⟩
  | handed hworking | busy hworking =>
    rw [hresting] at hworking
    contradiction
  | ended houtcome _ hlast hawake =>
    exact ⟨hlast ▸ Nat.le_max_right _ _, fun _ => ⟨hawake, Keeper.phase_notice houtcome⟩⟩

end Stage

/-- What holds of a queue that was not told to stop. -/
structure OnTime (handle : Handle) (delay limit : ℕ) (history : History ℕ) (session : Session)
    (q : NumberQueue) : Prop where
  /-- The queue is in one of the stages. -/
  stage : Stage handle history session q.keeper q.processing
  /-- What waits in the queue is what was accepted and not handed out. -/
  waiting : q.keeper.queue.pending = history.outlook.waiting
  /-- An open window began when the first of what waits came. -/
  since : ∀ start, q.keeper.queue.windowStart = some start → history.outlook.since = start
  /-- No batch ends in the future. -/
  lastEnd : history.outlook.lastEnd ≤ session.now
  /-- Everything happened when it had to. -/
  lawful : history.Always (History.Punctual delay limit)

namespace OnTime

variable {q after : NumberQueue}

/-- What others do changes nothing about a queue that they do not tell to stop. -/
theorem elsewhere (h : OnTime handle delay limit history session q)
    (hkeeps : Keeps handle session next) (hprocessing : after.processing = q.processing)
    (hkeeper : after.keeper = q.keeper) : OnTime handle delay limit history next after := by
  obtain ⟨hstage, hwaiting, hsince, hlast, hlawful⟩ := h
  rw [← hkeeper, ← hprocessing] at hstage
  rw [← hkeeper] at hwaiting hsince
  rw [← hkeeps.now] at hlast
  exact ⟨hstage.keep hkeeps rfl rfl, hwaiting, hsince, hlast, hlawful⟩

/-- Numbers that are added wait, since now if none waited before. -/
theorem add (h : OnTime handle delay limit history session q) (htidy : q.keeper.queue.Tidy)
    (hcancelled : q.keeper.queue.cancelled = false) (items : List ℕ)
    (hkeeps : Keeps handle session next)
    (hawake : (q.keeper.add session.now items).1 = true → .numbers handle ∈ next.agenda) :
    OnTime handle delay limit (history ++ [.accepted session.now items]) next
      { q with keeper := (q.keeper.add session.now items).2 } := by
  have houtlook := History.outlook_concat history (.accepted session.now items)
  have hend : (History.outlook (history ++ [.accepted session.now items])).lastEnd =
      history.outlook.lastEnd := by
    rw [houtlook]
    rfl
  have hhand : (History.atHand (history ++ [.accepted session.now items])) = history.atHand := by
    rw [History.atHand_concat]
    rfl
  have hlast : (History.outlook (history ++ [.accepted session.now items])).lastEnd ≤ next.now := by
    rw [hend, hkeeps.now]
    exact h.lastEnd
  have hwaiting : (q.keeper.queue.add session.now items).pending =
      (History.outlook (history ++ [.accepted session.now items])).waiting := by
    rw [WorkQueue.pending_add hcancelled, h.waiting, houtlook]
    rfl
  have hlawful : History.Always (History.Punctual delay limit)
      (history ++ [.accepted session.now items]) := h.lawful.concat trivial
  by_cases hitems : items = []
  · -- Nothing was added, so neither the keeper nor the outlook has changed.
    have hkeeper : (q.keeper.add session.now items).2 = q.keeper := by
      rw [hitems, Keeper.add, WorkQueue.add_nil]
    have hsince : (History.outlook (history ++ [.accepted session.now items])).since =
        history.outlook.since := by
      rw [houtlook, hitems]
      simp [Outlook.after]
    rw [hkeeper]
    refine ⟨h.stage.keep hkeeps hend hhand, ?_, ?_, hlast, hlawful⟩
    · rw [hitems, WorkQueue.add_nil] at hwaiting
      rw [hwaiting, hitems]
    · rw [hsince]
      exact h.since
  · refine ⟨h.stage.add hcancelled hitems hkeeps hawake hend hhand, hwaiting, ?_, hlast, hlawful⟩
    intro start hopen
    have hwindow : (q.keeper.queue.windowStart.or (some session.now)) = some start :=
      (WorkQueue.windowStart_add hcancelled hitems session.now).symm.trans hopen
    rw [houtlook]
    cases hbefore : q.keeper.queue.windowStart with
    | none =>
      have hnone : history.outlook.waiting = [] := h.waiting.symm.trans (htidy.mp hbefore)
      rw [hbefore, Option.none_or] at hwindow
      rw [Outlook.since_after_accepted hnone hitems]
      exact Option.some.inj hwindow
    | some other =>
      have hsome : history.outlook.waiting ≠ [] := h.waiting ▸ htidy.pending_ne_nil hbefore
      rw [hbefore, Option.some_or] at hwindow
      rw [Outlook.since_after_accepted_of_waiting hsome]
      exact h.since start (hbefore.trans hwindow)

/-- A keeper that attends to its queue and finds the window elapsed hands out the batch that is due. -/
theorem hand (h : OnTime handle delay limit history session q) {noticed : Keeper ℕ} {start : ℕ}
    (hattends : Attends history session.now noticed)
    (horderly : Keeper.Orderly delay limit history noticed)
    (hwaiting : noticed.queue.pending = history.outlook.waiting)
    (hsince : ∀ start, noticed.queue.windowStart = some start → history.outlook.since = start)
    (hopen : noticed.queue.windowStart = some start)
    (helapsed : start + noticed.queue.delay ≤ session.now) (hnow : next.now = session.now)
    (hawake : .batch handle ∈ next.agenda) :
    OnTime handle delay limit (history ++ [.handed session.now noticed.queue.take.1]) next
      { q with
        keeper := { noticed with queue := noticed.queue.take.2, isArmed := false }
        processing := .handed noticed.queue.take.1 } := by
  have houtlook := History.outlook_concat history (.handed session.now noticed.queue.take.1)
  have hpending : history.outlook.waiting ≠ [] := hwaiting ▸ horderly.tidy.pending_ne_nil hopen
  have hdue : session.now = history.outlook.due delay := by
    rw [← horderly.sameDelay]
    exact hattends.now_eq_due hopen (hsince start hopen) h.lastEnd helapsed
  have hbatch : noticed.queue.take.1 = history.outlook.batch limit := by
    rw [WorkQueue.take_eq_batch hwaiting, horderly.sameLimit]
  have hatHand : History.atHand (history ++ [.handed session.now noticed.queue.take.1]) =
      some (next.now, noticed.queue.take.1) := by
    rw [History.atHand_concat, hnow]
    rfl
  exact
    { stage := .handed (Keeper.isWorking_iff.mpr ⟨rfl, hattends.outcome⟩) rfl rfl hatHand hawake
      waiting := by
        show noticed.queue.take.2.pending = _
        rw [houtlook, WorkQueue.pending_take, hwaiting]
        rfl
      since := fun other hother => by
        rw [houtlook]
        exact hsince other (WorkQueue.windowStart_of_take hother)
      lastEnd := by
        rw [houtlook, hnow]
        exact h.lastEnd
      lawful := h.lawful.concat ⟨hpending, hdue, hbatch⟩ }

/-- In its turn a keeper hands out the batch that is due, or none is. -/
theorem numbersTurn (h : OnTime handle delay limit history session q)
    (horderly : Keeper.Orderly delay limit history q.keeper)
    (hcancelled : q.keeper.queue.cancelled = false) {move : KeeperMove ℕ} {keeper : Keeper ℕ}
    (hturn : q.keeper.notice.turn session.now = (move, keeper))
    (hkeeps :
      Keeps handle { session with agenda := session.agenda.erase (.numbers handle) } next)
    (hsleep : ∀ time, move = .sleep time → (time, .numbers handle) ∈ next.alarms)
    (hhand : ∀ batch, move = .hand batch → .batch handle ∈ next.agenda) :
    OnTime handle delay limit (history ++ move.happenings session.now) next
      { q with keeper := keeper, processing := move.processing q.processing } := by
  have hnow : next.now = session.now := hkeeps.now
  have hlast : history.outlook.lastEnd ≤ next.now := hnow ▸ h.lastEnd
  rcases h.stage.attends_or_rests hcancelled with hattends | ⟨hrests, hstage⟩
  · -- Noticing how the last batch ended changes nothing about what waits and since when.
    have hcase := q.keeper.notice.turnCase session.now
    have hnoticed := horderly.notice
    have hwaiting : q.keeper.notice.queue.pending = history.outlook.waiting :=
      Keeper.pending_notice.trans h.waiting
    have hsince : ∀ start, q.keeper.notice.queue.windowStart = some start →
        history.outlook.since = start := fun start hopen =>
      h.since start (Keeper.windowStart_notice.symm.trans hopen)
    have hlive : q.keeper.notice.queue.cancelled = false := Keeper.cancelled_notice.trans hcancelled
    generalize q.keeper.notice = noticed at *
    rw [hturn] at hcase
    cases hcase with
    | occupied hphase => exact absurd hattends.phase hphase
    | stopping _ htold => exact absurd htold (ne_true_of_eq_false hlive)
    | closed hphase _ hclosed =>
      rw [KeeperMove.happenings, List.append_nil]
      exact
        { stage := .closed hphase hattends.outcome hclosed (hattends.closed hclosed)
          waiting := hwaiting
          since := hsince
          lastEnd := hlast
          lawful := h.lawful }
    | elapsed _ _ hopen helapsed =>
      exact h.hand hattends hnoticed hwaiting hsince hopen helapsed hnow (hhand _ rfl)
    | @armed start _ _ hopen hearly harmed =>
      have hrung := hattends.rung start hopen harmed
      omega
    | arming hphase _ hopen hearly =>
      rw [KeeperMove.happenings, List.append_nil]
      rw [← hnow] at hearly
      exact
        { stage := .asleep hphase hattends.outcome hopen rfl hearly (hsleep _ rfl)
          waiting := hwaiting
          since := hsince
          lastEnd := hlast
          lawful := h.lawful }
  · rw [hrests] at hturn
    obtain ⟨rfl, rfl⟩ := Prod.mk.inj hturn
    rw [KeeperMove.happenings, List.append_nil]
    exact { h with stage := hstage hkeeps, lastEnd := hlast }

/-- The processor begins with a batch at the time at which it was handed out. -/
theorem begins (h : OnTime handle delay limit history session q) (hworking : q.keeper.isWorking = true)
    {batch : List ℕ} (hhanded : q.processing = .handed batch) (hnow : next.now = session.now)
    (act : Act) (script : Script) (log : List QueueEntry) :
    OnTime handle delay limit (history ++ [.started session.now batch]) next
      { q with script := script, processing := .busy act, log := log } := by
  have hstage := h.stage
  have houtlook := History.outlook_concat history (.started session.now batch)
  have hnone : History.atHand (history ++ [.started session.now batch]) = none := by
    rw [History.atHand_concat]
    rfl
  rw [hhanded] at hstage
  exact
    { stage := .busy hworking (hstage.isArmed_eq_false hworking) rfl hnone
      waiting := by
        rw [houtlook]
        exact h.waiting
      since := by
        rw [houtlook]
        exact h.since
      lastEnd := by
        rw [houtlook, hnow]
        exact h.lastEnd
      lawful := h.lawful.concat (hstage.atHand_eq hworking) }

/-- A batch ends, and the keeper is awake to notice. Of what happened since it was handed out nothing
matters for the next one. -/
theorem ends (h : OnTime handle delay limit history session q) (hworking : q.keeper.isWorking = true)
    {earlier : History ℕ} (hearlier : earlier.outlook = history.outlook)
    (hlawful : earlier.Always (History.Punctual delay limit)) (hnow : next.now = session.now)
    (hawake : .numbers handle ∈ next.agenda) (ending : Ending) (script : Script)
    (log : List QueueEntry) :
    OnTime handle delay limit (earlier ++ [.ended session.now]) next
      { q with
        keeper := q.keeper.learn ending, script := script, processing := .idle, log := log } := by
  have houtlook := History.outlook_concat earlier (.ended session.now)
  have hlast : (History.outlook (earlier ++ [.ended session.now])).lastEnd = next.now := by
    rw [houtlook, hnow]
    rfl
  exact
    { stage := .ended nofun (h.stage.isArmed_eq_false hworking) hlast hawake
      waiting := by
        rw [houtlook, hearlier]
        exact h.waiting
      since := by
        rw [houtlook, hearlier]
        exact h.since
      lastEnd := Nat.le_of_eq hlast
      lawful := hlawful.concat trivial }

/-- In its turn a batch that was handed out is begun with, and a batch may end. -/
theorem batchTurn (h : OnTime handle delay limit history session q) (hfits : q.Fits history)
    (hcase : q.BatchCase after) (hlive : after.keeper.queue.cancelled = false)
    (hkeeps : Keeps handle { session with agenda := session.agenda.erase (.batch handle) } next)
    (hawake : q.processing ≠ .idle → after.processing = .idle → .numbers handle ∈ next.agenda) :
    OnTime handle delay limit
      (history ++ q.processing.happenings session.now after.processing) next after := by
  have hnow : next.now = session.now := hkeeps.now
  cases hcase with
  | resting hprocessing | goesOn hprocessing =>
    have hhanded : ∀ batch, q.processing ≠ .handed batch := by
      rw [hprocessing]
      exact fun _ => nofun
    rw [Processing.happenings_self, List.append_nil]
    exact
      { h with
        stage := (h.stage.erase_batch hhanded).keep hkeeps rfl rfl
        lastEnd := hnow ▸ h.lastEnd }
  | @begins batch act script log hhanded =>
    have hbegun := h.begins (hfits.handed batch hhanded).1 hhanded hnow act script log
    rw [hhanded]
    exact hbegun
  | @ends keeper ending script log hne hkeeper =>
    have hworking := hfits.isWorking hne
    -- The queue was not told to stop, so the processor did not do it either.
    obtain rfl : keeper = q.keeper := by
      rcases hkeeper with rfl | rfl
      · rfl
      · exact absurd rfl (ne_true_of_eq_false hlive)
    cases hprocessing : q.processing with
    | idle => exact absurd hprocessing hne
    | busy act => exact h.ends hworking rfl h.lawful hnow (hawake hne rfl) ending script log
    | handed batch =>
      have hstage := h.stage
      rw [hprocessing] at hstage
      have hended := h.ends hworking
        (History.outlook_concat history (.started session.now batch))
        (h.lawful.concat (hstage.atHand_eq hworking)) hnow (hawake hne rfl) ending script log
      rw [List.append_assoc] at hended
      exact hended

/-- The clock does not move past the time at which a batch is due. -/
theorem tick (h : OnTime handle delay limit history session q) {time : ℕ}
    (hquiet : ∀ task ∈ session.agenda, ¬ task.IsOf handle)
    (halarms : ∀ alarm ∈ session.alarms, alarm.2.IsOf handle → time ≤ alarm.1) :
    OnTime handle delay limit history (session.moveClock time) q := by
  have hnow : session.now ≤ (session.moveClock time).now := by
    obtain ⟨woken, heq, -, -⟩ := session.moveClock_eq time
    rw [heq]
    exact Nat.le_max_left _ _
  exact
    { h with
      stage := h.stage.tick hquiet halarms
      lastEnd := Nat.le_trans h.lastEnd hnow }

/-- A new queue has nothing to be late with. -/
theorem made {token : Token} {cancelled : Bool} {script : Script} :
    OnTime handle delay limit [] session
      { keeper := { queue := { delay := delay, limit := limit, cancelled := cancelled }
                    token := token }
        script := script } where
  stage := .closed rfl rfl rfl rfl
  waiting := rfl
  since := nofun
  lastEnd := Nat.zero_le _
  lawful := History.always_nil _

end OnTime

/-- In every session that it is part of, a queue is on time unless it was told to stop. -/
theorem QueueRun.onTime (h : QueueRun handle delay limit history session) {q : NumberQueue}
    (hq : session.queues.get? handle = some q) (hlive : q.keeper.queue.cancelled = false) :
    OnTime handle delay limit history session q := by
  -- A queue that was told to stop stays so, so it was not told to stop in any session before.
  induction h generalizing q with
  | made token cancelled script hmade =>
    obtain rfl := Option.some.inj (hmade.symm.trans hq)
    exact .made
  | elsewhere hrun hleaves ih =>
    obtain ⟨before, hbefore, -, -⟩ := hrun.holds
    obtain ⟨after, hafter, hprocessing, hkeeper⟩ := hleaves.queue before hbefore
    obtain rfl := Option.some.inj (hafter.symm.trans hq)
    rcases hkeeper with hkeeper | hkeeper
    · exact (ih hbefore (hkeeper ▸ hlive)).elsewhere hleaves.toKeeps hprocessing hkeeper
    · rw [hkeeper] at hlive
      contradiction
  | @add history session items hrun ih =>
    obtain ⟨before, hbefore, -, hkeeperRun⟩ := hrun.holds
    obtain ⟨hkeeps, hafter, hawake⟩ := addNumbers_spec hbefore items
    obtain rfl := Option.some.inj (hafter.symm.trans hq)
    have hliveBefore : before.keeper.queue.cancelled = false :=
      (WorkQueue.cancelled_add session.now items).symm.trans hlive
    have haccepts : session.accepts handle items = [.accepted session.now items] := by
      rw [accepts, hbefore]
      exact if_neg (ne_true_of_eq_false hliveBefore)
    rw [haccepts]
    exact (ih hbefore hliveBefore).add hkeeperRun.orderly.tidy hliveBefore items hkeeps hawake
  | @turn history session task hrun htask ih =>
    obtain ⟨before, hbefore, hfits, hkeeperRun⟩ := hrun.holds
    rcases htask with rfl | rfl
    · generalize hturn : before.keeper.notice.turnWindowFirst session.now = result
      obtain ⟨move, keeper⟩ := result
      obtain ⟨hkeeps, hafter, hsleep, hhand⟩ := afterTurn_numbers_spec hbefore hturn
      obtain rfl := Option.some.inj (hafter.symm.trans hq)
      have hcancelled := before.keeper.notice.cancelled_turnWindowFirst session.now
      rw [hturn, Keeper.cancelled_notice] at hcancelled
      have hliveBefore : before.keeper.queue.cancelled = false := hcancelled.symm.trans hlive
      rw [happenings_numbers hbefore hfits hturn]
      rw [Keeper.turnWindowFirst_eq_turn (Keeper.cancelled_notice.trans hliveBefore)] at hturn
      exact (ih hbefore hliveBefore).numbersTurn hkeeperRun.orderly hliveBefore hturn hkeeps hsleep
        hhand
    · obtain ⟨hkeeps, after, hafter, hcase, hawake⟩ := afterTurn_batch_spec hbefore
      obtain rfl := Option.some.inj (hafter.symm.trans hq)
      have hliveBefore := hcase.cancelled_eq_false hlive
      rw [happenings, processing_eq hbefore, processing_eq hq]
      exact (ih hbefore hliveBefore).batchTurn hfits hcase hlive hkeeps hawake
  | @tick history session time hrun hquiet halarms ih =>
    obtain ⟨before, hbefore, -, -⟩ := hrun.holds
    obtain ⟨woken, heq, -, -⟩ := session.moveClock_eq time
    have hafter : (session.moveClock time).queues.get? handle = some before := by
      rw [heq]
      exact hbefore
    obtain rfl := Option.some.inj (hafter.symm.trans hq)
    exact (ih hbefore hlive).tick hquiet halarms

/-- What waits while no batch is worked on is not overdue, and when it is due the keeper is awake and hands
it out in its next turn. -/
theorem QueueRun.awake_when_due (h : QueueRun handle delay limit history session) {q : NumberQueue}
    (hq : session.queues.get? handle = some q) (hlive : q.keeper.queue.cancelled = false)
    (hwaiting : history.outlook.waiting ≠ []) (hresting : history.begun = history.ended) :
    session.now ≤ history.outlook.due delay ∧
      (session.now = history.outlook.due delay → .numbers handle ∈ session.agenda ∧
        session.happenings handle (.numbers handle) =
          [.handed session.now (history.outlook.batch limit)]) := by
  have htime := h.onTime hq hlive
  obtain ⟨other, hother, hfits, hrun⟩ := h.holds
  obtain rfl := Option.some.inj (hq.symm.trans hother)
  have horderly := hrun.orderly
  have hidle : q.keeper.isWorking = false := by
    have hturns := horderly.turns
    by_contra hworking
    rw [if_pos (Bool.of_not_eq_false hworking)] at hturns
    omega
  have hopen : q.keeper.queue.windowStart ≠ none := fun hclosed =>
    hwaiting (htime.waiting.symm.trans (horderly.tidy.mp hclosed))
  obtain ⟨start, hstart⟩ := Option.ne_none_iff_exists'.mp hopen
  obtain ⟨hearly, hawake⟩ := htime.stage.awake_of_due hidle hstart
  have hdue : max (start + q.keeper.queue.delay) history.outlook.lastEnd =
      history.outlook.due delay := by
    rw [Outlook.due, htime.since start hstart, horderly.sameDelay]
  refine ⟨hdue ▸ hearly, fun hnow => ?_⟩
  have helapsed : start + q.keeper.queue.delay ≤ session.now := by
    rw [hnow, ← hdue]
    exact Nat.le_max_left _ _
  obtain ⟨hnumbers, hphase⟩ := hawake helapsed
  refine ⟨hnumbers, ?_⟩
  -- The keeper has noticed how the last batch ended and finds that the window has elapsed.
  have hnoticed : q.keeper.notice.queue.cancelled = false := Keeper.cancelled_notice.trans hlive
  have hmove : (q.keeper.notice.turnWindowFirst session.now).1 =
      .hand q.keeper.notice.queue.take.1 := by
    rw [Keeper.turnWindowFirst_eq_turn hnoticed]
    exact Keeper.turn_of_elapsed hphase hnoticed (Keeper.windowStart_notice.trans hstart)
      (Keeper.delay_notice.symm ▸ helapsed)
  have hbatch : q.keeper.notice.queue.take.1 = history.outlook.batch limit := by
    rw [WorkQueue.take_eq_batch (Keeper.pending_notice.trans htime.waiting), Keeper.limit_notice,
      horderly.sameLimit]
  rw [happenings_numbers hq hfits (Prod.eta _).symm, hmove, hbatch]
  rfl

/-- Adding nothing changes nothing. -/
theorem addNumbers_nil (session : Session) (handle : Handle) :
    session.addNumbers handle [] = session := by
  unfold addNumbers
  split
  · rfl
  · next q hq =>
    have hsame : q.keeper.queue.add session.now [] = q.keeper.queue := WorkQueue.add_nil _
    have hasleep : (q.keeper.queue.windowStart.isNone && q.keeper.queue.windowStart.isSome &&
        q.keeper.isIdle) = false := by
      cases q.keeper.queue.windowStart <;> rfl
    simp only [Keeper.add, hsame, hasleep, Catalog.insert_of_get? hq]
    rfl

/-- A queue that was not told to stop is on time in every session that it is part of. Whatever its delay
and its limit are, whenever numbers are added, however long its processor takes over a batch and however
the batch ends:

- A batch is handed out only while numbers wait, at the later of the end of their window and the end of
  the batch before, and it consists of the first of them, as many as the limit allows. The window begins
  when numbers are added while none wait.
- The processor begins to work on it at that same time.
- What waits is what was added and not handed out.
- While a batch is handed out and not begun with, no time passes, and its task is awake.
- While numbers wait and no batch is worked on, the time is not past the one at which they are due, and
  when it has come the keeper is awake and hands them out in its next turn.
- Adding nothing changes nothing. -/
theorem QueueRun.punctual (h : QueueRun handle delay limit history session) {q : NumberQueue}
    (hq : session.queues.get? handle = some q) (hlive : q.keeper.queue.cancelled = false) :
    (∀ (before : History ℕ) (time : ℕ) (batch : List ℕ), before ++ [.handed time batch] <+: history →
        before.outlook.waiting ≠ [] ∧
          time = max (before.outlook.since + delay) before.outlook.lastEnd ∧
          batch = before.outlook.waiting.take
            (if limit = 0 then before.outlook.waiting.length
              else min limit before.outlook.waiting.length)) ∧
      (∀ (before : History ℕ) (time : ℕ) (batch : List ℕ), before ++ [.started time batch] <+: history →
        before.atHand = some (time, batch)) ∧
      q.keeper.queue.pending = history.outlook.waiting ∧
      (∀ time batch, history.atHand = some (time, batch) →
        session.now = time ∧ .batch handle ∈ session.agenda) ∧
      (history.outlook.waiting ≠ [] → history.begun = history.ended →
        session.now ≤ history.outlook.due delay ∧
          (session.now = history.outlook.due delay → .numbers handle ∈ session.agenda ∧
            session.happenings handle (.numbers handle) =
              [.handed session.now (history.outlook.batch limit)])) ∧
      session.addNumbers handle [] = session := by
  have htime := h.onTime hq hlive
  refine ⟨fun before time batch hprefix => htime.lawful before _ hprefix,
    fun before time batch hprefix => htime.lawful before _ hprefix, htime.waiting,
    fun time batch hatHand => ?_, fun hwaiting hresting => ?_, session.addNumbers_nil handle⟩
  · obtain ⟨other, hother, -, hrun⟩ := h.holds
    obtain rfl := Option.some.inj (hq.symm.trans hother)
    have hworking := hrun.orderly.atHand (by rw [hatHand]; exact nofun)
    exact htime.stage.awake_of_atHand hworking hatHand
  · exact h.awake_when_due hq hlive hwaiting hresting

/-- A session with a queue that hands out two numbers at a time, ten milliseconds after the first came;
its processor takes thirty milliseconds over its first batch and is cancelled. -/
def slowPairs : Session := (newQueue {} "pairs" 10 2 [⟨30, .fail .cancelled, []⟩] none).2

/-- The session in which three numbers were added at once, and their first batch is worked on. -/
def slowPairsBusy : Session :=
  ((((slowPairs.addNumbers 0 [1, 2, 3]).afterTurn (.numbers 0)).moveClock 10).afterTurn
    (.numbers 0)).afterTurn (.batch 0)

/-- The session in which a fourth number was added meanwhile, and the second batch is handed out. -/
def slowPairsHanded : Session :=
  ((((slowPairsBusy.moveClock 12).addNumbers 0 [4]).moveClock 40).afterTurn (.batch 0)).afterTurn
    (.numbers 0)

/-- What happened to the queue until then. -/
def slowPairsHistory : History ℕ :=
  [.accepted 0 [1, 2, 3], .handed 10 [1, 2], .started 10 [1, 2], .accepted 12 [4], .ended 40,
    .handed 40 [3, 4]]

/-- What the limit left over keeps its window, and what came meanwhile goes with it. -/
theorem punctual_of_slowPairs :
    ∃ q, slowPairsHanded.queues.get? 0 = some q ∧ q.keeper.queue.cancelled = false ∧
      QueueRun 0 10 2 slowPairsHistory slowPairsHanded ∧
      (∀ (before : History ℕ) (time : ℕ) (batch : List ℕ),
        before ++ [.handed time batch] <+: slowPairsHistory →
          before.outlook.waiting ≠ [] ∧
            time = max (before.outlook.since + 10) before.outlook.lastEnd ∧
            batch = before.outlook.waiting.take
              (if 2 = 0 then before.outlook.waiting.length
                else min 2 before.outlook.waiting.length)) ∧
      (∀ (before : History ℕ) (time : ℕ) (batch : List ℕ),
        before ++ [.started time batch] <+: slowPairsHistory →
          before.atHand = some (time, batch)) ∧
      q.keeper.queue.pending = slowPairsHistory.outlook.waiting ∧
      (∀ time batch, slowPairsHistory.atHand = some (time, batch) →
        slowPairsHanded.now = time ∧ .batch 0 ∈ slowPairsHanded.agenda) ∧
      (slowPairsHistory.outlook.waiting ≠ [] →
        slowPairsHistory.begun = slowPairsHistory.ended →
        slowPairsHanded.now ≤ slowPairsHistory.outlook.due 10 ∧
          (slowPairsHanded.now = slowPairsHistory.outlook.due 10 →
            .numbers 0 ∈ slowPairsHanded.agenda ∧
              slowPairsHanded.happenings 0 (.numbers 0) =
                [.handed slowPairsHanded.now (slowPairsHistory.outlook.batch 2)])) ∧
      slowPairsHanded.addNumbers 0 [] = slowPairsHanded := by
  have hmade : QueueRun 0 10 2 [] slowPairs := .made ⟨[0]⟩ false [⟨30, .fail .cancelled, []⟩] rfl
  have hadded : QueueRun 0 10 2 [.accepted 0 [1, 2, 3]]
      ((slowPairs.addNumbers 0 [1, 2, 3]).afterTurn (.numbers 0)) :=
    (hmade.add [1, 2, 3]).turn (.numbers 0) (.inl rfl)
  have hbusy : QueueRun 0 10 2
      [.accepted 0 [1, 2, 3], .handed 10 [1, 2], .started 10 [1, 2]] slowPairsBusy :=
    ((hadded.tick 10 (by decide) (by decide)).turn (.numbers 0) (.inl rfl)).turn (.batch 0)
      (.inr rfl)
  have hrun : QueueRun 0 10 2 slowPairsHistory slowPairsHanded :=
    ((((hbusy.tick 12 (by decide) (by decide)).add [4]).tick 40 (by decide) (by decide)).turn
      (.batch 0) (.inr rfl)).turn (.numbers 0) (.inl rfl)
  exact ⟨_, rfl, rfl, hrun, hrun.punctual rfl rfl⟩

end Session

end SolutionWatch
