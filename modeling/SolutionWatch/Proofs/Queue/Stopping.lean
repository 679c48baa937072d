import SolutionWatch.Proofs.Queue.Conservation

/-!
# What a queue does after it was told to stop

`Keeper.Later` is what can happen to a queue from some point on, by the same steps as in a run. It counts
how often the keeper found that a window had elapsed before it looked at its token.

A keeper that was told to stop and looks at its token hands out nothing and ends for good. But when its
batch ends it may find first that the window of what the limit left over has elapsed, and then it takes
one more batch, although it was told to stop long before. `Keeper.Run.after_cancel` says that this is the
only way in which a batch begins after that, and exactly when it is open to the keeper: as long as it has
not ended and items wait. `Keeper.begins_after_cancel` is a run in which it happens.
-/

namespace SolutionWatch

namespace History

variable {α : Type}

/-- What is accepted over two stretches of time is accepted in one or the other. -/
theorem accepted_append (before after : History α) :
    accepted (before ++ after) = before.accepted ++ after.accepted :=
  List.flatMap_append

/-- What is handed out over two stretches of time is handed out in one or the other. -/
theorem handed_append (before after : History α) :
    handed (before ++ after) = before.handed ++ after.handed :=
  List.flatMap_append

/-- The batches that are handed out over two stretches of time add up. -/
theorem begun_append (before after : History α) :
    begun (before ++ after) = before.begun + after.begun :=
  List.countP_append

/-- The batches that end over two stretches of time add up. -/
theorem ended_append (before after : History α) :
    ended (before ++ after) = before.ended + after.ended :=
  List.countP_append

end History

namespace Keeper

variable {α : Type} {delay limit late : ℕ} {before history : History α} {first keeper : Keeper α}

/-- What can happen to a queue that stands like this one after this history: how many batches were taken
because the keeper found an elapsed window before it looked at its token, what happened, and what the
keeper has become. -/
inductive Later (before : History α) (first : Keeper α) : ℕ → History α → Keeper α → Prop
  /-- Nothing has happened. -/
  | refl : Later before first 0 [] first
  /-- The keeper takes a step. -/
  | step {count : ℕ} {late : Bool} {history happenings : History α} {keeper next : Keeper α} :
      Later before first count history keeper →
        Step (History.atHand (before ++ history)) keeper late happenings next →
          Later before first (count + late.toNat) (history ++ happenings) next

/-- A queue that was told to stop drops what is added. -/
theorem add_of_cancelled (h : keeper.queue.cancelled = true) (now : ℕ) (items : List α) :
    keeper.add now items = (false, keeper) := by
  have hsame : keeper.queue.add now items = keeper.queue :=
    WorkQueue.add_of_cancelled h now items
  have hwindow : (keeper.queue.windowStart.isNone && keeper.queue.windowStart.isSome &&
      keeper.isIdle) = false := by
    cases keeper.queue.windowStart <;> rfl
  rw [Keeper.add, hsame]
  exact Prod.ext hwindow rfl

/-- A keeper that was told to stop and looks at its token hands out nothing. It has ended after that,
unless its batch is worked on. -/
theorem turn_of_cancelled (h : keeper.queue.cancelled = true) (now : ℕ) :
    (keeper.turn now).1 = .rest ∧
      (keeper.queue.phase = .waiting → (keeper.turn now).2.hasStopped = true) := by
  have hturn := keeper.turnCase now
  generalize keeper.turn now = result at hturn ⊢
  cases hturn with
  | occupied hphase => exact ⟨rfl, fun hwaiting => absurd hwaiting hphase⟩
  | stopping => exact ⟨rfl, fun _ => rfl⟩
  | closed _ hlive | elapsed _ hlive | armed _ hlive | arming _ hlive =>
    exact absurd h (ne_true_of_eq_false hlive)

/-- A keeper that has ended had nothing to notice. -/
theorem Orderly.notice_of_stopped (h : Orderly delay limit history keeper)
    (hstopped : keeper.queue.phase = .stopped) : keeper.notice = keeper :=
  notice_eq_self (h.outcome_eq_none (by rw [hstopped]; exact nofun))

/-! ## What a step does -/

section

variable {atHand : Option (ℕ × List α)} {isLate : Bool} {happenings : History α} {next : Keeper α}

/-- A queue that was told to stop stays so. -/
theorem Step.cancelled (h : Step atHand keeper isLate happenings next)
    (hcancelled : keeper.queue.cancelled = true) : next.queue.cancelled = true := by
  cases h with
  | add now items => exact (WorkQueue.cancelled_add now items).trans hcancelled
  | cancel => rfl
  | turn now => exact (cancelled_turn _ now).trans (cancelled_notice.trans hcancelled)
  | takeLate => exact cancelled_notice.trans hcancelled
  | addLate | start | learn => exact hcancelled

/-- A queue that was told to stop hands out a batch only if the keeper finds an elapsed window first. -/
theorem Step.begun_eq (h : Step atHand keeper isLate happenings next)
    (hcancelled : keeper.queue.cancelled = true) : happenings.begun = isLate.toNat := by
  -- Neither a caller nor a turn that looks at the token first begins a batch any more.
  cases h with
  | add now items =>
    rw [WorkQueue.accepts, if_pos hcancelled]
    rfl
  | turn now =>
    rw [(turn_of_cancelled (cancelled_notice.trans hcancelled) now).1]
    rfl
  | addLate | cancel | takeLate | start | learn => rfl

/-- The batch that the keeper takes because it finds an elapsed window first has an item. -/
theorem Step.late_le (h : Step atHand keeper isLate happenings next)
    (horderly : Orderly delay limit history keeper) : isLate.toNat ≤ happenings.handed.length := by
  cases h with
  | takeLate now hdue _ =>
    -- A window is open only while items wait, so there is something to take.
    obtain ⟨-, start, hopen, -⟩ := WorkQueue.due_eq_some.mp hdue
    have hbatch : keeper.notice.queue.take.1 ≠ [] :=
      WorkQueue.take_ne_nil (horderly.notice.tidy.pending_ne_nil hopen)
    have hhanded : History.handed [.handed now keeper.notice.queue.take.1] =
        keeper.notice.queue.take.1 := List.append_nil _
    rw [hhanded]
    exact List.length_pos_iff.mpr hbatch
  | add | addLate | cancel | turn | start | learn => exact Nat.zero_le _

/-- A keeper that has ended takes no batch any more. -/
theorem Step.of_stopped (h : Step atHand keeper isLate happenings next)
    (horderly : Orderly delay limit history keeper) (hstopped : keeper.queue.phase = .stopped) :
    next.queue.phase = .stopped ∧ isLate = false := by
  cases h with
  | add now items | addLate now items => exact ⟨(WorkQueue.phase_add now items).trans hstopped, rfl⟩
  | cancel | start => exact ⟨hstopped, rfl⟩
  | turn now =>
    have hidle : keeper.isIdle = false := decide_eq_false (by rw [hstopped]; exact nofun)
    rw [horderly.notice_of_stopped hstopped, Keeper.turn, hidle, if_neg Bool.false_ne_true]
    exact ⟨hstopped, rfl⟩
  | takeLate now hdue _ =>
    -- A batch is due only while the keeper waits.
    rw [horderly.notice_of_stopped hstopped, WorkQueue.due_eq_some, hstopped] at hdue
    exact absurd hdue.1 nofun
  | learn now ending hphase _ =>
    rw [hstopped] at hphase
    contradiction

end

/-! ## What happens from some point on -/

namespace Later

/-- What happens to a queue in a run goes on with the run. -/
theorem run (h : Later before first late history keeper) (hrun : Run delay limit before first) :
    Run delay limit (before ++ history) keeper := by
  induction h with
  | refl =>
    rw [List.append_nil]
    exact hrun
  | step _ hstep ih =>
    rw [← List.append_assoc]
    exact ih.step hstep

/-- A queue that was told to stop stays so. -/
theorem cancelled (h : Later before first late history keeper)
    (hcancelled : first.queue.cancelled = true) : keeper.queue.cancelled = true := by
  induction h with
  | refl => exact hcancelled
  | step _ hstep ih => exact hstep.cancelled ih

/-- After a queue was told to stop, the batches that are handed out are those that the keeper takes
because it finds an elapsed window first. -/
theorem begun_eq (h : Later before first late history keeper)
    (hcancelled : first.queue.cancelled = true) : history.begun = late := by
  induction h with
  | refl => rfl
  | step hlater hstep ih =>
    rw [History.begun_append, ih, hstep.begun_eq (hlater.cancelled hcancelled)]

/-- What is handed out from some point on and what waits in the end is what waited and what was accepted
after that. -/
theorem balance (h : Later before first late history keeper) (hrun : Run delay limit before first) :
    history.handed ++ keeper.queue.pending = first.queue.pending ++ history.accepted := by
  -- Both accounts balance, and the later one goes on with the earlier one.
  have hfirst := hrun.orderly.account
  have hlast := (h.run hrun).orderly.account
  rw [History.handed_append, History.accepted_append, ← hfirst, List.append_assoc,
    List.append_assoc] at hlast
  exact List.append_cancel_left hlast

/-- There are no more batches that the keeper takes because it finds an elapsed window first than items
that are handed out. -/
theorem late_le (h : Later before first late history keeper) (hrun : Run delay limit before first) :
    late ≤ history.handed.length := by
  induction h with
  | refl => exact Nat.zero_le _
  | step hlater hstep ih =>
    rw [History.handed_append, List.length_append]
    exact Nat.add_le_add ih (hstep.late_le (hlater.run hrun).orderly)

/-- A keeper that has ended takes no batch any more. -/
theorem of_stopped (h : Later before first late history keeper)
    (hrun : Run delay limit before first) (hstopped : first.queue.phase = .stopped) :
    keeper.queue.phase = .stopped ∧ late = 0 := by
  induction h with
  | refl => exact ⟨hstopped, rfl⟩
  | step hlater hstep ih =>
    obtain ⟨hphase, hearly⟩ := hstep.of_stopped (hlater.run hrun).orderly ih.1
    rw [hearly]
    exact ⟨hphase, ih.2⟩

/-- The batch that is worked on is left to end: until it does, it is worked on, and no other batch
begins. -/
theorem of_working (h : Later before first late history keeper) (hrun : Run delay limit before first)
    (hworking : first.isWorking = true) (hended : history.ended = 0) :
    keeper.isWorking = true ∧ history.begun = 0 := by
  have hfirst := hrun.orderly.turns
  have hlast := (h.run hrun).orderly.turns
  rw [hworking, if_pos rfl] at hfirst
  rw [History.begun_append, History.ended_append, hended, hfirst] at hlast
  split at hlast
  · next hstill => exact ⟨hstill, by omega⟩
  · omega

end Later

/-- A keeper that has not ended can find an elapsed window first if items wait. If its batch is worked
on, it does so when that ends. -/
theorem Run.exists_takeLate (hrun : Run delay limit history keeper)
    (hgoing : keeper.queue.phase ≠ .stopped) (hpending : keeper.queue.pending ≠ []) :
    ∃ more after, Later history keeper 1 more after ∧ more.accepted = [] := by
  have horderly := hrun.orderly
  have hopen : keeper.queue.windowStart ≠ none := fun hclosed =>
    hpending (horderly.tidy.mp hclosed)
  obtain ⟨start, hstart⟩ := Option.ne_none_iff_exists'.mp hopen
  -- Once the keeper waits, with the same window, it takes the batch when the window has elapsed.
  have htakes : ∀ {more : History α} {next : Keeper α}, Later history keeper 0 more next →
      more.accepted = [] → next.queue.windowStart = some start →
      next.notice.queue.phase = .waiting →
        ∃ more after, Later history keeper 1 more after ∧ more.accepted = [] := by
    intro more next hlater hnone hnext hphase
    have hdue : next.notice.queue.due = some (start + next.notice.queue.delay) :=
      WorkQueue.due_eq_some.mpr ⟨hphase, start, windowStart_notice.trans hnext, rfl⟩
    refine ⟨_, _, hlater.step (.takeLate _ hdue (Nat.le_refl _)), ?_⟩
    rw [History.accepted_concat, hnone]
    rfl
  cases hphase : keeper.queue.phase with
  | stopped => exact absurd hphase hgoing
  | waiting =>
    have houtcome : keeper.outcome = none :=
      horderly.outcome_eq_none (by rw [hphase]; exact nofun)
    refine htakes .refl rfl hstart ?_
    rw [notice_eq_self houtcome]
    exact hphase
  | working =>
    by_cases houtcome : keeper.outcome = none
    · refine htakes (Later.refl.step (.learn 0 .succeeded hphase houtcome)) rfl hstart ?_
      exact phase_notice (Option.some_ne_none _)
    · exact htakes .refl rfl hstart (phase_notice houtcome)

/-- One more batch can begin, without anything being added, exactly as long as the keeper has not ended
and items wait. -/
theorem Run.exists_takeLate_iff (hrun : Run delay limit history keeper) :
    (∃ more after, Later history keeper 1 more after ∧ more.accepted = []) ↔
      keeper.hasStopped = false ∧ keeper.queue.pending ≠ [] := by
  have hstopped : keeper.hasStopped = false ↔ keeper.queue.phase ≠ .stopped := decide_eq_false_iff_not
  rw [hstopped]
  refine ⟨fun ⟨more, after, hlater, hnone⟩ => ⟨fun hended => ?_, fun hempty => ?_⟩, fun h =>
    hrun.exists_takeLate h.1 h.2⟩
  · have hnever := (hlater.of_stopped hrun hended).2
    contradiction
  · -- The batch would have to be made of items that nobody added.
    have hsome := hlater.late_le hrun
    have hbalance := hlater.balance hrun
    rw [hempty, hnone, List.append_nil, List.append_eq_nil_iff] at hbalance
    rw [hbalance.1] at hsome
    contradiction

/-- What a queue does from the point on at which it was told to stop, whatever happens to it before and
after that, and wherever its keeper looks first:

- It stays told to stop, and it drops what is added; only callers that saw the token before it was
  cancelled may still have something accepted.
- A batch that is worked on at that point is left to end, and until it does no other begins.
- When the keeper looks at its token it hands out nothing, and it has ended after that unless a batch is
  worked on. A keeper that has ended takes no batch any more.
- The batches that begin after that point are those for which the keeper found an elapsed window before
  it looked at its token. They are made of what waited then and of what was still accepted, in this
  order, and there are no more of them than items.
- One more of them can begin exactly as long as the keeper has not ended and items wait. -/
theorem Run.after_cancel (hrun : Run delay limit before first)
    (hcancelled : first.queue.cancelled = true) (h : Later before first late history keeper) :
    (keeper.queue.cancelled = true ∧ ∀ now items, keeper.add now items = (false, keeper)) ∧
      (first.isWorking = true → history.ended = 0 →
        keeper.isWorking = true ∧ history.begun = 0) ∧
      (∀ now, (keeper.notice.turn now).1 = .rest ∧
        (keeper.notice.isIdle = true → (keeper.notice.turn now).2.hasStopped = true)) ∧
      (first.hasStopped = true → keeper.hasStopped = true ∧ history.begun = 0) ∧
      (history.begun = late ∧
        history.handed ++ keeper.queue.pending = first.queue.pending ++ history.accepted ∧
        late ≤ (first.queue.pending ++ history.accepted).length) ∧
      ((∃ more after, Later (before ++ history) keeper 1 more after ∧ more.accepted = []) ↔
        keeper.hasStopped = false ∧ keeper.queue.pending ≠ []) := by
  have htold := h.cancelled hcancelled
  have hbegun := h.begun_eq hcancelled
  have hbalance := h.balance hrun
  have hbound : late ≤ (first.queue.pending ++ history.accepted).length := by
    rw [← hbalance, List.length_append]
    exact Nat.le_add_right_of_le (h.late_le hrun)
  refine ⟨⟨htold, add_of_cancelled htold⟩, h.of_working hrun, fun now => ?_, fun hstopped => ?_,
    ⟨hbegun, hbalance, hbound⟩, (h.run hrun).exists_takeLate_iff⟩
  · obtain ⟨hrest, hends⟩ := turn_of_cancelled (cancelled_notice.trans htold) now
    exact ⟨hrest, fun hidle => hends (of_decide_eq_true hidle)⟩
  · obtain ⟨hended, hnever⟩ := h.of_stopped hrun (of_decide_eq_true hstopped)
    exact ⟨decide_eq_true hended, hbegun.trans hnever⟩

/-- The keeper of `pairs` after it handed out two of three numbers and was told to stop while they are
worked on. -/
def pairsTold : Keeper ℕ := ((pairs.add 0 [1, 2, 3]).2.notice.turn 10).2.cancel

/-- What happened to it until then. -/
def pairsToldHistory : History ℕ := [.accepted 0 [1, 2, 3], .handed 10 [1, 2], .started 10 [1, 2]]

/-- The keeper after its batch has ended and it found the window of the third number elapsed. -/
def pairsLate : Keeper ℕ :=
  { (pairsTold.learn .succeeded).notice with
    queue := (pairsTold.learn .succeeded).notice.queue.take.2, isArmed := false }

/-- The keeper is told to stop in a run. -/
theorem run_pairsTold : Run 10 2 pairsToldHistory pairsTold := by
  have hadded : Run 10 2 [.accepted 0 [1, 2, 3]] (pairs.add 0 [1, 2, 3]).2 :=
    (Run.new ⟨[0]⟩ false).step (.add 0 [1, 2, 3])
  exact ((hadded.step (.turn 10)).step (.start 10 rfl)).cancel

/-- Its batch may end, and it may find the window of the third number elapsed after that. -/
theorem later_pairsLate :
    Later pairsToldHistory pairsTold 1 [.ended 30, .handed 30 [3]] pairsLate := by
  have hended : Later pairsToldHistory pairsTold 0 [.ended 30] (pairsTold.learn .succeeded) :=
    Later.refl.step (.learn 30 .succeeded rfl rfl)
  exact hended.step (.takeLate 30 rfl (by decide))

/-- The keeper was told to stop while its first batch was worked on. When that ends, the third number is
past due, and the one batch that begins after that is made of it. -/
theorem after_cancel_of_pairs :
    Run 10 2 pairsToldHistory pairsTold ∧ pairsTold.queue.cancelled = true ∧
      Later pairsToldHistory pairsTold 1 [.ended 30, .handed 30 [3]] pairsLate ∧
      pairsLate.queue.cancelled = true ∧
      History.begun [.ended 30, .handed 30 [3]] = 1 ∧
      History.handed [.ended 30, .handed 30 [3]] ++ pairsLate.queue.pending =
        pairsTold.queue.pending ++ History.accepted [.ended 30, .handed 30 [3]] := by
  obtain ⟨⟨htold, -⟩, -, -, -, ⟨hbegun, hbalance, -⟩, -⟩ :=
    run_pairsTold.after_cancel rfl later_pairsLate
  exact ⟨run_pairsTold, rfl, later_pairsLate, htold, hbegun, hbalance⟩

/-- A batch begins after a queue was told to stop: the keeper finds the window of what the limit left over
elapsed when its batch ends. -/
theorem begins_after_cancel :
    Run 10 2 pairsToldHistory pairsTold ∧ pairsTold.queue.cancelled = true ∧
      Later pairsToldHistory pairsTold 1 [.ended 30, .handed 30 [3]] pairsLate ∧
      History.begun [.ended 30, .handed 30 [3]] ≠ 0 :=
  ⟨run_pairsTold, rfl, later_pairsLate, by decide⟩

end Keeper

end SolutionWatch
