import SolutionWatch.Proofs.Queue.Turns

/-!
# A queue neither loses, duplicates nor reorders its items

`Keeper.Step` is what can happen to a queue: a caller adds items, the keeper has a turn, the batch at hand
ends one way or another, or the queue is told to stop. Two things that happen although the queue was told
to stop are steps as well, because whoever does them may have looked at the token just before: a caller
puts its items behind those that wait, and the keeper takes a batch whose window has elapsed. In a
`Keeper.Run` steps are taken at any time and in any order. Its history lists the calls that added items,
the batches that were handed out, when the processor began to work on them, and when they ended.

`Keeper.Orderly` is the invariant. The batches so far and what waits make up what was accepted, in this
order; a window is open exactly while items wait; and the batches that were handed out are one more than
those that have ended while a batch is worked on, and else as many. A batch that is handed out in such a
state is as it has to be, so every batch of a history is (`Keeper.Run.conserves_items`).
-/

namespace SolutionWatch

/-- Something that happens to a queue. -/
inductive Happening (α : Type) where
  /-- Items are accepted. -/
  | accepted (time : ℕ) (items : List α)
  /-- A batch is handed to the processor. -/
  | handed (time : ℕ) (batch : List α)
  /-- The processor begins to work on the batch. -/
  | started (time : ℕ) (batch : List α)
  /-- The batch ends, one way or another. -/
  | ended (time : ℕ)

/-- What happened to a queue, oldest first. -/
abbrev History (α : Type) := List (Happening α)

namespace Happening

variable {α : Type}

/-- The items that are accepted. -/
def acceptedItems : Happening α → List α
  | .accepted _ items => items
  | _ => []

/-- The items that are handed out. -/
def handedItems : Happening α → List α
  | .handed _ batch => batch
  | _ => []

/-- Whether a batch is handed out. -/
def isHanded : Happening α → Bool
  | .handed _ _ => true
  | _ => false

/-- Whether a batch ends. -/
def isEnded : Happening α → Bool
  | .ended _ => true
  | _ => false

/-- The batch that was handed out and that the processor has not begun to work on, and when it was
handed out, after something happened. -/
def leavesAtHand (atHand : Option (ℕ × List α)) : Happening α → Option (ℕ × List α)
  | .accepted _ _ => atHand
  | .handed time batch => some (time, batch)
  | .started _ _ | .ended _ => none

end Happening

namespace History

variable {α : Type}

/-- The items that were accepted, call by call. -/
def accepted (history : History α) : List α := history.flatMap Happening.acceptedItems

/-- The items that were handed out, batch by batch. -/
def handed (history : History α) : List α := history.flatMap Happening.handedItems

/-- The number of batches that were handed out. -/
def begun (history : History α) : ℕ := history.countP Happening.isHanded

/-- The number of batches that have ended. -/
def ended (history : History α) : ℕ := history.countP Happening.isEnded

/-- The batch that was handed out and not begun, and when it was handed out. -/
def atHand (history : History α) : Option (ℕ × List α) :=
  history.foldl Happening.leavesAtHand none

/-- What is accepted last stands behind what was accepted before. -/
theorem accepted_concat (history : History α) (happening : Happening α) :
    accepted (history ++ [happening]) = history.accepted ++ happening.acceptedItems := by
  rw [accepted, accepted, List.flatMap_append, List.flatMap_singleton]

/-- What is handed out last stands behind what was handed out before. -/
theorem handed_concat (history : History α) (happening : Happening α) :
    handed (history ++ [happening]) = history.handed ++ happening.handedItems := by
  rw [handed, handed, List.flatMap_append, List.flatMap_singleton]

/-- One more happening counts if it hands out a batch. -/
theorem begun_concat (history : History α) (happening : Happening α) :
    begun (history ++ [happening]) = history.begun + if happening.isHanded then 1 else 0 := by
  rw [begun, begun, List.countP_append, List.countP_singleton]

/-- One more happening counts if it ends a batch. -/
theorem ended_concat (history : History α) (happening : Happening α) :
    ended (history ++ [happening]) = history.ended + if happening.isEnded then 1 else 0 := by
  rw [ended, ended, List.countP_append, List.countP_singleton]

/-- Whether a batch is at hand is a matter of what happened last. -/
theorem atHand_concat (history : History α) (happening : Happening α) :
    atHand (history ++ [happening]) = happening.leavesAtHand history.atHand := by
  rw [atHand, atHand, List.foldl_append, List.foldl_cons, List.foldl_nil]

/-- Everything in the history stands in this relation to what happened before it. -/
def Always (P : History α → Happening α → Prop) (history : History α) : Prop :=
  ∀ before happening, before ++ [happening] <+: history → P before happening

/-- Nothing has happened yet. -/
theorem always_nil (P : History α → Happening α → Prop) : Always P [] := by
  intro before happening h
  simp at h

/-- One more happening has to stand in the relation to what happened before it. -/
theorem Always.concat {P : History α → Happening α → Prop} {history : History α}
    (h : Always P history) {happening : Happening α} (hlast : P history happening) :
    Always P (history ++ [happening]) := by
  intro before other hprefix
  rcases List.prefix_concat_iff.mp hprefix with heq | hprefix
  · obtain ⟨rfl, hsame⟩ := List.append_inj' heq rfl
    rw [List.singleton_inj.mp hsame]
    exact hlast
  · exact h before other hprefix

/-- After this history, the batch may be handed out by a queue with this limit. -/
structure Permits (limit : ℕ) (before : History α) (batch : List α) : Prop where
  /-- The batch has an item. -/
  nonempty : batch ≠ []
  /-- The batch respects the limit, if there is one. -/
  bounded : 0 < limit → batch.length ≤ limit
  /-- Without a limit the batch is all that was accepted and not yet handed out. -/
  whole : limit = 0 → before.handed ++ batch = before.accepted
  /-- Every batch before it has ended. -/
  alone : before.begun = before.ended

/-- After this history, something may happen to a queue with this limit: a batch may be handed out, or
the processor may begin to work on one while all others have ended. -/
def Allows (limit : ℕ) (before : History α) : Happening α → Prop
  | .handed _ batch => Permits limit before batch
  | .started _ _ => before.begun = before.ended + 1
  | .accepted _ _ | .ended _ => True

end History

/-- What happens to a queue because of a move of its keeper. -/
def KeeperMove.happenings {α : Type} (now : ℕ) : KeeperMove α → History α
  | .hand batch => [.handed now batch]
  | .rest | .sleep _ => []

/-- What happens to a queue because of a call that adds items. A queue that was told to stop accepts
nothing. -/
def WorkQueue.accepts {α : Type} (queue : WorkQueue α) (now : ℕ) (items : List α) : History α :=
  if queue.cancelled then [] else [.accepted now items]

namespace Keeper

variable {α : Type} {delay limit : ℕ} {history : History α} {keeper : Keeper α}

/-- A step of a keeper with this batch at hand: whether the keeper takes a batch because it finds that a
window has elapsed before it looks at its token, what happens, and what the keeper becomes. -/
inductive Step (atHand : Option (ℕ × List α)) (keeper : Keeper α) :
    Bool → History α → Keeper α → Prop
  /-- A caller adds items. -/
  | add (now : ℕ) (items : List α) :
      Step atHand keeper false (keeper.queue.accepts now items) (keeper.add now items).2
  /-- A caller that saw the token before it was cancelled adds items. -/
  | addLate (now : ℕ) (items : List α) :
      Step atHand keeper false [.accepted now items]
        { keeper with queue :=
          { ({ keeper.queue with cancelled := false }).add now items with
            cancelled := keeper.queue.cancelled } }
  /-- The queue is told to stop. -/
  | cancel : Step atHand keeper false [] keeper.cancel
  /-- The keeper has a turn and looks at its token first. -/
  | turn (now : ℕ) :
      Step atHand keeper false ((keeper.notice.turn now).1.happenings now) (keeper.notice.turn now).2
  /-- The keeper has a turn and finds first that the window has elapsed. -/
  | takeLate {time : ℕ} (now : ℕ) (hdue : keeper.notice.queue.due = some time) (helapsed : time ≤ now) :
      Step atHand keeper true [.handed now keeper.notice.queue.take.1]
        { keeper.notice with queue := keeper.notice.queue.take.2, isArmed := false }
  /-- The processor begins to work on the batch that was handed out. -/
  | start {time : ℕ} {batch : List α} (now : ℕ) (hbatch : atHand = some (time, batch)) :
      Step atHand keeper false [.started now batch] keeper
  /-- The batch that was handed out ends. -/
  | learn (now : ℕ) (ending : Ending) (hphase : keeper.queue.phase = .working)
      (houtcome : keeper.outcome = none) :
      Step atHand keeper false [.ended now] (keeper.learn ending)

/-- The keepers that a new one with this delay and limit can become, and what happened on the way. -/
inductive Run (delay limit : ℕ) : History α → Keeper α → Prop
  /-- The queue is made; the token that it is made under may be cancelled already. -/
  | new (token : Token) (cancelled : Bool) :
      Run delay limit [] { queue := { delay := delay, limit := limit, cancelled := cancelled }
                           token := token }
  /-- The keeper takes a step. -/
  | step {history happenings : History α} {keeper next : Keeper α} {late : Bool} :
      Run delay limit history keeper → Step history.atHand keeper late happenings next →
        Run delay limit (history ++ happenings) next

/-- In a run the queue can be told to stop at any time. -/
theorem Run.cancel (h : Run delay limit history keeper) : Run delay limit history keeper.cancel := by
  have hstep : Run delay limit (history ++ []) keeper.cancel := h.step .cancel
  rwa [List.append_nil] at hstep

/-- A turn in which the keeper looks at the window first is one in which it looks at the token first, or
one in which it takes the batch that is due. -/
theorem Run.turnWindowFirst (h : Run delay limit history keeper) (now : ℕ) :
    Run delay limit (history ++ (keeper.notice.turnWindowFirst now).1.happenings now)
      (keeper.notice.turnWindowFirst now).2 := by
  obtain hsame | ⟨time, hdue, helapsed, hhand⟩ := keeper.notice.turnWindowFirst_cases now
  · rw [hsame]
    exact h.step (.turn now)
  · rw [hhand]
    exact h.step (.takeLate now hdue helapsed)

/-- Whether a batch is worked on. -/
def isWorking (keeper : Keeper α) : Bool :=
  decide (keeper.queue.phase = .working) && keeper.outcome.isNone

/-- What holds of a queue and its history at every time. -/
structure Orderly (delay limit : ℕ) (history : History α) (keeper : Keeper α) : Prop where
  /-- The length of windows stays what it was. -/
  sameDelay : keeper.queue.delay = delay
  /-- The limit of batches stays what it was. -/
  sameLimit : keeper.queue.limit = limit
  /-- A window is open exactly while items wait. -/
  tidy : keeper.queue.Tidy
  /-- Only a batch that was handed out has an outcome. -/
  awaited : keeper.outcome ≠ none → keeper.queue.phase = .working
  /-- The batches so far and what waits make up what was accepted. -/
  account : history.handed ++ keeper.queue.pending = history.accepted
  /-- All batches have ended but the one that is worked on. -/
  turns : history.begun = history.ended + if keeper.isWorking then 1 else 0
  /-- A batch that was handed out and not begun is the one that is worked on. -/
  atHand : history.atHand ≠ none → keeper.isWorking = true
  /-- Everything was allowed to happen when it did. -/
  lawful : history.Always (History.Allows limit)

/-- A batch is worked on while the queue says so and the batch has no outcome. -/
theorem isWorking_iff :
    keeper.isWorking = true ↔ keeper.queue.phase = .working ∧ keeper.outcome = none := by
  rw [isWorking, Bool.and_eq_true, decide_eq_true_iff, Option.isNone_iff_eq_none]

/-- Whether a batch is worked on is a matter of the phase of the queue. -/
theorem isWorking_of_phase {queue : WorkQueue α} (hphase : queue.phase = keeper.queue.phase) :
    ({ keeper with queue := queue } : Keeper α).isWorking = keeper.isWorking := by
  unfold isWorking
  rw [hphase]

/-- A keeper that waits works on no batch. -/
theorem isWorking_of_waiting (hphase : keeper.queue.phase = .waiting) :
    keeper.isWorking = false := by
  rw [isWorking, hphase]
  rfl

/-- A new queue has no history. -/
theorem orderly_new (delay limit : ℕ) (token : Token) (cancelled : Bool) :
    Orderly (α := α) delay limit [] { queue := { delay := delay, limit := limit, cancelled := cancelled }
                                      token := token } where
  sameDelay := rfl
  sameLimit := rfl
  tidy := iff_of_true rfl rfl
  awaited h := absurd rfl h
  account := rfl
  turns := rfl
  atHand h := absurd rfl h
  lawful := History.always_nil _

namespace Orderly

/-- Items that are put behind those that wait are accounted for. -/
theorem accept (h : Orderly delay limit history keeper) {queue : WorkQueue α} {items : List α}
    (now : ℕ) (hdelay : queue.delay = keeper.queue.delay)
    (hlimit : queue.limit = keeper.queue.limit) (hphase : queue.phase = keeper.queue.phase)
    (htidy : queue.Tidy) (hpending : queue.pending = keeper.queue.pending ++ items) :
    Orderly delay limit (history ++ [.accepted now items]) { keeper with queue := queue } where
  sameDelay := hdelay.trans h.sameDelay
  sameLimit := hlimit.trans h.sameLimit
  tidy := htidy
  awaited houtcome := hphase.trans (h.awaited houtcome)
  account := by
    have hhanded : History.handed (history ++ [.accepted now items]) = history.handed := by
      rw [History.handed_concat]
      exact List.append_nil _
    rw [hhanded, History.accepted_concat, hpending, ← List.append_assoc, h.account]
    rfl
  turns := by
    rw [History.begun_concat, History.ended_concat, isWorking_of_phase hphase]
    exact h.turns
  atHand := by
    rw [History.atHand_concat, isWorking_of_phase hphase]
    exact h.atHand
  lawful := h.lawful.concat trivial

/-- A call that adds items keeps a queue orderly. -/
theorem add (h : Orderly delay limit history keeper) (now : ℕ) (items : List α) :
    Orderly delay limit (history ++ keeper.queue.accepts now items) (keeper.add now items).2 := by
  cases hcancelled : keeper.queue.cancelled with
  | true =>
    have hsame : keeper.queue.add now items = keeper.queue :=
      WorkQueue.add_of_cancelled hcancelled now items
    have hkeeper : (keeper.add now items).2 = keeper := by rw [Keeper.add, hsame]
    rw [WorkQueue.accepts, hcancelled, if_pos rfl, List.append_nil, hkeeper]
    exact h
  | false =>
    rw [WorkQueue.accepts, hcancelled, if_neg Bool.false_ne_true]
    exact h.accept now (WorkQueue.delay_add now items) (WorkQueue.limit_add now items)
      (WorkQueue.phase_add now items) (h.tidy.add now items)
      (WorkQueue.pending_add hcancelled now items)

/-- So does a call that saw the token before it was cancelled. -/
theorem addLate (h : Orderly delay limit history keeper) (now : ℕ) (items : List α) :
    Orderly delay limit (history ++ [.accepted now items])
      { keeper with queue :=
        { ({ keeper.queue with cancelled := false }).add now items with
          cancelled := keeper.queue.cancelled } } := by
  have htidy : ({ keeper.queue with cancelled := false } : WorkQueue α).Tidy := h.tidy
  exact h.accept now (WorkQueue.delay_add now items) (WorkQueue.limit_add now items)
    (WorkQueue.phase_add now items) (htidy.add now items) (WorkQueue.pending_add rfl now items)

/-- A keeper that does not wait for a batch has no outcome to notice. -/
theorem outcome_eq_none (h : Orderly delay limit history keeper)
    (hphase : keeper.queue.phase ≠ .working) : keeper.outcome = none :=
  not_ne_iff.mp fun hne => hphase (h.awaited hne)

/-- Noticing how a batch ended keeps a queue orderly: the batch had ended before. -/
theorem notice (h : Orderly delay limit history keeper) :
    Orderly delay limit history keeper.notice := by
  cases houtcome : keeper.outcome with
  | none =>
    rw [notice_eq_self houtcome]
    exact h
  | some ending =>
    have hsame : keeper.notice = { keeper with queue := keeper.queue.finish, outcome := none } := by
      rw [Keeper.notice, houtcome]
    have hbefore : keeper.isWorking = false := by
      rw [isWorking, houtcome, Option.isNone_some, Bool.and_false]
    have hturns := h.turns
    have hnone := h.atHand
    rw [hbefore] at hturns hnone
    rw [hsame]
    exact { h with awaited := fun hne => absurd rfl hne, turns := hturns, atHand := hnone }

/-- A keeper that waits with an open window may hand out the next batch. -/
theorem hand (h : Orderly delay limit history keeper) {start : ℕ}
    (hphase : keeper.queue.phase = .waiting) (hopen : keeper.queue.windowStart = some start)
    (now : ℕ) :
    Orderly delay limit (history ++ [.handed now keeper.queue.take.1])
      { keeper with queue := keeper.queue.take.2, isArmed := false } := by
  have hpending := h.tidy.pending_ne_nil hopen
  have houtcome : keeper.outcome = none := h.outcome_eq_none (by rw [hphase]; exact nofun)
  have halone : history.begun = history.ended := by
    have hturns := h.turns
    rw [isWorking_of_waiting hphase] at hturns
    exact hturns
  have hworking : ({ keeper with queue := keeper.queue.take.2, isArmed := false } :
      Keeper α).isWorking = true := isWorking_iff.mpr ⟨rfl, houtcome⟩
  have hpermits : History.Permits limit history keeper.queue.take.1 :=
    { nonempty := WorkQueue.take_ne_nil hpending
      bounded := fun hlimit => by
        rw [← h.sameLimit] at hlimit ⊢
        exact WorkQueue.length_take_le hlimit
      whole := fun hlimit => by
        rw [WorkQueue.take_of_limit_zero (h.sameLimit.trans hlimit), h.account]
      alone := halone }
  exact
    { sameDelay := h.sameDelay
      sameLimit := h.sameLimit
      tidy := h.tidy.take
      awaited := fun _ => rfl
      account := by
        have haccepted : History.accepted (history ++ [.handed now keeper.queue.take.1]) =
            history.accepted := by
          rw [History.accepted_concat]
          exact List.append_nil _
        rw [haccepted, History.handed_concat, ← h.account, ← keeper.queue.take_append_pending,
          ← List.append_assoc]
        rfl
      turns := by
        rw [History.begun_concat, History.ended_concat, hworking, halone]
        rfl
      atHand := fun _ => hworking
      lawful := h.lawful.concat hpermits }

/-- A turn keeps a queue orderly. -/
theorem turn (h : Orderly delay limit history keeper) (now : ℕ) :
    Orderly delay limit (history ++ (keeper.notice.turn now).1.happenings now)
      (keeper.notice.turn now).2 := by
  have hnoticed := h.notice
  have hturn := keeper.notice.turnCase now
  generalize keeper.notice = noticed at hnoticed hturn ⊢
  generalize noticed.turn now = result at hturn ⊢
  have hquiet : history ++ [] = history := List.append_nil history
  cases hturn with
  | occupied | closed | armed =>
    rw [KeeperMove.happenings, hquiet]
    exact hnoticed
  | arming =>
    rw [KeeperMove.happenings, hquiet]
    exact { hnoticed with }
  | stopping hphase =>
    -- A keeper that ends was waiting, so it had nothing to notice.
    have houtcome : noticed.outcome = none :=
      hnoticed.outcome_eq_none (by rw [hphase]; exact nofun)
    have hturns := hnoticed.turns
    have hnone := hnoticed.atHand
    rw [isWorking_of_waiting hphase] at hturns hnone
    rw [KeeperMove.happenings, hquiet]
    exact { hnoticed with
      awaited := fun hne => absurd houtcome hne, turns := hturns, atHand := hnone }
  | elapsed hphase _ hopen => exact hnoticed.hand hphase hopen now

/-- Beginning to work on a batch keeps a queue orderly: it is the one batch that has not ended. -/
theorem start (h : Orderly delay limit history keeper) {time : ℕ} {batch : List α}
    (hbatch : history.atHand = some (time, batch)) (now : ℕ) :
    Orderly delay limit (history ++ [.started now batch]) keeper := by
  have hworking : keeper.isWorking = true := h.atHand (by rw [hbatch]; exact nofun)
  have hturns := h.turns
  rw [hworking, if_pos rfl] at hturns
  exact
    { sameDelay := h.sameDelay
      sameLimit := h.sameLimit
      tidy := h.tidy
      awaited := h.awaited
      account := by
        rw [History.handed_concat, History.accepted_concat]
        show history.handed ++ [] ++ keeper.queue.pending = history.accepted ++ []
        rw [List.append_nil, List.append_nil, h.account]
      turns := by
        rw [History.begun_concat, History.ended_concat]
        exact h.turns
      atHand := fun _ => hworking
      lawful := h.lawful.concat hturns }

/-- The end of the batch that is worked on keeps a queue orderly. -/
theorem learn (h : Orderly delay limit history keeper) (hphase : keeper.queue.phase = .working)
    (houtcome : keeper.outcome = none) (now : ℕ) (ending : Ending) :
    Orderly delay limit (history ++ [.ended now]) (keeper.learn ending) where
  sameDelay := h.sameDelay
  sameLimit := h.sameLimit
  tidy := h.tidy
  awaited _ := hphase
  account := by
    rw [History.handed_concat, History.accepted_concat]
    show history.handed ++ [] ++ keeper.queue.pending = history.accepted ++ []
    rw [List.append_nil, List.append_nil, h.account]
  turns := by
    have hbefore : keeper.isWorking = true := isWorking_iff.mpr ⟨hphase, houtcome⟩
    have hafter : (keeper.learn ending).isWorking = false := Bool.and_false _
    have hturns := h.turns
    rw [hbefore, if_pos rfl] at hturns
    rw [History.begun_concat, History.ended_concat, hafter, hturns]
    rfl
  atHand hne := by
    rw [History.atHand_concat] at hne
    exact absurd rfl hne
  lawful := h.lawful.concat trivial

end Orderly

/-- Every step keeps a queue orderly. -/
theorem Orderly.step {happenings : History α} {next : Keeper α} {late : Bool}
    (h : Orderly delay limit history keeper) (hstep : Step history.atHand keeper late happenings next) :
    Orderly delay limit (history ++ happenings) next := by
  cases hstep with
  | add now items => exact h.add now items
  | addLate now items => exact h.addLate now items
  | cancel =>
    rw [List.append_nil]
    exact { h with }
  | turn now => exact h.turn now
  | takeLate now hdue _ =>
    -- A batch is due only while the keeper waits with an open window.
    obtain ⟨hphase, start, hopen, -⟩ := WorkQueue.due_eq_some.mp hdue
    exact h.notice.hand hphase hopen now
  | start now hbatch => exact h.start hbatch now
  | learn now ending hphase houtcome => exact h.learn hphase houtcome now ending

/-- Whatever happens to a queue, it stays orderly. -/
theorem Run.orderly (h : Run delay limit history keeper) : Orderly delay limit history keeper := by
  induction h with
  | new token cancelled => exact orderly_new delay limit token cancelled
  | step _ hstep ih => exact ih.step hstep

/-- Whatever happens to a queue, with any delay and any limit: the batches that were handed out so far
and the items that wait make up the items that were accepted, in the order in which they were. Each
batch has an item, is no larger than the limit if there is one, is else all that was waiting, and was
handed out only after every batch before it had ended. When the processor begins to work on a batch, that
batch is the only one that has not ended. -/
theorem Run.conserves_items (h : Run delay limit history keeper) :
    history.handed ++ keeper.queue.pending = history.accepted ∧
      (∀ (before : History α) (time : ℕ) (batch : List α),
        before ++ [.handed time batch] <+: history →
          batch ≠ [] ∧ (0 < limit → batch.length ≤ limit) ∧
            (limit = 0 → before.handed ++ batch = before.accepted) ∧
            before.begun = before.ended) ∧
      ∀ (before : History α) (time : ℕ) (batch : List α),
        before ++ [.started time batch] <+: history → before.begun = before.ended + 1 := by
  refine ⟨h.orderly.account, fun before time batch hprefix => ?_, fun before time batch hprefix => ?_⟩
  · obtain ⟨hnonempty, hbounded, hwhole, halone⟩ := h.orderly.lawful before _ hprefix
    exact ⟨hnonempty, hbounded, hwhole, halone⟩
  · exact h.orderly.lawful before _ hprefix

/-- A keeper of a queue with batches of two numbers. -/
def pairs : Keeper ℕ := { queue := { delay := 10, limit := 2 }, token := ⟨[0]⟩ }

/-- The keeper after it handed out two of three numbers, took in a fourth one, was told to stop, and
learnt that its batch was cancelled. -/
def pairsCancelled : Keeper ℕ :=
  ((((pairs.add 0 [1, 2, 3]).2.notice.turn 10).2.add 12 [4]).2.cancel).learn (.failed .cancelled)

/-- What a queue was told to stop with is still accounted for. -/
theorem conserves_items_of_cancelled :
    let history : History ℕ :=
      [.accepted 0 [1, 2, 3], .handed 10 [1, 2], .started 10 [1, 2], .accepted 12 [4], .ended 15]
    Run 10 2 history pairsCancelled ∧
      history.handed ++ pairsCancelled.queue.pending = history.accepted ∧
        (∀ (before : History ℕ) (time : ℕ) (batch : List ℕ),
          before ++ [.handed time batch] <+: history →
            batch ≠ [] ∧ (0 < 2 → batch.length ≤ 2) ∧
              (2 = 0 → before.handed ++ batch = before.accepted) ∧
              before.begun = before.ended) ∧
        ∀ (before : History ℕ) (time : ℕ) (batch : List ℕ),
          before ++ [.started time batch] <+: history → before.begun = before.ended + 1 := by
  intro history
  have hadded : Run 10 2 [.accepted 0 [1, 2, 3]] (pairs.add 0 [1, 2, 3]).2 :=
    (Run.new ⟨[0]⟩ false).step (.add 0 [1, 2, 3])
  have hbegun : Run 10 2 [.accepted 0 [1, 2, 3], .handed 10 [1, 2], .started 10 [1, 2]]
      ((pairs.add 0 [1, 2, 3]).2.notice.turn 10).2 := (hadded.step (.turn 10)).step (.start 10 rfl)
  have hrun : Run 10 2 history pairsCancelled :=
    (hbegun.step (.add 12 [4])).cancel.step (.learn 15 (.failed .cancelled) rfl rfl)
  exact ⟨hrun, hrun.conserves_items⟩

end Keeper

end SolutionWatch
