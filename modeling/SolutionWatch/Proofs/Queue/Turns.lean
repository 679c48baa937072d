import Mathlib.Data.List.Basic
import SolutionWatch.Session.Keeper

/-!
# What a queue and its keeper can do

`WorkQueue.Tidy` says that a window is open exactly while items wait. Adding and taking keep it so, and
the batch that is taken from a tidy queue with an open window is not empty.

`Keeper.TurnCase` lists what a keeper can do in a turn, each case with all that makes the keeper do it;
`Keeper.turnCase` says that there is no other. Whatever is proved about a turn goes over these cases. A
keeper that looks at the window first does the same unless it was told to stop, and then it may hand out
one more batch (`Keeper.turnWindowFirst_cases`).
-/

namespace SolutionWatch

namespace WorkQueue

variable {α : Type} {queue : WorkQueue α}

/-- A queue that was not told to stop puts what is added behind what waits. -/
theorem pending_add (h : queue.cancelled = false) (now : ℕ) (items : List α) :
    (queue.add now items).pending = queue.pending ++ items := by
  rw [add, h, Bool.false_or]
  split
  · next hitems => rw [List.isEmpty_iff.mp hitems, List.append_nil]
  · rfl

/-- What waits after items were added waited before, or it was added. -/
theorem mem_pending_add {now : ℕ} {items : List α} {item : α}
    (h : item ∈ (queue.add now items).pending) : item ∈ queue.pending ∨ item ∈ items := by
  unfold add at h
  split at h
  · exact .inl h
  · exact List.mem_append.mp h

/-- Adding items does not stop the queue. -/
@[simp] theorem cancelled_add (now : ℕ) (items : List α) :
    (queue.add now items).cancelled = queue.cancelled := by
  unfold add
  split <;> rfl

/-- Adding items does not touch the batch that is worked on. -/
@[simp] theorem phase_add (now : ℕ) (items : List α) :
    (queue.add now items).phase = queue.phase := by
  unfold add
  split <;> rfl

/-- Adding items leaves the length of windows. -/
@[simp] theorem delay_add (now : ℕ) (items : List α) :
    (queue.add now items).delay = queue.delay := by
  unfold add
  split <;> rfl

/-- Adding items leaves the limit of batches. -/
@[simp] theorem limit_add (now : ℕ) (items : List α) :
    (queue.add now items).limit = queue.limit := by
  unfold add
  split <;> rfl

/-- A queue that was told to stop takes nothing in. -/
theorem add_of_cancelled (h : queue.cancelled = true) (now : ℕ) (items : List α) :
    queue.add now items = queue := by
  rw [add, h, Bool.true_or, if_pos rfl]

/-- Adding nothing changes nothing. -/
theorem add_nil (now : ℕ) : queue.add now [] = queue := by
  rw [add, List.isEmpty_nil, Bool.or_true, if_pos rfl]

/-- Adding something to a queue that was not told to stop leaves an open window as it is and else opens
one. -/
theorem windowStart_add (h : queue.cancelled = false) {items : List α} (hitems : items ≠ [])
    (now : ℕ) : (queue.add now items).windowStart = queue.windowStart.or (some now) := by
  have hempty : items.isEmpty = false := by simpa using hitems
  rw [add, h, hempty]
  rfl

/-- A window is open exactly while items wait. -/
def Tidy (queue : WorkQueue α) : Prop := queue.windowStart = none ↔ queue.pending = []

/-- Adding keeps a queue tidy. -/
theorem Tidy.add (h : queue.Tidy) (now : ℕ) (items : List α) : (queue.add now items).Tidy := by
  cases hcancelled : queue.cancelled with
  | true =>
    rw [add_of_cancelled hcancelled]
    exact h
  | false =>
    by_cases hitems : items = []
    · rw [hitems, add_nil]
      exact h
    · have hpending := pending_add hcancelled now items
      have hopen := windowStart_add hcancelled hitems now
      unfold Tidy
      rw [hpending, hopen]
      simp [hitems]

/-- Taking a batch keeps a queue tidy. -/
theorem Tidy.take (h : queue.Tidy) : queue.take.2.Tidy := by
  unfold Tidy at *
  show (if (queue.pending.drop queue.batchSize).isEmpty then none else queue.windowStart) = none ↔
    queue.pending.drop queue.batchSize = []
  split
  · next hempty => simpa using hempty
  · next hleft =>
    -- What is left over was pending before, so the window was open.
    have hrest : queue.pending.drop queue.batchSize ≠ [] := by simpa using hleft
    have hpending : queue.pending ≠ [] := by
      intro hnone
      rw [hnone, List.drop_nil] at hrest
      exact hrest rfl
    exact iff_of_false (mt h.mp hpending) hrest

/-- Items wait in a tidy queue with an open window. -/
theorem Tidy.pending_ne_nil (h : queue.Tidy) {start : ℕ} (hopen : queue.windowStart = some start) :
    queue.pending ≠ [] := by
  intro hnone
  rw [h.mpr hnone] at hopen
  contradiction

/-- The next batch has an item if any waits. -/
theorem batchSize_pos (h : queue.pending ≠ []) : 0 < queue.batchSize := by
  have hpending : 0 < queue.pending.length := List.length_pos_iff.mpr h
  unfold batchSize
  split <;> omega

/-- The next batch is no larger than what waits. -/
theorem batchSize_le (queue : WorkQueue α) : queue.batchSize ≤ queue.pending.length := by
  unfold batchSize
  split <;> omega

/-- The next batch is not empty if any item waits. -/
theorem take_ne_nil (h : queue.pending ≠ []) : queue.take.1 ≠ [] := by
  have hlength : queue.take.1.length = min queue.batchSize queue.pending.length :=
    List.length_take
  have hpos := batchSize_pos h
  have hle := queue.batchSize_le
  intro hnone
  rw [hnone, List.length_nil] at hlength
  omega

/-- The next batch respects the limit, if there is one. -/
theorem length_take_le (h : 0 < queue.limit) : queue.take.1.length ≤ queue.limit := by
  have hlength : queue.take.1.length = min queue.batchSize queue.pending.length :=
    List.length_take
  have hsize : queue.batchSize = min queue.limit queue.pending.length := if_neg (by omega)
  omega

/-- A batch is due when a window is open and the consumer waits for its end. -/
theorem due_eq_some {time : ℕ} :
    queue.due = some time ↔
      queue.phase = .waiting ∧ ∃ start, queue.windowStart = some start ∧ start + queue.delay = time := by
  unfold due
  split
  · next hphase => rw [Option.map_eq_some_iff, and_iff_right hphase]
  · next hphase => exact iff_of_false nofun fun h => hphase h.1

/-- Without a limit the next batch is all that waits. -/
theorem take_of_limit_zero (h : queue.limit = 0) : queue.take.1 = queue.pending := by
  have hsize : queue.batchSize = queue.pending.length := if_pos h
  show queue.pending.take queue.batchSize = queue.pending
  rw [hsize, List.take_length]

end WorkQueue

namespace Keeper

variable {α : Type} {keeper : Keeper α}

/-- Noticing how a batch ended does not stop the queue. -/
@[simp] theorem cancelled_notice : keeper.notice.queue.cancelled = keeper.queue.cancelled := by
  unfold notice
  split <;> rfl

/-- Noticing how a batch ended leaves the token. -/
@[simp] theorem token_notice : keeper.notice.token = keeper.token := by
  unfold notice
  split <;> rfl

/-- Noticing how a batch ended leaves the items that wait. -/
@[simp] theorem pending_notice : keeper.notice.queue.pending = keeper.queue.pending := by
  unfold notice
  split <;> rfl

/-- Noticing how a batch ended leaves the open window. -/
@[simp] theorem windowStart_notice :
    keeper.notice.queue.windowStart = keeper.queue.windowStart := by
  unfold notice
  split <;> rfl

/-- Noticing how a batch ended leaves the length of windows. -/
@[simp] theorem delay_notice : keeper.notice.queue.delay = keeper.queue.delay := by
  unfold notice
  split <;> rfl

/-- Noticing how a batch ended leaves the limit of batches. -/
@[simp] theorem limit_notice : keeper.notice.queue.limit = keeper.queue.limit := by
  unfold notice
  split <;> rfl

/-- Noticing how a batch ended sets no alarm. -/
@[simp] theorem isArmed_notice : keeper.notice.isArmed = keeper.isArmed := by
  unfold notice
  split <;> rfl

/-- Noticing how a batch ended leaves a queue as tidy as it was. -/
theorem tidy_notice : keeper.notice.queue.Tidy ↔ keeper.queue.Tidy := by
  rw [WorkQueue.Tidy, WorkQueue.Tidy, windowStart_notice, pending_notice]

/-- Without an outcome there is nothing to notice. -/
theorem notice_eq_self (h : keeper.outcome = none) : keeper.notice = keeper := by
  rw [notice, h]

/-- A keeper that has noticed how its batch ended waits. -/
theorem phase_notice (h : keeper.outcome ≠ none) : keeper.notice.queue.phase = .waiting := by
  obtain ⟨ending, hending⟩ := Option.ne_none_iff_exists'.mp h
  rw [notice, hending]
  rfl

/-- A keeper that has noticed has nothing more to notice. -/
@[simp] theorem outcome_notice : keeper.notice.outcome = none := by
  unfold notice
  split
  · rfl
  · next h => exact h

/-- What a keeper does in a turn at a time, once it has noticed what there is to notice. -/
inductive TurnCase (keeper : Keeper α) (now : ℕ) : KeeperMove α × Keeper α → Prop
  /-- A batch is worked on, or the keeper has ended. -/
  | occupied : keeper.queue.phase ≠ .waiting → TurnCase keeper now (.rest, keeper)
  /-- The keeper was told to stop. -/
  | stopping : keeper.queue.phase = .waiting → keeper.queue.cancelled = true →
      TurnCase keeper now
        (.rest, { keeper with queue := { keeper.queue with phase := .stopped } })
  /-- No window is open. -/
  | closed : keeper.queue.phase = .waiting → keeper.queue.cancelled = false →
      keeper.queue.windowStart = none → TurnCase keeper now (.rest, keeper)
  /-- The window has elapsed. -/
  | elapsed {start : ℕ} : keeper.queue.phase = .waiting → keeper.queue.cancelled = false →
      keeper.queue.windowStart = some start → start + keeper.queue.delay ≤ now →
      TurnCase keeper now
        (.hand keeper.queue.take.1, { keeper with queue := keeper.queue.take.2, isArmed := false })
  /-- The window has not elapsed, and the keeper has asked to be woken then. -/
  | armed {start : ℕ} : keeper.queue.phase = .waiting → keeper.queue.cancelled = false →
      keeper.queue.windowStart = some start → now < start + keeper.queue.delay →
      keeper.isArmed = true → TurnCase keeper now (.rest, keeper)
  /-- The window has not elapsed, and the keeper asks to be woken then. -/
  | arming {start : ℕ} : keeper.queue.phase = .waiting → keeper.queue.cancelled = false →
      keeper.queue.windowStart = some start → now < start + keeper.queue.delay →
      keeper.isArmed = false →
      TurnCase keeper now (.sleep (start + keeper.queue.delay), { keeper with isArmed := true })

/-- A turn is one of these cases. -/
theorem turnCase (keeper : Keeper α) (now : ℕ) : TurnCase keeper now (keeper.turn now) := by
  by_cases hphase : keeper.queue.phase = .waiting
  · have hidle : keeper.isIdle = true := decide_eq_true hphase
    rw [turn, if_pos hidle]
    cases hcancelled : keeper.queue.cancelled with
    | true =>
      have hstop : keeper.queue.stop = { keeper.queue with phase := .stopped } :=
        if_pos (by rw [hcancelled, hphase]; rfl)
      rw [if_pos rfl, hstop]
      exact .stopping hphase hcancelled
    | false =>
      have hdue : keeper.queue.due = keeper.queue.windowStart.map (· + keeper.queue.delay) :=
        if_pos hphase
      rw [if_neg Bool.false_ne_true, hdue]
      cases hopen : keeper.queue.windowStart with
      | none => exact .closed hphase hcancelled hopen
      | some start =>
        simp only [Option.map_some]
        split
        · next helapsed => exact .elapsed hphase hcancelled hopen helapsed
        · next hearly =>
          have hearly : now < start + keeper.queue.delay := Nat.lt_of_not_le hearly
          split
          · next harmed => exact .armed hphase hcancelled hopen hearly harmed
          · next hunarmed => exact .arming hphase hcancelled hopen hearly (eq_false_of_ne_true hunarmed)
  · have hidle : keeper.isIdle = false := decide_eq_false hphase
    rw [turn, hidle, if_neg Bool.false_ne_true]
    exact .occupied hphase

/-- A turn does not tell the queue to stop. -/
theorem cancelled_turn (keeper : Keeper α) (now : ℕ) :
    (keeper.turn now).2.queue.cancelled = keeper.queue.cancelled := by
  have hturn := keeper.turnCase now
  generalize keeper.turn now = result at hturn ⊢
  cases hturn <;> rfl

/-- A keeper that looks at the window first hands out the batch that is due, and else its turn is the same
as if it looked at the token first. -/
theorem turnWindowFirst_cases (keeper : Keeper α) (now : ℕ) :
    keeper.turnWindowFirst now = keeper.turn now ∨
      ∃ time, keeper.queue.due = some time ∧ time ≤ now ∧ keeper.turnWindowFirst now =
        (.hand keeper.queue.take.1,
          { keeper with queue := keeper.queue.take.2, isArmed := false }) := by
  unfold turnWindowFirst
  cases hdue : keeper.queue.due with
  | none => exact .inl rfl
  | some time =>
    rw [Option.any_some]
    split
    · next helapsed => exact .inr ⟨time, rfl, of_decide_eq_true helapsed, rfl⟩
    · exact .inl rfl

/-- Where a keeper looks first is all the same while it was not told to stop. -/
theorem turnWindowFirst_eq_turn (hcancelled : keeper.queue.cancelled = false) (now : ℕ) :
    keeper.turnWindowFirst now = keeper.turn now := by
  obtain hsame | ⟨time, hdue, helapsed, hhand⟩ := keeper.turnWindowFirst_cases now
  · exact hsame
  · have hphase := (WorkQueue.due_eq_some.mp hdue).1
    have hidle : keeper.isIdle = true := decide_eq_true hphase
    rw [hhand, turn, if_pos hidle, hcancelled, if_neg Bool.false_ne_true, hdue]
    exact (if_pos helapsed).symm

/-- Looking at the window first does not tell the queue to stop. -/
theorem cancelled_turnWindowFirst (keeper : Keeper α) (now : ℕ) :
    (keeper.turnWindowFirst now).2.queue.cancelled = keeper.queue.cancelled := by
  obtain hsame | ⟨_, _, _, hhand⟩ := keeper.turnWindowFirst_cases now
  · rw [hsame]
    exact keeper.cancelled_turn now
  · rw [hhand]
    rfl

/-- A keeper rests while its batch is worked on. -/
theorem turn_of_working (h : keeper.queue.phase = .working) (now : ℕ) :
    keeper.turn now = (.rest, keeper) := by
  have hidle : keeper.isIdle = false := decide_eq_false (by rw [h]; exact nofun)
  rw [turn, hidle, if_neg Bool.false_ne_true]

/-- A keeper that was not told to stop rests until its alarm goes off. -/
theorem turn_of_armed {start now : ℕ} (hcancelled : keeper.queue.cancelled = false)
    (hopen : keeper.queue.windowStart = some start) (hearly : now < start + keeper.queue.delay)
    (harmed : keeper.isArmed = true) : keeper.turn now = (.rest, keeper) := by
  have hturn := keeper.turnCase now
  generalize keeper.turn now = result at hturn ⊢
  cases hturn with
  | occupied | closed | armed => rfl
  | stopping _ htold => exact absurd htold (ne_true_of_eq_false hcancelled)
  | elapsed _ _ hother helapsed =>
    obtain rfl := Option.some.inj (hopen.symm.trans hother)
    omega
  | arming _ _ _ _ hunarmed => exact absurd harmed (ne_true_of_eq_false hunarmed)

/-- A keeper that was not told to stop hands out a batch once the window has elapsed. -/
theorem turn_of_elapsed {start now : ℕ} (hphase : keeper.queue.phase = .waiting)
    (hcancelled : keeper.queue.cancelled = false) (hopen : keeper.queue.windowStart = some start)
    (helapsed : start + keeper.queue.delay ≤ now) :
    (keeper.turn now).1 = .hand keeper.queue.take.1 := by
  have hturn := keeper.turnCase now
  generalize keeper.turn now = result at hturn ⊢
  cases hturn with
  | occupied hother => exact absurd hphase hother
  | stopping _ htold => exact absurd htold (ne_true_of_eq_false hcancelled)
  | closed _ _ hclosed => exact nomatch hclosed.symm.trans hopen
  | elapsed => rfl
  | armed _ _ hother hearly | arming _ _ hother hearly =>
    obtain rfl := Option.some.inj (hopen.symm.trans hother)
    omega

/-- A keeper that was not told to stop rests, asks to be woken, or hands out the batch that is due. -/
theorem turn_cases (hcancelled : keeper.queue.cancelled = false) (now : ℕ) :
    (∃ isArmed, keeper.turn now = (.rest, { keeper with isArmed := isArmed })) ∨
      (∃ time isArmed, keeper.turn now = (.sleep time, { keeper with isArmed := isArmed })) ∨
      (∃ time, keeper.queue.due = some time ∧ keeper.turn now =
        (.hand keeper.queue.take.1,
          { keeper with queue := keeper.queue.take.2, isArmed := false })) := by
  have hturn := keeper.turnCase now
  generalize keeper.turn now = result at hturn ⊢
  cases hturn with
  | occupied | closed | armed => exact .inl ⟨keeper.isArmed, rfl⟩
  | stopping _ htold =>
    rw [hcancelled] at htold
    contradiction
  | elapsed hphase _ hopen =>
    exact .inr (.inr ⟨_, WorkQueue.due_eq_some.mpr ⟨hphase, _, hopen, rfl⟩, rfl⟩)
  | arming => exact .inr (.inl ⟨_, true, rfl⟩)

/-- A keeper that looks at the window first hands out a batch that is due. -/
theorem turnWindowFirst_of_due {time now : ℕ} (hdue : keeper.queue.due = some time)
    (helapsed : time ≤ now) : keeper.turnWindowFirst now =
      (.hand keeper.queue.take.1,
        { keeper with queue := keeper.queue.take.2, isArmed := false }) := by
  have hlate : keeper.queue.due.any (· ≤ now) = true := by
    rw [hdue, Option.any_some]
    exact decide_eq_true helapsed
  rw [turnWindowFirst, if_pos hlate]

end Keeper

end SolutionWatch
