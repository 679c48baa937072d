import SolutionWatch.Proofs.Pipeline.Commands
import SolutionWatch.Proofs.Pipeline.Handout
import SolutionWatch.Proofs.Pipeline.Turns

/-!
# Every item is delivered once and in order

`Stage` says how far the batch at hand is, and which of its items the worker's service has not got yet.
`Sound` ties the stage to the rest of the pipeline by an account: the items that were delivered, then
the items that the batch still has to deliver, then the items of the events that wait, are the items of
all events that the listener heard. A turn moves an item from one place of the account to the next and
never drops, repeats or overtakes one, so the account stays what it is under every schedule; a command
adds the items of its event at the end of both sides.

The snapshot of an item cannot be forgotten before the worker looks it up: it is filed last, no other
request goes out before that one has ended, and a registry has room for at least one snapshot. What was
filed before an item was filed for the items before it, so the service got the calls that the delivered
items come to (`Pipeline.calls`).

A pipeline does not get stuck either. `Parts.left` counts the turns that are left at most, and unless
nothing waits and no batch is at hand there is a task whose turn, when it is time, makes it less
(`Sound.exists_turn`).
-/

namespace SolutionWatch

/-- The items of an event; none if its difference does not exist. -/
def Event.items (event : Event) : List WorkItem :=
  match event.diff with
  | .ok items => items
  | .error _ => []

/-- The difference of an event exists if what it comes to can be looked at. -/
theorem Event.Deliverable.diff_eq {event : Event} (h : event.Deliverable) :
    event.diff = .ok event.items := by
  obtain ⟨items, hitems, -⟩ := h
  rw [Event.items, hitems]

/-- Each of the items that such an event comes to can be looked at. -/
theorem Event.Deliverable.of_mem {event : Event} (h : event.Deliverable) {item : WorkItem}
    (hitem : item ∈ event.items) : item.Deliverable := by
  obtain ⟨items, hitems, hall⟩ := h
  rw [Event.items, hitems] at hitem
  exact hall item hitem

/-- The differences of such events exist. -/
theorem Event.mapM_diff_eq {events : List Event} (h : ∀ event ∈ events, event.Deliverable) :
    events.mapM Event.diff = .ok (events.map Event.items) := by
  induction events with
  | nil => rfl
  | cons event events ih =>
    rw [List.mapM_cons, (h event List.mem_cons_self).diff_eq,
      ih fun e he => h e (List.mem_cons_of_mem _ he)]
    rfl

namespace Pipeline

/-- An event of the pipeline's workspace whose items can be looked at. -/
structure Told (p : Pipeline) (event : Event) : Prop where
  own : event.workspace = p.id
  deliverable : event.Deliverable

variable {p : Pipeline}

/-- The items of such an event can be looked at. -/
theorem Told.deliverable_of_mem {event : Event} (h : p.Told event) {item : WorkItem}
    (hitem : item ∈ event.items) : item.Deliverable := h.deliverable.of_mem hitem

/-- The differences of such events exist. -/
theorem mapM_diff_eq {events : List Event} (h : ∀ event ∈ events, p.Told event) :
    events.mapM Event.diff = .ok (events.map Event.items) :=
  Event.mapM_diff_eq fun event hevent => (h event hevent).deliverable

/-- The items of a batch of such events are those of its events, in order. -/
theorem batchItems_eq {events : List Event} (h : ∀ event ∈ events, p.Told event) :
    Event.batchItems events false = .ok (events.flatMap Event.items) := by
  cases events with
  | nil => rfl
  | cons first rest =>
    have hown : ((first :: rest).find? fun event => event.workspace ≠ first.workspace) = none := by
      rw [List.find?_eq_none]
      intro event hevent
      simp [(h event hevent).own, (h first List.mem_cons_self).own]
    rw [Event.batchItems, hown]
    simp only [Bool.false_eq_true, if_false, mapM_diff_eq h]
    rw [List.flatMap_def]
    rfl

/-- The registry after the snapshots of some items were filed. -/
def stock (p : Pipeline) (items : List WorkItem) : SnapshotRegistry :=
  SnapshotRegistry.fileAll (.withCapacity p.capacity) items

/-- The calls that some items come to. -/
def calls (p : Pipeline) (items : List WorkItem) : List ServiceCall :=
  SnapshotRegistry.calls (.withCapacity p.capacity) items

/-- No item meets a snapshot of another content under its fingerprint when its turn comes. -/
def Tells (p : Pipeline) (items : List WorkItem) : Prop :=
  SnapshotRegistry.Tells (.withCapacity p.capacity) items

/-- A keeper whose batch is worked on. -/
structure Busy (keeper : Keeper Event) : Prop where
  working : keeper.queue.phase = .working
  unaware : keeper.outcome = none

/-- A keeper that waits for a window, or will once it has noticed that its batch has ended. -/
def Free (keeper : Keeper Event) : Prop := keeper.queue.phase = .waiting ∨ keeper.outcome ≠ none

/-- How far the batch at hand is. The registry is `stock`, and while a request waits to be looked at the
snapshot of its item was filed in it; the list holds the items that the service has not got, and the
number says how many turns the batch needs besides three for each of these items. -/
inductive Stage (p : Pipeline) (keeper : Keeper Event) (stock registry : SnapshotRegistry)
    (errands : Catalog Handle Errand) (calls : Catalog Handle Call) : List WorkItem → ℕ → Prop
  /-- No batch is worked on. -/
  | resting : Free keeper → registry = stock → errands = .empty → calls = .empty →
      Stage p keeper stock registry errands calls [] 0
  /-- An errand was handed a batch and has not begun. -/
  | begun {errand : Handle} {token : Token} {events : List Event} :
      Busy keeper → registry = stock →
      errands = .single errand ⟨.listener listener, token, .events dispatcher events⟩ →
      calls = .empty → (∀ event ∈ events, p.Told event) →
      Stage p keeper stock registry errands calls (events.flatMap Event.items) 1
  /-- The request for an item was sent, and the worker has not looked at it. -/
  | posted {errand call : Handle} {token own : Token} {item : WorkItem} {rest : List WorkItem}
      {sent : ℕ} : Busy keeper → registry = stock.file item.solution →
      errands = .single errand ⟨.listener listener, token,
        .delivery (.worker worker) Pipeline.registry ⟨item :: rest, sent⟩ (.call call)⟩ →
      calls = .single call
        ⟨worker, ⟨.fingerprint item.solution.fingerprint, item.operation⟩, own, errand, none⟩ →
      (∀ i ∈ item :: rest, i.Deliverable) → Stage p keeper stock registry errands calls (item :: rest) 0
  /-- The service works on the call for an item. -/
  | serving {errand call : Handle} {token : Token} {item : WorkItem} {rest : List WorkItem}
      {sent : ℕ} {served : Call} {act : Act} : Busy keeper → registry = stock →
      errands = .single errand ⟨.listener listener, token,
        .delivery (.worker worker) Pipeline.registry ⟨item :: rest, sent⟩ (.call call)⟩ →
      calls = .single call served → served.worker = worker → served.errand = errand →
      served.act = some act → act.reply = .succeed → (∀ i ∈ rest, i.Deliverable) →
      Stage p keeper stock registry errands calls rest 2
  /-- The call for an item has ended, and the errand has not noticed. -/
  | answered {errand : Handle} {token : Token} {item : WorkItem} {rest : List WorkItem}
      {sent : ℕ} : Busy keeper → registry = stock →
      errands = .single errand ⟨.listener listener, token,
        .delivery (.worker worker) Pipeline.registry ⟨item :: rest, sent⟩ (.ended .succeeded)⟩ →
      calls = .empty → (∀ i ∈ rest, i.Deliverable) →
      Stage p keeper stock registry errands calls rest 1

/-- The parts of a pipeline whose workspace was asked for some things since the listener listens;
`delivered` are the items that the service has got, `remaining` those of the batch at hand that it has
not got, and `extra` are the turns that the batch needs besides. -/
structure Sound (p : Pipeline) (parts : Parts) (delivered remaining : List WorkItem) (extra : ℕ)
    (commands : List Command) : Prop where
  /-- The workspace is what the commands have made of it. -/
  current : parts.workspace.workspace = commands.foldl Workspace.after p.origin
  /-- The workspace is sound. -/
  workspace : parts.workspace.workspace.Sound
  /-- The workspace is the one that the pipeline was set up with. -/
  id : parts.workspace.workspace.id = p.id
  /-- The listener is the only observer. -/
  observed : ∃ subscription, parts.workspace.observers = .single subscription (.listener listener)
  /-- The queue was not told to stop. -/
  going : parts.keeper.queue.cancelled = false
  /-- A window is open exactly while events wait. -/
  tidy : parts.keeper.queue.Tidy
  /-- The worker runs. -/
  running : parts.worker.running = true
  /-- The worker looks snapshots up where the dispatcher files them. -/
  shared : parts.worker.registry = registry
  /-- The service will succeed. -/
  succeeds : ∀ response ∈ parts.worker.script, response.reply = .succeed
  /-- The registry finds what it was given. -/
  kept : parts.registry.Sound
  /-- The events that wait can be looked at. -/
  waiting : ∀ event ∈ parts.keeper.queue.pending, p.Told event
  /-- The events that were heard can be looked at. -/
  told : ∀ event ∈ p.heard commands, p.Told event
  /-- The batch at hand is at some stage. -/
  stage : Stage p parts.keeper (p.stock delivered) parts.registry parts.errands parts.calls remaining
    extra
  /-- The service got the calls that the delivered items come to. -/
  served : parts.worker.calls = p.calls delivered
  /-- Every item is accounted for, once and in order. -/
  account : delivered ++ (remaining ++ parts.keeper.queue.pending.flatMap Event.items) =
    (p.heard commands).flatMap Event.items

/-- The turns that are left at most until nothing waits and no batch is at hand: three for each item, and
for each event one in which its batch is handed out and one in which an errand begins with it. -/
def Parts.left (parts : Parts) (remaining : List WorkItem) (extra : ℕ) : ℕ :=
  3 * (remaining ++ parts.keeper.queue.pending.flatMap Event.items).length +
    2 * parts.keeper.queue.pending.length + extra

/-- A session of a pipeline whose workspace was asked for some things since the listener listens, with a
bound for the turns that are left. -/
def Holds (p : Pipeline) (session : Session) (commands : List Command) (left : ℕ) : Prop :=
  ∃ parts delivered remaining extra, p.Describes parts session ∧
    p.Sound parts delivered remaining extra commands ∧ parts.left remaining extra ≤ left

/-! ## Turns -/

variable {parts : Parts} {session : Session} {delivered remaining : List WorkItem} {extra left : ℕ}
  {commands : List Command}

/-- The turns that are left are a bound for themselves. -/
theorem Sound.holds (h : p.Sound parts delivered remaining extra commands)
    (d : p.Describes parts session) : p.Holds session commands (parts.left remaining extra) :=
  ⟨parts, delivered, remaining, extra, d, h, Nat.le_refl _⟩

/-- The bound may be larger. -/
theorem Holds.mono (h : p.Holds session commands left) {more : ℕ} (hle : left ≤ more) :
    p.Holds session commands more := by
  obtain ⟨parts, delivered, remaining, extra, d, hsound, hleft⟩ := h
  exact ⟨parts, delivered, remaining, extra, d, hsound, Nat.le_trans hleft hle⟩

/-- The turns that a batch needs besides count as they are. -/
theorem Parts.left_eq (parts : Parts) (remaining : List WorkItem) (extra : ℕ) :
    parts.left remaining extra = parts.left remaining 0 + extra := rfl

/-- An item takes three turns. -/
theorem Parts.left_cons (parts : Parts) (item : WorkItem) (rest : List WorkItem) (extra : ℕ) :
    parts.left (item :: rest) extra = parts.left rest extra + 3 := by
  rw [left, left, List.cons_append, List.length_cons]
  omega

/-- A delivery that goes on is over, or has sent the request for its next item. -/
theorem Sound.holds_carryOn (h : p.Sound parts delivered remaining extra commands)
    (d : p.Describes parts session) (hbusy : Busy parts.keeper)
    (hregistry : parts.registry = p.stock delivered) {errand : Handle} {x : Errand}
    (herrands : parts.errands = .single errand x) (hcalls : parts.calls = .empty)
    (hdeliverable : ∀ item ∈ remaining, item.Deliverable) (token : Token) (sent : ℕ) :
    p.Holds (session.carryOn errand (.listener listener) token (.worker worker) registry
      ⟨remaining, sent⟩) commands (parts.left remaining 0) := by
  cases remaining with
  | nil =>
    have hrests : p.Sound (parts.afterErrand .succeeded) delivered [] 0 commands := { h with
      stage := .resting (.inr nofun) hregistry rfl hcalls }
    exact hrests.holds (d.carryOn_nil herrands token _ _ sent)
  | cons item rest =>
    obtain ⟨call, hposted⟩ := d.carryOn h.running hcalls herrands token item rest sent
    have hfiled : item.solution.Filed := (hdeliverable item List.mem_cons_self).filed
    have hwaits : p.Sound (parts.afterPosting errand token item rest sent call) delivered (item :: rest)
        0 commands := { h with
      kept := h.kept.file hfiled
      stage := .posted hbusy (congrArg (SnapshotRegistry.file · item.solution) hregistry) rfl rfl
        hdeliverable }
    exact hwaits.holds hposted

/-- The turn of an errand that was handed a batch begins with the batch. -/
theorem Sound.holds_begun {events : List Event}
    (h : p.Sound parts delivered (events.flatMap Event.items) extra commands)
    (d : p.Describes parts session) (hbusy : Busy parts.keeper)
    (hregistry : parts.registry = p.stock delivered) {errand : Handle} {token : Token}
    (herrands : parts.errands = .single errand
      ⟨.listener listener, token, .events dispatcher events⟩)
    (hcalls : parts.calls = .empty) (htold : ∀ event ∈ events, p.Told event) :
    p.Holds (session.errandTurn errand) commands (parts.left (events.flatMap Event.items) 0) := by
  rw [Session.errandTurn, d.errands, herrands, Catalog.get?_single_self]
  simp only [d.processBatch_eq h.running errand token (batchItems_eq htold)]
  refine h.holds_carryOn d hbusy hregistry herrands hcalls ?_ token 0
  intro item hitem
  obtain ⟨event, hevent, hitem⟩ := List.mem_flatMap.mp hitem
  exact (htold event hevent).deliverable_of_mem hitem

/-- The turn of an errand whose call has ended goes on with the delivery. -/
theorem Sound.holds_answered (h : p.Sound parts delivered remaining extra commands)
    (d : p.Describes parts session) (hbusy : Busy parts.keeper)
    (hregistry : parts.registry = p.stock delivered) {errand : Handle} {token : Token}
    {item : WorkItem} {sent : ℕ}
    (herrands : parts.errands = .single errand ⟨.listener listener, token,
      .delivery (.worker worker) registry ⟨item :: remaining, sent⟩ (.ended .succeeded)⟩)
    (hcalls : parts.calls = .empty) (hdeliverable : ∀ i ∈ remaining, i.Deliverable) :
    p.Holds (session.errandTurn errand) commands (parts.left remaining 0) := by
  rw [Session.errandTurn, d.errands, herrands, Catalog.get?_single_self]
  have hcounted : p.Describes parts session.countSent := { d with }
  exact h.holds_carryOn hcounted hbusy hregistry herrands hcalls hdeliverable token (sent + 1)

/-- The turn of an errand begins the batch, goes on after a call has ended, or comes for no reason. -/
theorem Sound.holds_errandTurn (h : p.Sound parts delivered remaining extra commands)
    (d : p.Describes parts session) (handle : Handle) :
    p.Holds (session.errandTurn handle) commands (parts.left remaining extra) := by
  have hnone : session.errands.get? handle = none →
      p.Holds (session.errandTurn handle) commands (parts.left remaining extra) := by
    intro hnone
    rw [Session.errandTurn, hnone]
    exact h.holds d
  -- An errand waits while the worker has its call.
  have hwaits : ∀ {errand call : Handle} {token : Token} {delivery : Delivery},
      parts.errands = .single errand ⟨.listener listener, token,
        .delivery (.worker worker) registry delivery (.call call)⟩ →
      p.Holds (session.errandTurn handle) commands (parts.left remaining extra) := by
    intro errand call token delivery herrands
    by_cases hhandle : errand = handle
    · subst hhandle
      rw [Session.errandTurn, d.errands, herrands, Catalog.get?_single_self]
      simp only [Session.lookAt, d.isCancelled, Bool.false_eq_true, if_false]
      exact h.holds d
    · exact hnone (by rw [d.errands, herrands, Catalog.get?_single, if_neg hhandle])
  cases h.stage with
  | resting _ _ herrands => exact hnone (by rw [d.errands, herrands, Catalog.get?_empty])
  | posted _ _ herrands => exact hwaits herrands
  | serving _ _ herrands => exact hwaits herrands
  | @begun errand token events hbusy hregistry herrands hcalls htold =>
    by_cases hhandle : errand = handle
    · subst hhandle
      exact (h.holds_begun d hbusy hregistry herrands hcalls htold).mono (Nat.le_succ _)
    · exact hnone (by rw [d.errands, herrands, Catalog.get?_single, if_neg hhandle])
  | @answered errand token item rest sent hbusy hregistry herrands hcalls hdeliverable =>
    by_cases hhandle : errand = handle
    · subst hhandle
      exact (h.holds_answered d hbusy hregistry herrands hcalls hdeliverable).mono (Nat.le_succ _)
    · exact hnone (by rw [d.errands, herrands, Catalog.get?_single, if_neg hhandle])

/-- Noticing that there is nothing to notice changes nothing. -/
theorem Busy.notice_eq {keeper : Keeper Event} (h : Busy keeper) : keeper.notice = keeper :=
  Keeper.notice_eq_self h.unaware

/-- A keeper that is free waits once it has noticed what there is to notice. -/
theorem Free.phase_notice {keeper : Keeper Event} (h : Free keeper) :
    keeper.notice.queue.phase = .waiting := by
  by_cases houtcome : keeper.outcome = none
  · rw [Keeper.notice_eq_self houtcome]
    exact h.resolve_right (not_not_intro houtcome)
  · exact Keeper.phase_notice houtcome

/-- All that a stage needs of the keeper is that it waits for the end of the batch at hand, or is free. -/
theorem Stage.of_keeper {keeper other : Keeper Event} {stock registry : SnapshotRegistry}
    {errands : Catalog Handle Errand} {calls : Catalog Handle Call}
    (h : Stage p keeper stock registry errands calls remaining extra)
    (hfree : Free keeper → Free other) (hbusy : Busy keeper → Busy other) :
    Stage p other stock registry errands calls remaining extra := by
  cases h with
  | resting hf hr he hc => exact .resting (hfree hf) hr he hc
  | begun hb hr he hc ht => exact .begun (hbusy hb) hr he hc ht
  | posted hb hr he hc hd => exact .posted (hbusy hb) hr he hc hd
  | serving hb hr he hc hw hs ha hy hd => exact .serving (hbusy hb) hr he hc hw hs ha hy hd
  | answered hb hr he hc hd => exact .answered (hbusy hb) hr he hc hd

/-- No batch is worked on when the keeper, having noticed what there is to notice, waits for a
window. -/
theorem Stage.resting_of_waiting {keeper : Keeper Event} {stock registry : SnapshotRegistry}
    {errands : Catalog Handle Errand} {calls : Catalog Handle Call}
    (h : Stage p keeper stock registry errands calls remaining extra)
    (hphase : keeper.notice.queue.phase = .waiting) :
    registry = stock ∧ errands = .empty ∧ calls = .empty ∧ remaining = [] ∧ extra = 0 := by
  -- A keeper with nothing to notice would still wait for the end of its batch.
  have hidle : ¬Busy keeper := by
    intro hbusy
    rw [hbusy.notice_eq, hbusy.working] at hphase
    contradiction
  cases h with
  | resting _ hr he hc => exact ⟨hr, he, hc, rfl, rfl⟩
  | begun hbusy | posted hbusy | serving hbusy | answered hbusy => exact absurd hbusy hidle

/-- Once a batch that was due is at hand, fewer turns are left. -/
theorem Sound.holds_handing (h : p.Sound parts delivered remaining extra commands) {time : ℕ}
    {errand : Handle} (hdue : parts.keeper.notice.queue.due = some time)
    (d : p.Describes (parts.afterHanding errand) session) :
    ∃ left, left < parts.left remaining extra ∧ p.Holds session commands left := by
  obtain ⟨hphase, start, hopen, -⟩ := WorkQueue.due_eq_some.mp hdue
  obtain ⟨hregistry, herrands, hcalls, rfl, rfl⟩ := h.stage.resting_of_waiting hphase
  have htidy : parts.keeper.notice.queue.Tidy := Keeper.tidy_notice.mpr h.tidy
  -- The batch and what it leaves are what waited, and the batch has an event.
  have hsplit := parts.keeper.notice.queue.take_append_pending
  rw [Keeper.pending_notice] at hsplit
  have hsome : 0 < parts.keeper.notice.queue.take.1.length :=
    List.length_pos_iff.mpr (WorkQueue.take_ne_nil (htidy.pending_ne_nil hopen))
  have hbatch : ∀ event ∈ parts.keeper.notice.queue.take.1, p.Told event := fun event he =>
    h.waiting event (hsplit ▸ List.mem_append_left _ he)
  have hhands : (parts.afterHanding errand).errands = .single errand ⟨.listener listener,
      parts.keeper.notice.token, .events dispatcher parts.keeper.notice.queue.take.1⟩ := by
    rw [Parts.afterHanding, herrands, Catalog.insert_empty]
  have hbegun : p.Sound (parts.afterHanding errand) delivered
      (parts.keeper.notice.queue.take.1.flatMap Event.items) 1 commands := { h with
    going := Keeper.cancelled_notice.trans h.going
    tidy := htidy.take
    waiting := fun event he => h.waiting event (hsplit ▸ List.mem_append_right _ he)
    stage := .begun ⟨rfl, Keeper.outcome_notice⟩ hregistry hhands hcalls hbatch
    account := by
      have haccount := h.account
      rw [← hsplit, List.flatMap_append] at haccount
      exact haccount }
  refine ⟨_, ?_, hbegun.holds d⟩
  have hlength := congrArg List.length hsplit
  rw [List.length_append] at hlength
  rw [Parts.left, Parts.left, ← List.flatMap_append]
  show 3 * ((_ ++ parts.keeper.notice.queue.take.2.pending).flatMap Event.items).length +
    2 * parts.keeper.notice.queue.take.2.pending.length + 1 < _
  rw [hsplit, List.nil_append]
  omega

/-- The turn of the keeper hands out the next batch once the one before has ended. -/
theorem Sound.holds_eventsTurn (h : p.Sound parts delivered remaining extra commands)
    (d : p.Describes parts session) (handle : Handle) :
    p.Holds (session.eventsTurn handle) commands (parts.left remaining extra) := by
  obtain hsame | ⟨isArmed, hnoticed⟩ | ⟨time, errand, hdue, hhanded⟩ := d.eventsTurn handle h.going
  · exact h.holds hsame
  · have hafter : p.Sound { parts with keeper := { parts.keeper.notice with isArmed := isArmed } }
        delivered remaining extra commands := { h with
      going := Keeper.cancelled_notice.trans h.going
      tidy := Keeper.tidy_notice.mpr h.tidy
      waiting := by
        rw [Keeper.pending_notice]
        exact h.waiting
      stage := h.stage.of_keeper (fun hfree => .inl hfree.phase_notice) fun hbusy => by
        rw [hbusy.notice_eq]
        exact ⟨hbusy.working, hbusy.unaware⟩
      account := by
        rw [Keeper.pending_notice]
        exact h.account }
    have hleft : Parts.left { parts with keeper := { parts.keeper.notice with isArmed := isArmed } }
        remaining extra = parts.left remaining extra := by
      rw [Parts.left, Parts.left, Keeper.pending_notice]
    exact hleft ▸ hafter.holds hnoticed
  · obtain ⟨left, hlt, hholds⟩ := h.holds_handing hdue hhanded
    exact hholds.mono (Nat.le_of_lt hlt)

/-- Once the service succeeded, the errand that waits for the call has its answer. -/
theorem Sound.holds_endCall (h : p.Sound parts delivered remaining extra commands)
    (d : p.Describes parts session) (hbusy : Busy parts.keeper)
    (hregistry : parts.registry = p.stock delivered) {errand handle : Handle} {token : Token}
    {item : WorkItem} {sent : ℕ} {call x : Call}
    (herrands : parts.errands = .single errand ⟨.listener listener, token,
      .delivery (.worker worker) registry ⟨item :: remaining, sent⟩ (.call handle)⟩)
    (hcalls : parts.calls = .single handle x) (herrand : call.errand = errand)
    (hdeliverable : ∀ i ∈ remaining, i.Deliverable) :
    p.Holds (session.endCall handle call .succeeded) commands (parts.left remaining 1) := by
  subst herrand
  -- The errand waits for this very call.
  have hlearnt : Catalog.single call.errand (⟨.listener listener, token,
      (ErrandStage.delivery (.worker worker) registry ⟨item :: remaining, sent⟩
        (.call handle)).learn handle .succeeded⟩ : Errand) =
      .single call.errand ⟨.listener listener, token,
        .delivery (.worker worker) registry ⟨item :: remaining, sent⟩ (.ended .succeeded)⟩ := by
    rw [ErrandStage.learn, Pending.learn, if_pos rfl]
  have hended := d.endCall hcalls herrands .succeeded
  have hanswered : p.Sound { parts with calls := .empty, errands := _ } delivered remaining 1
      commands := { h with stage := .answered hbusy hregistry hlearnt rfl hdeliverable }
  exact hanswered.holds hended

/-- A script of successes begins with a success. -/
theorem succeed_of_take {script : Script} (h : ∀ response ∈ script, response.reply = .succeed) :
    script.take.1.reply = .succeed ∧ ∀ response ∈ script.take.2, response.reply = .succeed := by
  cases script with
  | nil => exact ⟨rfl, fun _ hr => nomatch hr⟩
  | cons first rest =>
    exact ⟨h first List.mem_cons_self, fun response hr => h response (List.mem_cons_of_mem _ hr)⟩

/-- The service gets the call for the next item: the registry has a snapshot of the item's fingerprint,
and in that snapshot the worker accepts the request. -/
theorem Sound.holds_beginCall {item : WorkItem} {rest : List WorkItem}
    (h : p.Sound parts delivered (item :: rest) extra commands) (d : p.Describes parts session)
    (hbusy : Busy parts.keeper)
    (hregistry : parts.registry = (p.stock delivered).file item.solution)
    {errand call : Handle} {token own : Token} {sent : ℕ}
    (herrands : parts.errands = .single errand ⟨.listener listener, token,
      .delivery (.worker worker) registry ⟨item :: rest, sent⟩ (.call call)⟩)
    (hcalls : parts.calls = .single call
      ⟨worker, ⟨.fingerprint item.solution.fingerprint, item.operation⟩, own, errand, none⟩)
    (hdeliverable : ∀ i ∈ item :: rest, i.Deliverable) :
    p.Holds (session.beginCall call
      ⟨worker, ⟨.fingerprint item.solution.fingerprint, item.operation⟩, own, errand, none⟩ parts.worker)
      commands (parts.left rest 2) := by
  have hfind : parts.registry.find? item.solution.fingerprint =
      some ((p.stock delivered).standIn item.solution) := by
    rw [hregistry]
    exact SnapshotRegistry.find?_file _ _
  obtain ⟨hprint, hfiled⟩ := h.kept.of_find? hfind
  have haccepted := (hdeliverable item List.mem_cons_self).callFor_eq_ok hfiled hprint
  obtain ⟨act, begun, hreply, hbegun, hbegin⟩ :=
    d.beginCall rfl hcalls h.shared rfl hfind haccepted
  obtain ⟨hsucceed, hscript⟩ := succeed_of_take h.succeeds
  have hrest : ∀ i ∈ rest, i.Deliverable := fun i hi => hdeliverable i (List.mem_cons_of_mem _ hi)
  -- To look up what was filed last leaves the registry as it is.
  have hsame : parts.registry.touch item.solution.fingerprint
      ((p.stock delivered).standIn item.solution) = p.stock (delivered ++ [item]) := by
    rw [hregistry, SnapshotRegistry.touch_file, stock, stock, SnapshotRegistry.fileAll_concat]
  have hserving : p.Sound (parts.afterService call
      ⟨worker, ⟨.fingerprint item.solution.fingerprint, item.operation⟩, own, errand, none⟩
      item.solution.fingerprint ((p.stock delivered).standIn item.solution)
      ⟨item.scope, item.reasons, (p.stock delivered).standIn item.solution⟩ act)
      (delivered ++ [item]) rest 2 commands := { h with
    succeeds := hscript
    kept := h.kept.touch hprint hfiled
    stage := .serving hbusy hsame herrands rfl rfl rfl rfl (hreply.trans hsucceed) hrest
    served := by
      rw [Parts.afterService, h.served, calls, calls, SnapshotRegistry.calls_concat]
      rfl
    account := by
      -- The first item that was left is the last one that was delivered.
      rw [List.append_assoc, List.singleton_append]
      exact h.account }
  rw [hbegin]
  -- Without a delay the service is done in the same turn.
  obtain hgoing | hended := finishCall_eq begun call _ (hreply.trans hsucceed)
  · rw [hgoing]
    exact hserving.holds hbegun
  · rw [hended]
    exact (hserving.holds_endCall hbegun hbusy hsame herrands rfl rfl hrest).mono (Nat.le_succ _)

/-- The worker of the pipeline runs. -/
theorem Sound.runningWorker (h : p.Sound parts delivered remaining extra commands)
    (d : p.Describes parts session) :
    (session.workers.get? worker).filter WorkerState.running = some parts.worker := by
  simp [d.workers, h.running]

/-- The turn of a call that was sent gives the call to the service. -/
theorem Sound.holds_posted {item : WorkItem} {rest : List WorkItem}
    (h : p.Sound parts delivered (item :: rest) extra commands) (d : p.Describes parts session)
    (hbusy : Busy parts.keeper)
    (hregistry : parts.registry = (p.stock delivered).file item.solution)
    {errand call : Handle} {token own : Token} {sent : ℕ}
    (herrands : parts.errands = .single errand ⟨.listener listener, token,
      .delivery (.worker worker) registry ⟨item :: rest, sent⟩ (.call call)⟩)
    (hcalls : parts.calls = .single call
      ⟨worker, ⟨.fingerprint item.solution.fingerprint, item.operation⟩, own, errand, none⟩)
    (hdeliverable : ∀ i ∈ item :: rest, i.Deliverable) :
    p.Holds (session.callTurn call) commands (parts.left rest 2) := by
  rw [Session.callTurn, d.calls, hcalls, Catalog.get?_single_self]
  simp only [h.runningWorker d]
  exact h.holds_beginCall d hbusy hregistry herrands hcalls hdeliverable

/-- The turn of a call that the service works on ends the call, once the service is done. -/
theorem Sound.holds_serving (h : p.Sound parts delivered remaining extra commands)
    (d : p.Describes parts session) (hbusy : Busy parts.keeper)
    (hregistry : parts.registry = p.stock delivered) {errand call : Handle} {token : Token}
    {item : WorkItem} {sent : ℕ} {served : Call} {act : Act}
    (herrands : parts.errands = .single errand ⟨.listener listener, token,
      .delivery (.worker worker) registry ⟨item :: remaining, sent⟩ (.call call)⟩)
    (hcalls : parts.calls = .single call served) (hworker : served.worker = worker)
    (herrand : served.errand = errand) (hact : served.act = some act) (hreply : act.reply = .succeed)
    (hdeliverable : ∀ i ∈ remaining, i.Deliverable) (hdue : act.due ≤ session.now) :
    p.Holds (session.callTurn call) commands (parts.left remaining 1) := by
  rw [Session.callTurn, d.calls, hcalls, Catalog.get?_single_self]
  simp only [hworker, h.runningWorker d, hact]
  rw [finishCall_of_due session call served hreply hdue]
  exact h.holds_endCall d hbusy hregistry herrands hcalls herrand hdeliverable

/-- The turn of a call gives the call to the service, ends it, or comes for no reason. -/
theorem Sound.holds_callTurn (h : p.Sound parts delivered remaining extra commands)
    (d : p.Describes parts session) (handle : Handle) :
    p.Holds (session.callTurn handle) commands (parts.left remaining extra) := by
  have hnone : session.calls.get? handle = none →
      p.Holds (session.callTurn handle) commands (parts.left remaining extra) := by
    intro hnone
    rw [Session.callTurn, hnone]
    exact h.holds d
  have hempty : parts.calls = .empty →
      p.Holds (session.callTurn handle) commands (parts.left remaining extra) := fun hcalls =>
    hnone (by rw [d.calls, hcalls, Catalog.get?_empty])
  cases h.stage with
  | resting _ _ _ hcalls => exact hempty hcalls
  | begun _ _ _ hcalls => exact hempty hcalls
  | answered _ _ _ hcalls => exact hempty hcalls
  | @posted errand call token own item rest sent hbusy hregistry herrands hcalls hdeliverable =>
    by_cases hhandle : call = handle
    · subst hhandle
      refine (h.holds_posted d hbusy hregistry herrands hcalls hdeliverable).mono ?_
      rw [Parts.left_cons, parts.left_eq rest 2]
      omega
    · exact hnone (by rw [d.calls, hcalls, Catalog.get?_single, if_neg hhandle])
  | @serving errand call token item rest sent served act hbusy hregistry herrands hcalls hserved herrand
      hact hreply hdeliverable =>
    by_cases hhandle : call = handle
    · subst hhandle
      by_cases hdue : act.due ≤ session.now
      · exact (h.holds_serving d hbusy hregistry herrands hcalls hserved herrand hact hreply hdeliverable
          hdue).mono (Nat.le_succ _)
      · -- The service is not done yet.
        have hlook : session.lookAtAct act served.token = (none, session) :=
          if_pos (Nat.lt_of_not_le hdue)
        rw [Session.callTurn, d.calls, hcalls, Catalog.get?_single_self]
        simp only [hserved, h.runningWorker d, hact]
        rw [Session.finishCall, hlook]
        exact h.holds d
    · exact hnone (by rw [d.calls, hcalls, Catalog.get?_single, if_neg hhandle])

/-- What a task does in its turn loses, repeats and reorders nothing. -/
theorem Sound.holds_giveTurn (h : p.Sound parts delivered remaining extra commands)
    (d : p.Describes parts session) (task : Task) :
    p.Holds (session.giveTurn task) commands (parts.left remaining extra) := by
  cases task with
  | numbers queue => exact h.holds (d.giveTurn_of_other (.inl ⟨queue, rfl⟩))
  | batch queue => exact h.holds (d.giveTurn_of_other (.inr (.inl ⟨queue, rfl⟩)))
  | departure departure => exact h.holds (d.giveTurn_of_other (.inr (.inr ⟨departure, rfl⟩)))
  | events handle => exact h.holds_eventsTurn d handle
  | errand handle => exact h.holds_errandTurn d handle
  | call handle => exact h.holds_callTurn d handle
  | inbox handle =>
    obtain ⟨inbox, hinbox⟩ := d.inboxTurn handle
    exact ⟨_, delivered, remaining, extra, hinbox, { h with }, Nat.le_refl _⟩

/-- After a turn there is nothing to let go of. -/
theorem Holds.letGo (h : p.Holds session commands left) : p.Holds session.letGo commands left := by
  obtain ⟨parts, delivered, remaining, extra, d, hsound, hleft⟩ := h
  rw [d.letGo_eq]
  exact ⟨parts, delivered, remaining, extra, d, hsound, hleft⟩

/-- A turn leaves no more turns than there were. -/
theorem Holds.turn (h : p.Holds session commands left) (task : Task) :
    p.Holds (session.giveTurn task).letGo commands left := by
  obtain ⟨parts, delivered, remaining, extra, d, hsound, hleft⟩ := h
  exact ((hsound.holds_giveTurn d task).mono hleft).letGo

/-- Unless nothing waits and no batch is at hand, there is a task whose turn, when it is time, leaves
fewer turns. -/
theorem Sound.exists_turn (h : p.Sound parts delivered remaining extra commands)
    (d : p.Describes parts session) :
    (parts.keeper.queue.pending = [] ∧ parts.errands = .empty) ∨
      ∃ now task left, session.now ≤ now ∧ left < parts.left remaining extra ∧
        p.Holds (({ session with now := now } : Session).giveTurn task) commands left := by
  have hlater : ∀ now, p.Describes parts { session with now := now } := fun now => { d with }
  cases h.stage with
  | resting hfree hregistry herrands hcalls =>
    cases hopen : parts.keeper.queue.windowStart with
    | none => exact .inl ⟨h.tidy.mp hopen, herrands⟩
    | some start =>
      -- The window elapses at some time, and then the batch is due.
      have hdue : parts.keeper.notice.queue.due = some (start + parts.keeper.queue.delay) :=
        WorkQueue.due_eq_some.mpr ⟨hfree.phase_notice, start,
          Keeper.windowStart_notice.trans hopen, by rw [Keeper.delay_notice]⟩
      obtain ⟨errand, hhanded⟩ := (hlater (max session.now _)).eventsTurn_of_hand
        (Keeper.turnWindowFirst_of_due hdue (Nat.le_max_right session.now _))
      obtain ⟨left, hlt, hholds⟩ := h.holds_handing hdue hhanded
      exact .inr ⟨_, .events listener, left, Nat.le_max_left _ _, hlt, hholds⟩
  | @begun errand _ _ hbusy hregistry herrands hcalls htold =>
    exact .inr ⟨session.now, .errand errand, _, Nat.le_refl _, Nat.lt_succ_self _,
      h.holds_begun d hbusy hregistry herrands hcalls htold⟩
  | @posted _ call _ _ item rest _ hbusy hregistry herrands hcalls hdeliverable =>
    refine .inr ⟨session.now, .call call, _, Nat.le_refl _, ?_,
      h.holds_posted d hbusy hregistry herrands hcalls hdeliverable⟩
    rw [Parts.left_cons, parts.left_eq rest 2]
    omega
  | @serving _ call _ _ _ _ _ act hbusy hregistry herrands hcalls hworker herrand hact hreply
      hdeliverable =>
    exact .inr ⟨max session.now act.due, .call call, _, Nat.le_max_left _ _, Nat.lt_succ_self _,
      h.holds_serving (hlater _) hbusy hregistry herrands hcalls hworker herrand hact hreply hdeliverable
        (Nat.le_max_right _ _)⟩
  | @answered errand _ _ _ _ hbusy hregistry herrands hcalls hdeliverable =>
    exact .inr ⟨session.now, .errand errand, _, Nat.le_refl _, Nat.lt_succ_self _,
      h.holds_answered d hbusy hregistry herrands hcalls hdeliverable⟩

/-! ## Commands -/

/-- A sound workspace of the pipeline tells of an event that can be looked at. -/
theorem Told.of_tells {state next : Workspace} {command : Command} {event : Event}
    (h : state.Tells command next event) (hid : state.id = p.id) : p.Told event :=
  ⟨h.workspace.trans hid, h.deliverable⟩

/-- One more event that can be looked at. -/
theorem forall_told_concat {events : List Event} {event : Event}
    (hevents : ∀ e ∈ events, p.Told e) (hevent : p.Told event) :
    ∀ e ∈ events ++ [event], p.Told e := by
  intro e he
  obtain he | he := List.mem_append.mp he
  · exact hevents e he
  · exact List.mem_singleton.mp he ▸ hevent

/-- One more command raises its event last. -/
theorem Sound.heard_concat (h : p.Sound parts delivered remaining extra commands) (command : Command) :
    p.heard (commands ++ [command]) =
      p.heard commands ++ parts.workspace.workspace.raisedBy command := by
  rw [heard, heard, Workspace.raised_concat, h.current]

/-- One more command changes the workspace last. -/
theorem Sound.foldl_after_concat (h : p.Sound parts delivered remaining extra commands)
    (command : Command) :
    (commands ++ [command]).foldl Workspace.after p.origin =
      parts.workspace.workspace.after command := by
  rw [List.foldl_concat, h.current]

/-- An event puts its items behind all others, in the queue and in the account. -/
theorem Sound.of_told (h : p.Sound parts delivered remaining extra commands) {command : Command}
    (hfaithful : command.Faithful) {next : Workspace} {event : Event}
    (hbegin : parts.workspace.workspace.begin command = .ok (next, some event))
    (hafter : parts.workspace.workspace.after command = next.finish command)
    (hraised : parts.workspace.workspace.raisedBy command = [event]) (snapshot : Handle)
    (now : ℕ) :
    p.Sound { parts.afterTelling command next snapshot with
        keeper := { parts.keeper with queue := parts.keeper.queue.add now [event] } }
      delivered remaining extra (commands ++ [command]) := by
  have htells := h.workspace.begin hfaithful hbegin
  have htold : p.Told event := .of_tells htells h.id
  have hpending := WorkQueue.pending_add h.going now [event]
  have hheard := h.heard_concat command
  rw [hraised] at hheard
  refine { h with
    current := by rw [h.foldl_after_concat, hafter, Parts.afterTelling]
    workspace := htells.sound
    id := htells.id.trans h.id
    going := (WorkQueue.cancelled_add now [event]).trans h.going
    tidy := h.tidy.add now [event]
    waiting := by
      rw [hpending]
      exact forall_told_concat h.waiting htold
    told := by
      rw [hheard]
      exact forall_told_concat h.told htold
    stage := h.stage.of_keeper
      (fun hfree => hfree.imp_left (WorkQueue.phase_add now [event]).trans)
      fun hbusy => ⟨(WorkQueue.phase_add now [event]).trans hbusy.working, hbusy.unaware⟩
    account := ?_ }
  -- Both sides of the account get the items of the event.
  simp only [hpending, hheard, List.flatMap_append, ← h.account, List.append_assoc]

/-- A command adds the items of the event that it raises, if it raises one, after all others. -/
theorem Holds.command (h : p.Holds session commands left) {command : Command}
    (hfaithful : command.Faithful) :
    ∃ left, p.Holds (afterCommand session command) (commands ++ [command]) left := by
  obtain ⟨parts, delivered, remaining, extra, d, h, -⟩ := h
  obtain ⟨hquiet, hafter, hraised⟩ | ⟨next, event, hbegin, hafter, hraised⟩ :=
    parts.workspace.workspace.begin_cases command
  · have hheard := h.heard_concat command
    rw [hraised, List.append_nil] at hheard
    have hsame : p.Sound parts delivered remaining extra (commands ++ [command]) := { h with
      current := by rw [h.foldl_after_concat, hafter]
      told := hheard ▸ h.told
      account := hheard ▸ h.account }
    rw [d.afterCommand_of_quiet hquiet]
    exact ⟨_, hsame.holds d⟩
  · obtain ⟨subscription, hobserved⟩ := h.observed
    obtain ⟨snapshot, now, htold⟩ := d.afterCommand_heard hobserved hbegin
    exact ⟨_, (h.of_told hfaithful hbegin hafter hraised snapshot now).holds htold⟩

/-- A pipeline in which nobody listens yet, and whose workspace has come to `state`. -/
def Unheard (p : Pipeline) (session : Session) (state : Workspace) : Prop :=
  state.Sound ∧ state.id = p.id ∧ ∃ snapshot, p.Describes
    { p.builtParts with workspace := ⟨state, snapshot, .empty⟩ } session

/-- A command asked of the workspace while nobody listens changes the workspace only. -/
theorem Unheard.command {state : Workspace} (h : p.Unheard session state) {command : Command}
    (hfaithful : command.Faithful) :
    p.Unheard (afterCommand session command) (state.after command) := by
  obtain ⟨hsound, hid, snapshot, d⟩ := h
  obtain ⟨hquiet, hafter, -⟩ | ⟨next, event, hbegin, hafter, -⟩ := state.begin_cases command
  · rw [hafter, d.afterCommand_of_quiet hquiet]
    exact ⟨hsound, hid, snapshot, d⟩
  · have htells := hsound.begin hfaithful hbegin
    obtain ⟨snapshot, hafterTelling⟩ := d.afterCommand_unheard rfl hbegin
    rw [hafter]
    exact ⟨htells.sound, htells.id.trans hid, snapshot, hafterTelling⟩

/-- What the workspace was asked before the listener listens to it, nobody hears. -/
theorem Unheard.foldl {state : Workspace} (h : p.Unheard session state) {commands : List Command}
    (hfaithful : ∀ command ∈ commands, command.Faithful) :
    p.Unheard (commands.foldl afterCommand session) (commands.foldl Workspace.after state) := by
  induction commands generalizing session state with
  | nil => exact h
  | cons command commands ih =>
    exact ih (h.command (hfaithful command List.mem_cons_self)) fun c hc =>
      hfaithful c (List.mem_cons_of_mem _ hc)

/-- When the listener begins to listen, the pipeline has the parts that it was built with, but for the
workspace. -/
theorem describes_start (p : Pipeline) : p.origin.Sound ∧ p.origin.id = p.id ∧
    ∃ snapshot subscription, p.Describes
      { p.builtParts with
        workspace := ⟨p.origin, snapshot, .single subscription (.listener listener)⟩ } p.start := by
  have hbuilt : p.Unheard p.built (.initial p.id) :=
    ⟨Workspace.sound_initial p.id, rfl, 6, p.describes_built⟩
  obtain ⟨hsound, hid, snapshot, d⟩ := hbuilt.foldl p.faithful
  obtain ⟨subscription, hlistens⟩ := d.listen rfl
  exact ⟨⟨hsound.filed, hsound.own, hsound.quiet⟩, hid, snapshot, subscription, hlistens⟩

/-- When the listener begins to listen, nothing was heard and nothing was delivered. -/
theorem holds_start (p : Pipeline) : p.Holds p.start [] 0 := by
  obtain ⟨hsound, hid, snapshot, subscription, hlistens⟩ := p.describes_start
  refine ⟨_, [], [], 0, hlistens, {
    current := rfl
    workspace := hsound
    id := hid
    observed := ⟨subscription, rfl⟩
    going := rfl
    tidy := iff_of_true rfl rfl
    running := rfl
    shared := rfl
    succeeds := p.succeeds
    kept := SnapshotRegistry.sound_withCapacity p.capacity
    waiting := fun _ he => nomatch he
    told := fun _ he => nomatch he
    stage := .resting (.inl rfl) rfl rfl rfl
    served := rfl
    account := rfl }, Nat.le_refl 0⟩

end Pipeline

end SolutionWatch
