import SolutionWatch.Proofs.Pipeline.Exchanges

/-!
# What becomes of a batch

A batch of events comes to work items, or to a failure before anything is sent (`Event.ComeTo`). The items go
to the client of a dispatcher, if it has one, as deliveries do (`Batch.Course`).

A run of a batch (`BatchRun`) is made of the steps of the batch and of anything that others do meanwhile: they
may do what they like to the session, but they leave the batch's errand to itself, and what it waits for may
only come to an end. Every run follows the course of the batch (`BatchRun.delivers_prefix`).
-/

namespace SolutionWatch

/-- Either a function succeeds on all items of a list, or there is a first item on which it fails. -/
theorem List.mapM_except_cases {ε α β : Type} (f : α → Except ε β) (items : List α) :
    (∃ results, items.Forall₂ (fun item result => f item = .ok result) results ∧
        items.mapM f = .ok results) ∨
      ∃ before item after failure, items = before ++ item :: after ∧
        (∀ other ∈ before, ∃ result, f other = .ok result) ∧ f item = .error failure ∧
        items.mapM f = .error failure := by
  induction items with
  | nil => exact .inl ⟨[], .nil, rfl⟩
  | cons item rest ih =>
    rw [List.mapM_cons]
    cases hitem : f item with
    | error failure => exact .inr ⟨[], item, rest, failure, rfl, nofun, hitem, rfl⟩
    | ok result =>
      obtain ⟨results, hall, hrest⟩ | ⟨before, bad, after, failure, rfl, hgood, hbad, hrest⟩ := ih
      · exact .inl ⟨result :: results, .cons hitem hall, by rw [hrest]; rfl⟩
      · refine .inr ⟨item :: before, bad, after, failure, rfl, ?_, hbad, by rw [hrest]; rfl⟩
        exact List.forall_mem_cons.mpr ⟨⟨result, hitem⟩, hgood⟩

namespace Event

/-- All events come from one workspace. -/
def OneWorkspace (events : List Event) : Prop :=
  ∀ a ∈ events, ∀ b ∈ events, a.workspace = b.workspace

/-- What the events of a batch come to: their work items, or a failure before anything is delivered. -/
inductive ComeTo (events : List Event) (cancelled : Bool) : Except Failure (List WorkItem) → Prop
  /-- One event comes from another workspace than the first one. -/
  | mixed {first stray : Event} : events.head? = some first →
      events.find? (fun event => event.workspace ≠ first.workspace) = some stray →
      ComeTo events cancelled (.error (.workspaceMismatch first.workspace stray.workspace))
  /-- The token is cancelled. -/
  | cancelled : OneWorkspace events → cancelled = true → ComeTo events cancelled (.error .cancelled)
  /-- One event, after others that do, has no items. -/
  | undiffable {before after : List Event} {event : Event} {failure : Failure} : OneWorkspace events →
      cancelled = false → events = before ++ event :: after →
      (∀ other ∈ before, ∃ items, other.diff = .ok items) → event.diff = .error failure →
      ComeTo events cancelled (.error failure)
  /-- The items of all events, in the order of the events. -/
  | items {lists : List (List WorkItem)} : OneWorkspace events → cancelled = false →
      events.Forall₂ (fun event items => event.diff = .ok items) lists →
      ComeTo events cancelled (.ok lists.flatten)

/-- A batch with events comes to that. -/
theorem comeTo_batchItems {events : List Event} (hevents : events ≠ []) (cancelled : Bool) :
    ComeTo events cancelled (batchItems events cancelled) := by
  obtain ⟨first, rest, rfl⟩ := List.exists_cons_of_ne_nil hevents
  rw [batchItems]
  cases hfind : (first :: rest).find? fun event => event.workspace ≠ first.workspace with
  | some stray => exact .mixed rfl hfind
  | none =>
    have hone : OneWorkspace (first :: rest) := by
      have hfirst : ∀ event ∈ first :: rest, event.workspace = first.workspace := by
        simpa using hfind
      exact fun a ha b hb => (hfirst a ha).trans (hfirst b hb).symm
    cases cancelled with
    | true => exact .cancelled hone rfl
    | false =>
      obtain ⟨lists, hall, hmap⟩ | ⟨before, event, after, failure, hsplit, hgood, hbad, hmap⟩ :=
        List.mapM_except_cases diff (first :: rest)
      · simp only [hmap]
        exact .items hone rfl hall
      · simp only [hmap]
        exact .undiffable hone rfl hsplit hgood hbad

end Event

/-- A batch of events, the errand that delivers it, and the dispatcher that it goes through. -/
structure Batch where
  /-- The errand. -/
  errand : Handle
  /-- Who the errand is for. -/
  owner : ErrandOwner
  /-- The token that the batch runs under. -/
  token : Token
  /-- The dispatcher. -/
  dispatcher : Handle
  /-- The events. -/
  events : List Event

/-- One step of a batch: the session before it, what the batch does, and the session after it. -/
structure BatchStep where
  /-- The session before the step. -/
  before : Session
  /-- What the batch does. -/
  entries : List BatchEntry
  /-- The session after the step. -/
  after : Session

/-- The number of items that a step counts as delivered. -/
def BatchStep.counted (step : BatchStep) : ℕ :=
  step.after.counters.workItemsSent - step.before.counters.workItemsSent

/-- The number of items that steps count as delivered. -/
def BatchStep.countedBy : List BatchStep → ℕ
  | [] => 0
  | step :: rest => step.counted + countedBy rest

/-- The entries of a step tell what it has done: what it left behind, and that the batch has ended. -/
structure BatchStep.Truthful (batch : Batch) (registry : Handle) (step : BatchStep) : Prop where
  /-- What the step left behind. -/
  accounts : Session.Accounts registry step.entries step.before step.after
  /-- Whoever the batch was for is told how it ended. -/
  told : ∀ ending cancelled, .ended ending cancelled ∈ step.entries →
    ∃ last : Session, step.after = last.endErrand batch.errand batch.owner ending

namespace Delivers

variable {client : Client} {items : List WorkItem} {n : ℕ} {entries : List BatchEntry}
  {ending? : Option Ending}

/-- What is delivered does not end a delivery. -/
theorem not_ended_mem_delivered (client : Client) (items : List WorkItem) (ending : Ending)
    (cancelled : Bool) : .ended ending cancelled ∉ items.flatMap (WorkItem.delivered client) := by
  simp [WorkItem.delivered, WorkItem.asked]

/-- A delivery ends once, and as it says. -/
theorem eq_of_ended_mem (h : Delivers client items n entries ending?) {ending : Ending} {cancelled : Bool}
    (hended : .ended ending cancelled ∈ entries) : ending? = some ending := by
  have hlast : ∀ {items : List WorkItem} {last : List BatchEntry},
      .ended ending cancelled ∈ items.flatMap (WorkItem.delivered client) ++ last →
        .ended ending cancelled ∈ last :=
    fun hmem => (List.mem_append.mp hmem).resolve_left (not_ended_mem_delivered client _ _ _)
  cases h with
  | all | cancelled =>
    obtain ⟨rfl, -⟩ := BatchEntry.ended.inj (List.mem_singleton.mp (hlast hended))
    rfl
  | @failed _ item _ _ _ _ =>
    have hasked : .ended ending cancelled ∉ item.asked client := by simp [WorkItem.asked]
    have hend := (List.mem_append.mp (hlast hended)).resolve_left hasked
    rcases List.mem_cons.mp hend with hreturned | hend
    · contradiction
    · obtain ⟨rfl, -⟩ := BatchEntry.ended.inj (List.mem_singleton.mp hend)
      rfl
  | waiting =>
    have hasked := hlast hended
    simp [WorkItem.asked] at hasked

/-- A delivery that ends says so. -/
theorem ended_mem {ending : Ending} (h : Delivers client items n entries (some ending)) :
    ∃ cancelled, .ended ending cancelled ∈ entries := by
  cases h with
  | all cancelled => exact ⟨cancelled, List.mem_append_right _ (List.mem_singleton_self _)⟩
  | cancelled hlt => exact ⟨true, List.mem_append_right _ (List.mem_singleton_self _)⟩
  | failed cancelled hitem hfailed => exact ⟨cancelled, by simp⟩

/-- As many requests succeed as items are delivered. -/
theorem countP_isSuccess (h : Delivers client items n entries ending?) :
    entries.countP BatchEntry.isSuccess = n := by
  have hdelivered : ∀ items : List WorkItem,
      (items.flatMap (WorkItem.delivered client)).countP BatchEntry.isSuccess = items.length := by
    intro items
    induction items with
    | nil => rfl
    | cons item rest ih =>
      rw [List.flatMap_cons, List.countP_append, ih, List.length_cons, Nat.add_comm]
      rfl
  have htaken : ∀ {n}, n ≤ items.length →
      ((items.take n).flatMap (WorkItem.delivered client)).countP BatchEntry.isSuccess = n := by
    intro n hn
    rw [hdelivered, List.length_take, Nat.min_eq_left hn]
  cases h with
  | all cancelled =>
    rw [List.countP_append, hdelivered]
    rfl
  | cancelled hlt =>
    rw [List.countP_append, htaken (Nat.le_of_lt hlt)]
    rfl
  | @failed _ item ending cancelled hitem hfailed =>
    have hnone : (item.asked client ++
        [BatchEntry.returned ending, BatchEntry.ended ending cancelled]).countP BatchEntry.isSuccess = 0 := by
      cases ending with
      | succeeded => contradiction
      | failed | crashed | refused => rfl
    obtain ⟨hlt, -⟩ := List.getElem?_eq_some_iff.mp hitem
    rw [List.countP_append, htaken (Nat.le_of_lt hlt), hnone, Nat.add_zero]
  | waiting hitem =>
    obtain ⟨hlt, -⟩ := List.getElem?_eq_some_iff.mp hitem
    rw [List.countP_append, htaken (Nat.le_of_lt hlt)]
    rfl

end Delivers

namespace Batch

variable {batch : Batch} {dispatcher : Dispatcher} {start moment session : Session} {n : ℕ}
  {entries more : List BatchEntry} {ending? : Option Ending}

/-- What a batch does that is begun with at one moment and asks for a client at another: how many items it
delivers, and how it ends, if it ends. -/
inductive Course (batch : Batch) (dispatcher : Dispatcher) (start moment : Session) :
    ℕ → List BatchEntry → Option Ending → Prop
  /-- Without events there is nothing to do. -/
  | empty (cancelled : Bool) : batch.events = [] →
      Course batch dispatcher start moment 0 [.ended .succeeded cancelled] (some .succeeded)
  /-- The events come to a failure, and nothing is sent. -/
  | stopped {failure : Failure} (cancelled : Bool) : batch.events ≠ [] →
      Event.ComeTo batch.events (start.isCancelled batch.token) (.error failure) →
      Course batch dispatcher start moment 0 [.ended (.failed failure) cancelled] (some (.failed failure))
  /-- There is no client, and nothing is sent. That is no failure. -/
  | unattended {items : List WorkItem} (cancelled : Bool) : batch.events ≠ [] →
      Event.ComeTo batch.events (start.isCancelled batch.token) (.ok items) →
      moment.client? dispatcher = none →
      Course batch dispatcher start moment 0 [.ended .succeeded cancelled] (some .succeeded)
  /-- The items are delivered to the client. -/
  | delivered {items : List WorkItem} {client : Client} {n : ℕ} {entries : List BatchEntry}
      {ending? : Option Ending} : batch.events ≠ [] →
      Event.ComeTo batch.events (start.isCancelled batch.token) (.ok items) →
      moment.client? dispatcher = some client → Delivers client items n entries ending? →
      Course batch dispatcher start moment n entries ending?

/-- As many requests succeed as items are delivered. -/
theorem Course.countP_isSuccess (h : batch.Course dispatcher start moment n entries ending?) :
    entries.countP BatchEntry.isSuccess = n := by
  cases h with
  | empty | stopped | unattended => rfl
  | delivered _ _ _ hdelivers => exact hdelivers.countP_isSuccess

/-- A batch ends once, and as it says. -/
theorem Course.eq_of_ended_mem (h : batch.Course dispatcher start moment n entries ending?) {ending : Ending}
    {cancelled : Bool} (hended : .ended ending cancelled ∈ entries) : ending? = some ending := by
  cases h with
  | empty | stopped | unattended =>
    obtain ⟨rfl, -⟩ := BatchEntry.ended.inj (List.mem_singleton.mp hended)
    rfl
  | delivered _ _ _ hdelivers => exact hdelivers.eq_of_ended_mem hended

/-- A batch that ends says so. -/
theorem Course.ended_mem {ending : Ending}
    (h : batch.Course dispatcher start moment n entries (some ending)) :
    ∃ cancelled, .ended ending cancelled ∈ entries := by
  cases h with
  | empty cancelled | stopped cancelled | unattended cancelled =>
    exact ⟨cancelled, List.mem_singleton_self _⟩
  | delivered _ _ _ hdelivers => exact hdelivers.ended_mem

/-- Where the errand of a batch stands: it is gone after the end of the batch, and else it waits for a
request, and goes on when it finds that the request has ended. -/
inductive Stands (batch : Batch) (session : Session) : Option Ending → Prop
  /-- The errand is gone. -/
  | done {ending : Ending} : session.errands.get? batch.errand = none →
      Stands batch session (some ending)
  /-- It waits. -/
  | waiting {client : Client} {registry : Handle} {delivery : Delivery} {pending : Pending} :
      session.errands.get? batch.errand =
        some ⟨batch.owner, batch.token, .delivery client registry delivery pending⟩ →
      (∀ ending, (session.lookAt pending batch.token).1 = some ending →
        (session.turnEntries batch.errand).head? = some (.returned ending)) →
      Stands batch session none

end Batch

namespace Session

/-- What a batch does when its items are to be delivered. -/
def deliverEntries (session : Session) (batch : Batch) (dispatcher : Dispatcher) (items : List WorkItem) :
    List BatchEntry :=
  match session.client? dispatcher with
  | some client => session.carryOnEntries batch.errand batch.token client dispatcher.registry ⟨items, 0⟩
  | none => [.ended .succeeded (session.isCancelled batch.token)]

/-- What a batch does when it is begun with. -/
def processEntries (session : Session) (batch : Batch) (dispatcher : Dispatcher) : List BatchEntry :=
  if batch.events.isEmpty then [.ended .succeeded (session.isCancelled batch.token)]
  else
    match Event.batchItems batch.events (session.isCancelled batch.token) with
    | .error failure => [.ended (.failed failure) (session.isCancelled batch.token)]
    | .ok items => session.deliverEntries batch dispatcher items

/-- Others do what they like, but they leave the errand of a batch to itself: it is not there if it was not
there before, and what it waits for may only come to an end. -/
structure LeavesBatch (errand : Handle) (before after : Session) : Prop where
  /-- An errand that is gone stays gone. -/
  gone : before.errands.get? errand = none → after.errands.get? errand = none
  /-- A request may come to an end. -/
  waits : ∀ owner token client handle delivery pending,
    before.errands.get? errand = some ⟨owner, token, .delivery client handle delivery pending⟩ →
      ∃ later, (later = pending ∨ ∃ call ending, pending = .call call ∧ later = .ended ending) ∧
        after.errands.get? errand = some ⟨owner, token, .delivery client handle delivery later⟩

/-- Whoever touches no errand leaves a batch to itself. -/
theorem LeavesBatch.of_eq {before after : Session} (errand : Handle)
    (herrands : after.errands = before.errands) : before.LeavesBatch errand after where
  gone := by
    rw [herrands]
    exact id
  waits owner token client handle delivery pending h := ⟨pending, .inl rfl, by rw [herrands, h]⟩

/-- A clock that moves on leaves a batch to itself. -/
theorem leavesBatch_moveClock (session : Session) (errand : Handle) (time : ℕ) :
    session.LeavesBatch errand (session.moveClock time) := by
  obtain ⟨woken, heq, -⟩ := session.moveClock_eq time
  rw [heq]
  exact .of_eq errand rfl

end Session

/-- The runs of a batch that is begun with at one moment and asks for a client at another: the steps of the
batch, and the session that they lead to. -/
inductive BatchRun (batch : Batch) (dispatcher : Dispatcher) (start : Session) :
    Session → List BatchStep → Session → Prop
  /-- The batch is begun with, and a client asked for at once. -/
  | begins : start.dispatchers.get? batch.dispatcher = some dispatcher →
      BatchRun batch dispatcher start start
        [⟨start, start.processEntries batch dispatcher,
          start.processBatch batch.errand batch.owner batch.token batch.dispatcher batch.events⟩]
        (start.processBatch batch.errand batch.owner batch.token batch.dispatcher batch.events)
  /-- The items have been worked out, and a client is asked for some time later. -/
  | attended {moment : Session} {items : List WorkItem} : batch.events ≠ [] →
      Event.batchItems batch.events (start.isCancelled batch.token) = .ok items →
      BatchRun batch dispatcher start moment
        [⟨moment, moment.deliverEntries batch dispatcher items,
          moment.deliver batch.errand batch.owner batch.token dispatcher items⟩]
        (moment.deliver batch.errand batch.owner batch.token dispatcher items)
  /-- The errand of the batch has its turn. -/
  | turn {moment session : Session} {steps : List BatchStep} :
      BatchRun batch dispatcher start moment steps session →
      BatchRun batch dispatcher start moment
        (steps ++ [⟨session, session.turnEntries batch.errand, session.errandTurn batch.errand⟩])
        (session.errandTurn batch.errand)
  /-- Others do something. -/
  | elsewhere {moment session after : Session} {steps : List BatchStep} :
      BatchRun batch dispatcher start moment steps session →
      session.LeavesBatch batch.errand after →
      BatchRun batch dispatcher start moment steps after

namespace Batch

variable {batch : Batch} {dispatcher : Dispatcher} {start moment session after : Session} {n : ℕ}
  {items : List WorkItem} {client : Client} {entries more : List BatchEntry} {ending? : Option Ending}

/-- A batch has done this, and its errand is gone, or waits for the request for the next item. -/
inductive Holds (batch : Batch) (dispatcher : Dispatcher) (start moment : Session)
    (entries : List BatchEntry) (session : Session) : Prop
  /-- The errand is gone. -/
  | done {n : ℕ} {ending : Ending} : batch.Course dispatcher start moment n entries (some ending) →
      session.errands.get? batch.errand = none → Holds batch dispatcher start moment entries session
  /-- The errand waits. -/
  | waiting {items : List WorkItem} {client : Client} {n : ℕ} {pending : Pending} : batch.events ≠ [] →
      Event.ComeTo batch.events (start.isCancelled batch.token) (.ok items) →
      moment.client? dispatcher = some client → Delivers client items n entries none →
      session.errands.get? batch.errand = some ⟨batch.owner, batch.token,
        .delivery client dispatcher.registry ⟨items.drop n, n⟩ pending⟩ →
      Holds batch dispatcher start moment entries session

/-- A delivery that has come so far has a batch come so far. -/
theorem Holds.of_carries (hevents : batch.events ≠ [])
    (hitems : Event.ComeTo batch.events (start.isCancelled batch.token) (.ok items))
    (hclient : moment.client? dispatcher = some client) (hdelivers : Delivers client items n entries ending?)
    (hcarries : session.Carries batch.errand batch.owner batch.token client dispatcher.registry items n
      ending?) : batch.Holds dispatcher start moment entries session := by
  cases hcarries with
  | done hlast =>
    refine .done (.delivered hevents hitems hclient hdelivers) ?_
    rw [hlast]
    exact Session.get?_endErrand _ _ _ _
  | waiting herrand => exact .waiting hevents hitems hclient hdelivers herrand

/-- A step of a delivery that ends tells how. -/
theorem told_of_carries (hdelivers : Delivers client items n entries ending?)
    (hcarries : session.Carries batch.errand batch.owner batch.token client dispatcher.registry items n
      ending?) (hmore : more ⊆ entries) (ending : Ending) (cancelled : Bool)
    (hended : .ended ending cancelled ∈ more) :
    ∃ last : Session, session = last.endErrand batch.errand batch.owner ending := by
  have hending := hdelivers.eq_of_ended_mem (hmore hended)
  subst hending
  cases hcarries with
  | done hlast => exact ⟨_, hlast⟩

/-- A batch that ends without anything having been sent does so as it says. -/
theorem truthful_endErrand {last : Session} (hlast : last.books = session.books) (registry : Handle)
    (ending : Ending) (cancelled : Bool) : BatchStep.Truthful batch registry
      ⟨session, [.ended ending cancelled], last.endErrand batch.errand batch.owner ending⟩ where
  accounts := by
    have hended : Session.Accounts registry [.ended ending cancelled] session last :=
      (Session.Accounts.of_books hlast).ended ending cancelled
    exact hended.books (last.books_endErrand _ _ _)
  told other otherwise hended := by
    obtain ⟨rfl, -⟩ := BatchEntry.ended.inj (List.mem_singleton.mp hended)
    exact ⟨last, rfl⟩

/-- A batch whose items are to be delivered takes its course. -/
theorem deliver_follows (hevents : batch.events ≠ [])
    (hitems : Event.ComeTo batch.events (start.isCancelled batch.token) (.ok items)) :
    let entries := moment.deliverEntries batch dispatcher items
    let after := moment.deliver batch.errand batch.owner batch.token dispatcher items
    batch.Holds dispatcher start moment entries after ∧
      BatchStep.Truthful batch dispatcher.registry ⟨moment, entries, after⟩ := by
  intro entries after
  cases hclient : moment.client? dispatcher with
  | none =>
    have hentries : entries = [.ended .succeeded (moment.isCancelled batch.token)] := by
      simp only [entries, Session.deliverEntries, hclient]
    obtain ⟨last, hafter, hlast⟩ : ∃ last : Session,
        after = last.endErrand batch.errand batch.owner .succeeded ∧ last.books = moment.books := by
      simp only [after, Session.deliver, hclient]
      exact ⟨_, rfl, rfl⟩
    rw [hentries, hafter]
    exact ⟨.done (.unattended _ hevents hitems hclient) (Session.get?_endErrand _ _ _ _),
      truthful_endErrand hlast _ _ _⟩
  | some client =>
    obtain ⟨k, ending?, hdelivers, haccounts, hcarries⟩ :=
      moment.carryOn_follows batch.errand batch.owner batch.token client dispatcher.registry items 0
    have hentries : entries =
        moment.carryOnEntries batch.errand batch.token client dispatcher.registry ⟨items, 0⟩ := by
      simp only [entries, Session.deliverEntries, hclient]
    have hafter : after = moment.carryOn batch.errand batch.owner batch.token client dispatcher.registry
        ⟨items, 0⟩ := by
      simp only [after, Session.deliver, hclient]
    rw [List.drop_zero, Nat.zero_add, ← hafter] at hcarries
    rw [List.drop_zero, ← hentries] at hdelivers
    rw [List.drop_zero, ← hentries, ← hafter] at haccounts
    exact ⟨.of_carries hevents hitems hclient hdelivers hcarries,
      haccounts, told_of_carries hdelivers hcarries (List.Subset.refl _)⟩

/-- A batch takes its course from when it is begun with. -/
theorem processBatch_follows (hdispatcher : start.dispatchers.get? batch.dispatcher = some dispatcher) :
    let entries := start.processEntries batch dispatcher
    let after := start.processBatch batch.errand batch.owner batch.token batch.dispatcher batch.events
    batch.Holds dispatcher start start entries after ∧
      BatchStep.Truthful batch dispatcher.registry ⟨start, entries, after⟩ := by
  intro entries after
  by_cases hevents : batch.events = []
  · have hentries : entries = [.ended .succeeded (start.isCancelled batch.token)] := by
      simp only [entries, Session.processEntries, hevents, List.isEmpty_nil, if_true]
    have hafter : after = start.endErrand batch.errand batch.owner .succeeded := by
      simp only [after, Session.processBatch, hevents, List.isEmpty_nil, if_true]
    rw [hentries, hafter]
    exact ⟨.done (.empty _ hevents) (Session.get?_endErrand _ _ _ _), truthful_endErrand rfl _ _ _⟩
  · have hcome := Event.comeTo_batchItems hevents (start.isCancelled batch.token)
    have hempty : batch.events.isEmpty = false := List.isEmpty_eq_false_iff.mpr hevents
    cases hitems : Event.batchItems batch.events (start.isCancelled batch.token) with
    | error failure =>
      have hentries : entries = [.ended (.failed failure) (start.isCancelled batch.token)] := by
        simp only [entries, Session.processEntries, hempty, Bool.false_eq_true, if_false, hitems]
      have hafter : after = start.endErrand batch.errand batch.owner (.failed failure) := by
        simp only [after, Session.processBatch, hempty, Bool.false_eq_true, if_false, hitems]
      rw [hitems] at hcome
      rw [hentries, hafter]
      exact ⟨.done (.stopped _ hevents hcome) (Session.get?_endErrand _ _ _ _), truthful_endErrand rfl _ _ _⟩
    | ok items =>
      have hentries : entries = start.deliverEntries batch dispatcher items := by
        simp only [entries, Session.processEntries, hempty, Bool.false_eq_true, if_false, hitems]
      have hafter : after = start.deliver batch.errand batch.owner batch.token dispatcher items := by
        simp only [after, Session.processBatch, hempty, Bool.false_eq_true, if_false, hitems, hdispatcher]
      rw [hitems] at hcome
      rw [hentries, hafter]
      exact deliver_follows hevents hcome

/-- A batch goes on taking its course when its errand has its turn. -/
theorem Holds.turn (h : batch.Holds dispatcher start moment entries session) :
    let more := session.turnEntries batch.errand
    let after := session.errandTurn batch.errand
    batch.Holds dispatcher start moment (entries ++ more) after ∧
      BatchStep.Truthful batch dispatcher.registry ⟨session, more, after⟩ := by
  intro more after
  cases h with
  | done hcourse hgone =>
    have hmore : more = [] := by simp only [more, Session.turnEntries, hgone]
    have hafter : after = session := by simp only [after, Session.errandTurn, hgone]
    rw [hmore, hafter, List.append_nil]
    exact ⟨.done hcourse hgone, .of_books rfl, fun _ _ hended => absurd hended List.not_mem_nil⟩
  | waiting hevents hitems hclient hdelivers herrand =>
    cases hdelivers with
    | waiting hitem =>
      obtain ⟨k, ending?, hdelivers, haccounts, hcarries⟩ :=
        Session.errandTurn_follows hitem herrand
      rw [List.append_assoc]
      refine ⟨.of_carries hevents hitems hclient hdelivers hcarries, haccounts, ?_⟩
      refine told_of_carries hdelivers hcarries fun entry hentry => ?_
      exact List.mem_append_right _ (List.mem_append_right _ hentry)

/-- A batch keeps its course whatever others do. -/
theorem Holds.elsewhere (h : batch.Holds dispatcher start moment entries session)
    (hleaves : session.LeavesBatch batch.errand after) :
    batch.Holds dispatcher start moment entries after := by
  cases h with
  | done hcourse hgone => exact .done hcourse (hleaves.gone hgone)
  | waiting hevents hitems hclient hdelivers herrand =>
    obtain ⟨later, -, hafter⟩ := hleaves.waits _ _ _ _ _ _ herrand
    exact .waiting hevents hitems hclient hdelivers hafter

/-- An errand stands where its batch has come to. -/
theorem Holds.stands (h : batch.Holds dispatcher start moment entries session) :
    ∃ n ending?, batch.Course dispatcher start moment n entries ending? ∧ batch.Stands session ending? := by
  cases h with
  | done hcourse hgone => exact ⟨_, _, hcourse, .done hgone⟩
  | @waiting items client n pending hevents hitems hclient hdelivers herrand =>
    refine ⟨n, none, .delivered hevents hitems hclient hdelivers, .waiting herrand fun ending hended => ?_⟩
    rw [Session.turnEntries_waiting herrand]
    generalize session.lookAt pending batch.token = looked at hended ⊢
    obtain ⟨ending?, last⟩ := looked
    obtain rfl : ending? = some ending := hended
    cases ending <;> rfl

end Batch

namespace BatchRun

variable {batch : Batch} {dispatcher : Dispatcher} {start moment session : Session} {steps : List BatchStep}

/-- What every step of a run keeps: the batch has come as far as its steps say, and each step tells what it
has done. -/
theorem invariant (h : BatchRun batch dispatcher start moment steps session) :
    batch.Holds dispatcher start moment (steps.flatMap BatchStep.entries) session ∧
      ∀ step ∈ steps, step.Truthful batch dispatcher.registry := by
  induction h with
  | begins hdispatcher =>
    obtain ⟨hholds, htruthful⟩ := Batch.processBatch_follows hdispatcher
    rw [List.flatMap_singleton]
    exact ⟨hholds, List.forall_mem_singleton.mpr htruthful⟩
  | attended hevents hitems =>
    have hcome := Event.comeTo_batchItems hevents (start.isCancelled batch.token)
    rw [hitems] at hcome
    obtain ⟨hholds, htruthful⟩ := Batch.deliver_follows hevents hcome
    rw [List.flatMap_singleton]
    exact ⟨hholds, List.forall_mem_singleton.mpr htruthful⟩
  | turn _ ih =>
    obtain ⟨hholds, hsteps⟩ := ih
    obtain ⟨hturn, htruthful⟩ := hholds.turn
    rw [List.flatMap_append, List.flatMap_singleton]
    refine ⟨hturn, fun step hstep => ?_⟩
    obtain hstep | hstep := List.mem_append.mp hstep
    · exact hsteps step hstep
    · rw [List.mem_singleton.mp hstep]
      exact htruthful
  | elsewhere _ hleaves ih =>
    obtain ⟨hholds, hsteps⟩ := ih
    exact ⟨hholds.elsewhere hleaves, hsteps⟩

/-- The steps of a batch count the requests that succeed. -/
theorem sum_counted {registry : Handle} (h : ∀ step ∈ steps, step.Truthful batch registry) :
    BatchStep.countedBy steps = (steps.flatMap BatchStep.entries).countP BatchEntry.isSuccess := by
  induction steps with
  | nil => rfl
  | cons step rest ih =>
    obtain ⟨hstep, hrest⟩ := List.forall_mem_cons.mp h
    have hcounted : step.counted = step.entries.countP BatchEntry.isSuccess := by
      rw [BatchStep.counted, hstep.accounts.sent, Nat.add_sub_cancel_left]
    rw [BatchStep.countedBy, List.flatMap_cons, List.countP_append, ih hrest, hcounted]

/-- Every run of a batch follows the course of the batch. What its steps say they do is what they do to the
clients, the registry and the counter, and to whoever waits for the batch. The counter grows by the number of
items that are delivered. The batch has ended, or it waits for a request and goes on as soon as that ends. -/
theorem delivers_prefix (h : BatchRun batch dispatcher start moment steps session) :
    ∃ n ending?, batch.Course dispatcher start moment n (steps.flatMap BatchStep.entries) ending? ∧
      (∀ step ∈ steps, step.Truthful batch dispatcher.registry) ∧
      BatchStep.countedBy steps = n ∧ batch.Stands session ending? := by
  obtain ⟨hholds, hsteps⟩ := h.invariant
  obtain ⟨n, ending?, hcourse, hstands⟩ := hholds.stands
  exact ⟨n, ending?, hcourse, hsteps, (sum_counted hsteps).trans hcourse.countP_isSuccess, hstands⟩

end BatchRun

/-- An empty solution that was added or removed. -/
def solutionEvent (action : SolutionAction) : Event :=
  .changed
    { kind := .solution action, old := .initial ⟨1⟩, new := .initial ⟨1⟩, project := none, document := none
      sharing := .shared rfl, sameWorkspace := rfl, projectGiven := nofun, documentGiven := nofun }

/-- A batch of three events, for whoever asks. -/
def threeEvents : Batch :=
  ⟨3, .asker, ⟨[0]⟩, 2, [solutionEvent .added, solutionEvent .removed, solutionEvent .added]⟩

/-- A session whose client succeeds at the first request and fails at the second one after 5 milliseconds. -/
def faltersLater : Session where
  next := 4
  tokens := { next := 1 }
  registries := Catalog.empty.insert 1 (.withCapacity 1)
  hosts := Catalog.empty.insert 0 (.scripted [{}, { delay := 5, reply := .fail (.remote "out of order") }] [])
  dispatchers := Catalog.empty.insert 2 ⟨0, 1, true⟩

/-- Of three items one is delivered, the request for the second one fails, and the third one is never asked
for. -/
theorem BatchRun.delivers_prefix_of_faltersLater : ∃ steps session ending?,
    BatchRun threeEvents ⟨0, 1, true⟩ faltersLater faltersLater steps session ∧
      session.requestsOf 0 = [⟨(Solution.initial ⟨1⟩).fingerprint, .solutionEvent .documentAdded⟩,
        ⟨(Solution.initial ⟨1⟩).fingerprint, .solutionEvent .solutionRemoved⟩] ∧
      session.answer = some (.failed (.remote "out of order")) ∧
      threeEvents.Course ⟨0, 1, true⟩ faltersLater faltersLater 1 (steps.flatMap BatchStep.entries)
        ending? := by
  have hbegun : BatchRun threeEvents ⟨0, 1, true⟩ faltersLater faltersLater _ _ :=
    .begins rfl
  have hlater := hbegun.elsewhere (Session.leavesBatch_moveClock _ _ 5)
  have hrun := hlater.turn
  obtain ⟨n, ending?, hcourse, -, hcounted, -⟩ := hrun.delivers_prefix
  obtain rfl : 1 = n := by
    rw [← hcounted]
    decide +kernel
  exact ⟨_, _, ending?, hrun, by decide +kernel, by decide +kernel, hcourse⟩

end SolutionWatch
