import SolutionWatch.Proofs.Pipeline.Ledger

/-!
# What a delivery does

A delivery goes through its items one by one. It files the item's snapshot, sends the request, and goes on
only after the request has succeeded. Whatever the client is and whatever it makes of the requests, what a
delivery does is of one form (`Delivers`): some of the items are delivered, in order and each of them
completely, and then the delivery waits for the request for the next one, or it ends, because that request
failed, or because the token was cancelled before it was sent, or because there is no next one.

A delivery does this turn by turn. `Session.carryOnEntries` lists what it does in the turn in which it begins
or goes on with an item, and `Session.turnEntries` what its errand does in any turn after that.
-/

namespace SolutionWatch

namespace WorkItem

/-- The request for an item is sent: the snapshot is filed before that, and the token is not cancelled. -/
def asked (client : Client) (item : WorkItem) : List BatchEntry :=
  [.filed item.solution, .invoked client item.request true false]

/-- An item is delivered. -/
def delivered (client : Client) (item : WorkItem) : List BatchEntry :=
  item.asked client ++ [.returned .succeeded]

end WorkItem

/-- What a delivery of items does that delivers so many of them, and how it ends, if it ends. -/
inductive Delivers (client : Client) (items : List WorkItem) :
    ℕ → List BatchEntry → Option Ending → Prop
  /-- It delivers all items. -/
  | all (cancelled : Bool) : Delivers client items items.length
      (items.flatMap (WorkItem.delivered client) ++ [.ended .succeeded cancelled]) (some .succeeded)
  /-- It finds the token cancelled before the request for the next item. -/
  | cancelled {n : ℕ} : n < items.length → Delivers client items n
      ((items.take n).flatMap (WorkItem.delivered client) ++ [.ended (.failed .cancelled) true])
      (some (.failed .cancelled))
  /-- The request for the next item fails. -/
  | failed {n : ℕ} {item : WorkItem} {ending : Ending} (cancelled : Bool) : items[n]? = some item →
      ending ≠ .succeeded → Delivers client items n
        ((items.take n).flatMap (WorkItem.delivered client) ++
          (item.asked client ++ [.returned ending, .ended ending cancelled])) (some ending)
  /-- It waits for the request for the next item. -/
  | waiting {n : ℕ} {item : WorkItem} : items[n]? = some item → Delivers client items n
      ((items.take n).flatMap (WorkItem.delivered client) ++ item.asked client) none

namespace Delivers

variable {client : Client} {items : List WorkItem} {n : ℕ} {entries : List BatchEntry}
  {ending? : Option Ending}

/-- One more item may have been delivered before. -/
theorem cons (item : WorkItem) (h : Delivers client items n entries ending?) :
    Delivers client (item :: items) (n + 1) (item.delivered client ++ entries) ending? := by
  have hmore : ∀ rest tail, item.delivered client ++ (List.flatMap (WorkItem.delivered client) rest ++ tail) =
      List.flatMap (WorkItem.delivered client) (item :: rest) ++ tail := by
    intro rest tail
    rw [List.flatMap_cons, List.append_assoc]
  cases h with
  | all cancelled =>
    rw [hmore]
    exact .all cancelled
  | cancelled hlt =>
    rw [hmore, ← List.take_succ_cons]
    exact .cancelled (Nat.succ_lt_succ hlt)
  | failed cancelled hitem hfailed =>
    rw [hmore, ← List.take_succ_cons]
    exact .failed cancelled hitem hfailed
  | waiting hitem =>
    rw [hmore, ← List.take_succ_cons]
    exact .waiting hitem

/-- More items may have been delivered before. -/
theorem append (first : List WorkItem) (h : Delivers client items n entries ending?) :
    Delivers client (first ++ items) (n + first.length)
      (first.flatMap (WorkItem.delivered client) ++ entries) ending? := by
  induction first with
  | nil => exact h
  | cons item first ih =>
    rw [List.cons_append, List.flatMap_cons, List.append_assoc, List.length_cons, ← Nat.add_assoc]
    exact ih.cons item

end Delivers

/-- What a delivery of items came to in one turn, in which it delivered `n` of them: it is over, or it waits
for the request for the next one. -/
inductive DeliveryProgress.Follows (client : Client) (items : List WorkItem) (sent n : ℕ)
    (entries : List BatchEntry) : DeliveryProgress → Prop
  /-- It is over. -/
  | done {ending : Ending} : Delivers client items n entries (some ending) →
      Follows client items sent n entries (.over ending)
  /-- It waits. -/
  | waiting {pending : Pending} : Delivers client items n entries none →
      Follows client items sent n entries (.waiting ⟨items.drop n, sent + n⟩ pending)

/-- One more item may have been delivered before. -/
theorem DeliveryProgress.Follows.cons {client : Client} {items : List WorkItem} {sent n : ℕ}
    {entries : List BatchEntry} {progress : DeliveryProgress} (item : WorkItem)
    (h : progress.Follows client items (sent + 1) n entries) :
    progress.Follows client (item :: items) sent (n + 1) (item.delivered client ++ entries) := by
  cases h with
  | done h => exact .done (h.cons item)
  | @waiting pending h =>
    have hsent : sent + 1 + n = sent + (n + 1) := by omega
    rw [hsent]
    exact .waiting (h.cons item)

namespace Session

variable {session : Session} {errand registry : Handle} {owner : ErrandOwner} {token : Token}
  {client : Client} {item : WorkItem} {items : List WorkItem} {n : ℕ} {pending : Pending}

/-- A delivery files the snapshot of its next item, sends the request, and looks whether it has ended. -/
def exchange (session : Session) (errand : Handle) (client : Client) (registry : Handle) (token : Token)
    (item : WorkItem) : Pending × Option Ending × Session :=
  let (pending, asked) :=
    (session.fileSnapshot registry item.solution).2.invoke client item.request token errand
  (pending, asked.lookAt pending token)

/-- An exchange is accounted for by the snapshot and the request. -/
theorem accounts_exchange (session : Session) (errand : Handle) (client : Client) (registry : Handle)
    (token : Token) (item : WorkItem) :
    Accounts registry (item.asked client) session
      (session.exchange errand client registry token item).2.2 := by
  have hfiled := session.accounts_fileSnapshot registry item.solution
  have hinvoked := (session.fileSnapshot registry item.solution).2.accounts_invoke registry client
    item.request token errand true false
  exact (hfiled.trans hinvoked).books (books_lookAt _ _ token)

/-- What a delivery does in one turn, if no more than `limit` of its requests end at once. -/
def sendEntries (errand : Handle) (client : Client) (registry : Handle) (token : Token) :
    ℕ → Delivery → Session → List BatchEntry
  | 0, _, session => [.ended .succeeded (session.isCancelled token)]
  | limit + 1, delivery, session =>
    match delivery.remaining with
    | [] => [.ended .succeeded (session.isCancelled token)]
    | item :: _ =>
      if session.isCancelled token then [.ended (.failed .cancelled) true]
      else
        let filed := (session.fileSnapshot registry item.solution).2
        [.filed item.solution, .invoked client item.request
          ((filed.registry registry).contains item.request.address) (filed.isCancelled token)] ++
          match session.exchange errand client registry token item with
          | (_, none, _) => []
          | (_, some .succeeded, after) =>
            .returned .succeeded ::
              sendEntries errand client registry token limit delivery.advance after.countSent
          | (_, some ending, after) => [.returned ending, .ended ending (after.isCancelled token)]

/-- Under a token that is not cancelled a delivery exchanges its next item. -/
theorem sendFrom_cons (errand : Handle) (client : Client) (registry : Handle) (item : WorkItem)
    (rest : List WorkItem) (limit sent : ℕ) (hgoing : session.isCancelled token = false) :
    sendFrom errand client registry token (limit + 1) ⟨item :: rest, sent⟩ session =
      match session.exchange errand client registry token item with
      | (pending, none, after) => (.waiting ⟨item :: rest, sent⟩ pending, after)
      | (_, some .succeeded, after) =>
        sendFrom errand client registry token limit ⟨rest, sent + 1⟩ after.countSent
      | (_, some ending, after) => (.over ending, after) := by
  have hfiled : ({ session with
      registries := session.registries.insert registry
        (SnapshotRegistry.file (session.registry registry) item.solution) } : Session) =
      (session.fileSnapshot registry item.solution).2 := rfl
  simp only [sendFrom, Delivery.turn, hgoing, Bool.false_eq_true, if_false, exchange, hfiled]
  generalize (session.fileSnapshot registry item.solution).2.invoke client item.request token errand = invoked
  generalize invoked.2.lookAt invoked.1 token = looked
  obtain ⟨_ | _ | _ | _ | _, after⟩ := looked <;> rfl

/-- When a delivery sends a request the registry holds the snapshot, and the token is not cancelled. -/
theorem sendEntries_cons (errand : Handle) (client : Client) (registry : Handle) (item : WorkItem)
    (rest : List WorkItem) (limit sent : ℕ) (hgoing : session.isCancelled token = false) :
    sendEntries errand client registry token (limit + 1) ⟨item :: rest, sent⟩ session =
      item.asked client ++ match session.exchange errand client registry token item with
        | (_, none, _) => []
        | (_, some .succeeded, after) => .returned .succeeded ::
          sendEntries errand client registry token limit ⟨rest, sent + 1⟩ after.countSent
        | (_, some ending, after) => [.returned ending, .ended ending (after.isCancelled token)] := by
  have hheld : (((session.fileSnapshot registry item.solution).2.registry registry).contains
      item.request.address) = true := by
    have hregistry : (session.fileSnapshot registry item.solution).2.registry registry =
        (session.registry registry).file item.solution := by simp [fileSnapshot, Session.registry]
    rw [hregistry]
    exact congrArg Option.isSome Registry.find?_register
  have hstill : (session.fileSnapshot registry item.solution).2.isCancelled token = false := hgoing
  simp only [sendEntries, hgoing, Bool.false_eq_true, if_false, hheld, hstill]
  rfl

/-- In one turn a delivery does what deliveries do. -/
theorem sendFrom_follows (errand : Handle) (client : Client) (registry : Handle) (token : Token)
    (items : List WorkItem) (limit sent : ℕ) (session : Session) (hlimit : items.length < limit) :
    let result := sendFrom errand client registry token limit ⟨items, sent⟩ session
    let entries := sendEntries errand client registry token limit ⟨items, sent⟩ session
    ∃ n, result.1.Follows client items sent n entries ∧ Accounts registry entries session result.2 := by
  induction items generalizing limit sent session with
  | nil =>
    obtain ⟨limit, rfl⟩ := Nat.exists_eq_succ_of_ne_zero (Nat.ne_zero_of_lt hlimit)
    exact ⟨0, .done (.all _), (Accounts.of_books rfl).ended .succeeded _⟩
  | cons item rest ih =>
    obtain ⟨limit, rfl⟩ := Nat.exists_eq_succ_of_ne_zero (Nat.ne_zero_of_lt hlimit)
    intro result entries
    cases hgoing : session.isCancelled token with
    | true =>
      have hresult : result = (.over (.failed .cancelled), session) := by
        simp only [result, sendFrom, Delivery.turn, hgoing, if_true]
      have hentries : entries = [.ended (.failed .cancelled) true] := by
        simp only [entries, sendEntries, hgoing, if_true]
      rw [hresult, hentries]
      exact ⟨0, .done (.cancelled (Nat.succ_pos _)), (Accounts.of_books rfl).ended (.failed .cancelled) true⟩
    | false =>
      have hresult := sendFrom_cons errand client registry item rest limit sent hgoing
      have hentries := sendEntries_cons errand client registry item rest limit sent hgoing
      have hasked := session.accounts_exchange errand client registry token item
      change result = _ at hresult
      change entries = _ at hentries
      clear_value result entries
      generalize session.exchange errand client registry token item = exchanged at hresult hentries hasked
      obtain ⟨pending, ending?, after⟩ := exchanged
      -- Whatever the request fails with, the delivery is over.
      have hover : ∀ ending, ending ≠ .succeeded → result = (.over ending, after) →
          entries = item.asked client ++ [.returned ending, .ended ending (after.isCancelled token)] →
          ∃ n, result.1.Follows client (item :: rest) sent n entries ∧
            Accounts registry entries session result.2 := by
        rintro ending hfailed rfl rfl
        exact ⟨0, .done (.failed _ rfl hfailed), hasked.failed hfailed _⟩
      match ending?, hresult, hentries with
      | none, hresult, hentries =>
        obtain rfl : result = (.waiting ⟨item :: rest, sent⟩ pending, after) := hresult
        obtain rfl : entries = item.asked client ++ [] := hentries
        rw [List.append_nil]
        exact ⟨0, .waiting (.waiting rfl), hasked⟩
      | some .succeeded, hresult, hentries =>
        have hcounted := hasked.trans (after.accounts_countSent registry)
        obtain ⟨n, hfollows, haccounts⟩ := ih limit (sent + 1) after.countSent
          (Nat.lt_of_succ_lt_succ hlimit)
        have hsplit : entries = item.delivered client ++
            sendEntries errand client registry token limit ⟨rest, sent + 1⟩ after.countSent := hentries
        rw [hresult, hsplit]
        exact ⟨n + 1, hfollows.cons item, hcounted.trans haccounts⟩
      | some (.failed failure), hresult, hentries => exact hover (.failed failure) nofun hresult hentries
      | some .crashed, hresult, hentries => exact hover .crashed nofun hresult hentries
      | some .refused, hresult, hentries => exact hover .refused nofun hresult hentries

/-- What becomes of the errand of a delivery that has delivered `n` of its items: it is gone, or it waits for
the request for the next item. -/
inductive Carries (session : Session) (errand : Handle) (owner : ErrandOwner) (token : Token)
    (client : Client) (registry : Handle) (items : List WorkItem) (n : ℕ) : Option Ending → Prop
  /-- The errand is over, and whoever it was for is told how it ended. -/
  | done {last : Session} {ending : Ending} : session = last.endErrand errand owner ending →
      Carries session errand owner token client registry items n (some ending)
  /-- The errand waits. -/
  | waiting {pending : Pending} : session.errands.get? errand =
        some ⟨owner, token, .delivery client registry ⟨items.drop n, n⟩ pending⟩ →
      Carries session errand owner token client registry items n none

/-- An errand that is over is gone, and no other. -/
theorem errands_endErrand (session : Session) (errand : Handle) (owner : ErrandOwner) (ending : Ending) :
    (session.endErrand errand owner ending).errands = session.errands.erase errand := by
  cases owner with
  | asker => rfl
  | listener listener =>
    obtain ⟨woken, heq, -⟩ := wake_eq { session with
      errands := session.errands.erase errand
      listeners := session.listeners.modify listener fun state =>
        { state with keeper := state.keeper.learn ending } } (.events listener)
    rw [endErrand, heq]

/-- An errand that is over is gone. -/
theorem get?_endErrand (session : Session) (errand : Handle) (owner : ErrandOwner) (ending : Ending) :
    (session.endErrand errand owner ending).errands.get? errand = none := by
  rw [errands_endErrand, Catalog.get?_erase, if_pos rfl]

/-- What a delivery does in a turn in which it goes on. -/
def carryOnEntries (session : Session) (errand : Handle) (token : Token) (client : Client)
    (registry : Handle) (delivery : Delivery) : List BatchEntry :=
  sendEntries errand client registry token (delivery.remaining.length + 1) delivery session

/-- A delivery that is over ends its errand. -/
theorem carryOn_of_over {delivery : Delivery} {ending : Ending} {last : Session}
    (h : sendFrom errand client registry token (delivery.remaining.length + 1) delivery session =
      (.over ending, last)) :
    session.carryOn errand owner token client registry delivery = last.endErrand errand owner ending := by
  rw [carryOn, h]

/-- A delivery that waits has its errand wait. -/
theorem carryOn_of_waiting {delivery rest : Delivery} {last : Session}
    (h : sendFrom errand client registry token (delivery.remaining.length + 1) delivery session =
      (.waiting rest pending, last)) :
    session.carryOn errand owner token client registry delivery =
      { last with
        errands := last.errands.insert errand
          ⟨owner, token, .delivery client registry rest pending⟩ } := by
  rw [carryOn, h]

/-- A delivery that goes on after the first `n` items does what deliveries do. -/
theorem carryOn_follows (session : Session) (errand : Handle) (owner : ErrandOwner) (token : Token)
    (client : Client) (registry : Handle) (items : List WorkItem) (n : ℕ) :
    let entries := session.carryOnEntries errand token client registry ⟨items.drop n, n⟩
    let after := session.carryOn errand owner token client registry ⟨items.drop n, n⟩
    ∃ k ending?, Delivers client (items.drop n) k entries ending? ∧
      Accounts registry entries session after ∧
      after.Carries errand owner token client registry items (n + k) ending? := by
  intro entries after
  obtain ⟨k, hfollows, haccounts⟩ := session.sendFrom_follows errand client registry token (items.drop n)
    ((items.drop n).length + 1) n (Nat.lt_succ_self _)
  change DeliveryProgress.Follows _ _ _ _ entries _ at hfollows
  change Accounts registry entries _ _ at haccounts
  cases hsent : sendFrom errand client registry token ((items.drop n).length + 1) ⟨items.drop n, n⟩
    session with
  | mk progress last =>
    rw [hsent] at hfollows haccounts
    cases hfollows with
    | @done ending hdelivers =>
      have hafter : after = last.endErrand errand owner ending := carryOn_of_over hsent
      refine ⟨k, some ending, hdelivers, haccounts.books ?_, .done hafter⟩
      rw [hafter]
      exact last.books_endErrand errand owner ending
    | @waiting pending hdelivers =>
      rw [List.drop_drop] at hsent
      have hafter : after = { last with
          errands := last.errands.insert errand
            ⟨owner, token, .delivery client registry ⟨items.drop (n + k), n + k⟩ pending⟩ } :=
        carryOn_of_waiting hsent
      have herrand : after.errands.get? errand = some ⟨owner, token,
          .delivery client registry ⟨items.drop (n + k), n + k⟩ pending⟩ := by
        rw [hafter]
        exact (Catalog.get?_insert _ _ _ _).trans (if_pos rfl)
      refine ⟨k, none, hdelivers, haccounts.books ?_, .waiting herrand⟩
      rw [hafter]
      rfl

/-- As long as a request has not ended, looking at it changes nothing. -/
theorem eq_of_lookAt {after : Session} (h : session.lookAt pending token = (none, after)) :
    after = session := by
  cases pending with
  | act act =>
    rcases session.lookAtAct_cases act token with ⟨ending, hlook⟩ | ⟨other, hlook⟩
    · rw [lookAt, hlook] at h
      exact (Prod.mk.inj h).2.symm
    · rw [lookAt, hlook] at h
      have hended := (Prod.mk.inj h).1
      contradiction
  | call call | ended ending => exact (Prod.mk.inj h).2.symm

/-- What the errand of a delivery does in its turn: it looks for the end of the request that it waits for. -/
def turnEntries (session : Session) (errand : Handle) : List BatchEntry :=
  match session.errands.get? errand with
  | some ⟨_, token, .delivery client registry delivery pending⟩ =>
    match session.lookAt pending token with
    | (none, _) => []
    | (some .succeeded, after) => .returned .succeeded ::
      after.countSent.carryOnEntries errand token client registry delivery.advance
    | (some ending, after) => [.returned ending, .ended ending (after.isCancelled token)]
  | _ => []

/-- The turn of an errand that waits for the request for the item after the first `n`. -/
theorem errandTurn_waiting (herrand : session.errands.get? errand =
      some ⟨owner, token, .delivery client registry ⟨items.drop n, n⟩ pending⟩) :
    session.errandTurn errand = match session.lookAt pending token with
      | (none, after) => after
      | (some .succeeded, after) =>
        after.countSent.carryOn errand owner token client registry ⟨items.drop (n + 1), n + 1⟩
      | (some ending, after) => after.endErrand errand owner ending := by
  have hadvance : (⟨items.drop n, n⟩ : Delivery).advance = ⟨items.drop (n + 1), n + 1⟩ := by
    rw [Delivery.advance, List.tail_drop]
  rw [← hadvance, errandTurn]
  split
  · next hgone =>
    rw [hgone] at herrand
    contradiction
  · next found hfound =>
    obtain rfl := Option.some.inj (hfound.symm.trans herrand)
    rfl

/-- What such an errand does in its turn. -/
theorem turnEntries_waiting (herrand : session.errands.get? errand =
      some ⟨owner, token, .delivery client registry ⟨items.drop n, n⟩ pending⟩) :
    session.turnEntries errand = match session.lookAt pending token with
      | (none, _) => []
      | (some .succeeded, after) => .returned .succeeded ::
        after.countSent.carryOnEntries errand token client registry ⟨items.drop (n + 1), n + 1⟩
      | (some ending, after) => [.returned ending, .ended ending (after.isCancelled token)] := by
  simp only [turnEntries, herrand, Delivery.advance, List.tail_drop]

/-- In its turn the errand of a delivery that waits for the request for the item after the first `n` goes on
doing what deliveries do. -/
theorem errandTurn_follows (hitem : items[n]? = some item)
    (herrand : session.errands.get? errand =
      some ⟨owner, token, .delivery client registry ⟨items.drop n, n⟩ pending⟩) :
    let more := session.turnEntries errand
    let after := session.errandTurn errand
    ∃ k ending?, Delivers client items (n + k)
        ((items.take n).flatMap (WorkItem.delivered client) ++ (item.asked client ++ more)) ending? ∧
      Accounts registry more session after ∧
      after.Carries errand owner token client registry items (n + k) ending? := by
  intro more after
  have hmore := turnEntries_waiting herrand
  have hafter := errandTurn_waiting herrand
  have hlook : Accounts registry [] session (session.lookAt pending token).2 :=
    .of_books (session.books_lookAt pending token)
  change more = _ at hmore
  change after = _ at hafter
  clear_value more after
  generalize hlooked : session.lookAt pending token = looked at hmore hafter hlook
  obtain ⟨ending?, last⟩ := looked
  -- Whatever the request fails with, the delivery is over.
  have hover : ∀ ending, ending ≠ .succeeded → after = last.endErrand errand owner ending →
      more = [.returned ending, .ended ending (last.isCancelled token)] →
      ∃ k ending?, Delivers client items (n + k)
          ((items.take n).flatMap (WorkItem.delivered client) ++ (item.asked client ++ more)) ending? ∧
        Accounts registry more session after ∧
        after.Carries errand owner token client registry items (n + k) ending? := by
    rintro ending hfailed rfl rfl
    exact ⟨0, some ending, .failed _ hitem hfailed,
      (hlook.failed hfailed _).books (books_endErrand _ _ _ _), .done rfl⟩
  match ending?, hmore, hafter with
  | none, hmore, hafter =>
    obtain rfl : last = session := eq_of_lookAt hlooked
    obtain rfl : after = last := hafter
    obtain rfl : more = [] := hmore
    refine ⟨0, none, ?_, hlook, .waiting herrand⟩
    rw [List.append_nil]
    exact .waiting hitem
  | some .succeeded, hmore, hafter =>
    have hcounted := hlook.trans (last.accounts_countSent registry)
    obtain ⟨k, ending?, hdelivers, haccounts, hcarries⟩ :=
      last.countSent.carryOn_follows errand owner token client registry items (n + 1)
    have hk : n + 1 + k = n + (k + 1) := by omega
    rw [hk] at hcarries
    obtain ⟨hlt, -⟩ := List.getElem?_eq_some_iff.mp hitem
    have hlength : k + (items.take (n + 1)).length = n + (k + 1) := by
      rw [List.length_take]
      omega
    have htaken : items.take (n + 1) = items.take n ++ [item] := by
      rw [List.take_add_one, hitem]
      rfl
    -- The items before, the one that has just been delivered, and those after it are all items.
    have hwhole := hdelivers.append (items.take (n + 1))
    rw [List.take_append_drop, hlength, htaken, List.flatMap_append, List.flatMap_singleton,
      List.append_assoc] at hwhole
    subst hmore hafter
    exact ⟨k + 1, ending?, hwhole, hcounted.trans haccounts, hcarries⟩
  | some (.failed failure), hmore, hafter => exact hover (.failed failure) nofun hafter hmore
  | some .crashed, hmore, hafter => exact hover .crashed nofun hafter hmore
  | some .refused, hmore, hafter => exact hover .refused nofun hafter hmore

end Session

end SolutionWatch
