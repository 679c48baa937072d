import Mathlib.Data.List.Induction
import SolutionWatch.Proofs.Search.Lifecycle

/-!
# What the messages of a client come to

A search that a client carries out reports what the client's messages say up to the first completion: every
definition, and every reference to a symbol that was announced before, with what was announced of the symbol
last (`SearchStream.reports`). It returns the client's failure if the client failed, else the first
completion, else it says that the worker is gone (`SearchStream.verdict`). The reader of the stream keeps no
more than the announced symbols, and comes to the same (`SearchStream.logWorker_eq`).

How a message is reported depends on the messages before it only. So what was reported of a part of the
stream stays, whatever comes after that part and however the call ends (`SearchStream.reports_prefix`).
-/

namespace SolutionWatch

namespace ReferenceMessage

/-- The completion that a message reports. -/
def completion? : ReferenceMessage → Option Completion
  | .completed completion => some completion
  | .definitionFound _ | .referenceFound _ _ => none

/-- The symbol that a message announces. -/
def announced? : ReferenceMessage → Option SymbolInfo
  | .definitionFound symbol => some symbol
  | .referenceFound _ _ | .completed _ => none

end ReferenceMessage

namespace SearchStream

variable {before messages more : List ReferenceMessage} {outcome : Except Failure Unit}

/-- The messages before the first completion. -/
def beforeCompletion (messages : List ReferenceMessage) : List ReferenceMessage :=
  messages.takeWhile fun message => message.completion?.isNone

/-- What some messages announced last under an identity. -/
def latest? (before : List ReferenceMessage) (id : SymbolId) : Option SymbolInfo :=
  ((before.filterMap ReferenceMessage.announced?).filter fun symbol => symbol.id = id).getLast?

/-- What a message is reported as, by the messages before it. -/
def report? (before : List ReferenceMessage) : ReferenceMessage → Option SearchEvent
  | .definitionFound symbol => some (.definition symbol)
  | .referenceFound id location => (latest? before id).map fun symbol => .reference symbol location
  | .completed _ => none

/-- What messages are reported as that follow other ones. -/
def reportsAfter (before : List ReferenceMessage) : List ReferenceMessage → List SearchEvent
  | [] => []
  | message :: rest => (report? before message).toList ++ reportsAfter (before ++ [message]) rest

/-- What a stream of messages is reported as. -/
def reports (messages : List ReferenceMessage) : List SearchEvent :=
  reportsAfter [] (beforeCompletion messages)

/-- What a search returns, by the messages of a client and what came of the call. -/
def verdict (messages : List ReferenceMessage) (outcome : Except Failure Unit) :
    Except Failure Completion :=
  match outcome, messages.findSome? ReferenceMessage.completion? with
  | .error failure, _ => .error failure
  | .ok _, some completion => .ok completion
  | .ok _, none => .error .workerDisconnected

/-! ## What was reported stays -/

/-- Messages are reported one after the other. -/
theorem reportsAfter_append (before messages more : List ReferenceMessage) :
    reportsAfter before (messages ++ more) =
      reportsAfter before messages ++ reportsAfter (before ++ messages) more := by
  induction messages generalizing before with
  | nil => rw [List.nil_append, List.append_nil, reportsAfter, List.nil_append]
  | cons message rest ih =>
    rw [List.cons_append, reportsAfter, reportsAfter, ih, List.append_assoc, List.append_assoc]
    rfl

/-- Further messages come after those that were there, or the stream was completed before them. -/
theorem beforeCompletion_append (messages more : List ReferenceMessage) :
    beforeCompletion messages <+: beforeCompletion (messages ++ more) := by
  unfold beforeCompletion
  induction messages with
  | nil => exact List.nil_prefix
  | cons message rest ih =>
    rw [List.cons_append, List.takeWhile_cons, List.takeWhile_cons]
    split
    · exact List.cons_prefix_cons.mpr ⟨rfl, ih⟩
    · exact List.prefix_refl _

/-- What was reported of a part of the stream is not taken back when the stream goes on. -/
theorem reports_prefix {earlier : List ReferenceMessage} (h : earlier <+: messages) :
    reports earlier <+: reports messages := by
  obtain ⟨more, rfl⟩ := h
  obtain ⟨later, hlater⟩ := beforeCompletion_append earlier more
  unfold reports
  rw [← hlater, reportsAfter_append]
  exact List.prefix_append _ _

/-! ## The reader of a stream -/

/-- What a reader that is not cancelled reports, if it keeps what the messages before announced. -/
theorem events_read (before messages : List ReferenceMessage) (delivered : ℕ) :
    (StreamReading.read none (before.filterMap ReferenceMessage.announced?).reverse delivered
      messages).events = reportsAfter before (beforeCompletion messages) := by
  induction messages generalizing before delivered with
  | nil => rfl
  | cons message rest ih =>
    have hrest := ih (before ++ [message])
    rw [List.filterMap_append, List.reverse_append] at hrest
    cases message with
    | definitionFound symbol =>
      exact congrArg (List.cons (SearchEvent.definition symbol)) (hrest (delivered + 1))
    | referenceFound id location =>
      have hlatest : (before.filterMap ReferenceMessage.announced?).reverse.find? (fun symbol =>
          symbol.id = id) = latest? before id := List.getLast?_filter.symm
      have hstream : reportsAfter before (beforeCompletion (.referenceFound id location :: rest)) =
          (report? before (.referenceFound id location)).toList ++
            reportsAfter (before ++ [.referenceFound id location]) (beforeCompletion rest) := rfl
      rw [hstream, report?]
      cases hsymbol : latest? before id with
      | none =>
        rw [hsymbol] at hlatest
        simp only [StreamReading.read, CancelPoint.reached, Bool.false_eq_true, if_false, hlatest]
        exact hrest delivered
      | some symbol =>
        rw [hsymbol] at hlatest
        simp only [StreamReading.read, CancelPoint.reached, Bool.false_eq_true, if_false, hlatest]
        exact congrArg (List.cons (SearchEvent.reference symbol location)) (hrest (delivered + 1))
    | completed completion => rfl

/-- A reader that is not cancelled reads the first completion. -/
theorem completion_read (known : List SymbolInfo) (delivered : ℕ) (messages : List ReferenceMessage) :
    (StreamReading.read none known delivered messages).completion =
        messages.findSome? ReferenceMessage.completion? ∧
      (StreamReading.read none known delivered messages).cancelled = false := by
  induction messages generalizing known delivered with
  | nil => exact ⟨rfl, rfl⟩
  | cons message rest ih =>
    cases message with
    | definitionFound symbol => exact ih (symbol :: known) (delivered + 1)
    | referenceFound id location =>
      unfold StreamReading.read
      rw [if_neg (show ¬CancelPoint.reached none delivered = true from Bool.false_ne_true)]
      dsimp only
      split
      · exact ih known (delivered + 1)
      · exact ih known delivered
    | completed completion => exact ⟨rfl, rfl⟩

/-- The log of a search that a client carried out and that was not cancelled. -/
theorem logWorker_eq (messages : List ReferenceMessage) (outcome : Except Failure Unit) :
    Query.logWorker (.ofMessages none messages) outcome =
      .conclude (reports messages) (verdict messages outcome) := by
  have hevents : (StreamReading.ofMessages none messages).events = reports messages :=
    events_read [] messages 0
  obtain ⟨hcompletion, huncancelled⟩ := completion_read [] 0 messages
  have hresult : (StreamReading.ofMessages none messages).result outcome = verdict messages outcome := by
    unfold StreamReading.result StreamReading.ofMessages
    rw [huncancelled, if_neg Bool.false_ne_true, hcompletion]
    rfl
  rw [Query.logWorker, hevents, hresult]

/-- A reference comes too early, and is reported under the second name when it comes again; what follows the
completion is not reported. -/
example :
    let method := Fixture.method 0 1
    let renamed := { method with name := "Renamed" }
    let place : ReferenceLocation := ⟨Fixture.documentId 0 0, ⟨4, 12⟩, false⟩
    let messages : List ReferenceMessage := [.referenceFound method.id place, .definitionFound method,
      .definitionFound renamed, .referenceFound method.id place, .completed .found, .definitionFound method]
    reports messages = [.definition method, .definition renamed, .reference renamed place] ∧
      verdict messages (.ok ()) = .ok .found := by decide +kernel

end SearchStream

/-- The reply of a client that returns a result. -/
def Reply.ofExcept : Except Failure Unit → Reply
  | .ok _ => .succeed
  | .error failure => .fail failure

namespace Session

variable {session : Session} {searcher : Searcher} {query : Query} {solution : Solution} {token : Token}
  {messages : List ReferenceMessage} {outcome : Except Failure Unit}

/-! ## The wait for a client -/

/-- The session when a search is sent to a client: the search is counted, and the snapshot filed. -/
def sending (session : Session) (registry : Handle) (solution : Solution) : Session :=
  { session with
    counters := { session.counters with remoteSearches := session.counters.remoteSearches + 1 }
    registries := session.registries.insert registry ((session.registry registry).file solution) }

/-- How the wait for a call of the client of a scripted host ends. -/
def awaitAct (session : Session) (act : Act) (token : Token) : Option Ending × Session :=
  (({ session with next := session.next + 1 } : Session).wakeAfter act (.errand session.next)).awaitRequest
    session.next (.act act) token

/-- A client that returns, and whose messages can be read, has its messages interpreted. -/
theorem findScripted_of_returned {host : Handle} {request : Request Fingerprint} {response : Response}
    {taken : Session} (htaken : session.takeResponse host request = (response, taken))
    (hmessages : response.messages = messages.map some) (hkept : response.isLost = false)
    (hreturned : (taken.awaitAct (response.act taken.now) token).1 = some (.ofExcept outcome))
    (htoken : (taken.awaitAct (response.act taken.now) token).2.isCancelled token = false) :
    (session.findScripted host request token none).1 =
      .log (Query.logWorker (.ofMessages none messages) outcome) := by
  have hreadable : ∀ messages : List ReferenceMessage, readable (messages.map some) = (messages, true) := by
    intro messages
    induction messages with
    | nil => rfl
    | cons message rest ih => rw [List.map_cons, readable, ih]
  have hcalm : ∀ events, taken.cancelAfter token none events = taken := fun _ => rfl
  have hreading : { StreamReading.ofMessages none messages with
      cancelled := (StreamReading.ofMessages none messages).cancelled || false } =
      StreamReading.ofMessages none messages := by rw [Bool.or_false]
  generalize hended : taken.awaitAct (response.act taken.now) token = ended at hreturned htoken
  obtain ⟨ending, after⟩ := ended
  obtain rfl : ending = some (.ofExcept outcome) := hreturned
  have hwait : ((({ taken with next := taken.next + 1 } : Session).wakeAfter (response.act taken.now)
      (.errand taken.next)).awaitRequest taken.next (.act (response.act taken.now)) token) =
      (some (.ofExcept outcome), after) := hended
  unfold findScripted
  simp only [htaken, hmessages, hreadable, hkept, hcalm, newHandle, Bool.and_false, Bool.false_eq_true,
    if_false, if_true, hwait, htoken, hreading]
  cases outcome <;> rfl

/-- What the foreground sees when it looks at an errand: the errands, the answer to it, and the time. -/
def sight (session : Session) : Catalog Handle Errand × Option Ending × ℕ :=
  (session.errands, session.answer, session.now)

/-- The foreground does not see that a token is cancelled. -/
theorem sight_cancelToken (session : Session) (token : Token) :
    (session.cancelToken token).sight = session.sight := by
  obtain ⟨base, woken, rfl | ⟨other, rfl⟩, heq, -⟩ := session.cancelToken_eq token <;>
    · rw [heq]
      rfl

/-- The foreground does not see that a worker is stopped. -/
theorem sight_stopWorker (session : Session) (worker : Handle) :
    (session.stopWorker worker).sight = session.sight := by
  unfold stopWorker
  refine List.foldlRecOn (motive := fun after : Session => after.sight = session.sight) _ _ rfl
    fun after hafter e _ => ?_
  obtain ⟨woken, heq, -⟩ := after.wake_eq (.call e.1)
  rw [heq]
  exact hafter

/-- The foreground does not see what is let go of. -/
theorem sight_letGo (session : Session) : session.letGo.sight = session.sight := by
  unfold letGo
  refine List.foldlRecOn (motive := fun after : Session => after.sight = session.sight) _ _ ?_
    fun after hafter worker _ => (after.sight_stopWorker worker).trans hafter
  exact List.foldlRecOn (motive := fun after : Session => after.sight = session.sight) _ _ rfl
    fun after hafter token _ => (after.sight_cancelToken token).trans hafter

/-- A client that returns at once is not waited for any longer. -/
theorem awaitAct_of_instant (hanswer : session.answer = none) (outcome : Except Failure Unit)
    (token : Token) :
    (session.awaitAct ⟨session.now, .ofExcept outcome⟩ token).1 = some (.ofExcept outcome) := by
  let act : Act := ⟨session.now, .ofExcept outcome⟩
  let waiting : Session :=
    { session with
      next := session.next + 1
      errands := session.errands.insert session.next ⟨.asker, token, .request (.act act)⟩ }
  have hwait : session.awaitAct act token = waiting.awaitErrand session.next := by
    have hdue : ¬session.now < act.due := Nat.lt_irrefl _
    simp only [awaitAct, wakeAfter, hdue, if_false]
    rfl
  obtain ⟨herrands, -, hnow⟩ : waiting.letGo.errands = waiting.errands ∧
      waiting.letGo.answer = waiting.answer ∧ waiting.letGo.now = waiting.now := by
    simpa [sight] using waiting.sight_letGo
  have hlook : (lookAtErrand session.next waiting.letGo).1 = some (.ofExcept outcome) := by
    have herrand : waiting.letGo.errands.get? session.next = some ⟨.asker, token, .request (.act act)⟩ := by
      rw [herrands, Catalog.get?_insert, if_pos rfl]
    have hdue : ¬waiting.letGo.now < act.due := by
      rw [hnow]
      exact Nat.lt_irrefl _
    have hover : waiting.letGo.lookAt (.act act) token = (some (.ofExcept outcome), waiting.letGo) := by
      rw [lookAt, lookAtAct, if_neg hdue]
      cases outcome <;> rfl
    simp only [lookAtErrand, errandTurn, herrand, hover]
    rfl
  have hload : waiting.letGo.load = 32 * waiting.letGo.tasksToCome + 31 + 1 := by
    rw [load]
    omega
  have hfound : (waiting.waitFor patience (lookAtErrand session.next)).1 = some (.ofExcept outcome) := by
    unfold waitFor
    dsimp only
    rw [hload, run, if_neg (fun h => h.1 rfl)]
    generalize lookAtErrand session.next waiting.letGo = looked at hlook ⊢
    obtain ⟨ending, after⟩ := looked
    obtain rfl : ending = _ := hlook
    rfl
  have hunanswered : waiting.answer = none := hanswer
  rw [hwait, awaitErrand, hunanswered]
  generalize waiting.waitFor patience (lookAtErrand session.next) = waited at hfound ⊢
  obtain ⟨ending, after⟩ := waited
  obtain rfl : ending = _ := hfound
  rfl

/-! ## A search that a client carries out -/

/-- The client of a search sends these messages and then returns so, and the token is not cancelled. -/
inductive AnsweredBy (session : Session) (searcher : Searcher) (query : Query) (solution : Solution)
    (token : Token) (messages : List ReferenceMessage) (outcome : Except Failure Unit) : Prop
  /-- The client is a worker. -/
  | worker {worker registry : Handle} {operation : Operation} :
      session.searchClient? searcher = some (.worker worker, registry) →
      query.operation? (session.source searcher.graph) solution = some operation →
      ((session.sending registry solution).streamWorker worker ⟨.fingerprint solution.fingerprint, operation⟩
        token).1 = ⟨messages, outcome⟩ →
      AnsweredBy session searcher query solution token messages outcome
  /-- The client is that of a scripted host. It may take its time. -/
  | scripted {host registry : Handle} {operation : Operation} {response : Response} {taken : Session} :
      session.searchClient? searcher = some (.scripted host, registry) →
      query.operation? (session.source searcher.graph) solution = some operation →
      (session.sending registry solution).takeResponse host ⟨solution.fingerprint, operation⟩ =
        (response, taken) →
      response.messages = messages.map some → response.isLost = false →
      (taken.awaitAct (response.act taken.now) token).1 = some (.ofExcept outcome) →
      (taken.awaitAct (response.act taken.now) token).2.isCancelled token = false →
      AnsweredBy session searcher query solution token messages outcome

/-- A search that may ask a worker and that a client carries out, whatever messages the client sends and
whatever it returns, is reported and returns as its messages are to be interpreted. What was reported of a
part of the stream stays when the stream goes on. -/
theorem find_interprets_stream (hquery : query.mayAskWorker = true)
    (htoken : session.isCancelled token = false)
    (hanswered : session.AnsweredBy searcher query solution token messages outcome) :
    (session.find searcher query solution token none).1 =
        .log (.conclude (SearchStream.reports messages) (SearchStream.verdict messages outcome)) ∧
      ∀ earlier, earlier <+: messages → SearchStream.reports earlier <+: SearchStream.reports messages := by
  refine ⟨?_, fun earlier hearlier => SearchStream.reports_prefix hearlier⟩
  rw [← SearchStream.logWorker_eq]
  have hpath : ∀ operation, query.operation? (session.source searcher.graph) solution = some operation →
      query.path (session.source searcher.graph) solution none true = .worker operation := by
    intro operation hoperation
    simp [Query.path, hquery, CancelPoint.reached, hoperation]
  cases hanswered with
  | worker hclient hoperation hanswer =>
    simp only [find, htoken, Bool.false_eq_true, if_false, hclient, Option.isSome_some, hpath _ hoperation]
    have hanswer' : ((session.sending _ solution).streamWorker _ _ token).1 = ⟨messages, outcome⟩ := hanswer
    unfold sending at hanswer'
    rw [hanswer']
  | scripted hclient hoperation htaken hmessages hkept hreturned huncancelled =>
    have hfound := findScripted_of_returned htaken hmessages hkept hreturned huncancelled
    simp only [find, htoken, Bool.false_eq_true, if_false, hclient, Option.isSome_some, hpath _ hoperation]
    exact hfound

/-- The messages of a client that mentions a method before it announces it, announces it twice, under two
names, and goes on after it is done. -/
def unrulyMessages : List ReferenceMessage :=
  let method := Fixture.method 0 1
  let place : ReferenceLocation := ⟨Fixture.documentId 0 0, ⟨4, 12⟩, false⟩
  [.referenceFound method.id place, .definitionFound method, .referenceFound method.id place,
    .definitionFound { method with name := "Renamed" }, .referenceFound method.id place, .completed .found,
    .completed .exhausted, .definitionFound method]

/-- A client that sends these messages and succeeds. -/
theorem find_interprets_stream_of_unruly :
    let session := oneScripted (Fixture.method 0 1) (unrulyMessages.map some)
    let query := Query.references (Fixture.symbolId 0 1) none {}
    let solution := (Fixture.mk 2 2 1 1).solution
    query.mayAskWorker = true ∧ session.isCancelled ⟨[0]⟩ = false ∧
      session.AnsweredBy ⟨3, 1, {}⟩ query solution ⟨[0]⟩ unrulyMessages (.ok ()) ∧
      (session.find ⟨3, 1, {}⟩ query solution ⟨[0]⟩ none).1 =
        .log (.conclude (SearchStream.reports unrulyMessages)
          (SearchStream.verdict unrulyMessages (.ok ()))) ∧
      ∀ earlier, earlier <+: unrulyMessages →
        SearchStream.reports earlier <+: SearchStream.reports unrulyMessages := by
  intro session query solution
  have hsymbol : (session.source 1).symbol? (Fixture.symbolId 0 1) = some (Fixture.method 0 1) :=
    Std.HashMap.getElem?_insert_self
  have hoperation : query.operation? (session.source 1) solution =
      some (.findReferences ⟨Fixture.symbolId 0 1, Fixture.projectId 0, "Method1"⟩ none {}) := by
    have haddress : (Fixture.method 0 1).address? solution =
        some ⟨Fixture.symbolId 0 1, Fixture.projectId 0, "Method1"⟩ := by decide +kernel
    simp only [Query.operation?, query, Query.references, hsymbol, Option.bind_some, haddress]
    rfl
  have hanswered : session.AnsweredBy ⟨3, 1, {}⟩ query solution ⟨[0]⟩ unrulyMessages (.ok ()) :=
    .scripted rfl hoperation rfl rfl rfl (awaitAct_of_instant rfl (.ok ()) ⟨[0]⟩) (by decide +kernel)
  exact ⟨rfl, rfl, hanswered, find_interprets_stream rfl rfl hanswered⟩

end Session

end SolutionWatch
