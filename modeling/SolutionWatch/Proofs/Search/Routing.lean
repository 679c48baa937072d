import SolutionWatch.Fixture
import SolutionWatch.Proofs.Search.Stream
import SolutionWatch.Proofs.Snapshot.Registry
import SolutionWatch.Session.Asking

/-!
# A search on a worker is a search in this process

A caller that finds a worker sends it the address of the symbol and of the snapshot, and reports what
the worker's messages say; a caller that finds none searches by itself. Both report the same, in the
same order, and return the same (`find_on_worker_eq_find_here`), when the worker searches the symbols
that the caller would search and resolves requests in the registry that the caller files snapshots in.

The worker's half is `Worker.logWorker_searchIn`: the search that a worker carries out in any filed
snapshot with the fingerprint of the caller's snapshot reads back as the caller's own search. The other
half is that the registry still has such a snapshot when the request arrives, which
`SnapshotRegistry.Sound.find?_file` says of every registry in use.
-/

namespace SolutionWatch

/-- A query that may ask a worker, and cascades in one direction when it searches within ranges. -/
structure Query.Routable (query : Query) : Prop where
  /-- A worker may be asked. -/
  mayAskWorker : query.mayAskWorker = true
  /-- Within ranges the search cascades in one direction. -/
  unidirectional : ∀ ranges, query.scope = .spans ranges →
    query.options.unidirectional = query.options

/-- A search of the solution or of given documents is routable. -/
theorem Query.routable_references (symbol : SymbolId) (documents : Option (List DocumentId))
    (options : SearchOptions) : (references symbol documents options).Routable where
  mayAskWorker := rfl
  unidirectional ranges h := by
    cases documents <;> exact absurd h (by simp [references, scopeOf])

/-- A search within ranges is routable. -/
theorem Query.routable_inDocuments (symbol : SymbolId) (ranges : List DocumentSpan)
    (options : SearchOptions) : (inDocuments symbol ranges options).Routable where
  mayAskWorker := rfl
  unidirectional _ _ := rfl

/-- The operation for a scope asks for a search of that scope. -/
theorem SearchScope.search?_operation (scope : SearchScope) (symbol : SymbolAddress)
    {options : SearchOptions}
    (h : ∀ ranges, scope = .spans ranges → options.unidirectional = options) :
    (scope.operation symbol options).search? = some ⟨symbol, scope, options⟩ := by
  cases scope with
  | everything => rfl
  | documents ids => rfl
  | spans ranges => rw [SearchScope.operation, Operation.search?, h ranges rfl]

namespace Worker

/-- The search that a worker carries out in a filed snapshot with the fingerprint of the caller's reads
back as the search of the caller. -/
theorem logWorker_searchIn {source : SymbolSource} (hsource : source.Keyed) {query : Query}
    (hquery : query.Routable) {solution found : Solution} (hs : solution.Filed)
    (hf : found.Filed) (hprint : found.fingerprint = solution.fingerprint) {operation : Operation}
    (hoperation : query.operation? source solution = some operation) :
    Query.logWorker
        (.ofMessages none (searchIn source found operation none).messages)
        (searchIn source found operation none).outcome =
      query.logHere source solution none := by
  -- The request names the symbol of the query, by an address in the snapshot.
  obtain ⟨address, haddress, rfl⟩ := Option.map_eq_some_iff.mp hoperation
  obtain ⟨symbol, hsymbol, haddress⟩ := Option.bind_eq_some_iff.mp haddress
  rw [SymbolInfo.address?] at haddress
  split at haddress
  · next hcontains =>
    obtain rfl := Option.some.inj haddress
    have hid : symbol.id = query.symbol := hsource _ _ hsymbol
    rw [← hf.containsProject_congr hs hprint] at hcontains
    obtain ⟨project, hproject⟩ := Solution.containsProject_eq_true_iff.mp hcontains
    have hanswer : searchIn source found
        (query.scope.operation ⟨symbol.id, symbol.declaration.project, symbol.name⟩ query.options)
        none = answerOf
          (Engine.search source query.options solution query.scope query.symbol none) := by
      rw [searchIn, SearchScope.search?_operation _ _ hquery.unidirectional]
      simp only [Solution.requireProject_eq_ok_iff.mpr hproject, hid,
        Engine.search_congr hf hs hprint]
      rfl
    obtain ⟨symbols, references, result, hsearch, hsymbols, hreferences⟩ :=
      Engine.search_eq hsource query.options solution query.scope query.symbol none
    rw [hanswer, Query.logHere, hsearch]
    exact logWorker_answerOf hsymbols hreferences result
  · contradiction

end Worker

namespace Session

/-- The symbols of a graph, as a search sees them, are known under their own identities. -/
theorem keyed_source (session : Session) (graph : Handle) : (session.source graph).Keyed :=
  SymbolGraph.keyed_toSource _ _

/-- Without cancellation, who carries a routable query out depends on whether the symbol has an
address and on whether there is a worker. -/
theorem path_eq {query : Query} (hquery : query.Routable) (source : SymbolSource)
    (solution : Solution) (available : Bool) :
    query.path source solution none available =
      match query.operation? source solution with
      | some operation => if available then .worker operation else .here
      | none => .here := by
  rw [Query.path, hquery.mayAskWorker]
  rfl

/-- A query without an address is carried out in this process, whatever client there is. -/
theorem find_of_no_operation {session : Session} {searcher : Searcher} {query : Query}
    (hquery : query.Routable) {solution : Solution} {token : Token}
    (htoken : session.isCancelled token = false)
    (hoperation : query.operation? (session.source searcher.graph) solution = none) :
    (session.find searcher query solution token none).1 =
      .log (query.logHere (session.source searcher.graph) solution none) := by
  simp [find, htoken, path_eq hquery, hoperation]

/-- A query without a client is carried out in this process. -/
theorem find_of_no_client {session : Session} {searcher : Searcher} {query : Query}
    (hquery : query.Routable) {solution : Solution} {token : Token}
    (htoken : session.isCancelled token = false)
    (hclient : session.searchClient? searcher = none) :
    (session.find searcher query solution token none).1 =
      .log (query.logHere (session.source searcher.graph) solution none) := by
  cases hoperation : query.operation? (session.source searcher.graph) solution with
  | none => exact find_of_no_operation hquery htoken hoperation
  | some operation => simp [find, htoken, hclient, path_eq hquery, hoperation]

/-- A search that is sent to a running worker under a token that is not cancelled is answered by that
worker. -/
theorem streamWorker_of_running {session : Session} {token : Token}
    (htoken : session.isCancelled token = false) {worker : Handle} {state : WorkerState}
    (hworker : session.workers.get? worker = some state) (hrunning : state.running = true)
    (request : Request Address) :
    (session.streamWorker worker request token).1 =
      (Worker.search (session.source state.graph) (session.registry state.registry) request
        none).1 := by
  simp only [streamWorker, hworker, hrunning, htoken, searchWorker, if_true, Bool.false_eq_true,
    if_false]

/-- A query with an address, whose client is a worker that resolves requests in the caller's registry,
is carried out by that worker. -/
theorem find_of_worker {session : Session} {searcher : Searcher} {query : Query}
    (hquery : query.Routable) {solution : Solution} {token : Token}
    (htoken : session.isCancelled token = false) {worker registry : Handle} {state : WorkerState}
    (hclient : session.searchClient? searcher = some (.worker worker, registry))
    (hworker : session.workers.get? worker = some state) (hrunning : state.running = true)
    (hregistry : state.registry = registry) {operation : Operation}
    (hoperation : query.operation? (session.source searcher.graph) solution = some operation) :
    let answer := (Worker.search (session.source state.graph)
      ((session.registry registry).file solution) ⟨.fingerprint solution.fingerprint, operation⟩ none).1
    (session.find searcher query solution token none).1 =
      .log (Query.logWorker (.ofMessages none answer.messages) answer.outcome) := by
  intro answer
  -- Filing the snapshot leaves the tokens, the worker and its graph alone.
  have hanswer : ∀ filed : Session, filed.tokens = session.tokens →
      filed.workers = session.workers → filed.graphs = session.graphs →
      filed.registry registry = (session.registry registry).file solution →
      (filed.streamWorker worker ⟨.fingerprint solution.fingerprint, operation⟩ token).1 = answer := by
    intro filed htokens hworkers hgraphs hfiled
    rw [streamWorker_of_running (by rw [isCancelled, htokens]; exact htoken)
      (hworkers ▸ hworker) hrunning, hregistry, hfiled]
    simp only [source, sharedGraph, hgraphs, answer]
  simp only [find, htoken, hclient, path_eq hquery, hoperation, Option.isSome_some, if_true,
    Bool.false_eq_true, if_false]
  rw [hanswer]
  · rfl
  · rfl
  · rfl
  · simp [Session.registry]

/-- A running worker that resolves requests in the caller's registry, and searches the symbols that the
caller would search, carries a routable query out as the caller would. -/
theorem find_of_sharing_worker {session : Session} {searcher : Searcher} {query : Query}
    (hquery : query.Routable) {solution : Solution} (hs : solution.Filed) {token : Token}
    (htoken : session.isCancelled token = false) {worker registry : Handle} {state : WorkerState}
    (hclient : session.searchClient? searcher = some (.worker worker, registry))
    (hworker : session.workers.get? worker = some state) (hrunning : state.running = true)
    (hregistry : state.registry = registry) (hsound : (session.registry registry).Sound)
    (hsource : session.source state.graph = session.source searcher.graph) :
    (session.find searcher query solution token none).1 =
      .log (query.logHere (session.source searcher.graph) solution none) := by
  cases hoperation : query.operation? (session.source searcher.graph) solution with
  | none => exact find_of_no_operation hquery htoken hoperation
  | some operation =>
    rw [find_of_worker hquery htoken hclient hworker hrunning hregistry hoperation]
    -- The worker finds a snapshot of this fingerprint, since it was filed just before.
    obtain ⟨found, hfind, hprint, hfound⟩ := hsound.find?_file hs
    rw [Worker.search, SnapshotRegistry.lookup_of_find? hfind, hsource]
    exact congrArg _ (Worker.logWorker_searchIn (session.keyed_source _) hquery hs hfound hprint
      hoperation)

/-- Two sessions carry a routable query out alike, one of them on a worker and the other in its own
process, when neither call is cancelled, the worker runs and resolves requests in the registry that
the caller files snapshots in, and the three have one source of symbols. -/
theorem find_congr {remote here : Session} {caller searcher : Searcher} {query : Query}
    (hquery : query.Routable) {solution : Solution} (hs : solution.Filed) {token other : Token}
    (htoken : remote.isCancelled token = false) (hother : here.isCancelled other = false)
    {worker registry : Handle} {state : WorkerState}
    (hclient : remote.searchClient? caller = some (.worker worker, registry))
    (hworker : remote.workers.get? worker = some state) (hrunning : state.running = true)
    (hregistry : state.registry = registry) (hsound : (remote.registry registry).Sound)
    (hworkerSource : remote.source state.graph = remote.source caller.graph)
    (hnone : here.searchClient? searcher = none)
    (hsource : here.source searcher.graph = remote.source caller.graph) :
    ∃ log, (remote.find caller query solution token none).1 = .log log ∧
      (here.find searcher query solution other none).1 = .log log := by
  exact ⟨query.logHere (remote.source caller.graph) solution none,
    find_of_sharing_worker hquery hs htoken hclient hworker hrunning hregistry hsound hworkerSource,
    hsource ▸ find_of_no_client hquery hother hnone⟩

/-- A client that is a worker runs. -/
theorem running_of_searchClient? {session : Session} {searcher : Searcher}
    {worker registry : Handle} {state : WorkerState}
    (hclient : session.searchClient? searcher = some (.worker worker, registry))
    (hworker : session.workers.get? worker = some state) : state.running = true := by
  simp only [searchClient?, client?, Option.bind_eq_bind, Option.bind_eq_some_iff,
    Option.pure_def, Option.some.injEq, Prod.mk.injEq] at hclient
  obtain ⟨dispatcher, -, client, hclient, rfl, -⟩ := hclient
  split at hclient
  · split at hclient
    · simp at hclient
    · obtain ⟨found, hfound, hclient⟩ := Option.bind_eq_some_iff.mp hclient
      split at hclient
      · next hrunning =>
        cases hclient
        rw [hworker, Option.some.injEq] at hfound
        rwa [hfound]
      · contradiction
    · contradiction
  · contradiction

/-- A search that goes to a worker reports and returns the same as one in this process: for every
symbol, every filed snapshot, every set of options, and every list of documents or of ranges. The
worker runs, resolves requests in the registry that the caller files snapshots in, and searches the
symbols that the caller would search; the registry was used for filed snapshots only, and nothing is
cancelled. -/
theorem find_on_worker_eq_find_here {remote here : Session} {caller searcher : Searcher}
    {token other : Token} {worker registry : Handle} {state : WorkerState}
    (htoken : remote.isCancelled token = false) (hother : here.isCancelled other = false)
    (hclient : remote.searchClient? caller = some (.worker worker, registry))
    (hworker : remote.workers.get? worker = some state) (hregistry : state.registry = registry)
    (hused : (remote.registry registry).Used)
    (hworkerSource : remote.source state.graph = remote.source caller.graph)
    (hnone : here.searchClient? searcher = none)
    (hsource : here.source searcher.graph = remote.source caller.graph)
    {solution : Solution} (hs : solution.Filed) (symbol : SymbolId) (options : SearchOptions) :
    (∀ documents, ∃ log,
      (remote.find caller (.references symbol documents options) solution token none).1 =
        .log log ∧
      (here.find searcher (.references symbol documents options) solution other none).1 =
        .log log) ∧
    ∀ ranges, ∃ log,
      (remote.find caller (.inDocuments symbol ranges options) solution token none).1 = .log log ∧
      (here.find searcher (.inDocuments symbol ranges options) solution other none).1 =
        .log log := by
  have hrunning := running_of_searchClient? hclient hworker
  constructor
  · intro documents
    exact find_congr (Query.routable_references symbol documents options) hs htoken hother hclient
      hworker hrunning hregistry hused.sound hworkerSource hnone hsource
  · intro ranges
    exact find_congr (Query.routable_inDocuments symbol ranges options) hs htoken hother hclient
      hworker hrunning hregistry hused.sound hworkerSource hnone hsource

/-- A session with a worker (2) for a registry (0) and a generated graph (1), a dispatcher that asks
the worker (4), and one that does not (5). -/
def oneWorker : Session :=
  let (registry, session) := newRegistry {} "snapshots" 1
  let (graph, session) := session.newGraph "symbols" { graph := (Fixture.mk 2 2 1 1).graph }
  let (worker, session) := session.newWorker "worker" registry (some graph) []
  let (host, session) := session.newHost "host" (.attached (some worker))
  let (_, session) := session.newDispatcher "remote" ⟨host, registry, true⟩
  (session.newDispatcher "here" ⟨host, registry, false⟩).2

/-- A search for a method of a generated solution through the one dispatcher and the other. -/
theorem find_on_worker_eq_find_here_of_fixture :
    let solution := (Fixture.mk 2 2 1 1).solution
    let query := Query.references (Fixture.symbolId 0 1) none {}
    oneWorker.isCancelled ⟨[0]⟩ = false ∧
      oneWorker.searchClient? ⟨4, 1, {}⟩ = some (.worker 2, 0) ∧
      oneWorker.workers.get? 2 = some { registry := 0, graph := 1, script := [] } ∧
      (oneWorker.registry 0).Used ∧ oneWorker.searchClient? ⟨5, 1, {}⟩ = none ∧
      solution.Filed ∧
      ∃ log, (oneWorker.find ⟨4, 1, {}⟩ query solution ⟨[0]⟩ none).1 = .log log ∧
        (oneWorker.find ⟨5, 1, {}⟩ query solution ⟨[0]⟩ none).1 = .log log := by
  intro solution query
  have htoken : oneWorker.isCancelled ⟨[0]⟩ = false := rfl
  have hclient : oneWorker.searchClient? ⟨4, 1, {}⟩ = some (.worker 2, 0) := rfl
  have hworker : oneWorker.workers.get? 2 = some { registry := 0, graph := 1, script := [] } := rfl
  have hused : (oneWorker.registry 0).Used := .new 1
  have hnone : oneWorker.searchClient? ⟨5, 1, {}⟩ = none := rfl
  have hs : solution.Filed := by decide
  refine ⟨htoken, hclient, hworker, hused, hnone, hs, ?_⟩
  exact (find_on_worker_eq_find_here htoken htoken hclient hworker rfl hused rfl hnone rfl hs
    (Fixture.symbolId 0 1) {}).1 none

end Session

end SolutionWatch
