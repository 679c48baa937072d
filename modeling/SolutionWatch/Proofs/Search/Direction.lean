import SolutionWatch.Proofs.Search.Cascade
import SolutionWatch.Proofs.Search.Routing

/-!
# Which way a restricted search cascades

A search within ranges cascades in one direction, whatever the caller chose, so it covers symbols that lie
above the start and symbols that are declared in the documents of the ranges, and no others. A search of
given documents cascades the way that the caller chose. In one direction it is just as bounded; in both
directions the restriction does not bound the cascade at all: the search covers what a search of the whole
solution covers (`Query.covered_of_bidirectional`), and announces it. So the direction makes no difference
to such a search exactly if it makes none to the cascade (`Query.logHere_eq_iff`).

That holds for a search on a worker and for one in this process (`Session.directions_compared`), and the
two directions do differ (`Session.restricted_search_leaves_documents`).
-/

namespace SolutionWatch

namespace Cascade

variable {source : SymbolSource} {documents : Option (List DocumentId)}

/-- A walk in both directions goes on in both directions. -/
theorem eq_both_of_mem_steps {id next : SymbolId} {walk after : Walk}
    (h : (next, after) ∈ steps source .bidirectional id walk) : after = .both := by
  simp only [steps, reduceCtorEq, if_false, List.mem_append] at h
  rcases h with h | h
  · split at h
    · obtain ⟨_, -, heq⟩ := List.mem_map.mp h
      exact (Prod.mk.inj heq).2.symm
    · contradiction
  · split at h
    · obtain ⟨_, -, heq⟩ := List.mem_map.mp h
      exact (Prod.mk.inj heq).2.symm
    · contradiction

/-- A restriction to documents keeps nothing from a walk that goes both ways. -/
theorem discover_of_both (documents : Option (List DocumentId)) (visited : List SymbolId)
    {next : List (SymbolId × Walk)} (h : ∀ entry ∈ next, entry.2 = .both) :
    discover source documents visited next = discover source none visited next := by
  fun_induction discover source none visited next with
  | case1 => rw [discover]
  | case2 visited id walk more hvisited ih =>
    rw [discover, if_pos hvisited]
    exact ih fun entry hentry => h entry (List.mem_cons_of_mem _ hentry)
  | case3 visited id walk more hvisited hnone ih =>
    simp only [discover, if_neg hvisited, hnone]
    exact ih fun entry hentry => h entry (List.mem_cons_of_mem _ hentry)
  | case4 visited id walk more hvisited symbol hsymbol _ ih =>
    -- A walk that goes both ways is let in before the documents are looked at.
    obtain rfl : walk = .both := h (id, walk) List.mem_cons_self
    simp only [discover, if_neg hvisited, hsymbol, admits, if_true]
    exact congrArg _ (ih fun entry hentry => h entry (List.mem_cons_of_mem _ hentry))
  | case5 visited id walk more hvisited symbol hsymbol hadmits ih =>
    cases walk <;> exact absurd rfl hadmits

/-- A restriction to documents keeps nothing from a cascade in both directions. -/
theorem explore_bidirectional (documents : Option (List DocumentId)) (visited : List SymbolId)
    (queue : List (SymbolId × Walk)) :
    explore source .bidirectional documents visited queue =
      explore source .bidirectional none visited queue := by
  fun_induction explore source .bidirectional none visited queue with
  | case1 => rw [explore]
  | case2 visited id walk rest found ih =>
    have hfound : discover source documents visited (steps source .bidirectional id walk) = found :=
      discover_of_both documents visited fun _ hentry => eq_both_of_mem_steps hentry
    rw [explore, hfound]
    exact congrArg _ ih

end Cascade

/-- A cascade in one direction lists the start, symbols above it, and symbols declared in the documents. -/
theorem bounded_of_mem_cascade {source : SymbolSource} (hsource : source.Keyed) {start : SymbolInfo}
    {options : SearchOptions} (hdirection : options.direction = .unidirectional)
    {documents : Option (List DocumentId)} {symbol : SymbolInfo}
    (h : symbol ∈ cascade source start options documents) :
    symbol = start ∨ source.Ascends start.id symbol ∨ symbol.DeclaredIn documents := by
  rcases cascade_cases source start options documents with heq | heq
  · rw [heq] at h
    exact .inl (List.mem_singleton.mp h)
  · rw [heq, hdirection] at h
    rcases List.mem_cons.mp h with rfl | h
    · exact .inl rfl
    · have hqueue : ∀ entry ∈ [(start.id, Cascade.Walk.both)],
          Cascade.Warranted source documents start.id entry.1 entry.2 := by
        intro entry hentry
        rw [List.mem_singleton.mp hentry]
        rfl
      exact .inr ((Cascade.reached_of_mem_explore hsource hqueue h).imp_right fun h => h.enters)

namespace SearchLog

/-- Start and completion announce nothing. -/
theorem definitions_conclude (findings : List SearchEvent) (result : Except Failure Completion) :
    definitions (conclude findings result).events = definitions findings := by
  unfold conclude definitions
  rw [List.filterMap_cons_none rfl, List.filterMap_append, List.filterMap_cons_none rfl,
    List.filterMap_nil, List.append_nil]

/-- Announcements of symbols announce these, and occurrences announce nothing. -/
theorem definitions_announce (symbols : List SymbolInfo) {events : List SearchEvent}
    (hevents : ∀ event ∈ events, event.RefersTo symbols) :
    definitions (symbols.map .definition ++ events) = symbols := by
  have hannounced : definitions (symbols.map .definition) = symbols := by
    unfold definitions
    rw [List.filterMap_map]
    exact List.filterMap_some
  have hothers : definitions events = [] := by
    refine List.filterMap_eq_nil_iff.mpr fun event hevent => ?_
    obtain ⟨symbol, -, location, rfl⟩ := hevents event hevent
    rfl
  calc definitions (symbols.map SearchEvent.definition ++ events)
      = definitions (symbols.map .definition) ++ definitions events := List.filterMap_append
    _ = symbols := by rw [hannounced, hothers, List.append_nil]

end SearchLog

namespace Query

variable {query other : Query} {source : SymbolSource}

/-- The symbols that a query covers, its start first. An unknown start covers nothing. -/
def covered (query : Query) (source : SymbolSource) : List SymbolInfo :=
  match source.symbol? query.symbol with
  | none => []
  | some start => cascade source start query.options query.scope.restriction

/-- A query that is carried out in this process announces what it covers, and nothing else. -/
theorem definitions_logHere (query : Query) (source : SymbolSource) (solution : Solution)
    (point : CancelPoint) :
    SearchLog.definitions (query.logHere source solution point).events = query.covered source := by
  rw [logHere, SearchLog.definitions_conclude, Engine.search, covered]
  cases source.symbol? query.symbol with
  | none => rfl
  | some start =>
    exact SearchLog.definitions_announce _ fun _ hevent => Engine.refersTo_of_mem_visitAll hevent

/-- What a query comes to in this process is settled by its start, its scope and what it covers. -/
theorem logHere_congr (hsymbol : query.symbol = other.symbol) (hscope : query.scope = other.scope)
    (hcovered : query.covered source = other.covered source) (solution : Solution)
    (point : CancelPoint) :
    query.logHere source solution point = other.logHere source solution point := by
  unfold covered at hcovered
  unfold logHere Engine.search
  rw [← hsymbol, ← hscope] at hcovered ⊢
  cases hstart : source.symbol? query.symbol with
  | none => rfl
  | some start =>
    simp only [hstart] at hcovered
    simp only [hcovered]

/-- Two queries from one start in one scope come to the same in this process exactly if they cover the
same. -/
theorem logHere_eq_iff (hsymbol : query.symbol = other.symbol) (hscope : query.scope = other.scope)
    (solution : Solution) (point : CancelPoint) :
    query.logHere source solution point = other.logHere source solution point ↔
      query.covered source = other.covered source := by
  refine ⟨fun h => ?_, fun h => logHere_congr hsymbol hscope h solution point⟩
  rw [← definitions_logHere query source solution point, h, definitions_logHere]

/-- A query that cascades in one direction covers its start, symbols above it, and symbols declared in the
documents of its scope. -/
theorem bounded_of_mem_covered (hsource : source.Keyed)
    (hdirection : query.options.direction = .unidirectional) {symbol : SymbolInfo}
    (h : symbol ∈ query.covered source) :
    symbol.id = query.symbol ∨ source.Ascends query.symbol symbol ∨
      symbol.DeclaredIn query.scope.restriction := by
  unfold covered at h
  split at h
  · contradiction
  · next start hstart =>
    have hid : start.id = query.symbol := hsource _ _ hstart
    rcases bounded_of_mem_cascade hsource hdirection h with rfl | hbounded
    · exact .inl hid
    · exact .inr (hid ▸ hbounded)

/-- A query of given documents that cascades in both directions covers what one of the whole solution
does. -/
theorem covered_of_bidirectional {options : SearchOptions} (h : options.direction = .bidirectional)
    (source : SymbolSource) (symbol : SymbolId) (ids : List DocumentId) :
    (references symbol (some ids) options).covered source =
      (references symbol none options).covered source := by
  simp only [covered, references, scopeOf, SearchScope.restriction, cascade, h,
    Cascade.explore_bidirectional (some ids)]

end Query

/-- How the direction that the caller chose bears on restricted searches for a symbol; `find` carries a
query out. -/
structure SymbolSource.Directions (source : SymbolSource) (find : Query → FindResult) (symbol : SymbolId)
    (options : SearchOptions) : Prop where
  /-- A search within ranges comes to the same in both directions. -/
  ranges : ∀ ranges, find (.inDocuments symbol ranges options) =
    find (.inDocuments symbol ranges options.unidirectional)
  /-- A search within ranges in this process comes to the same in both directions. -/
  rangesHere : ∀ ranges, find (.inDocumentsHere symbol ranges options) =
    find (.inDocumentsHere symbol ranges options.unidirectional)
  /-- A search of given documents comes to the same in both directions exactly if it covers the same. -/
  documents_iff : ∀ ids, find (.references symbol (some ids) options) =
      find (.references symbol (some ids) options.unidirectional) ↔
    (Query.references symbol (some ids) options).covered source =
      (Query.references symbol (some ids) options.unidirectional).covered source
  /-- A search of given documents in this process does too. -/
  documentsHere_iff : ∀ ids, find (.referencesHere symbol (some ids) options) =
      find (.referencesHere symbol (some ids) options.unidirectional) ↔
    (Query.referencesHere symbol (some ids) options).covered source =
      (Query.referencesHere symbol (some ids) options.unidirectional).covered source
  /-- In both directions a search of given documents covers what one of the whole solution covers. -/
  unbounded : options.direction = .bidirectional → ∀ ids,
    (Query.references symbol (some ids) options).covered source =
      (Query.references symbol none options).covered source
  /-- In one direction nothing is covered but the start, what lies above it, and what is declared in the
  documents. -/
  bounded : ∀ query : Query, query.options.direction = .unidirectional →
    ∀ listed ∈ query.covered source, listed.id = query.symbol ∨
      source.Ascends query.symbol listed ∨ listed.DeclaredIn query.scope.restriction

namespace Session

variable {session : Session} {searcher : Searcher} {solution : Solution} {token : Token}

/-- A searcher whose searches of a snapshot are carried out to their end: here, or by a running worker that
searches what the searcher would search and resolves requests in its registry. -/
inductive CarriesOut (session : Session) (searcher : Searcher) (solution : Solution) (token : Token) : Prop
  /-- There is no worker. -/
  | here : session.isCancelled token = false → session.searchClient? searcher = none →
      CarriesOut session searcher solution token
  /-- There is such a worker. -/
  | worker {worker registry : Handle} {state : WorkerState} : session.isCancelled token = false →
      session.searchClient? searcher = some (.worker worker, registry) →
      session.workers.get? worker = some state → state.registry = registry →
      (session.registry registry).Used →
      session.source state.graph = session.source searcher.graph → solution.Filed →
      CarriesOut session searcher solution token

/-- Nothing is cancelled. -/
theorem CarriesOut.isCancelled_eq (h : session.CarriesOut searcher solution token) :
    session.isCancelled token = false := by
  cases h with
  | here htoken | worker htoken => exact htoken

/-- A routable query comes to the same wherever it is carried out. -/
theorem CarriesOut.find_eq (h : session.CarriesOut searcher solution token) {query : Query}
    (hquery : query.Routable) :
    (session.find searcher query solution token none).1 =
      .log (query.logHere (session.source searcher.graph) solution none) := by
  cases h with
  | here htoken hclient => exact find_of_no_client hquery htoken hclient
  | worker htoken hclient hworker hregistry hused hsource hs =>
    exact find_of_sharing_worker hquery hs htoken hclient hworker
      (running_of_searchClient? hclient hworker) hregistry hused.sound hsource

/-- A query that may not ask a worker is carried out in this process. -/
theorem find_of_not_mayAskWorker (htoken : session.isCancelled token = false) {query : Query}
    (hquery : query.mayAskWorker = false) :
    (session.find searcher query solution token none).1 =
      .log (query.logHere (session.source searcher.graph) solution none) := by
  simp [find, Query.path, hquery, htoken]

/-- A search within ranges cascades in one direction, whatever the caller chose. A search of given documents
does as the caller chose, and comes to the same in both directions exactly if both cover the same. In one
direction a search is bounded by the documents, and in both it is not. -/
theorem directions_compared (h : session.CarriesOut searcher solution token) (symbol : SymbolId)
    (options : SearchOptions) :
    (session.source searcher.graph).Directions
      (fun query => (session.find searcher query solution token none).1) symbol options where
  ranges _ := rfl
  rangesHere _ := rfl
  documents_iff ids := by
    rw [h.find_eq (Query.routable_references _ _ _), h.find_eq (Query.routable_references _ _ _),
      FindResult.log.injEq]
    refine Query.logHere_eq_iff ?_ ?_ solution none <;> rfl
  documentsHere_iff ids := by
    rw [find_of_not_mayAskWorker h.isCancelled_eq rfl, find_of_not_mayAskWorker h.isCancelled_eq rfl,
      FindResult.log.injEq]
    refine Query.logHere_eq_iff ?_ ?_ solution none <;> rfl
  unbounded hboth ids := Query.covered_of_bidirectional hboth _ symbol ids
  bounded _ hone _ hlisted := Query.bounded_of_mem_covered (session.keyed_source _) hone hlisted

/-- A session with two methods, of which the second overrides the first one in another document. A worker
searches them, and the caller can search them too. -/
def twoMethods : Session :=
  { oneWorker with graphs := oneWorker.graphs.insert 1 { graph := (Fixture.mk 1 2 0 0).graph } }

/-- The worker attends to searches of the generated snapshot. -/
theorem twoMethods_carriesOut : twoMethods.CarriesOut ⟨4, 1, {}⟩ (Fixture.mk 1 2 0 0).solution ⟨[0]⟩ := by
  have hworker : twoMethods.workers.get? 2 = some { registry := 0, graph := 1, script := [] } := rfl
  have hfiled : (Fixture.mk 1 2 0 0).solution.Filed := by decide
  exact .worker rfl rfl hworker rfl (.new 1) rfl hfiled

/-- The directions compared for a search on the worker. -/
theorem directions_compared_of_worker :
    twoMethods.CarriesOut ⟨4, 1, {}⟩ (Fixture.mk 1 2 0 0).solution ⟨[0]⟩ ∧
      (twoMethods.source 1).Directions
        (fun query => (twoMethods.find ⟨4, 1, {}⟩ query (Fixture.mk 1 2 0 0).solution ⟨[0]⟩ none).1)
        (Fixture.symbolId 0 0) {} :=
  ⟨twoMethods_carriesOut, directions_compared twoMethods_carriesOut (Fixture.symbolId 0 0) {}⟩

/-- The graph of the two methods. -/
theorem graph_twoMethods : twoMethods.graph 1 =
    (((({} : SymbolGraph).addSymbol (Fixture.method 0 0)).addReference (Fixture.symbolId 0 0)
      (Fixture.documentId 0 1) ⟨40, 48⟩).addSymbol (Fixture.method 0 1)).addOverride
        (Fixture.symbolId 0 1) (Fixture.symbolId 0 0) := rfl

/-- Both methods are known. -/
theorem symbol?_twoMethods :
    (twoMethods.source 1).symbol? (Fixture.symbolId 0 0) = some (Fixture.method 0 0) ∧
      (twoMethods.source 1).symbol? (Fixture.symbolId 0 1) = some (Fixture.method 0 1) := by
  have hne : Fixture.symbolId 0 1 ≠ Fixture.symbolId 0 0 := by decide
  rw [source, SymbolGraph.toSource, ← graph, graph_twoMethods]
  simp [SymbolGraph.addOverride, SymbolGraph.relate, SymbolGraph.addSymbol,
    SymbolGraph.addReference, Std.HashMap.getElem_insert, Fixture.method, hne]

/-- One step leads down from the first method, and one leads up from the second one. -/
theorem steps_twoMethods (direction : CascadeDirection) :
    Cascade.steps (twoMethods.source 1) direction (Fixture.symbolId 0 0) .both =
        [(Fixture.symbolId 0 1, if direction = .unidirectional then .down else .both)] ∧
      Cascade.steps (twoMethods.source 1) direction (Fixture.symbolId 0 1) .both =
        [(Fixture.symbolId 0 0, if direction = .unidirectional then .up else .both)] := by
  have hne : Fixture.symbolId 0 1 ≠ Fixture.symbolId 0 0 := by decide
  rw [source, SymbolGraph.toSource, ← graph, graph_twoMethods]
  simp [Cascade.steps, Cascade.above, Cascade.below, Cascade.Walk.goesUp, Cascade.Walk.goesDown,
    SymbolGraph.related, SymbolGraph.addOverride, SymbolGraph.relate, SymbolGraph.addSymbol,
    SymbolGraph.addReference, Std.HashMap.getD_insert, hne, hne.symm]

/-- A search for the first method in its own document covers the second one, which is declared elsewhere,
unless it is asked to cascade in one direction. -/
theorem covered_twoMethods (direction : CascadeDirection) :
    (Query.references (Fixture.symbolId 0 0) (some [Fixture.documentId 0 0])
        { direction := direction }).covered (twoMethods.source 1) =
      if direction = .unidirectional then [Fixture.method 0 0]
      else [Fixture.method 0 0, Fixture.method 0 1] := by
  obtain ⟨hfirst, hsecond⟩ := symbol?_twoMethods
  have hne : Fixture.symbolId 0 1 ≠ Fixture.symbolId 0 0 := by decide
  have helsewhere : Fixture.documentId 0 1 ≠ Fixture.documentId 0 0 := by decide
  have hid : ∀ d, (Fixture.method 0 d).id = Fixture.symbolId 0 d := fun _ => rfl
  have hdeclaration : (Fixture.method 0 1).declaration = Fixture.documentId 0 1 := rfl
  have hdown := (steps_twoMethods direction).1
  have hup := (steps_twoMethods direction).2
  cases direction with
  | bidirectional =>
    simp only [reduceCtorEq, if_false] at hdown hup
    simp [Query.covered, Query.references, Query.scopeOf, SearchScope.restriction, hfirst, cascade,
      Cascade.explore, hid, hdown, hup, Cascade.discover, hsecond, hne, Cascade.admits]
  | unidirectional =>
    simp only [if_true] at hdown
    simp [Query.covered, Query.references, Query.scopeOf, SearchScope.restriction, hfirst, cascade,
      Cascade.explore, hid, hdown, Cascade.discover, hsecond, hne, Cascade.admits, hdeclaration,
      helsewhere]

/-- A search on the worker for the first method in its own document, in both directions and in one. The
former announces the second method, which is declared elsewhere. -/
theorem restricted_search_leaves_documents :
    let find (direction : CascadeDirection) :=
      (twoMethods.find ⟨4, 1, {}⟩ (.references (Fixture.symbolId 0 0) (some [Fixture.documentId 0 0])
        { direction := direction }) (Fixture.mk 1 2 0 0).solution ⟨[0]⟩ none).1
    find .bidirectional ≠ find .unidirectional ∧
      (∃ log, find .bidirectional = .log log ∧
        Fixture.method 0 1 ∈ SearchLog.definitions log.events) ∧
      (Fixture.method 0 1).declaration ∉ [Fixture.documentId 0 0] := by
  intro find
  have hfind : ∀ direction, find direction =
      .log ((Query.references (Fixture.symbolId 0 0) (some [Fixture.documentId 0 0])
        { direction := direction }).logHere (twoMethods.source 1) (Fixture.mk 1 2 0 0).solution none) :=
    fun _ => twoMethods_carriesOut.find_eq (Query.routable_references _ _ _)
  refine ⟨fun hsame => ?_, ⟨_, hfind _, ?_⟩, by decide⟩
  · rw [hfind, hfind, FindResult.log.injEq] at hsame
    have hcovered := (Query.logHere_eq_iff (by rfl) (by rfl) _ none).mp hsame
    rw [covered_twoMethods, covered_twoMethods] at hcovered
    contradiction
  · rw [Query.definitions_logHere, covered_twoMethods]
    exact List.mem_cons_of_mem _ List.mem_cons_self

end Session

end SolutionWatch
