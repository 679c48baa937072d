import SolutionWatch.Proofs.Search.Direction

/-!
# Searches that are cancelled before they start

A search that may ask a worker looks at its token before anything else: under a cancelled token it
reports nothing and comes back cancelled, whatever the symbol is. A search that is meant for this process
does not. It looks at the token before each target only, and by then it has announced every symbol that
it covers; an unknown symbol, or a scope without targets, lets it end as if nothing had been cancelled
(`Query.logHere_of_cancelled`). So of the ways to start a search those that may ask a worker are the ones
that heed a cancelled token (`Session.find_cancelled_iff`).
-/

namespace SolutionWatch

namespace Query

/-- What a search in this process comes to if its token is cancelled from the start: it announces what it
covers, and is cancelled if there is a target to visit. -/
def logAnnounced (query : Query) (source : SymbolSource) (solution : Solution) : SearchLog :=
  .conclude ((query.covered source).map .definition)
    (if (source.symbol? query.symbol).isSome && !(query.scope.targets solution).isEmpty then
      .error .cancelled
    else .ok .exhausted)

/-- A search in this process announces what it covers before it looks at its token. -/
theorem logHere_of_cancelled (query : Query) (source : SymbolSource) (solution : Solution) :
    query.logHere source solution (some 0) = query.logAnnounced source solution := by
  unfold logHere logAnnounced Engine.search covered
  cases source.symbol? query.symbol with
  | none => rfl
  | some start =>
    -- The first target is where the token is looked at.
    cases query.scope.targets solution with
    | nil => simp [Engine.visitAll, EngineResult.toExcept]
    | cons target rest =>
      simp [Engine.visitAll, CancelPoint.reached, EngineResult.toExcept]

/-- A search that announces is not one that comes back cancelled with nothing reported. -/
theorem logAnnounced_ne (query : Query) (source : SymbolSource) (solution : Solution) :
    query.logAnnounced source solution ≠ .conclude [] (.error .cancelled) := by
  intro h
  have hresult : (query.logAnnounced source solution).result = .error .cancelled :=
    congrArg SearchLog.result h
  have hnothing : query.covered source = [] := by
    have hdefinitions := congrArg (fun log => SearchLog.definitions log.events) h
    have hannounced : SearchLog.definitions ((query.covered source).map .definition ++ []) =
        query.covered source :=
      SearchLog.definitions_announce _ fun _ hevent => absurd hevent List.not_mem_nil
    rw [List.append_nil] at hannounced
    simp only [logAnnounced, SearchLog.definitions_conclude, hannounced] at hdefinitions
    exact hdefinitions
  -- What covers nothing is a search for an unknown symbol, and that one is not cancelled.
  unfold covered at hnothing
  cases hsymbol : source.symbol? query.symbol with
  | none =>
    simp [logAnnounced, SearchLog.conclude, hsymbol] at hresult
  | some start =>
    simp only [hsymbol] at hnothing
    rcases cascade_cases source start query.options query.scope.restriction with heq | heq <;>
      exact absurd (heq.symm.trans hnothing) (List.cons_ne_nil _ _)

end Query

namespace Session

variable {session : Session} {token : Token}

/-- What a query comes to under a cancelled token. -/
theorem find_of_cancelled (htoken : session.isCancelled token = true) (searcher : Searcher)
    (query : Query) (solution : Solution) (cancelAt : CancelPoint) :
    (session.find searcher query solution token cancelAt).1 =
      .log (if query.mayAskWorker then .conclude [] (.error .cancelled)
        else query.logAnnounced (session.source searcher.graph) solution) := by
  cases hquery : query.mayAskWorker with
  | true => simp [find, Query.path, hquery, htoken, CancelPoint.reached]
  | false => simp [find, Query.path, hquery, htoken, Query.logHere_of_cancelled]

/-- Under a cancelled token the three ways to start a search that may ask a worker come back cancelled
with nothing reported, whatever they are asked for. The two ways to search in this process never do: they
announce what they cover, and come back cancelled only if there is a target to visit. -/
theorem cancelled_before_start (htoken : session.isCancelled token = true) (searcher : Searcher)
    (solution : Solution) (cancelAt : CancelPoint) :
    let find (query : Query) := (session.find searcher query solution token cancelAt).1
    let unreported : FindResult := .log (.conclude [] (.error .cancelled))
    let announced (query : Query) : FindResult :=
      .log (query.logAnnounced (session.source searcher.graph) solution)
    (∀ symbol defaults, find (.everywhere symbol defaults) = unreported) ∧
    (∀ symbol documents options, find (.references symbol documents options) = unreported) ∧
    (∀ symbol ranges options, find (.inDocuments symbol ranges options) = unreported) ∧
    (∀ symbol documents options, find (.referencesHere symbol documents options) =
      announced (.referencesHere symbol documents options)) ∧
    (∀ symbol ranges options, find (.inDocumentsHere symbol ranges options) =
      announced (.inDocumentsHere symbol ranges options)) ∧
    ∀ query, announced query ≠ unreported := by
  intro find unreported announced
  have hfind := fun query => find_of_cancelled htoken searcher query solution cancelAt
  refine ⟨fun _ _ => hfind _, fun _ _ _ => hfind _, fun _ _ _ => hfind _, fun _ _ _ => hfind _,
    fun _ _ _ => hfind _, fun query h => ?_⟩
  exact query.logAnnounced_ne _ solution (FindResult.log.inj h)

/-- The session with two methods after the caller's token was cancelled. -/
def twoMethodsCancelled : Session := twoMethods.cancelToken ⟨[0]⟩

/-- Searches of the generated snapshot under the cancelled token. -/
theorem cancelled_before_start_of_twoMethods :
    twoMethodsCancelled.isCancelled ⟨[0]⟩ = true ∧
      let solution := (Fixture.mk 1 2 0 0).solution
      let find (query : Query) := (twoMethodsCancelled.find ⟨4, 1, {}⟩ query solution ⟨[0]⟩ none).1
      let unreported : FindResult := .log (.conclude [] (.error .cancelled))
      let announced (query : Query) : FindResult :=
        .log (query.logAnnounced (twoMethodsCancelled.source 1) solution)
      (∀ symbol defaults, find (.everywhere symbol defaults) = unreported) ∧
      (∀ symbol documents options, find (.references symbol documents options) = unreported) ∧
      (∀ symbol ranges options, find (.inDocuments symbol ranges options) = unreported) ∧
      (∀ symbol documents options, find (.referencesHere symbol documents options) =
        announced (.referencesHere symbol documents options)) ∧
      (∀ symbol ranges options, find (.inDocumentsHere symbol ranges options) =
        announced (.inDocumentsHere symbol ranges options)) ∧
      ∀ query, announced query ≠ unreported := by
  have htoken : twoMethodsCancelled.isCancelled ⟨[0]⟩ = true := rfl
  exact ⟨htoken, cancelled_before_start htoken ⟨4, 1, {}⟩ (Fixture.mk 1 2 0 0).solution none⟩

/-- A search in this process for a method that is known, in no document at all, announces the method and
comes back exhausted, although its token was cancelled before it started. -/
theorem announces_after_cancellation :
    twoMethodsCancelled.isCancelled ⟨[0]⟩ = true ∧
      (twoMethodsCancelled.find ⟨4, 1, {}⟩ (.referencesHere (Fixture.symbolId 0 0) (some [])
        { cascade := false }) (Fixture.mk 1 2 0 0).solution ⟨[0]⟩ none).1 =
      .log (.conclude [.definition (Fixture.method 0 0)] (.ok .exhausted)) := by
  have htoken : twoMethodsCancelled.isCancelled ⟨[0]⟩ = true := rfl
  have hsymbol : (twoMethodsCancelled.source 1).symbol? (Fixture.symbolId 0 0) =
      some (Fixture.method 0 0) := symbol?_twoMethods.1
  refine ⟨htoken, (find_of_cancelled htoken _ _ _ _).trans ?_⟩
  simp [Query.logAnnounced, Query.referencesHere, Query.scopeOf, Query.covered, hsymbol, cascade,
    SearchScope.targets, SearchScope.candidates]

end Session

end SolutionWatch
