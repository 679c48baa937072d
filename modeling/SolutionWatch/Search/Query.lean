import SolutionWatch.Search.Stream

/-!
# The ways to start a search

There are five ways to start a search. Three of them ask a worker first and search in this process
only if there is none, or if the symbol is declared outside the solution; two always search in
this process. A search within ranges cascades in one direction only, so that it stays inside the
documents of the ranges.

Whichever way is taken, the search reports its start first and its completion last, and of worker
and process at most one searches.
-/

namespace SolutionWatch

/-- A search as a caller starts it. -/
structure Query where
  /-- The symbol to search for. -/
  symbol : SymbolId
  /-- Where to search. -/
  scope : SearchScope
  /-- How to search. -/
  options : SearchOptions
  /-- Whether a worker may be asked. -/
  mayAskWorker : Bool
  deriving DecidableEq, Repr

namespace Query

/-- Searches the whole solution with the options that hold by default. -/
def everywhere (symbol : SymbolId) (defaults : SearchOptions) : Query :=
  ⟨symbol, .everything, defaults, true⟩

/-- The scope of a search that may be limited to documents. -/
def scopeOf : Option (List DocumentId) → SearchScope
  | none => .everything
  | some ids => .documents ids

/-- Searches the whole solution or only the given documents. -/
def references (symbol : SymbolId) (documents : Option (List DocumentId))
    (options : SearchOptions) : Query := ⟨symbol, scopeOf documents, options, true⟩

/-- Searches within ranges. -/
def inDocuments (symbol : SymbolId) (ranges : List DocumentSpan) (options : SearchOptions) :
    Query := ⟨symbol, .spans ranges, options.unidirectional, true⟩

/-- Searches the whole solution or only the given documents, in this process. -/
def referencesHere (symbol : SymbolId) (documents : Option (List DocumentId))
    (options : SearchOptions) : Query := ⟨symbol, scopeOf documents, options, false⟩

/-- Searches within ranges, in this process. -/
def inDocumentsHere (symbol : SymbolId) (ranges : List DocumentSpan) (options : SearchOptions) :
    Query := ⟨symbol, .spans ranges, options.unidirectional, false⟩

end Query

/-- Who carries a search out. -/
inductive SearchPath where
  /-- Nobody: the search was cancelled before it was decided. -/
  | cancelled
  /-- This process. -/
  | here
  /-- A worker, which is asked for this operation. -/
  | worker (operation : Operation)
  deriving DecidableEq, Repr

namespace Query

/-- The operation that a worker is asked for, if the symbol has an address in the solution. -/
def operation? (query : Query) (source : SymbolSource) (solution : Solution) : Option Operation :=
  ((source.symbol? query.symbol).bind fun symbol => symbol.address? solution).map fun address =>
    query.scope.operation address query.options

/-- Who carries a query out. Only a query that may ask a worker looks at the token first, and at
whether a worker is available. -/
def path (query : Query) (source : SymbolSource) (solution : Solution) (point : CancelPoint)
    (available : Bool) : SearchPath :=
  if !query.mayAskWorker then .here
  else if point.reached 0 then .cancelled
  else
    match query.operation? source solution with
    | some operation => if available then .worker operation else .here
    | none => .here

/-- The log of a query that is carried out in this process. -/
def logHere (query : Query) (source : SymbolSource) (solution : Solution) (point : CancelPoint) :
    SearchLog :=
  let visited := Engine.search source query.options solution query.scope query.symbol point
  .conclude visited.1 visited.2.toExcept

/-- The log of a query that a worker carried out. -/
def logWorker (reading : StreamReading) (outcome : Except Failure Unit) : SearchLog :=
  .conclude reading.events (reading.result outcome)

/-- The log of a query; `ask` is the worker, if one is available. -/
def log (query : Query) (source : SymbolSource) (solution : Solution) (point : CancelPoint)
    (ask : Option (Operation → StreamAnswer)) : SearchLog :=
  match query.path source solution point ask.isSome, ask with
  | .worker operation, some ask =>
    let answer := ask operation
    logWorker (.ofMessages point answer.messages) answer.outcome
  | .cancelled, _ => .conclude [] (.error .cancelled)
  | _, _ => query.logHere source solution point

end Query

end SolutionWatch
