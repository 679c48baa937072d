import SolutionWatch.Cascade
import SolutionWatch.Search.Log
import SolutionWatch.Search.Scope
import SolutionWatch.WorkItem

/-!
# Requests to a worker

A worker is asked to look at one part of a snapshot again, or to search a snapshot for the
references to a symbol. A request names its snapshot by an address and never carries it. While a
search runs, the worker answers with messages; the last one says how the search completed.
-/

namespace SolutionWatch

/-- A symbol as a request names it: together with a snapshot this determines the symbol. -/
structure SymbolAddress where
  /-- The identity of the symbol. -/
  id : SymbolId
  /-- The project that declares the symbol. -/
  project : ProjectId
  /-- The name of the symbol. -/
  name : String
  deriving DecidableEq, Repr

/-- The address of a symbol in a solution. A symbol that is declared outside the solution has none,
so it can only be searched for in this process. -/
def SymbolInfo.address? (symbol : SymbolInfo) (solution : Solution) : Option SymbolAddress :=
  if solution.containsProject symbol.declaration.project then
    some ⟨symbol.id, symbol.declaration.project, symbol.name⟩
  else none

/-- What a worker is asked to do. -/
inductive Operation where
  /-- Look at the whole solution again. -/
  | solutionEvent (reasons : Reasons)
  /-- Look at a project again. -/
  | projectEvent (project : ProjectId) (reasons : Reasons)
  /-- Look at a document again. -/
  | documentEvent (document : DocumentId) (reasons : Reasons)
  /-- Find the references to a symbol, everywhere or in given documents. -/
  | findReferences (symbol : SymbolAddress) (documents : Option (List DocumentId))
    (options : SearchOptions)
  /-- Find the references to a symbol that intersect given ranges. -/
  | findReferencesInDocuments (symbol : SymbolAddress) (ranges : List DocumentSpan)
    (options : SearchOptions)
  deriving DecidableEq, Repr

/-- One call to a worker, about the snapshot at an address. -/
structure Request (α : Type) where
  /-- What names the snapshot. -/
  address : α
  /-- What to do. -/
  operation : Operation
  deriving DecidableEq, Repr

/-- One message of a worker during a search. -/
inductive ReferenceMessage where
  /-- The search covers a symbol. -/
  | definitionFound (symbol : SymbolInfo)
  /-- A symbol that was announced occurs at a place. -/
  | referenceFound (definition : SymbolId) (location : ReferenceLocation)
  /-- The search completed. -/
  | completed (completion : Completion)
  deriving DecidableEq, Repr

/-- The operation that asks for a work item to be done. -/
def WorkItem.operation (item : WorkItem) : Operation :=
  match item.scope with
  | .solution => .solutionEvent item.reasons
  | .project id => .projectEvent id item.reasons
  | .document id => .documentEvent id item.reasons

/-- The request that asks for a work item to be done, in the item's own snapshot. -/
def WorkItem.request (item : WorkItem) : Request Fingerprint :=
  ⟨item.solution.fingerprint, item.operation⟩

/-- The operation that searches a scope for a symbol. -/
def SearchScope.operation (scope : SearchScope) (symbol : SymbolAddress)
    (options : SearchOptions) : Operation :=
  match scope with
  | .everything => .findReferences symbol none options
  | .documents ids => .findReferences symbol (some ids) options
  | .spans ranges => .findReferencesInDocuments symbol ranges options

/-- A search as a worker carries it out. -/
structure WorkerSearch where
  /-- The symbol to search for. -/
  symbol : SymbolAddress
  /-- Where to search. -/
  scope : SearchScope
  /-- How to search. -/
  options : SearchOptions
  deriving DecidableEq, Repr

/-- The search that an operation asks for. Within ranges cascading is always unidirectional. -/
def Operation.search? : Operation → Option WorkerSearch
  | .findReferences symbol none options => some ⟨symbol, .everything, options⟩
  | .findReferences symbol (some ids) options => some ⟨symbol, .documents ids, options⟩
  | .findReferencesInDocuments symbol ranges options =>
    some ⟨symbol, .spans ranges, options.unidirectional⟩
  | _ => none

end SolutionWatch
