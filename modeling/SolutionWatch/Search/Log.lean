import SolutionWatch.Failure
import SolutionWatch.Symbol

/-!
# What a search reports

A search reports to its caller as it goes: that it started, the definitions it covers, the
references it finds, and how it completed. The reports of one search, in order, are its log.
-/

namespace SolutionWatch

/-- How a search ended. -/
inductive Completion where
  /-- At least one location was reported. -/
  | found
  /-- The search ran to its end and found nothing. -/
  | exhausted
  /-- The search broke off; what was reported stays valid. -/
  | failed
  /-- The search was cancelled. -/
  | cancelled
  deriving DecidableEq, Repr

namespace Completion

/-- The written form of a completion. -/
def text : Completion → String
  | .found => "Found"
  | .exhausted => "Exhausted"
  | .failed => "Failed"
  | .cancelled => "Cancelled"

/-- Every completion. -/
def all : List Completion := [.found, .exhausted, .failed, .cancelled]

/-- The completion that a result is reported as. -/
def ofResult : Except Failure Completion → Completion
  | .ok completion => completion
  | .error failure => if failure.isCancelled then .cancelled else .failed

end Completion

/-- One place at which a symbol occurs. -/
structure ReferenceLocation where
  /-- The document. -/
  document : DocumentId
  /-- The range within the document. -/
  span : TextSpan
  /-- Whether the place is the symbol's declaration. -/
  isDefinition : Bool
  deriving DecidableEq, Repr

/-- One report of a search. -/
inductive SearchEvent where
  /-- The search started. -/
  | started
  /-- The search covers a symbol. -/
  | definition (symbol : SymbolInfo)
  /-- A symbol that the search covers occurs at a place. -/
  | reference (symbol : SymbolInfo) (location : ReferenceLocation)
  /-- The search ended. -/
  | completed (completion : Completion)
  deriving DecidableEq, Repr

/-- The reports of a search and what the search returned. -/
structure SearchLog where
  /-- The reports, in order. -/
  events : List SearchEvent
  /-- What the search returned. -/
  result : Except Failure Completion

namespace SearchLog

/-- The log of a search that reported `findings` between its start and its end. -/
def conclude (findings : List SearchEvent) (result : Except Failure Completion) : SearchLog where
  events := .started :: (findings ++ [.completed (.ofResult result)])
  result := result

/-- How often the search started. -/
def startCount (events : List SearchEvent) : Nat := (events.filter (· = .started)).length

/-- The symbols that were announced, in order. -/
def definitions (events : List SearchEvent) : List SymbolInfo :=
  events.filterMap fun
    | .definition symbol => some symbol
    | _ => none

/-- The occurrences that were reported, in order. -/
def references (events : List SearchEvent) : List (SymbolInfo × ReferenceLocation) :=
  events.filterMap fun
    | .reference symbol location => some (symbol, location)
    | _ => none

/-- The occurrences that were reported of one symbol, in order. -/
def locationsOf (events : List SearchEvent) (id : SymbolId) : List ReferenceLocation :=
  ((references events).filter fun entry => entry.1.id = id).map Prod.snd

/-- The completions that were reported, in order. -/
def completions (events : List SearchEvent) : List Completion :=
  events.filterMap fun
    | .completed completion => some completion
    | _ => none

end SearchLog

end SolutionWatch
