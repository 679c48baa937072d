import SolutionWatch.Cascade
import SolutionWatch.Search.Log
import SolutionWatch.Search.Scope

/-!
# Searching in this process

`Engine.search` announces every symbol that the search covers and then visits the targets one by
one. At each target it reports the declarations that lie there, then the recorded references, for
the symbols in cascade order. A declaration is never reported a second time as a reference.

Whether the search goes on is decided before each target only, so what is reported of a target is
always complete. `CancelPoint` says how many reports may go out before the search counts as
cancelled.
-/

namespace SolutionWatch

/-- When a search counts as cancelled: never, or as soon as so many findings were reported. -/
abbrev CancelPoint := Option Nat

namespace CancelPoint

/-- Whether a search that has reported `delivered` findings is cancelled. -/
def reached (point : CancelPoint) (delivered : Nat) : Bool :=
  match point with
  | none => false
  | some n => decide (n ≤ delivered)

end CancelPoint

/-- A way to find the occurrences of one symbol in one document. -/
structure Finder where
  /-- The name of the way. -/
  name : String
  /-- The occurrences, in the order of their discovery. -/
  find : SymbolSource → SymbolInfo → DocumentId → List ReferenceLocation

namespace Finder

/-- Finds the declaration of a symbol, if it lies in the document. -/
def declaration : Finder where
  name := "declaration"
  find _ symbol document :=
    if symbol.declaration = document then [⟨document, symbol.span, true⟩] else []

/-- Finds the recorded references to a symbol, other than its declaration. -/
def nameReference : Finder where
  name := "name_reference"
  find source symbol document :=
    ((source.referencesIn symbol.id document).filter fun span =>
      !(symbol.declaration = document && span = symbol.span)).map fun span =>
        ⟨document, span, false⟩

/-- The ways that a search uses, in order. -/
def standard : List Finder := [declaration, nameReference]

end Finder

/-- How a search in this process ended. -/
inductive EngineResult where
  /-- It visited every target. -/
  | completed (completion : Completion)
  /-- It was cancelled before it visited every target. -/
  | cancelled
  /-- Reading the references of a symbol broke it down. -/
  | crashed
  deriving DecidableEq, Repr

namespace EngineResult

/-- The result as callers of a search see it. -/
def toExcept : EngineResult → Except Failure Completion
  | .completed completion => .ok completion
  | .cancelled => .error .cancelled
  | .crashed => .error (.taskFailed "the search broke down")

end EngineResult

namespace Engine

/-- What a target reports: the findings of each finder, for each symbol in order. -/
def visit (source : SymbolSource) (symbols : List SymbolInfo) (target : SearchTarget) :
    List SearchEvent :=
  (Finder.standard.flatMap fun finder =>
    symbols.flatMap fun symbol =>
      (finder.find source symbol target.document).map fun location => (symbol, location)).filterMap
    fun finding =>
      if target.keeps finding.2.span then some (.reference finding.1 finding.2) else none

/-- Visits targets one by one; `delivered` findings were reported before. -/
def visitAll (source : SymbolSource) (symbols : List SymbolInfo) (point : CancelPoint)
    (delivered : Nat) (found : Bool) : List SearchTarget → List SearchEvent × EngineResult
  | [] => ([], .completed (if found then .found else .exhausted))
  | target :: rest =>
    if point.reached delivered then ([], .cancelled)
    else if symbols.any fun symbol => source.broken symbol.id then ([], .crashed)
    else
      let block := visit source symbols target
      let later := visitAll source symbols point (delivered + block.length)
        (found || !block.isEmpty) rest
      (block ++ later.1, later.2)

/-- Searches for a symbol and what it is related to. A search for an unknown symbol finds nothing
and reports nothing. -/
def search (source : SymbolSource) (options : SearchOptions) (solution : Solution)
    (scope : SearchScope) (symbol : SymbolId) (point : CancelPoint) :
    List SearchEvent × EngineResult :=
  match source.symbol? symbol with
  | none => ([], .completed .exhausted)
  | some start =>
    let symbols := cascade source start options scope.restriction
    let visited := visitAll source symbols point symbols.length false (scope.targets solution)
    (symbols.map .definition ++ visited.1, visited.2)

end Engine

end SolutionWatch
