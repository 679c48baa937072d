import SolutionWatch.Registry
import SolutionWatch.Search.Query

/-!
# What a worker does with a request

A worker resolves the address of a request in the registry that it shares with its callers.
`Worker.accept` is what becomes of a request to look at something again: the call that the worker's
service gets, or a refusal because the snapshot is unknown or lacks what the request names.
`Worker.search` carries out a search: it sends each finding as a message, and a completion last.
-/

namespace SolutionWatch

/-- A call to a worker's service. -/
structure ServiceCall where
  /-- What to look at. -/
  scope : Scope
  /-- Why to look at it. -/
  reasons : Reasons
  /-- The snapshot to look in. -/
  solution : Solution
  deriving DecidableEq, Repr

namespace Worker

/-- The call that an operation asks for in a resolved snapshot. -/
def callFor (solution : Solution) : Operation → Except Failure ServiceCall
  | .solutionEvent reasons => .ok ⟨.solution, reasons, solution⟩
  | .projectEvent project reasons => do
    let _ ← solution.requireProject project
    return ⟨.project project, reasons, solution⟩
  | .documentEvent document reasons => do
    let _ ← solution.requireDocument document
    return ⟨.document document, reasons, solution⟩
  | .findReferences .. | .findReferencesInDocuments .. =>
    .error (.remote "search requests need a callback channel")

/-- The call that a request asks for, and the registry afterwards. -/
def accept (registry : SnapshotRegistry) (request : Request Address) :
    Except Failure ServiceCall × SnapshotRegistry :=
  let (resolved, registry) := registry.lookup request.address
  (resolved.bind fun solution => callFor solution request.operation, registry)

/-- The message that a finding is sent as. -/
def messageOf? : SearchEvent → Option ReferenceMessage
  | .definition symbol => some (.definitionFound symbol)
  | .reference symbol location => some (.referenceFound symbol.id location)
  | _ => none

/-- Carries out a search in a resolved snapshot. -/
def searchIn (source : SymbolSource) (solution : Solution) (operation : Operation)
    (point : CancelPoint) : StreamAnswer :=
  match operation.search? with
  | none => ⟨[], .error (.remote "crawler events do not stream results")⟩
  | some search =>
    match solution.requireProject search.symbol.project with
    | .error failure => ⟨[], .error failure⟩
    | .ok _ =>
      let visited :=
        Engine.search source search.options solution search.scope search.symbol.id point
      let messages := visited.1.filterMap messageOf?
      match visited.2.toExcept with
      | .ok completion => ⟨messages ++ [.completed completion], .ok ()⟩
      | .error failure => ⟨messages, .error failure⟩

/-- Carries out the search that a request asks for; also returns the registry afterwards. -/
def search (source : SymbolSource) (registry : SnapshotRegistry) (request : Request Address)
    (point : CancelPoint) : StreamAnswer × SnapshotRegistry :=
  match registry.lookup request.address with
  | (.ok solution, registry) => (searchIn source solution request.operation point, registry)
  | (.error failure, registry) => (⟨[], .error failure⟩, registry)

end Worker

end SolutionWatch
