import SolutionWatch.Solution
import SolutionWatch.Symbol

/-!
# Generated solutions

Solutions of a given shape, for measurements and examples. Identities are computed from positions,
so two solutions of one shape have the same content. Each source document declares one method,
which the next document of the project refers to and whose method overrides it.
-/

namespace SolutionWatch

/-- The shape of a generated solution. -/
structure Fixture where
  /-- The number of projects. -/
  projects : Nat
  /-- The number of source documents in each project. -/
  documents : Nat
  /-- The number of additional documents in each project. -/
  additional : Nat
  /-- The number of projects, from the first on, that refer to the project after them. -/
  chain : Nat
  deriving DecidableEq, Repr

namespace Fixture

/-- A shape with 3 projects of 10 documents. -/
def small : Fixture := ⟨3, 10, 1, 2⟩

/-- A shape with 20 projects of 50 documents. -/
def medium : Fixture := ⟨20, 50, 2, 10⟩

/-- A shape with 100 projects of 200 documents. -/
def large : Fixture := ⟨100, 200, 4, 30⟩

/-- The workspace of every generated solution. -/
def workspace : WorkspaceId := ⟨1⟩

/-- The identity of the project at a position. -/
def projectId (p : Nat) : ProjectId := ⟨UInt64.ofNat (p + 1)⟩

/-- The identity of the document at a position of a project. -/
def documentId (p d : Nat) : DocumentId := ⟨projectId p, UInt64.ofNat (d + 1)⟩

/-- The identity of the method that the document at a position declares. -/
def symbolId (p d : Nat) : SymbolId :=
  ⟨(UInt64.ofNat (p + 1) <<< 32) ||| UInt64.ofNat (d + 1)⟩

/-- The source document at a position. -/
def sourceDocument (p d : Nat) : Document where
  id := documentId p d
  name := "File" ++ decimal d ++ ".cs"

/-- The additional document at a position, which comes after the source documents. -/
def additionalDocument (fixture : Fixture) (p a : Nat) : Document where
  id := documentId p (fixture.documents + a)
  name := "notes" ++ decimal a ++ ".txt"
  kind := .additional

/-- The references of the project at a position. -/
def references (fixture : Fixture) (p : Nat) : References :=
  if p < fixture.chain ∧ p + 1 < fixture.projects then
    { metadata := ["System.Runtime"], projects := [projectId (p + 1)] }
  else {}

/-- The project at a position. -/
def project (fixture : Fixture) (p : Nat) : Project :=
  let start : Project :=
    { id := projectId p
      config := .named ("Project" ++ decimal p)
      references := fixture.references p }
  let sources := (List.range fixture.documents).map (sourceDocument p)
  let additional := (List.range fixture.additional).map (fixture.additionalDocument p)
  (sources ++ additional).foldl Project.withDocument start

/-- The solution of a shape. -/
def solution (fixture : Fixture) : Solution :=
  ((List.range fixture.projects).map fixture.project).foldl Solution.withProject
    (.initial workspace)

/-- The documents that a round of edits touches: in each project every `stride`-th one, from the
first on. A stride of zero counts as one. -/
def edited (fixture : Fixture) (stride : Nat) : List DocumentId :=
  (List.range fixture.projects).flatMap fun p =>
    ((List.range fixture.documents).filter fun d => d % max stride 1 = 0).map (documentId p)

/-- Edits every `stride`-th source document of a solution of this shape, if there is one. -/
def editEveryNth (fixture : Fixture) (solution : Solution) (stride : Nat) :
    Except Failure (Option Solution) :=
  match fixture.edited stride with
  | [] => .ok none
  | ids => (ids.foldlM Solution.withEdit solution).map some

/-- The method that the document at a position declares. -/
def method (p d : Nat) : SymbolInfo where
  id := symbolId p d
  name := "Method" ++ decimal d
  kind := .method
  declaration := documentId p d
  span := ⟨0, 8⟩

/-- Adds the method that the document at a position declares, the reference to it in the next
document, and what it overrides. -/
def addMethod (fixture : Fixture) (graph : SymbolGraph) (position : Nat × Nat) : SymbolGraph :=
  let (p, d) := position
  let graph := graph.addSymbol (method p d)
  let graph :=
    if d + 1 < fixture.documents then
      graph.addReference (symbolId p d) (documentId p (d + 1)) ⟨40, 48⟩
    else graph
  if 0 < d then graph.addOverride (symbolId p d) (symbolId p (d - 1)) else graph

/-- The symbols of a generated solution. -/
def graph (fixture : Fixture) : SymbolGraph :=
  ((List.range fixture.projects).flatMap fun p =>
    (List.range fixture.documents).map fun d => (p, d)).foldl fixture.addMethod {}

end Fixture

end SolutionWatch
