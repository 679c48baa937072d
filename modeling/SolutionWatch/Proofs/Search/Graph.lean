import Mathlib.Data.List.Induction
import SolutionWatch.Proofs.Search.Ascending
import SolutionWatch.Symbol

/-!
# What a graph has recorded

A graph is built by adding symbols, relationships and references, one after the other
(`SymbolGraph.Built`). Whatever they are and in whatever order they come, the ranges that refer to a symbol
in a document are listed in ascending order, each of them once (`SymbolGraph.Built.ascending`).

So the list is determined by which references to the symbol in the document were among the additions
(`SymbolGraph.references_determined`): neither their order, nor repetitions, nor what else was added can be
told from it.
-/

namespace SolutionWatch

namespace SymbolGraph

/-- The graphs that can be built, one addition after the other. -/
inductive Built : SymbolGraph → Prop
  /-- Nothing was added. -/
  | empty : Built {}
  /-- A symbol is added, or replaced. -/
  | symbol {graph : SymbolGraph} (symbol : SymbolInfo) : Built graph → Built (graph.addSymbol symbol)
  /-- A member overrides another one. -/
  | override {graph : SymbolGraph} (derived base : SymbolId) : Built graph →
      Built (graph.addOverride derived base)
  /-- A member implements an interface member. -/
  | implementation {graph : SymbolGraph} (implementor member : SymbolId) : Built graph →
      Built (graph.addImplementation implementor member)
  /-- A symbol is referred to. -/
  | reference {graph : SymbolGraph} (symbol : SymbolId) (document : DocumentId) (span : TextSpan) :
      Built graph → Built (graph.addReference symbol document span)

variable {graph : SymbolGraph}

/-- Without additions there are no references. -/
theorem referencesIn_empty (symbol : SymbolId) (document : DocumentId) :
    referencesIn {} symbol document = [] := Std.HashMap.getD_empty

/-- Relationships are recorded apart from references. -/
theorem referencesIn_relate (graph : SymbolGraph) (source : SymbolId) (relationship : Relationship)
    (target : SymbolId) : (graph.relate source relationship target).referencesIn = graph.referencesIn := by
  unfold relate
  dsimp only
  split <;> rfl

/-- A reference is added to those that are recorded of its symbol and document. -/
theorem referencesIn_addReference (graph : SymbolGraph) (symbol other : SymbolId)
    (document place : DocumentId) (span : TextSpan) :
    (graph.addReference symbol document span).referencesIn other place =
      if symbol = other ∧ document = place then span.insertSorted (graph.referencesIn other place)
      else graph.referencesIn other place := by
  have hkey : ((symbol, document) == (other, place)) = decide (symbol = other ∧ document = place) := by
    rw [beq_eq_decide]
    exact decide_eq_decide.mpr (by rw [Prod.mk.injEq])
  unfold referencesIn addReference
  rw [Std.HashMap.getD_insert, hkey]
  by_cases hsame : symbol = other ∧ document = place
  · obtain ⟨rfl, rfl⟩ := hsame
    simp
  · simp [hsame]

/-- The ranges that refer to a symbol in a document are listed in order, each of them once. -/
theorem Built.ascending (h : graph.Built) (symbol : SymbolId) (document : DocumentId) :
    TextSpan.Ascending (graph.referencesIn symbol document) := by
  induction h with
  | empty =>
    rw [referencesIn_empty]
    exact List.Pairwise.nil
  | symbol _ _ ih => exact ih
  | override derived base _ ih =>
    rw [addOverride, referencesIn_relate]
    exact ih
  | implementation implementor member _ ih =>
    rw [addImplementation, referencesIn_relate]
    exact ih
  | reference other place span _ ih =>
    rw [referencesIn_addReference]
    split
    · exact ih.insertSorted span
    · exact ih

/-! ## Rows of additions -/

/-- What can be added to a graph. -/
inductive Addition where
  /-- A symbol, which replaces the one with its identity. -/
  | symbol (symbol : SymbolInfo)
  /-- A member overrides another one. -/
  | override (derived base : SymbolId)
  /-- A member implements an interface member. -/
  | implementation (implementor member : SymbolId)
  /-- A symbol is referred to in a range of a document. -/
  | reference (symbol : SymbolId) (document : DocumentId) (span : TextSpan)

/-- Whether an addition is a reference to a symbol in a document. -/
def Addition.refersTo (symbol : SymbolId) (document : DocumentId) : Addition → Bool
  | reference other place _ => other = symbol && place = document
  | _ => false

/-- The graph after an addition. -/
def add (graph : SymbolGraph) : Addition → SymbolGraph
  | .symbol symbol => graph.addSymbol symbol
  | .override derived base => graph.addOverride derived base
  | .implementation implementor member => graph.addImplementation implementor member
  | .reference symbol document span => graph.addReference symbol document span

/-- The graph that a row of additions makes of an empty one. -/
def gathered (additions : List Addition) : SymbolGraph := additions.foldl add {}

/-- The last addition of a row is made to the graph of those before it. -/
theorem gathered_concat (additions : List Addition) (addition : Addition) :
    gathered (additions ++ [addition]) = (gathered additions).add addition := by
  rw [gathered, List.foldl_append]
  rfl

/-- Every row of additions builds a graph. -/
theorem built_gathered (additions : List Addition) : (gathered additions).Built := by
  induction additions using List.reverseRecOn with
  | nil => exact .empty
  | append_singleton additions addition ih =>
    rw [gathered_concat]
    cases addition with
    | symbol symbol => exact .symbol symbol ih
    | override derived base => exact .override derived base ih
    | implementation implementor member => exact .implementation implementor member ih
    | reference symbol document span => exact .reference symbol document span ih

/-- What is not in the empty graph, and comes into a graph with one addition only, is in a graph exactly if
that addition was made. -/
theorem gathered_iff_mem (records : SymbolGraph → Prop) {recorder : Addition} (hempty : ¬records {})
    (hadd : ∀ {graph : SymbolGraph}, graph.Built → ∀ addition,
      records (graph.add addition) ↔ records graph ∨ recorder = addition)
    (additions : List Addition) : records (gathered additions) ↔ recorder ∈ additions := by
  induction additions using List.reverseRecOn with
  | nil => exact iff_of_false hempty List.not_mem_nil
  | append_singleton additions addition ih =>
    rw [gathered_concat, hadd (built_gathered additions), ih, List.mem_append, List.mem_singleton]

variable {symbol : SymbolId} {document : DocumentId} {span : TextSpan}

/-- An addition adds nothing to the references of a symbol in a document but the reference that it is. -/
theorem Built.mem_referencesIn_add (h : graph.Built) (addition : Addition) :
    span ∈ (graph.add addition).referencesIn symbol document ↔
      span ∈ graph.referencesIn symbol document ∨ .reference symbol document span = addition := by
  cases addition with
  | symbol _ => exact (or_iff_left Addition.noConfusion).symm
  | override derived base =>
    rw [add, addOverride, referencesIn_relate]
    exact (or_iff_left Addition.noConfusion).symm
  | implementation implementor member =>
    rw [add, addImplementation, referencesIn_relate]
    exact (or_iff_left Addition.noConfusion).symm
  | reference other place added =>
    rw [add, referencesIn_addReference, Addition.reference.injEq]
    split
    · next hsame =>
      obtain ⟨rfl, rfl⟩ := hsame
      -- The slot is searched for by halving, which relies on the order of what is listed.
      rw [(h.ascending other place).mem_insertSorted, or_comm]
      simp only [true_and]
    · next hother =>
      refine (or_iff_left ?_).symm
      rintro ⟨rfl, rfl, -⟩
      exact hother ⟨rfl, rfl⟩

/-- The references of a symbol in a document are those that were added. -/
theorem mem_referencesIn_gathered {additions : List Addition} :
    span ∈ (gathered additions).referencesIn symbol document ↔
      .reference symbol document span ∈ additions := by
  refine gathered_iff_mem (fun graph => span ∈ graph.referencesIn symbol document) ?_
    Built.mem_referencesIn_add additions
  rw [referencesIn_empty]
  exact List.not_mem_nil

/-- The references of a symbol in a document are listed in order, each of them once, and they are those that
were added. Two rows of additions give the same list exactly if they add the same references of the symbol in
the document, and whatever else they add makes no difference to it. -/
theorem references_determined (additions : List Addition) (symbol : SymbolId) (document : DocumentId) :
    let recorded := fun additions => (gathered additions).referencesIn symbol document
    TextSpan.Ascending (recorded additions) ∧
      (∀ span, span ∈ recorded additions ↔ .reference symbol document span ∈ additions) ∧
      (∀ others, recorded others = recorded additions ↔
        ∀ span, .reference symbol document span ∈ others ↔ .reference symbol document span ∈ additions) ∧
      recorded (additions.filter (Addition.refersTo symbol document)) = recorded additions := by
  intro recorded
  have hascending : ∀ additions, TextSpan.Ascending (recorded additions) := fun additions =>
    (built_gathered additions).ascending symbol document
  have hsame : ∀ others, recorded others = recorded additions ↔
      ∀ span, .reference symbol document span ∈ others ↔ .reference symbol document span ∈ additions := by
    intro others
    refine ⟨fun heq span => ?_, fun hmem => ?_⟩
    · rw [← mem_referencesIn_gathered, ← mem_referencesIn_gathered]
      exact iff_of_eq (congrArg (span ∈ ·) heq)
    · refine (hascending additions).eq_of_mem_iff (hascending others) fun span => ?_
      exact mem_referencesIn_gathered.trans ((hmem span).trans mem_referencesIn_gathered.symm)
  refine ⟨hascending additions, fun _ => mem_referencesIn_gathered, hsame, (hsame _).mpr fun span => ?_⟩
  rw [List.mem_filter]
  exact and_iff_left (by simp [Addition.refersTo])

/-- A reference that was added late and one that was added twice. -/
example :
    let symbol : SymbolId := ⟨1⟩
    let document : DocumentId := ⟨⟨1⟩, 1⟩
    (gathered [.reference symbol document ⟨40, 44⟩, .reference symbol document ⟨10, 14⟩,
      .reference symbol document ⟨40, 44⟩]).referencesIn symbol document = [⟨10, 14⟩, ⟨40, 44⟩] := by
  cbv

end SymbolGraph

end SolutionWatch
