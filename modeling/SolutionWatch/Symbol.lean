import Std.Data.HashMap
import SolutionWatch.TextSpan

/-!
# Symbols

A `SymbolSource` answers questions about the symbols of a program: who they are, what they
override and implement, who overrides and implements them, and where they are referenced. It knows
finitely many symbols, which is what lets a search over it end.

`SymbolGraph` is a source built up by adding symbols, relationships and references. Every
relationship is indexed in both directions, and the references to a symbol in a document are kept
in ascending order.
-/

namespace SolutionWatch

/-- What sort of thing a symbol is. -/
inductive SymbolKind where
  | type
  | method
  | property
  | field
  | event
  deriving DecidableEq, Repr

namespace SymbolKind

/-- The written form of a kind of symbol. -/
def text : SymbolKind → String
  | .type => "Type"
  | .method => "Method"
  | .property => "Property"
  | .field => "Field"
  | .event => "Event"

/-- Every kind of symbol. -/
def all : List SymbolKind := [.type, .method, .property, .field, .event]

end SymbolKind

/-- A symbol and where it is declared. -/
structure SymbolInfo where
  /-- The identity of the symbol. -/
  id : SymbolId
  /-- The name of the symbol. -/
  name : String
  /-- What sort of thing the symbol is. -/
  kind : SymbolKind
  /-- The document that holds the declaration. -/
  declaration : DocumentId
  /-- The range of the declaration. -/
  span : TextSpan
  deriving DecidableEq, Repr

/-- What a search can ask about the symbols of a program. -/
structure SymbolSource where
  /-- The symbol of an identity, if it is known. -/
  symbol? : SymbolId → Option SymbolInfo
  /-- The members that a member overrides. -/
  overrides : SymbolId → List SymbolId
  /-- The interface members that a member implements. -/
  implements : SymbolId → List SymbolId
  /-- The members that override a member. -/
  overriddenBy : SymbolId → List SymbolId
  /-- The members that implement an interface member. -/
  implementedBy : SymbolId → List SymbolId
  /-- The ranges in a document that refer to a symbol, in order. -/
  referencesIn : SymbolId → DocumentId → List TextSpan
  /-- Whether asking for the references of a symbol breaks the search down. -/
  broken : SymbolId → Bool := fun _ => false
  /-- Only finitely many symbols are known. -/
  finite : ∃ known : List SymbolId, ∀ id, (symbol? id).isSome = true → id ∈ known

/-- How one symbol can be related to another. -/
inductive Relationship where
  /-- The first overrides the second. -/
  | overrides
  /-- The first implements the second. -/
  | implements
  deriving DecidableEq, Repr

/-- Where there is no symbol, every symbol is filed under its own identity. -/
theorem SymbolInfo.keyed_empty (id : SymbolId) (symbol : SymbolInfo)
    (h : (∅ : Std.HashMap SymbolId SymbolInfo)[id]? = some symbol) : symbol.id = id := by
  simp at h

/-- Symbols, their relationships and their references. Every symbol is filed under its identity. -/
structure SymbolGraph where
  /-- The known symbols. -/
  symbols : Std.HashMap SymbolId SymbolInfo := {}
  /-- For each symbol, what it is related to, oldest first. -/
  forward : Std.HashMap SymbolId (List (Relationship × SymbolId)) := {}
  /-- For each symbol, what is related to it, oldest first. -/
  reverse : Std.HashMap SymbolId (List (Relationship × SymbolId)) := {}
  /-- For each symbol and document, the referring ranges in ascending order. -/
  references : Std.HashMap (SymbolId × DocumentId) (List TextSpan) := {}
  /-- Every symbol is filed under its own identity. -/
  keyed : ∀ (id : SymbolId) (symbol : SymbolInfo), symbols[id]? = some symbol → symbol.id = id := by
    exact SymbolInfo.keyed_empty

namespace SymbolGraph

/-- Adds a symbol, or replaces the one with its identity. -/
def addSymbol (graph : SymbolGraph) (symbol : SymbolInfo) : SymbolGraph :=
  { graph with
    symbols := graph.symbols.insert symbol.id symbol
    keyed := fun id found h => by
      rw [Std.HashMap.getElem?_insert] at h
      split at h
      · next heq => exact Option.some.inj h ▸ eq_of_beq heq
      · exact graph.keyed id found h }

/-- Adds a relationship unless it is recorded already. -/
def relate (graph : SymbolGraph) (source : SymbolId) (relationship : Relationship)
    (target : SymbolId) : SymbolGraph :=
  let known := graph.forward.getD source []
  if (relationship, target) ∈ known then graph
  else { graph with
    forward := graph.forward.insert source (known ++ [(relationship, target)])
    reverse := graph.reverse.insert target
      (graph.reverse.getD target [] ++ [(relationship, source)]) }

/-- Records that `derived` overrides `base`. -/
def addOverride (graph : SymbolGraph) (derived base : SymbolId) : SymbolGraph :=
  graph.relate derived .overrides base

/-- Records that `implementor` implements `member`. -/
def addImplementation (graph : SymbolGraph) (implementor member : SymbolId) : SymbolGraph :=
  graph.relate implementor .implements member

/-- Records a reference to a symbol. -/
def addReference (graph : SymbolGraph) (symbol : SymbolId) (document : DocumentId)
    (span : TextSpan) : SymbolGraph :=
  { graph with
    references := graph.references.insert (symbol, document)
      (span.insertSorted (graph.references.getD (symbol, document) [])) }

/-- The number of known symbols. -/
def symbolCount (graph : SymbolGraph) : Nat := graph.symbols.size

/-- What an index lists for a symbol under one relationship. -/
def related (index : Std.HashMap SymbolId (List (Relationship × SymbolId)))
    (relationship : Relationship) (id : SymbolId) : List SymbolId :=
  ((index.getD id []).filter fun e => e.1 = relationship).map Prod.snd

/-- The ranges in a document that refer to a symbol. -/
def referencesIn (graph : SymbolGraph) (symbol : SymbolId) (document : DocumentId) :
    List TextSpan := graph.references.getD (symbol, document) []

/-- A graph as a source in which asking for the references of some symbols breaks a search down. -/
def toSource (graph : SymbolGraph) (broken : SymbolId → Bool := fun _ => false) : SymbolSource where
  symbol? id := graph.symbols[id]?
  overrides := related graph.forward .overrides
  implements := related graph.forward .implements
  overriddenBy := related graph.reverse .overrides
  implementedBy := related graph.reverse .implements
  referencesIn := graph.referencesIn
  broken := broken
  finite := ⟨graph.symbols.keys, fun id h => by
    rw [Std.HashMap.mem_keys]
    exact Std.HashMap.mem_iff_isSome_getElem?.mpr h⟩

end SymbolGraph

end SolutionWatch
