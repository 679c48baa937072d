import Mathlib.Data.List.Nodup
import SolutionWatch.Proofs.Search.Graph

/-!
# Relationships from both ends

A relationship is filed twice: with the symbol that it comes from and with the symbol that it leads to. Only
what is filed with the former is looked at to tell whether it is recorded already, and both relationships
share one list per symbol.

What keeps the two indexes together is that each is the mirror image of the other (`SymbolGraph.Mirrored`).
A relationship that is missing with the symbol that it comes from is then missing with the other symbol too,
so filing it with both does not file it twice, and the indexes are mirror images again
(`SymbolGraph.Mirrored.relate`). So whatever is added and however often, either end tells the relationships
that were added, each of them once (`SymbolGraph.relationships_mirrored`).
-/

namespace SolutionWatch

namespace SymbolGraph

variable {graph : SymbolGraph} {source target id : SymbolId} {relationship : Relationship}

/-! ## One index -/

/-- What is listed for a symbol after an entry was filed at the end of what is listed for some symbol. -/
theorem getD_insert_concat {α : Type*} (index : Std.HashMap SymbolId (List α)) (place id : SymbolId)
    (entry : α) :
    (index.insert place (index.getD place [] ++ [entry])).getD id [] =
      index.getD id [] ++ if place = id then [entry] else [] := by
  rw [Std.HashMap.getD_insert, beq_eq_decide]
  by_cases hplace : place = id
  · simp [hplace]
  · simp [hplace]

/-- A list stays without repetitions when what it lacks is filed at its end. -/
theorem nodup_append_ite {α : Type*} {entries : List α} {entry : α} {place : Prop} [Decidable place]
    (h : entries.Nodup) (hlacks : place → entry ∉ entries) :
    (entries ++ if place then [entry] else []).Nodup := by
  split
  · next hplace =>
    rw [← List.concat_eq_append]
    exact h.concat (hlacks hplace)
  · rwa [List.append_nil]

/-- An index lists a symbol under a relationship if it has the two as an entry. -/
theorem mem_related {index : Std.HashMap SymbolId (List (Relationship × SymbolId))} :
    target ∈ related index relationship id ↔ (relationship, target) ∈ index.getD id [] := by
  simp [related]

/-- An index without repetitions lists no symbol twice under one relationship. -/
theorem nodup_related {index : Std.HashMap SymbolId (List (Relationship × SymbolId))}
    (h : (index.getD id []).Nodup) (relationship : Relationship) :
    (related index relationship id).Nodup := by
  refine (h.filter _).map_on fun a ha b hb heq => ?_
  have harelationship : a.1 = relationship := of_decide_eq_true (List.mem_filter.mp ha).2
  have hbrelationship : b.1 = relationship := of_decide_eq_true (List.mem_filter.mp hb).2
  exact Prod.ext (harelationship.trans hbrelationship.symm) heq

/-! ## Both indexes -/

/-- What a symbol is related to. -/
def outgoing (graph : SymbolGraph) (id : SymbolId) : List (Relationship × SymbolId) :=
  graph.forward.getD id []

/-- What is related to a symbol. -/
def incoming (graph : SymbolGraph) (id : SymbolId) : List (Relationship × SymbolId) :=
  graph.reverse.getD id []

/-- Without additions no symbol is related to another one. -/
theorem outgoing_empty (id : SymbolId) : outgoing {} id = [] := Std.HashMap.getD_empty

/-- Without additions no symbol is related to another one, looked at from the other end. -/
theorem incoming_empty (id : SymbolId) : incoming {} id = [] := Std.HashMap.getD_empty

/-- Each index is the mirror image of the other, and neither lists an entry twice. -/
structure Mirrored (graph : SymbolGraph) : Prop where
  /-- A relationship is filed with the symbol that it leads to exactly if it is filed with the one that it
  comes from. -/
  mirror (source : SymbolId) (relationship : Relationship) (target : SymbolId) :
    (relationship, source) ∈ graph.incoming target ↔ (relationship, target) ∈ graph.outgoing source
  /-- No symbol has a relationship to another one twice. -/
  outgoing_nodup (id : SymbolId) : (graph.outgoing id).Nodup
  /-- No symbol has a relationship from another one twice. -/
  incoming_nodup (id : SymbolId) : (graph.incoming id).Nodup

/-- A relationship that is recorded already is not recorded again. -/
theorem relate_of_mem (h : (relationship, target) ∈ graph.outgoing source) :
    graph.relate source relationship target = graph := if_pos h

/-- A relationship that is not recorded yet is filed with both symbols, behind what is filed there. -/
theorem relate_of_not_mem (h : (relationship, target) ∉ graph.outgoing source) :
    graph.relate source relationship target =
      { graph with
        forward := graph.forward.insert source (graph.outgoing source ++ [(relationship, target)])
        reverse := graph.reverse.insert target (graph.incoming target ++ [(relationship, source)]) } :=
  if_neg h

/-- What a symbol is related to after a relationship was filed. -/
theorem outgoing_relate_of_not_mem (h : (relationship, target) ∉ graph.outgoing source) (id : SymbolId) :
    (graph.relate source relationship target).outgoing id =
      graph.outgoing id ++ if source = id then [(relationship, target)] else [] := by
  rw [relate_of_not_mem h]
  exact getD_insert_concat graph.forward source id _

/-- What is related to a symbol after a relationship was filed. -/
theorem incoming_relate_of_not_mem (h : (relationship, target) ∉ graph.outgoing source) (id : SymbolId) :
    (graph.relate source relationship target).incoming id =
      graph.incoming id ++ if target = id then [(relationship, source)] else [] := by
  rw [relate_of_not_mem h]
  exact getD_insert_concat graph.reverse target id _

/-- After a relationship was added a symbol is related to what it was related to before, and to what the
relationship relates it to. -/
theorem mem_outgoing_relate {entry : Relationship × SymbolId} :
    entry ∈ (graph.relate source relationship target).outgoing id ↔
      entry ∈ graph.outgoing id ∨ source = id ∧ entry = (relationship, target) := by
  by_cases hknown : (relationship, target) ∈ graph.outgoing source
  · rw [relate_of_mem hknown]
    refine (or_iff_left_of_imp ?_).symm
    rintro ⟨rfl, rfl⟩
    exact hknown
  · rw [outgoing_relate_of_not_mem hknown, List.mem_append]
    split
    · next hsource => simp [hsource]
    · next hsource => simp [hsource]

/-- A relationship that is added keeps the indexes mirror images of each other. -/
theorem Mirrored.relate (h : graph.Mirrored) (source : SymbolId) (relationship : Relationship)
    (target : SymbolId) : (graph.relate source relationship target).Mirrored := by
  by_cases hknown : (relationship, target) ∈ graph.outgoing source
  · rw [relate_of_mem hknown]
    exact h
  -- Only the list of the one end was looked at. That the list of the other end lacks the relationship too
  -- follows because it is the mirror image.
  have hmissing : (relationship, source) ∉ graph.incoming target := mt (h.mirror _ _ _).mp hknown
  constructor
  case mirror =>
    intro other known id
    rw [mem_outgoing_relate, incoming_relate_of_not_mem hknown, List.mem_append, h.mirror]
    refine or_congr_right ?_
    split
    · next htarget => simp [htarget, and_comm, eq_comm]
    · next htarget => simp [Ne.symm htarget]
  case outgoing_nodup =>
    intro id
    rw [outgoing_relate_of_not_mem hknown]
    exact nodup_append_ite (h.outgoing_nodup id) fun hsource => hsource ▸ hknown
  case incoming_nodup =>
    intro id
    rw [incoming_relate_of_not_mem hknown]
    exact nodup_append_ite (h.incoming_nodup id) fun htarget => htarget ▸ hmissing

/-- The indexes of every graph that is built are mirror images of each other. -/
theorem Built.mirrored (h : graph.Built) : graph.Mirrored := by
  induction h with
  | empty =>
    constructor
    case mirror =>
      intro source relationship target
      rw [outgoing_empty, incoming_empty]
      exact iff_of_false List.not_mem_nil List.not_mem_nil
    case outgoing_nodup => exact fun id => outgoing_empty id ▸ List.nodup_nil
    case incoming_nodup => exact fun id => incoming_empty id ▸ List.nodup_nil
  | symbol _ _ ih => exact ⟨ih.mirror, ih.outgoing_nodup, ih.incoming_nodup⟩
  | override derived base _ ih => exact ih.relate derived .overrides base
  | implementation implementor member _ ih => exact ih.relate implementor .implements member
  | reference _ _ _ _ ih => exact ⟨ih.mirror, ih.outgoing_nodup, ih.incoming_nodup⟩

/-! ## Rows of additions -/

/-- The addition of a relationship. -/
def Addition.relating (source : SymbolId) : Relationship → SymbolId → Addition
  | .overrides, target => .override source target
  | .implements, target => .implementation source target

/-- An addition relates a symbol to nothing but what it was related to before, and what the addition relates
it to. -/
theorem mem_outgoing_add (graph : SymbolGraph) (addition : Addition) :
    (relationship, target) ∈ (graph.add addition).outgoing source ↔
      (relationship, target) ∈ graph.outgoing source ∨
        .relating source relationship target = addition := by
  cases addition with
  | symbol _ => cases relationship <;> exact (or_iff_left Addition.noConfusion).symm
  | override derived base =>
    rw [add, addOverride, mem_outgoing_relate]
    cases relationship <;> simp [Addition.relating, eq_comm]
  | implementation implementor member =>
    rw [add, addImplementation, mem_outgoing_relate]
    cases relationship <;> simp [Addition.relating, eq_comm]
  | reference _ _ _ => cases relationship <;> exact (or_iff_left Addition.noConfusion).symm

/-- A symbol is related to what was added as related to it. -/
theorem mem_outgoing_gathered {additions : List Addition} :
    (relationship, target) ∈ (gathered additions).outgoing source ↔
      .relating source relationship target ∈ additions := by
  refine gathered_iff_mem (fun graph => (relationship, target) ∈ graph.outgoing source) ?_
    (fun _ => mem_outgoing_add _) additions
  rw [outgoing_empty]
  exact List.not_mem_nil

/-- What a source tells of relationships from either end if `additions` were added. -/
structure TellsRelationships (source : SymbolSource) (additions : List Addition) : Prop where
  /-- A member overrides those that it was added to override. -/
  overrides (derived base : SymbolId) :
    base ∈ source.overrides derived ↔ .override derived base ∈ additions
  /-- A member is overridden by those that were added to override it. -/
  overriddenBy (derived base : SymbolId) :
    derived ∈ source.overriddenBy base ↔ .override derived base ∈ additions
  /-- A member implements those that it was added to implement. -/
  implements (implementor member : SymbolId) :
    member ∈ source.implements implementor ↔ .implementation implementor member ∈ additions
  /-- A member is implemented by those that were added to implement it. -/
  implementedBy (implementor member : SymbolId) :
    implementor ∈ source.implementedBy member ↔ .implementation implementor member ∈ additions
  /-- Nothing is told twice. -/
  nodup (id : SymbolId) : (source.overrides id).Nodup ∧ (source.overriddenBy id).Nodup ∧
    (source.implements id).Nodup ∧ (source.implementedBy id).Nodup

/-- A graph tells the relationships that were added, and no others, from either end, and each of them once.
It makes no difference whether they were added repeatedly, lead in circles, or are about symbols that are not
known. -/
theorem relationships_mirrored (additions : List Addition) (broken : SymbolId → Bool) :
    TellsRelationships ((gathered additions).toSource broken) additions := by
  have hmirrored : (gathered additions).Mirrored := (built_gathered additions).mirrored
  have hforward : ∀ relationship source target,
      target ∈ related (gathered additions).forward relationship source ↔
        .relating source relationship target ∈ additions :=
    fun _ _ _ => mem_related.trans mem_outgoing_gathered
  have hreverse : ∀ relationship source target,
      source ∈ related (gathered additions).reverse relationship target ↔
        .relating source relationship target ∈ additions :=
    fun _ _ _ => mem_related.trans ((hmirrored.mirror _ _ _).trans mem_outgoing_gathered)
  constructor
  case overrides => exact hforward .overrides
  case overriddenBy => exact hreverse .overrides
  case implements => exact hforward .implements
  case implementedBy => exact hreverse .implements
  case nodup =>
    intro id
    have houtgoing := nodup_related (hmirrored.outgoing_nodup id)
    have hincoming := nodup_related (hmirrored.incoming_nodup id)
    exact ⟨houtgoing .overrides, hincoming .overrides, houtgoing .implements, hincoming .implements⟩

end SymbolGraph

end SolutionWatch
