import SolutionWatch.Proofs.Search.Interruption

/-!
# A search within ranges is a search of their documents, narrowed

A search within ranges announces what a search of the documents of these ranges announces, and reports those
of its occurrences that meet a range, in the same order (`Engine.search_within_ranges`). It does not matter
how often a document or a range is given, or in which order the ranges of different documents come: a document
is visited once, at its first place, and its target keeps what meets any of its ranges
(`SearchScope.targets_spans`).
-/

namespace SolutionWatch

/-- Whether some range lies in the document of an occurrence and intersects it. -/
def ReferenceLocation.meets (ranges : List DocumentSpan) (location : ReferenceLocation) : Bool :=
  ranges.any fun range => range.document = location.document && range.span.intersects location.span

namespace SearchScope

variable {ranges : List DocumentSpan} {solution : Solution} {span : TextSpan}

/-! ## Narrower targets -/

/-- A target that keeps what meets some range in its document. -/
def narrow (ranges : List DocumentSpan) (target : SearchTarget) : SearchTarget :=
  { target with
    spans := some ((ranges.filter fun range => range.document = target.document).map DocumentSpan.span) }

/-- The targets of ranges are those of their documents, each narrowed to the ranges. -/
theorem targets_spans (ranges : List DocumentSpan) (solution : Solution) :
    targets (.spans ranges) solution =
      (targets (.documents (ranges.map DocumentSpan.document)) solution).map (narrow ranges) := by
  rw [targets, targets, candidates_spans, candidates_documents, List.filter_map, List.filter_map,
    List.map_map]
  rfl

/-- A target of documents keeps everything. -/
theorem keeps_of_documents {ids : List DocumentId} {target : SearchTarget}
    (h : target ∈ targets (.documents ids) solution) : target.keeps span = true :=
  (keeps_iff h).mpr trivial

/-- A narrowed target keeps what meets some range. -/
theorem keeps_narrow {target : SearchTarget} {location : ReferenceLocation}
    (h : location.document = target.document) :
    (narrow ranges target).keeps location.span = location.meets ranges := by
  simp only [SearchTarget.keeps, narrow, ReferenceLocation.meets, List.any_map, List.any_filter, h]
  rfl

end SearchScope

namespace Engine

variable {source : SymbolSource} {symbols : List SymbolInfo} {ranges : List DocumentSpan}

/-- A narrowed target reports those of its occurrences that meet some range. -/
theorem occurrences_narrow {target : SearchTarget} (htarget : ∀ span, target.keeps span = true) :
    occurrences source symbols (SearchScope.narrow ranges target) =
      (occurrences source symbols target).filter fun found => found.2.meets ranges := by
  have hall : occurrences source symbols target =
      Finder.standard.flatMap (foundBy source symbols target.document) :=
    List.filter_eq_self.mpr fun found _ => htarget found.2.span
  calc occurrences source symbols (SearchScope.narrow ranges target)
      = (occurrences source symbols target).filter fun found =>
          (SearchScope.narrow ranges target).keeps found.2.span := by rw [hall]; rfl
    _ = (occurrences source symbols target).filter fun found => found.2.meets ranges :=
        List.filter_congr fun found hfound => SearchScope.keeps_narrow (mem_occurrences.mp hfound).2.1

/-- The targets of ranges report those of the occurrences in their documents that meet some range. -/
theorem flatMap_occurrences_spans (ranges : List DocumentSpan) (solution : Solution) :
    (SearchScope.targets (.spans ranges) solution).flatMap (occurrences source symbols) =
      ((SearchScope.targets (.documents (ranges.map DocumentSpan.document)) solution).flatMap
        (occurrences source symbols)).filter fun found => found.2.meets ranges := by
  rw [SearchScope.targets_spans, List.flatMap_map, List.filter_flatMap]
  exact List.flatMap_congr fun target htarget =>
    occurrences_narrow fun _ => SearchScope.keeps_of_documents htarget

/-! ## Whole searches -/

/-- An uncancelled search in a graph announces the symbols of its plan. -/
theorem definitions_search (graph : SymbolGraph) (options : SearchOptions) (solution : Solution)
    (scope : SearchScope) (id : SymbolId) :
    SearchLog.definitions (search graph.toSource options solution scope id none).1 =
      (plan graph.toSource options solution scope id).1 := by
  rw [search_of_uncancelled]
  refine SearchLog.definitions_announce _ fun event hevent => ?_
  obtain ⟨found, hfound, rfl⟩ := List.mem_map.mp hevent
  obtain ⟨target, -, hfound⟩ := List.mem_flatMap.mp hfound
  exact ⟨found.1, (mem_occurrences.mp hfound).1, found.2, rfl⟩

/-- An uncancelled search in a graph reports the occurrences of these symbols at its targets. -/
theorem references_search (graph : SymbolGraph) (options : SearchOptions) (solution : Solution)
    (scope : SearchScope) (id : SymbolId) :
    SearchLog.references (search graph.toSource options solution scope id none).1 =
      (plan graph.toSource options solution scope id).2.flatMap
        (occurrences graph.toSource (plan graph.toSource options solution scope id).1) := by
  rw [search_of_uncancelled]
  exact SearchLog.references_announce _ _

/-- A search within ranges covers the symbols that a search of their documents covers. -/
theorem plan_spans_symbols (source : SymbolSource) (options : SearchOptions) (solution : Solution)
    (ranges : List DocumentSpan) (id : SymbolId) :
    (plan source options solution (.spans ranges) id).1 =
      (plan source options solution (.documents (ranges.map DocumentSpan.document)) id).1 := by
  unfold plan
  cases source.symbol? id <;> rfl

/-- What is found at the targets of ranges is what is found at those of their documents and meets some
range. -/
theorem flatMap_plan_spans (source : SymbolSource) (options : SearchOptions) (solution : Solution)
    (ranges : List DocumentSpan) (id : SymbolId) :
    (plan source options solution (.spans ranges) id).2.flatMap (occurrences source symbols) =
      ((plan source options solution (.documents (ranges.map DocumentSpan.document)) id).2.flatMap
        (occurrences source symbols)).filter fun found => found.2.meets ranges := by
  unfold plan
  cases source.symbol? id with
  | none => rfl
  | some start => exact flatMap_occurrences_spans ranges solution

/-- What a search answers that reports what another one reports that meets some range. -/
structure NarrowedTo (ranges : List DocumentSpan) (whole answer : List SearchEvent × EngineResult) : Prop where
  /-- It announces the same symbols. -/
  definitions : SearchLog.definitions answer.1 = SearchLog.definitions whole.1
  /-- It reports the occurrences that meet some range, in the same order. -/
  references : SearchLog.references answer.1 =
    (SearchLog.references whole.1).filter fun found => found.2.meets ranges
  /-- It announces before it reports, and there is nothing else. -/
  announced : answer.1 = (SearchLog.definitions answer.1).map .definition ++
    (SearchLog.references answer.1).map fun found => .reference found.1 found.2
  /-- It completes, and says that it found something if one of the occurrences meets a range. -/
  completed : answer.2 = .completed (if SearchLog.references answer.1 = [] then .exhausted else .found)

/-- A search within ranges in a graph reports what a search of the documents of these ranges reports that meets
one of them. -/
theorem search_within_ranges (graph : SymbolGraph) (options : SearchOptions) (solution : Solution)
    (ranges : List DocumentSpan) (id : SymbolId) :
    NarrowedTo ranges
      (search graph.toSource options solution (.documents (ranges.map DocumentSpan.document)) id none)
      (search graph.toSource options solution (.spans ranges) id none) where
  definitions := by rw [definitions_search, definitions_search, plan_spans_symbols]
  references := by rw [references_search, references_search, flatMap_plan_spans, plan_spans_symbols]
  announced := by
    rw [definitions_search, references_search, search_of_uncancelled]
  completed := by
    rw [references_search, search_of_uncancelled]

end Engine

end SolutionWatch
