import SolutionWatch.Fixture
import SolutionWatch.Proofs.Search.Cascade
import SolutionWatch.Proofs.Search.Direction
import SolutionWatch.Proofs.Search.Graph
import SolutionWatch.Proofs.Search.Targets

/-!
# What a search in this process reports

A search that is not cancelled announces the symbols that it covers and then reports where they occur: each
declaration, and each recorded reference that is not the declaration itself (`SymbolInfo.OccursAt`). It
reports exactly the occurrences in the documents that it visits that its scope asks for, each of them once
(`Engine.search_reports_occurrences`). Neither a document that is named twice, nor overlapping ranges, nor a
reference that is recorded on a declaration makes it report a place of a symbol again.

The reports come in one order (`Engine.Before`), and that two of them are about different places follows from
it: only a declaration and a reference of one symbol could be about the same place, and a reference is not
reported where its symbol is declared.
-/

namespace SolutionWatch

/-- A symbol occurs where it is declared, and where a reference to it is recorded that is not its
declaration. -/
inductive SymbolInfo.OccursAt (source : SymbolSource) (symbol : SymbolInfo) : ReferenceLocation → Prop
  /-- The declaration. -/
  | declaration : OccursAt source symbol ⟨symbol.declaration, symbol.span, true⟩
  /-- A reference. -/
  | reference {document : DocumentId} {span : TextSpan} : span ∈ source.referencesIn symbol.id document →
      ¬(symbol.declaration = document ∧ span = symbol.span) → OccursAt source symbol ⟨document, span, false⟩

/-- Announcements report no occurrences. -/
theorem SearchLog.references_announce (symbols : List SymbolInfo)
    (found : List (SymbolInfo × ReferenceLocation)) :
    references (symbols.map .definition ++ found.map fun found => .reference found.1 found.2) = found := by
  have hannounced : references (symbols.map .definition) = [] := by
    refine List.filterMap_eq_nil_iff.mpr fun event hevent => ?_
    obtain ⟨symbol, -, rfl⟩ := List.mem_map.mp hevent
    rfl
  have hreported : references (found.map fun found => .reference found.1 found.2) = found := by
    rw [references, List.filterMap_map]
    exact List.filterMap_some
  unfold references at hannounced hreported ⊢
  rw [List.filterMap_append, hannounced, hreported, List.nil_append]

namespace Engine

variable {source : SymbolSource} {symbols : List SymbolInfo} {names : List DocumentId}
  {target : SearchTarget} {targets : List SearchTarget} {symbol : SymbolInfo}
  {location : ReferenceLocation}

/-- The order of reports: by document, declarations before references, by symbol, and by range. -/
inductive Before (names : List DocumentId) (symbols : List SymbolInfo)
    (p q : SymbolInfo × ReferenceLocation) : Prop
  /-- The document of the first one is named earlier. -/
  | document : names.idxOf p.2.document < names.idxOf q.2.document → Before names symbols p q
  /-- In one document the first one is a declaration, and the second one is not. -/
  | declaration : p.2.document = q.2.document → p.2.isDefinition = true → q.2.isDefinition = false →
      Before names symbols p q
  /-- Among declarations, or references, in one document the symbol of the first one is listed earlier. -/
  | symbol : p.2.document = q.2.document → p.2.isDefinition = q.2.isDefinition →
      symbols.idxOf p.1 < symbols.idxOf q.1 → Before names symbols p q
  /-- Among those of one symbol the range of the first one comes earlier. -/
  | span : p.2.document = q.2.document → p.2.isDefinition = q.2.isDefinition → p.1 = q.1 →
      p.2.span.order q.2.span = .lt → Before names symbols p q

/-! ## One target -/

/-- What a way to find occurrences finds of some symbols in a document. -/
def foundBy (source : SymbolSource) (symbols : List SymbolInfo) (document : DocumentId)
    (finder : Finder) : List (SymbolInfo × ReferenceLocation) :=
  symbols.flatMap fun symbol => (finder.find source symbol document).map fun location => (symbol, location)

/-- The occurrences that a target keeps, in the order of their reports. -/
def occurrences (source : SymbolSource) (symbols : List SymbolInfo) (target : SearchTarget) :
    List (SymbolInfo × ReferenceLocation) :=
  (Finder.standard.flatMap (foundBy source symbols target.document)).filter fun found =>
    target.keeps found.2.span

/-- A target reports the occurrences that it keeps. -/
theorem visit_eq (source : SymbolSource) (symbols : List SymbolInfo) (target : SearchTarget) :
    visit source symbols target =
      (occurrences source symbols target).map fun found => .reference found.1 found.2 := by
  rw [occurrences, ← List.filterMap_eq_map, List.filterMap_filter]
  rfl

/-- What is found of a symbol in a document is where it occurs there. -/
theorem mem_foundBy_standard {document : DocumentId} :
    (∃ finder ∈ Finder.standard, (symbol, location) ∈ foundBy source symbols document finder) ↔
      symbol ∈ symbols ∧ location.document = document ∧ symbol.OccursAt source location := by
  have hmem : ∀ finder, (symbol, location) ∈ foundBy source symbols document finder ↔
      symbol ∈ symbols ∧ location ∈ finder.find source symbol document := by
    intro finder
    simp only [foundBy, List.mem_flatMap, List.mem_map, Prod.mk.injEq]
    constructor
    · rintro ⟨_, hsymbol, _, hlocation, rfl, rfl⟩
      exact ⟨hsymbol, hlocation⟩
    · rintro ⟨hsymbol, hlocation⟩
      exact ⟨symbol, hsymbol, location, hlocation, rfl, rfl⟩
  simp only [hmem, Finder.standard, List.mem_cons, List.not_mem_nil, or_false, exists_eq_or_imp,
    exists_eq_left, Finder.declaration, Finder.nameReference, List.mem_map, List.mem_filter]
  constructor
  · rintro (⟨hsymbol, hlocation⟩ | ⟨hsymbol, span, ⟨hspan, hother⟩, rfl⟩)
    · split at hlocation
      · next hdeclared =>
        rw [List.mem_singleton] at hlocation
        subst hlocation hdeclared
        exact ⟨hsymbol, rfl, .declaration⟩
      · exact absurd hlocation List.not_mem_nil
    · refine ⟨hsymbol, rfl, .reference hspan fun hsame => ?_⟩
      simp [hsame] at hother
  · rintro ⟨hsymbol, rfl, hoccurs⟩
    cases hoccurs with
    | declaration => exact .inl ⟨hsymbol, by rw [if_pos rfl]; exact List.mem_singleton_self _⟩
    | reference hspan hother =>
      exact .inr ⟨hsymbol, _, ⟨hspan, by simpa [-not_and, not_and_or] using hother⟩, rfl⟩

/-- A target keeps the occurrences in its document that meet its ranges. -/
theorem mem_occurrences : (symbol, location) ∈ occurrences source symbols target ↔
    symbol ∈ symbols ∧ location.document = target.document ∧ symbol.OccursAt source location ∧
      target.keeps location.span = true := by
  rw [occurrences, List.mem_filter, List.mem_flatMap, mem_foundBy_standard]
  tauto

/-- One way to find occurrences finds them symbol by symbol. -/
theorem pairwise_foundBy {document : DocumentId} {finder : Finder} {kind : Bool}
    (hsymbols : symbols.Nodup)
    (hkind : ∀ symbol, ∀ location ∈ finder.find source symbol document,
      location.document = document ∧ location.isDefinition = kind)
    (hspans : ∀ symbol ∈ symbols, (finder.find source symbol document).Pairwise fun a b =>
      a.span.order b.span = .lt) :
    (foundBy source symbols document finder).Pairwise (Before names symbols) := by
  have hlisted : symbols.Pairwise fun a b => symbols.idxOf a < symbols.idxOf b := by
    have hfirst := symbols.pairwise_idxOf_eraseDups
    rwa [hsymbols.eraseDups_eq] at hfirst
  unfold foundBy
  rw [List.pairwise_flatMap]
  refine ⟨fun symbol hsymbol => ?_, hlisted.imp fun {a b} hlt p hp q hq => ?_⟩
  · rw [List.pairwise_map]
    refine (hspans symbol hsymbol).imp_of_mem fun {a b} ha hb hlt => ?_
    obtain ⟨hadocument, hakind⟩ := hkind symbol a ha
    obtain ⟨hbdocument, hbkind⟩ := hkind symbol b hb
    exact .span (hadocument.trans hbdocument.symm) (hakind.trans hbkind.symm) rfl hlt
  · obtain ⟨x, hx, rfl⟩ := List.mem_map.mp hp
    obtain ⟨y, hy, rfl⟩ := List.mem_map.mp hq
    obtain ⟨hxdocument, hxkind⟩ := hkind a x hx
    obtain ⟨hydocument, hykind⟩ := hkind b y hy
    exact .symbol (hxdocument.trans hydocument.symm) (hxkind.trans hykind.symm) hlt

/-- A target reports in order, if the references of each symbol are recorded in order. -/
theorem pairwise_occurrences (hsymbols : symbols.Nodup)
    (hspans : ∀ symbol ∈ symbols, TextSpan.Ascending (source.referencesIn symbol.id target.document)) :
    (occurrences source symbols target).Pairwise (Before names symbols) := by
  have hdeclaration : ∀ symbol, ∀ location ∈ Finder.declaration.find source symbol target.document,
      location.document = target.document ∧ location.isDefinition = true := by
    intro symbol location hlocation
    simp only [Finder.declaration] at hlocation
    split at hlocation
    · rw [List.mem_singleton.mp hlocation]
      exact ⟨rfl, rfl⟩
    · exact absurd hlocation List.not_mem_nil
  have hreference : ∀ symbol, ∀ location ∈ Finder.nameReference.find source symbol target.document,
      location.document = target.document ∧ location.isDefinition = false := by
    intro symbol location hlocation
    obtain ⟨span, -, rfl⟩ := List.mem_map.mp hlocation
    exact ⟨rfl, rfl⟩
  have hstandard : Finder.standard.flatMap (foundBy source symbols target.document) =
      foundBy source symbols target.document .declaration ++
        foundBy source symbols target.document .nameReference := by
    rw [Finder.standard, List.flatMap_cons, List.flatMap_cons, List.flatMap_nil, List.append_nil]
  refine List.Pairwise.filter _ ?_
  rw [hstandard, List.pairwise_append]
  refine ⟨pairwise_foundBy hsymbols hdeclaration fun symbol _ => ?_,
    pairwise_foundBy hsymbols hreference fun symbol hsymbol => ?_, fun p hp q hq => ?_⟩
  · simp only [Finder.declaration]
    split
    · exact List.pairwise_singleton _ _
    · exact List.Pairwise.nil
  · exact List.pairwise_map.mpr ((hspans symbol hsymbol).filter _)
  · -- Declarations are found before references.
    obtain ⟨a, -, hp⟩ := List.mem_flatMap.mp hp
    obtain ⟨x, hx, rfl⟩ := List.mem_map.mp hp
    obtain ⟨b, -, hq⟩ := List.mem_flatMap.mp hq
    obtain ⟨y, hy, rfl⟩ := List.mem_map.mp hq
    obtain ⟨hxdocument, hxkind⟩ := hdeclaration a x hx
    obtain ⟨hydocument, hykind⟩ := hreference b y hy
    exact .declaration (hxdocument.trans hydocument.symm) hxkind hykind

/-! ## All targets -/

/-- A search that is neither cancelled nor broken down visits every target. -/
theorem visitAll_of_uncancelled (hbroken : ∀ symbol ∈ symbols, source.broken symbol.id = false)
    (delivered : ℕ) (found : Bool) (targets : List SearchTarget) :
    let reported := targets.flatMap (occurrences source symbols)
    visitAll source symbols none delivered found targets =
      (reported.map fun found => .reference found.1 found.2,
        .completed (if found = true ∨ reported ≠ [] then .found else .exhausted)) := by
  have hsound : (symbols.any fun symbol => source.broken symbol.id) = false :=
    List.any_eq_false.mpr fun symbol hsymbol => by rw [hbroken symbol hsymbol]; exact Bool.false_ne_true
  induction targets generalizing delivered found with
  | nil => simp [visitAll]
  | cons target rest ih =>
    intro reported
    have hreported : reported = occurrences source symbols target ++
        rest.flatMap (occurrences source symbols) := List.flatMap_cons
    have hgoes : (CancelPoint.reached none delivered) = false := rfl
    rw [visitAll, hgoes, if_neg Bool.false_ne_true, hsound, if_neg Bool.false_ne_true]
    dsimp only
    rw [ih, hreported, List.map_append, visit_eq]
    by_cases hnothing : occurrences source symbols target = [] <;> simp [hnothing]

/-- Reports in order are about different places, if each of them is about a place where its symbol
occurs. -/
theorem nodup_places {reported : List (SymbolInfo × ReferenceLocation)}
    (hsymbols : (symbols.map SymbolInfo.id).Nodup)
    (hoccurs : ∀ found ∈ reported, found.1 ∈ symbols ∧ found.1.OccursAt source found.2)
    (hordered : reported.Pairwise (Before names symbols)) :
    (reported.map fun found => (found.1.id, found.2.document, found.2.span)).Nodup := by
  rw [List.nodup_iff_pairwise_ne, List.pairwise_map]
  refine hordered.imp_of_mem fun {p q} hp hq hbefore heq => ?_
  obtain ⟨hid, hdocument, hspan⟩ : p.1.id = q.1.id ∧ p.2.document = q.2.document ∧ p.2.span = q.2.span := by
    simpa using heq
  obtain ⟨hpsymbol, hpoccurs⟩ := hoccurs p hp
  obtain ⟨hqsymbol, hqoccurs⟩ := hoccurs q hq
  have hsame : p.1 = q.1 := List.inj_on_of_nodup_map hsymbols hpsymbol hqsymbol hid
  cases hbefore with
  | document hlt =>
    rw [hdocument] at hlt
    exact Nat.lt_irrefl _ hlt
  | declaration _ hdeclaration hreference =>
    -- A reference is not where its symbol is declared.
    obtain ⟨symbol, place⟩ := p
    obtain ⟨other, use⟩ := q
    obtain rfl : symbol = other := hsame
    dsimp only at hpoccurs hqoccurs hdocument hspan hdeclaration hreference
    cases hpoccurs with
    | reference => exact Bool.false_ne_true hdeclaration
    | declaration =>
      cases hqoccurs with
      | declaration => exact Bool.false_ne_true hreference.symm
      | reference _ helsewhere => exact helsewhere ⟨hdocument, hspan.symm⟩
  | symbol _ _ hlt =>
    rw [hsame] at hlt
    exact Nat.lt_irrefl _ hlt
  | span _ _ _ hlt =>
    rw [hspan, TextSpan.order_eq_eq_iff.mpr rfl] at hlt
    exact absurd hlt (by decide)

/-- What a search answers that reports exactly the occurrences of the symbols that it covers. -/
structure ReportsOccurrences (source : SymbolSource) (solution : Solution) (scope : SearchScope)
    (symbols : List SymbolInfo) (answer : List SearchEvent × EngineResult) : Prop where
  /-- It announces the symbols, in order, and reports nothing but occurrences after that. -/
  announced : answer.1 = symbols.map .definition ++
    (SearchLog.references answer.1).map fun found => .reference found.1 found.2
  /-- No symbol is announced twice. -/
  once : (symbols.map SymbolInfo.id).Nodup
  /-- What it reports are the occurrences of the symbols, in the documents that the search visits, that the
  scope asks for. -/
  exactly (symbol : SymbolInfo) (location : ReferenceLocation) :
    (symbol, location) ∈ SearchLog.references answer.1 ↔ symbol ∈ symbols ∧
      scope.Visits solution location.document ∧ symbol.OccursAt source location ∧
        scope.Requests location.document location.span
  /-- No place of a symbol is reported twice. -/
  distinct : ((SearchLog.references answer.1).map fun found =>
    (found.1.id, found.2.document, found.2.span)).Nodup
  /-- The reports come in order. -/
  ordered : (SearchLog.references answer.1).Pairwise (Before (scope.named solution) symbols)
  /-- The search completes, and says that it found something if it reported an occurrence. -/
  completed : answer.2 =
    .completed (if SearchLog.references answer.1 = [] then .exhausted else .found)

/-- A search for a known symbol of a graph, in a filed snapshot, that is not cancelled reports exactly the
occurrences of the symbols of the cascade. -/
theorem search_reports_occurrences {graph : SymbolGraph} (hgraph : graph.Built) {solution : Solution}
    (hsolution : solution.Filed) {id : SymbolId} {start : SymbolInfo}
    (hstart : graph.toSource.symbol? id = some start) (options : SearchOptions) (scope : SearchScope) :
    ReportsOccurrences graph.toSource solution scope
      (cascade graph.toSource start options scope.restriction)
      (search graph.toSource options solution scope id none) := by
  generalize hsymbols : cascade graph.toSource start options scope.restriction = symbols
  generalize hfound : (scope.targets solution).flatMap (occurrences graph.toSource symbols) = found
  have hnodup : (symbols.map SymbolInfo.id).Nodup :=
    hsymbols ▸ nodup_ids_cascade (graph.keyed_toSource _) start options scope.restriction
  have hanswer : search graph.toSource options solution scope id none =
      (symbols.map .definition ++ found.map (fun found => .reference found.1 found.2),
        .completed (if found = [] then .exhausted else .found)) := by
    have hsound : ∀ symbol ∈ symbols, graph.toSource.broken symbol.id = false := fun _ _ => rfl
    have hvisited := visitAll_of_uncancelled hsound symbols.length false (scope.targets solution)
    rw [hfound] at hvisited
    rw [search, hstart]
    dsimp only
    rw [hsymbols, hvisited]
    by_cases hnothing : found = [] <;> simp [hnothing]
  have hexactly : ∀ symbol location, (symbol, location) ∈ found ↔ symbol ∈ symbols ∧
      scope.Visits solution location.document ∧ symbol.OccursAt graph.toSource location ∧
        scope.Requests location.document location.span := by
    intro symbol location
    rw [← hfound, List.mem_flatMap, ← SearchScope.mem_documents_targets_iff hsolution]
    constructor
    · rintro ⟨target, htarget, hin⟩
      obtain ⟨hsymbol, hdocument, hoccurs, hkeeps⟩ := mem_occurrences.mp hin
      rw [hdocument]
      exact ⟨hsymbol, List.mem_map_of_mem htarget, hoccurs, (SearchScope.keeps_iff htarget).mp hkeeps⟩
    · rintro ⟨hsymbol, hvisits, hoccurs, hrequests⟩
      obtain ⟨target, htarget, hdocument⟩ := List.mem_map.mp hvisits
      rw [← hdocument] at hrequests
      exact ⟨target, htarget, mem_occurrences.mpr
        ⟨hsymbol, hdocument.symm, hoccurs, (SearchScope.keeps_iff htarget).mpr hrequests⟩⟩
  have hordered : found.Pairwise (Before (scope.named solution) symbols) := by
    rw [← hfound, List.pairwise_flatMap]
    refine ⟨fun target _ => pairwise_occurrences hnodup.of_map fun symbol _ => hgraph.ascending _ _,
      (SearchScope.pairwise_targets hsolution scope).imp fun {a b} hlt p hp q hq => .document ?_⟩
    rwa [(mem_occurrences.mp hp).2.1, (mem_occurrences.mp hq).2.1]
  have hreported : SearchLog.references (symbols.map .definition ++
      found.map fun found => .reference found.1 found.2) = found :=
    SearchLog.references_announce symbols found
  rw [hanswer]
  refine ⟨?_, hnodup, ?_, ?_, ?_, ?_⟩ <;> dsimp only <;> rw [hreported]
  · exact hexactly
  · have hoccurs : ∀ p ∈ found, p.1 ∈ symbols ∧ p.1.OccursAt graph.toSource p.2 := fun p hp =>
      ⟨((hexactly p.1 p.2).mp hp).1, ((hexactly p.1 p.2).mp hp).2.2.1⟩
    exact nodup_places hnodup hoccurs hordered
  · exact hordered

/-- A graph of one method, which is referred to in the next document, twice in one place, and in the place
of its declaration. -/
def referredMethod : SymbolGraph :=
  (((({} : SymbolGraph).addSymbol (Fixture.method 0 0)).addReference (Fixture.symbolId 0 0)
    (Fixture.documentId 0 1) ⟨40, 48⟩).addReference (Fixture.symbolId 0 0) (Fixture.documentId 0 1)
      ⟨40, 48⟩).addReference (Fixture.symbolId 0 0) (Fixture.documentId 0 0) ⟨0, 8⟩

/-- A search for the method at ranges that overlap, in documents that are given more than once. -/
theorem search_reports_occurrences_of_referredMethod :
    referredMethod.Built ∧ (Fixture.mk 1 2 0 0).solution.Filed ∧
      referredMethod.toSource.symbol? (Fixture.symbolId 0 0) = some (Fixture.method 0 0) ∧
      let scope : SearchScope := .spans [⟨Fixture.documentId 0 1, ⟨0, 41⟩⟩,
        ⟨Fixture.documentId 0 0, ⟨4, 60⟩⟩, ⟨Fixture.documentId 0 1, ⟨40, 60⟩⟩]
      ReportsOccurrences referredMethod.toSource (Fixture.mk 1 2 0 0).solution scope
        (cascade referredMethod.toSource (Fixture.method 0 0) {} scope.restriction)
        (search referredMethod.toSource {} (Fixture.mk 1 2 0 0).solution scope (Fixture.symbolId 0 0)
          none) := by
  have hbuilt : referredMethod.Built :=
    .reference _ _ _ (.reference _ _ _ (.reference _ _ _ (.symbol _ .empty)))
  have hfiled : (Fixture.mk 1 2 0 0).solution.Filed := by decide
  have hstart : referredMethod.toSource.symbol? (Fixture.symbolId 0 0) = some (Fixture.method 0 0) :=
    Std.HashMap.getElem?_insert_self
  exact ⟨hbuilt, hfiled, hstart, search_reports_occurrences hbuilt hfiled hstart {} _⟩

end Engine

end SolutionWatch
