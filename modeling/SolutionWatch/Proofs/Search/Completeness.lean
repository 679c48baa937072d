import SolutionWatch.Fixture
import SolutionWatch.Proofs.Search.Cascade

/-!
# What a cascade in one direction leaves out

A cascade in one direction walks up and down with one list of visited symbols, and a symbol that was met
on the way up is not walked through again on the way down. So a symbol that lies above the start is
listed, or it lies above a symbol that can be reached both ways; and so it is with what lies below the
start (`cascade_lists_unless_crossed`). If no symbol but the start can be reached both ways, the list is
complete. In a cycle there are such symbols, and what lies behind them can be left out
(`cascade_misses_behind_crossing`).

The walk is accounted for by the list of all entries that its queue ever holds (`Cascade.Accounts`):
every listed symbol has an entry, and a symbol that an entry may step to is listed.
-/

namespace SolutionWatch

namespace SymbolSource

variable {source : SymbolSource} {step : SymbolId → SymbolId → Prop} {enters : SymbolInfo → Prop}
  {start : SymbolId} {symbol : SymbolInfo}

/-- The symbol can be reached both ways: it lies above the start and below it. -/
def Crosses (source : SymbolSource) (documents : Option (List DocumentId)) (start : SymbolId)
    (symbol : SymbolInfo) : Prop :=
  source.Ascends start symbol ∧ source.Descends documents start symbol

/-- Steps that stay among the listed symbols, unless a symbol is blocked, lead to a listed symbol or past
a blocked one. -/
theorem Reaches.listed_or_behind (hsource : source.Keyed) {listed : List SymbolId}
    {blocked : SymbolInfo → Prop}
    (hstart : ∀ id symbol, step start id → source.symbol? id = some symbol → enters symbol →
      id ∈ listed)
    (hnext : ∀ middle, source.Reaches step enters start middle → middle.id ∈ listed →
      blocked middle ∨ ∀ id symbol, step middle.id id → source.symbol? id = some symbol →
        enters symbol → id ∈ listed)
    (h : source.Reaches step enters start symbol) :
    symbol.id ∈ listed ∨ ∃ middle : SymbolInfo, middle.id ∈ listed ∧ blocked middle ∧
      source.Reaches step enters middle.id symbol := by
  induction h with
  | @first id symbol hstep hsymbol henters =>
    exact .inl (hsource id symbol hsymbol ▸ hstart id symbol hstep hsymbol henters)
  | @next id middle symbol hpath hstep hsymbol henters ih =>
    rcases ih with hlisted | ⟨crossing, hlisted, hblocked, hrest⟩
    · rcases hnext middle hpath hlisted with hblocked | hsteps
      · exact .inr ⟨middle, hlisted, hblocked, .first hstep hsymbol henters⟩
      · exact .inl (hsource id symbol hsymbol ▸ hsteps id symbol hstep hsymbol henters)
    · exact .inr ⟨crossing, hlisted, hblocked, .next hrest hstep hsymbol henters⟩

/-- The end of a path is known under its own identity. -/
theorem Reaches.symbol?_eq (hsource : source.Keyed) (h : source.Reaches step enters start symbol) :
    source.symbol? symbol.id = some symbol := by
  cases h with
  | first _ hsymbol | next _ _ hsymbol =>
    rw [hsource _ symbol hsymbol]
    exact hsymbol

/-- The ends of two paths are the same symbol if they have the same identity. -/
theorem Reaches.eq_of_id (hsource : source.Keyed) {other : SymbolInfo}
    {step' : SymbolId → SymbolId → Prop} {enters' : SymbolInfo → Prop}
    (h : source.Reaches step enters start symbol) (h' : source.Reaches step' enters' start other)
    (hid : other.id = symbol.id) : other = symbol := by
  have hother := h'.symbol?_eq hsource
  rw [hid, h.symbol?_eq hsource, Option.some.injEq] at hother
  exact hother.symm

end SymbolSource

namespace Cascade

variable {source : SymbolSource} {documents : Option (List DocumentId)} {visited : List SymbolId}
  {start : SymbolId}

/-! ## One step of the walk -/

/-- A walk that may go up steps to what lies one step above. -/
theorem mem_steps_up {id next : SymbolId} {walk : Walk} (hup : walk.goesUp = true)
    (h : source.StepsUp id next) : (next, Walk.up) ∈ steps source .unidirectional id walk := by
  simp only [steps, if_true, hup]
  exact List.mem_append_left _ (List.mem_map.mpr ⟨next, mem_above_iff.mpr h, rfl⟩)

/-- A walk that may go down steps to what lies one step below. -/
theorem mem_steps_down {id next : SymbolId} {walk : Walk} (hdown : walk.goesDown = true)
    (h : source.StepsDown id next) : (next, Walk.down) ∈ steps source .unidirectional id walk := by
  simp only [steps, if_true, hdown]
  exact List.mem_append_right _ (List.mem_map.mpr ⟨next, mem_below_iff.mpr h, rfl⟩)

/-- A step that goes on down was a step down. -/
theorem stepsDown_of_mem_steps {id next : SymbolId} {walk : Walk}
    (h : (next, Walk.down) ∈ steps source .unidirectional id walk) : source.StepsDown id next := by
  rcases mem_steps h with ⟨hwalk, -⟩ | ⟨-, -, hstep⟩
  · contradiction
  · exact hstep

/-- A walk down enters every symbol that is declared in the documents. -/
theorem admits_of_declaredIn {symbol : SymbolInfo} (h : symbol.DeclaredIn documents) :
    admits documents symbol .down = true := by
  cases documents with
  | none => rfl
  | some ids => exact List.contains_iff_mem.mpr (h ids rfl)

/-- A known symbol that a step leads to and may enter is visited after the step. -/
theorem visited_of_mem_next {next : List (SymbolId × Walk)} {id : SymbolId} {walk : Walk}
    (hnext : (id, walk) ∈ next) {symbol : SymbolInfo} (hsymbol : source.symbol? id = some symbol)
    (hadmits : admits documents symbol walk = true) :
    id ∈ visited ∨ id ∈ (discover source documents visited next).map Prod.fst := by
  fun_induction discover source documents visited next with
  | case1 => contradiction
  | case2 visited first _ more hvisited ih =>
    rcases List.mem_cons.mp hnext with heq | hmore
    · obtain ⟨rfl, rfl⟩ := Prod.mk.inj heq
      exact .inl hvisited
    · exact ih hmore
  | case3 visited first _ more _ hunknown ih =>
    rcases List.mem_cons.mp hnext with heq | hmore
    · obtain ⟨rfl, rfl⟩ := Prod.mk.inj heq
      rw [hunknown] at hsymbol
      contradiction
    · exact ih hmore
  | case4 visited first _ more _ _ _ _ ih =>
    rw [List.map_cons, List.mem_cons]
    rcases List.mem_cons.mp hnext with heq | hmore
    · exact .inr (.inl (Prod.mk.inj heq).1)
    · rcases ih hmore with hvisited | hlater
      · exact (List.mem_cons.mp hvisited).elim (fun heq => .inr (.inl heq)) .inl
      · exact .inr (.inr hlater)
  | case5 visited first _ more _ found hfound hkeptOut ih =>
    rcases List.mem_cons.mp hnext with heq | hmore
    · obtain ⟨rfl, rfl⟩ := Prod.mk.inj heq
      rw [hfound, Option.some.injEq] at hsymbol
      exact absurd (hsymbol ▸ hadmits) hkeptOut
    · exact ih hmore

/-! ## The whole walk -/

/-- The entries that a walk is done with and those in its queue account for the symbols that it visited:
each entry has a path, each visited symbol has an entry, and a symbol that an entry could step to is
visited once the walk is done with the entry. -/
structure Accounts (source : SymbolSource) (documents : Option (List DocumentId)) (start : SymbolId)
    (done queue : List (SymbolId × Walk)) (visited : List SymbolId) : Prop where
  /-- An entry has a path to it that goes its way. -/
  warranted : ∀ entry ∈ done ++ queue, Warranted source documents start entry.1 entry.2
  /-- A visited symbol has an entry. -/
  entered : ∀ id ∈ visited, ∃ walk, (id, walk) ∈ done ++ queue
  /-- A known symbol that an entry could step to and enter is visited. -/
  stepped : ∀ entry ∈ done, ∀ next after,
    (next, after) ∈ steps source .unidirectional entry.1 entry.2 →
      ∀ symbol, source.symbol? next = some symbol → admits documents symbol after = true →
        next ∈ visited

/-- At first only the start is visited, and its entry is in the queue. -/
theorem Accounts.initial (source : SymbolSource) (documents : Option (List DocumentId))
    (start : SymbolId) : Accounts source documents start [] [(start, .both)] [start] where
  warranted entry hentry := by
    rw [List.mem_singleton.mp hentry]
    rfl
  entered id hid := by
    rw [List.mem_singleton.mp hid]
    exact ⟨.both, List.mem_cons_self⟩
  stepped _ hentry := absurd hentry List.not_mem_nil

/-- Taking the first entry from the queue and putting what it discovers at the end keeps the account. -/
theorem Accounts.step (hsource : source.Keyed) {done rest : List (SymbolId × Walk)} {id : SymbolId}
    {walk : Walk} (h : Accounts source documents start done ((id, walk) :: rest) visited) :
    let found := discover source documents visited (steps source .unidirectional id walk)
    Accounts source documents start (done ++ [(id, walk)]) (rest ++ found.map fun f => (f.1, f.2.2))
      ((found.map Prod.fst).reverse ++ visited) := by
  intro found
  have hentry : Warranted source documents start id walk :=
    h.warranted _ (List.mem_append_right _ List.mem_cons_self)
  -- The entries are the old ones and those of the discovered symbols.
  have hmem : ∀ entry, entry ∈ (done ++ [(id, walk)]) ++ (rest ++ found.map fun f => (f.1, f.2.2)) ↔
      entry ∈ done ++ (id, walk) :: rest ∨ ∃ f ∈ found, (f.1, f.2.2) = entry := by
    intro entry
    simp only [List.mem_append, List.mem_cons, List.mem_map, List.not_mem_nil, or_false, or_assoc]
  refine ⟨fun entry hin => ?_, fun other hother => ?_, fun entry hin next after hnext symbol hsymbol
    hadmits => ?_⟩
  · rcases (hmem entry).mp hin with hold | ⟨f, hf, rfl⟩
    · exact h.warranted entry hold
    · exact (hentry.discovers hsource hf).2
  · rcases List.mem_append.mp hother with hnew | hold
    · obtain ⟨f, hf, rfl⟩ := List.mem_map.mp (List.mem_reverse.mp hnew)
      exact ⟨f.2.2, (hmem _).mpr (.inr ⟨f, hf, rfl⟩)⟩
    · obtain ⟨walk', hwalk'⟩ := h.entered other hold
      exact ⟨walk', (hmem _).mpr (.inl hwalk')⟩
  · rcases List.mem_append.mp hin with hdone | hfirst
    · exact List.mem_append_right _ (h.stepped entry hdone next after hnext symbol hsymbol hadmits)
    · rw [List.mem_singleton.mp hfirst] at hnext
      rcases visited_of_mem_next hnext hsymbol hadmits with hvisited | hfound
      · exact List.mem_append_right _ hvisited
      · exact List.mem_append_left _ (List.mem_reverse.mpr hfound)

/-- When the queue is empty, the walk is done with entries that account for everything that it visited
and explored. -/
theorem exists_accounts (hsource : source.Keyed) (visited : List SymbolId)
    (queue : List (SymbolId × Walk)) :
    ∀ done, Accounts source documents start done queue visited →
      ∃ entries listed, done ++ queue ⊆ entries ∧
        Accounts source documents start entries [] listed ∧
        ∀ id, id ∈ listed ↔ id ∈ visited ∨
          id ∈ (explore source .unidirectional documents visited queue).map SymbolInfo.id := by
  fun_induction explore source .unidirectional documents visited queue with
  | case1 visited =>
    exact fun done h => ⟨done, visited, by simp, h, fun id => by simp⟩
  | case2 visited id walk rest found ih =>
    intro done h
    obtain ⟨entries, listed, hsubset, haccounts, hlisted⟩ := ih _ (h.step hsource)
    have hids : (found.map fun f => f.2.1).map SymbolInfo.id = found.map Prod.fst :=
      ids_discover hsource visited _
    refine ⟨entries, listed, fun entry hentry => hsubset ?_, haccounts, fun other => ?_⟩
    · simp only [List.mem_append, List.mem_cons, List.not_mem_nil, or_false, or_assoc] at hentry ⊢
      exact hentry.imp_right (Or.imp_right .inl)
    · rw [hlisted other, List.map_append, hids, List.mem_append, List.mem_append, List.mem_reverse,
        or_comm (a := other ∈ found.map Prod.fst), or_assoc]

/-- Where every entry that goes one way steps that way, the end of a path that goes this way is listed, or
it lies behind a blocked symbol: a listed one, other than the start, whose entry does not go this way. -/
theorem Accounts.listed_or_behind (hsource : source.Keyed) {entries : List (SymbolId × Walk)}
    {listed : List SymbolId} (h : Accounts source documents start entries [] listed)
    (hstart : (start, Walk.both) ∈ entries) {step : SymbolId → SymbolId → Prop}
    {enters blocked : SymbolInfo → Prop} {goes : Walk → Bool} (hboth : goes .both = true)
    (hstep : ∀ id walk, (id, walk) ∈ entries → goes walk = true → ∀ next found, step id next →
      source.symbol? next = some found → enters found → next ∈ listed)
    (hblocked : ∀ middle walk, source.Reaches step enters start middle →
      Warranted source documents start middle.id walk → goes walk = false → blocked middle)
    (symbol : SymbolInfo) (hpath : source.Reaches step enters start symbol) :
    symbol.id ∈ listed ∨ ∃ crossing : SymbolInfo, crossing.id ∈ listed ∧
      (crossing.id ≠ start ∧ blocked crossing) ∧
      source.Reaches step enters crossing.id symbol := by
  have hfromStart := hstep start .both hstart hboth
  refine hpath.listed_or_behind hsource hfromStart fun middle hmiddle hlisted => ?_
  by_cases hback : middle.id = start
  · exact .inr (hback ▸ hfromStart)
  · obtain ⟨walk, hentry⟩ := h.entered middle.id hlisted
    cases hgoes : goes walk with
    | true => exact .inr (hstep middle.id walk (List.append_nil entries ▸ hentry) hgoes)
    | false => exact .inl ⟨hback, hblocked middle walk hmiddle (h.warranted _ hentry) hgoes⟩

/-- What lies above the start is listed, or it lies above a listed symbol, other than the start, that can
be reached both ways. -/
theorem Accounts.listed_of_ascends (hsource : source.Keyed) {entries : List (SymbolId × Walk)}
    {listed : List SymbolId} (h : Accounts source documents start entries [] listed)
    (hstart : (start, Walk.both) ∈ entries) :
    ∀ symbol, source.Ascends start symbol → symbol.id ∈ listed ∨
      ∃ crossing : SymbolInfo, crossing.id ∈ listed ∧
        (crossing.id ≠ start ∧ source.Crosses documents start crossing) ∧
        source.Ascends crossing.id symbol := by
  have hboth : Walk.goesUp .both = true := rfl
  refine h.listed_or_behind hsource hstart hboth
    (fun id walk hentry hup next found hstep hfound _ => ?_) fun middle walk hmiddle hwalk hgoes => ?_
  · exact h.stepped _ hentry next .up (mem_steps_up hup hstep) found hfound (by simp [admits])
  · -- An entry that does not go up has a path down.
    cases walk with
    | both | up => contradiction
    | down =>
      obtain ⟨other, hid, hdown⟩ := hwalk
      exact ⟨hmiddle, hmiddle.eq_of_id hsource hdown hid ▸ hdown⟩

/-- What lies below the start is listed, or it lies below a listed symbol, other than the start, that can
be reached both ways. -/
theorem Accounts.listed_of_descends (hsource : source.Keyed) {entries : List (SymbolId × Walk)}
    {listed : List SymbolId} (h : Accounts source documents start entries [] listed)
    (hstart : (start, Walk.both) ∈ entries) :
    ∀ symbol, source.Descends documents start symbol → symbol.id ∈ listed ∨
      ∃ crossing : SymbolInfo, crossing.id ∈ listed ∧
        (crossing.id ≠ start ∧ source.Crosses documents start crossing) ∧
        source.Descends documents crossing.id symbol := by
  have hboth : Walk.goesDown .both = true := rfl
  refine h.listed_or_behind hsource hstart hboth
    (fun id walk hentry hdown next found hstep hfound hdeclared => ?_)
    fun middle walk hmiddle hwalk hgoes => ?_
  · exact h.stepped _ hentry next .down (mem_steps_down hdown hstep) found hfound
      (admits_of_declaredIn hdeclared)
  · cases walk with
    | both | down => contradiction
    | up =>
      obtain ⟨other, hid, hup⟩ := hwalk
      exact ⟨hmiddle.eq_of_id hsource hup hid ▸ hup, hmiddle⟩

end Cascade

/-- A cascade in one direction, in any graph. A symbol above the start is listed, or it lies above a
listed symbol, other than the start, that can be reached both ways; and so it is with a symbol below the
start. If no symbol but the start can be reached both ways, the cascade lists the start, what lies above
it and what lies below it, and nothing else. -/
theorem cascade_lists_unless_crossed (graph : SymbolGraph) (broken : SymbolId → Bool)
    (start : SymbolInfo) (documents : Option (List DocumentId)) :
    let source := graph.toSource broken
    let listed := cascade source start (SearchOptions.unidirectional {}) documents
    (∀ symbol, source.Ascends start.id symbol → symbol.id ∈ listed.map SymbolInfo.id ∨
      ∃ crossing : SymbolInfo, crossing.id ∈ listed.map SymbolInfo.id ∧
        (crossing.id ≠ start.id ∧ source.Crosses documents start.id crossing) ∧
        source.Ascends crossing.id symbol) ∧
    (∀ symbol, source.Descends documents start.id symbol → symbol.id ∈ listed.map SymbolInfo.id ∨
      ∃ crossing : SymbolInfo, crossing.id ∈ listed.map SymbolInfo.id ∧
        (crossing.id ≠ start.id ∧ source.Crosses documents start.id crossing) ∧
        source.Descends documents crossing.id symbol) ∧
    ((∀ symbol, source.Crosses documents start.id symbol → symbol.id = start.id) →
      ∀ symbol, symbol.id ≠ start.id → (symbol ∈ listed ↔
        source.Ascends start.id symbol ∨ source.Descends documents start.id symbol)) := by
  intro source listed
  have hsource : source.Keyed := graph.keyed_toSource broken
  have hlisted : listed = start ::
      Cascade.explore source .unidirectional documents [start.id] [(start.id, .both)] := by
    simp only [listed, cascade, SearchOptions.unidirectional, if_true]
  obtain ⟨entries, ids, hsubset, haccounts, hids⟩ := Cascade.exists_accounts hsource [start.id]
    [(start.id, .both)] [] (Cascade.Accounts.initial source documents start.id)
  have hstart : (start.id, Cascade.Walk.both) ∈ entries := hsubset List.mem_cons_self
  have hmem : ∀ id, id ∈ ids ↔ id ∈ listed.map SymbolInfo.id := by
    intro id
    rw [hids id, hlisted, List.map_cons, List.mem_singleton, List.mem_cons]
  have hup := haccounts.listed_of_ascends hsource hstart
  have hdown := haccounts.listed_of_descends hsource hstart
  simp only [hmem] at hup hdown
  refine ⟨hup, hdown, fun hcrosses symbol hne => ?_⟩
  -- A symbol with the identity of a listed one is the listed one, as both are known.
  have hfound : symbol.id ∈ listed.map SymbolInfo.id → source.symbol? symbol.id = some symbol →
      symbol ∈ listed := by
    intro hin hknown
    obtain ⟨other, hother, hid⟩ := List.mem_map.mp hin
    rw [hlisted] at hother ⊢
    rcases List.mem_cons.mp hother with rfl | hother
    · exact absurd hid.symm hne
    · obtain ⟨key, hkey⟩ := Cascade.symbol?_of_mem_explore hother
      rw [← hsource key other hkey, hid, hknown, Option.some.injEq] at hkey
      exact List.mem_cons_of_mem _ (hkey ▸ hother)
  constructor
  · intro hin
    rw [hlisted] at hin
    rcases List.mem_cons.mp hin with rfl | hin
    · exact absurd rfl hne
    · refine Cascade.reached_of_mem_explore hsource (fun entry hentry => ?_) hin
      rw [List.mem_singleton.mp hentry]
      rfl
  · rintro (h | h)
    · refine hfound ((hup symbol h).resolve_right ?_) (h.symbol?_eq hsource)
      rintro ⟨crossing, -, ⟨hne, hboth⟩, -⟩
      exact hne (hcrosses crossing hboth)
    · refine hfound ((hdown symbol h).resolve_right ?_) (h.symbol?_eq hsource)
      rintro ⟨crossing, -, ⟨hne, hboth⟩, -⟩
      exact hne (hcrosses crossing hboth)

/-- Three methods in a circle of two and one behind it: the first and the second override each other, and
the third overrides the second. -/
def circleOfTwo : SymbolGraph :=
  ((((({} : SymbolGraph).addSymbol (Fixture.method 0 0)).addSymbol (Fixture.method 0 1)).addSymbol
    (Fixture.method 0 2)).addOverride (Fixture.symbolId 0 0) (Fixture.symbolId 0 1)
      |>.addOverride (Fixture.symbolId 0 1) (Fixture.symbolId 0 0)).addOverride
        (Fixture.symbolId 0 2) (Fixture.symbolId 0 1)

/-- The methods of the circle and the one behind it are three. -/
theorem symbolId_circleOfTwo : Fixture.symbolId 0 1 ≠ Fixture.symbolId 0 0 ∧
    Fixture.symbolId 0 2 ≠ Fixture.symbolId 0 0 ∧ Fixture.symbolId 0 2 ≠ Fixture.symbolId 0 1 := by
  decide

/-- The second and the third method are known. -/
theorem symbol?_circleOfTwo :
    circleOfTwo.toSource.symbol? (Fixture.symbolId 0 1) = some (Fixture.method 0 1) ∧
      circleOfTwo.toSource.symbol? (Fixture.symbolId 0 2) = some (Fixture.method 0 2) := by
  obtain ⟨h10, h20, h21⟩ := symbolId_circleOfTwo
  simp [circleOfTwo, SymbolGraph.toSource, SymbolGraph.addOverride, SymbolGraph.relate,
    SymbolGraph.addSymbol, Std.HashMap.getElem_insert, Std.HashMap.getD_insert, Fixture.method,
    h10, h21, h10.symm, h20.symm, h21.symm]

/-- One step leads from the first method to the second, up as well as down. From the second one, a walk up
goes back to the first one, and a walk down goes to the third one too. -/
theorem steps_circleOfTwo :
    Cascade.steps circleOfTwo.toSource .unidirectional (Fixture.symbolId 0 0) .both =
        [(Fixture.symbolId 0 1, .up), (Fixture.symbolId 0 1, .down)] ∧
      Cascade.steps circleOfTwo.toSource .unidirectional (Fixture.symbolId 0 1) .up =
        [(Fixture.symbolId 0 0, .up)] ∧
      Cascade.steps circleOfTwo.toSource .unidirectional (Fixture.symbolId 0 1) .down =
        [(Fixture.symbolId 0 0, .down), (Fixture.symbolId 0 2, .down)] := by
  obtain ⟨h10, h20, h21⟩ := symbolId_circleOfTwo
  simp [circleOfTwo, Cascade.steps, Cascade.above, Cascade.below, Cascade.Walk.goesUp,
    Cascade.Walk.goesDown, SymbolGraph.toSource, SymbolGraph.related, SymbolGraph.addOverride,
    SymbolGraph.relate, SymbolGraph.addSymbol, Std.HashMap.getD_insert, h10, h20, h21, h10.symm,
    h20.symm, h21.symm]

/-- The cascade from the first method of the circle meets the second one on the way up, and does not walk
through it on the way down. So it misses the third method, which lies below the first. -/
theorem cascade_misses_behind_crossing :
    circleOfTwo.toSource.Descends none (Fixture.method 0 0).id (Fixture.method 0 2) ∧
      Fixture.method 0 2 ∉
        cascade circleOfTwo.toSource (Fixture.method 0 0) (SearchOptions.unidirectional {}) none := by
  obtain ⟨hsecond, hthird⟩ := symbol?_circleOfTwo
  obtain ⟨hboth, hup, hdown⟩ := steps_circleOfTwo
  obtain ⟨h10, h20, h21⟩ := symbolId_circleOfTwo
  have hid : ∀ d, (Fixture.method 0 d).id = Fixture.symbolId 0 d := fun _ => rfl
  have hlisted : cascade circleOfTwo.toSource (Fixture.method 0 0) (SearchOptions.unidirectional {})
      none = [Fixture.method 0 0, Fixture.method 0 1] := by
    simp [cascade, SearchOptions.unidirectional, Cascade.explore, hid, hboth, hup, Cascade.discover,
      hsecond, h10, Cascade.admits]
  constructor
  · have hfirst : circleOfTwo.toSource.StepsDown (Fixture.symbolId 0 0) (Fixture.symbolId 0 1) :=
      Cascade.stepsDown_of_mem_steps (hboth ▸ List.mem_cons_of_mem _ List.mem_cons_self)
    have hnext : circleOfTwo.toSource.StepsDown (Fixture.symbolId 0 1) (Fixture.symbolId 0 2) :=
      Cascade.stepsDown_of_mem_steps (hdown ▸ List.mem_cons_of_mem _ List.mem_cons_self)
    exact .next (.first hfirst hsecond nofun) hnext hthird nofun
  · rw [hlisted]
    simp [Fixture.method, h20, h21]

end SolutionWatch
