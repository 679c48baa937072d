import SolutionWatch.Proofs.Search.Stream

/-!
# What a cascade in one direction can list

A cascade in one direction lists the start, then symbols that lie above it, and symbols that lie below
it. Each of them is the end of a path whose steps all go the same way, and a path down stays within the
documents of the search if there are any (`cascade_within`).

The walk keeps up and down in one queue and one list of visited symbols, so what is carried through it
is a path for each entry of the queue: an entry that goes up is the end of a path up, one that goes down
is the end of a path down, and only the start may go both ways (`Cascade.Warranted`). Every symbol that
an entry discovers extends the entry's path by one step (`Cascade.Warranted.discovers`). No symbol is
listed twice because a discovered symbol has not been visited and counts as visited from then on
(`Cascade.nodup_discover`).
-/

namespace SolutionWatch

/-- The symbol is declared in one of the documents, if there is a restriction to any. -/
def SymbolInfo.DeclaredIn (documents : Option (List DocumentId)) (symbol : SymbolInfo) : Prop :=
  ∀ ids, documents = some ids → symbol.declaration ∈ ids

namespace SymbolSource

/-- A step up leads to what a symbol overrides or implements. -/
def StepsUp (source : SymbolSource) (a b : SymbolId) : Prop :=
  b ∈ source.overrides a ∨ b ∈ source.implements a

/-- A step down leads to what overrides or implements a symbol. -/
def StepsDown (source : SymbolSource) (a b : SymbolId) : Prop :=
  b ∈ source.overriddenBy a ∨ b ∈ source.implementedBy a

/-- The symbol is the end of a path of one or more steps from `start`, each of them to a known symbol
that may be entered. -/
inductive Reaches (source : SymbolSource) (step : SymbolId → SymbolId → Prop)
    (enters : SymbolInfo → Prop) (start : SymbolId) : SymbolInfo → Prop
  /-- One step leads there. -/
  | first {id : SymbolId} {symbol : SymbolInfo} : step start id → source.symbol? id = some symbol →
      enters symbol → Reaches source step enters start symbol
  /-- One more step leads there. -/
  | next {id : SymbolId} {middle symbol : SymbolInfo} : Reaches source step enters start middle →
      step middle.id id → source.symbol? id = some symbol → enters symbol →
      Reaches source step enters start symbol

/-- The symbol lies above `start`: a path of steps up leads to it. -/
def Ascends (source : SymbolSource) (start : SymbolId) (symbol : SymbolInfo) : Prop :=
  source.Reaches source.StepsUp (fun _ => True) start symbol

/-- The symbol lies below `start`: a path of steps down leads to it, and every symbol on the path is
declared in the documents. -/
def Descends (source : SymbolSource) (documents : Option (List DocumentId)) (start : SymbolId)
    (symbol : SymbolInfo) : Prop :=
  source.Reaches source.StepsDown (SymbolInfo.DeclaredIn documents) start symbol

/-- The end of a path may be entered. -/
theorem Reaches.enters {source : SymbolSource} {step : SymbolId → SymbolId → Prop}
    {enters : SymbolInfo → Prop} {start : SymbolId} {symbol : SymbolInfo}
    (h : source.Reaches step enters start symbol) : enters symbol := by
  cases h with
  | first _ _ henters => exact henters
  | next _ _ _ henters => exact henters

end SymbolSource

namespace Cascade

variable {source : SymbolSource} {direction : CascadeDirection}
  {documents : Option (List DocumentId)} {visited : List SymbolId} {start : SymbolId}

/-! ## One step of the walk -/

/-- The steps up lead to what a symbol overrides or implements. -/
theorem mem_above_iff {a b : SymbolId} : b ∈ above source a ↔ source.StepsUp a b :=
  List.mem_append

/-- The steps down lead to what overrides or implements a symbol. -/
theorem mem_below_iff {a b : SymbolId} : b ∈ below source a ↔ source.StepsDown a b :=
  List.mem_append

/-- In one direction a step up goes on up and a step down goes on down. -/
theorem mem_steps {id next : SymbolId} {walk after : Walk}
    (h : (next, after) ∈ steps source .unidirectional id walk) :
    (after = .up ∧ walk.goesUp = true ∧ source.StepsUp id next) ∨
      (after = .down ∧ walk.goesDown = true ∧ source.StepsDown id next) := by
  simp only [steps, if_true, List.mem_append] at h
  rcases h with h | h
  · split at h
    · next hup =>
      obtain ⟨b, hb, heq⟩ := List.mem_map.mp h
      obtain ⟨rfl, rfl⟩ := Prod.mk.inj heq
      exact .inl ⟨rfl, hup, mem_above_iff.mp hb⟩
    · contradiction
  · split at h
    · next hdown =>
      obtain ⟨b, hb, heq⟩ := List.mem_map.mp h
      obtain ⟨rfl, rfl⟩ := Prod.mk.inj heq
      exact .inr ⟨rfl, hdown, mem_below_iff.mp hb⟩
    · contradiction

/-- A walk down enters symbols that are declared in the documents. -/
theorem declaredIn_of_admits {symbol : SymbolInfo} (h : admits documents symbol .down = true) :
    symbol.DeclaredIn documents := by
  rintro ids rfl
  exact List.contains_iff_mem.mp h

/-- A discovered symbol was stepped to, may be entered, and had not been visited. -/
theorem of_mem_discover {next : List (SymbolId × Walk)} {f : SymbolId × SymbolInfo × Walk}
    (h : f ∈ discover source documents visited next) :
    (f.1, f.2.2) ∈ next ∧ admits documents f.2.1 f.2.2 = true ∧ f.1 ∉ visited := by
  fun_induction discover source documents visited next with
  | case1 => contradiction
  | case2 _ _ _ _ _ ih | case3 _ _ _ _ _ _ ih | case5 _ _ _ _ _ _ _ _ ih =>
    obtain ⟨hnext, hadmits, hv⟩ := ih h
    exact ⟨List.mem_cons_of_mem _ hnext, hadmits, hv⟩
  | case4 visited id walk more hfresh symbol _ hadmitted ih =>
    rcases List.mem_cons.mp h with rfl | h
    · exact ⟨List.mem_cons_self, hadmitted, hfresh⟩
    · obtain ⟨hnext, hadmits, hv⟩ := ih h
      exact ⟨List.mem_cons_of_mem _ hnext, hadmits, fun hvisited =>
        hv (List.mem_cons_of_mem _ hvisited)⟩

/-- No symbol is discovered twice. -/
theorem nodup_discover (visited : List SymbolId) (next : List (SymbolId × Walk)) :
    ((discover source documents visited next).map Prod.fst).Nodup := by
  fun_induction discover source documents visited next with
  | case1 => exact List.nodup_nil
  | case2 _ _ _ _ _ ih | case3 _ _ _ _ _ _ ih | case5 _ _ _ _ _ _ _ _ ih => exact ih
  | case4 visited id walk more _ symbol _ _ ih =>
    refine List.nodup_cons.mpr ⟨fun hmem => ?_, ih⟩
    -- What is discovered later had not been visited when this symbol had been.
    obtain ⟨f, hf, hid⟩ := List.mem_map.mp hmem
    exact (of_mem_discover hf).2.2 (hid ▸ List.mem_cons_self)

/-- An entry of the queue has a path to it that goes its way. -/
def Warranted (source : SymbolSource) (documents : Option (List DocumentId)) (start : SymbolId)
    (id : SymbolId) : Walk → Prop
  | .both => id = start
  | .up => ∃ symbol, symbol.id = id ∧ source.Ascends start symbol
  | .down => ∃ symbol, symbol.id = id ∧ source.Descends documents start symbol

/-- A step up from an entry of the queue that may go up continues a path up. -/
theorem Warranted.ascends {id next : SymbolId} {walk : Walk} {symbol : SymbolInfo}
    (h : Warranted source documents start id walk) (hup : walk.goesUp = true)
    (hstep : source.StepsUp id next) (hsymbol : source.symbol? next = some symbol) :
    source.Ascends start symbol := by
  cases walk with
  | both =>
    obtain rfl : id = start := h
    exact .first hstep hsymbol trivial
  | up =>
    obtain ⟨middle, rfl, hpath⟩ := h
    exact .next hpath hstep hsymbol trivial
  | down => contradiction

/-- A step down from an entry of the queue that may go down continues a path down. -/
theorem Warranted.descends {id next : SymbolId} {walk : Walk} {symbol : SymbolInfo}
    (h : Warranted source documents start id walk) (hdown : walk.goesDown = true)
    (hstep : source.StepsDown id next) (hsymbol : source.symbol? next = some symbol)
    (hdeclared : symbol.DeclaredIn documents) : source.Descends documents start symbol := by
  cases walk with
  | both =>
    obtain rfl : id = start := h
    exact .first hstep hsymbol hdeclared
  | up => contradiction
  | down =>
    obtain ⟨middle, rfl, hpath⟩ := h
    exact .next hpath hstep hsymbol hdeclared

/-- What an entry of the queue discovers lies above the start or below it, and may be put in the
queue. -/
theorem Warranted.discovers (hsource : source.Keyed) {id : SymbolId} {walk : Walk}
    (h : Warranted source documents start id walk) {f : SymbolId × SymbolInfo × Walk}
    (hf : f ∈ discover source documents visited (steps source .unidirectional id walk)) :
    (source.Ascends start f.2.1 ∨ source.Descends documents start f.2.1) ∧
      Warranted source documents start f.1 f.2.2 := by
  obtain ⟨next, symbol, after⟩ := f
  have hsymbol : source.symbol? next = some symbol := symbol?_of_mem_discover hf
  have hid : symbol.id = next := hsource next symbol hsymbol
  obtain ⟨hnext, hadmits, -⟩ := of_mem_discover hf
  rcases mem_steps hnext with ⟨rfl, hup, hstep⟩ | ⟨rfl, hdown, hstep⟩
  · have hpath := h.ascends hup hstep hsymbol
    exact ⟨.inl hpath, symbol, hid, hpath⟩
  · have hpath := h.descends hdown hstep hsymbol (declaredIn_of_admits hadmits)
    exact ⟨.inr hpath, symbol, hid, hpath⟩

/-! ## The whole walk -/

/-- Every symbol that is explored from entries with paths lies above the start or below it. -/
theorem reached_of_mem_explore (hsource : source.Keyed) {queue : List (SymbolId × Walk)}
    (hqueue : ∀ entry ∈ queue, Warranted source documents start entry.1 entry.2)
    {symbol : SymbolInfo} (h : symbol ∈ explore source .unidirectional documents visited queue) :
    source.Ascends start symbol ∨ source.Descends documents start symbol := by
  fun_induction explore source .unidirectional documents visited queue with
  | case1 => contradiction
  | case2 visited id walk rest found ih =>
    have hentry : Warranted source documents start id walk := hqueue _ List.mem_cons_self
    rcases List.mem_append.mp h with h | h
    · obtain ⟨f, hf, rfl⟩ := List.mem_map.mp h
      exact (hentry.discovers hsource hf).1
    · refine ih (fun entry hmem => ?_) h
      rcases List.mem_append.mp hmem with hmem | hmem
      · exact hqueue entry (List.mem_cons_of_mem _ hmem)
      · obtain ⟨f, hf, rfl⟩ := List.mem_map.mp hmem
        exact (hentry.discovers hsource hf).2

/-- The symbols that are explored are distinct and were not visited before. -/
theorem nodup_explore (hsource : source.Keyed) (visited : List SymbolId)
    (queue : List (SymbolId × Walk)) :
    ((explore source direction documents visited queue).map SymbolInfo.id).Nodup ∧
      ∀ symbol ∈ explore source direction documents visited queue, symbol.id ∉ visited := by
  fun_induction explore source direction documents visited queue with
  | case1 => exact ⟨List.nodup_nil, fun _ h => absurd h List.not_mem_nil⟩
  | case2 visited id walk rest found ih =>
    obtain ⟨hlater, hfresh⟩ := ih
    have hids : (found.map fun f => f.2.1).map SymbolInfo.id = found.map Prod.fst :=
      ids_discover hsource visited _
    refine ⟨?_, fun symbol h => ?_⟩
    · rw [List.map_append, hids, List.nodup_append]
      refine ⟨nodup_discover visited _, hlater, fun a ha b hb hab => ?_⟩
      -- What is explored later was not visited, and what was just discovered was.
      obtain ⟨symbol, hsymbol, rfl⟩ := List.mem_map.mp hb
      exact hfresh symbol hsymbol (List.mem_append_left _ (List.mem_reverse.mpr (hab ▸ ha)))
    · rcases List.mem_append.mp h with h | h
      · obtain ⟨f, hf, rfl⟩ := List.mem_map.mp h
        rw [hsource f.1 f.2.1 (symbol?_of_mem_discover hf)]
        exact (of_mem_discover hf).2.2
      · exact fun hvisited => hfresh symbol h (List.mem_append_right _ hvisited)

end Cascade

/-- A cascade lists the start, and after it what is explored from there. -/
theorem cascade_cases (source : SymbolSource) (start : SymbolInfo) (options : SearchOptions)
    (documents : Option (List DocumentId)) :
    cascade source start options documents = [start] ∨
      cascade source start options documents = start ::
        Cascade.explore source options.direction documents [start.id] [(start.id, .both)] := by
  unfold cascade
  split
  · exact .inr rfl
  · exact .inl rfl

/-- No symbol of a cascade is listed twice. -/
theorem nodup_ids_cascade {source : SymbolSource} (hsource : source.Keyed) (start : SymbolInfo)
    (options : SearchOptions) (documents : Option (List DocumentId)) :
    ((cascade source start options documents).map SymbolInfo.id).Nodup := by
  rcases cascade_cases source start options documents with hlisted | hlisted
  · rw [hlisted]
    exact List.nodup_cons.mpr ⟨List.not_mem_nil, List.nodup_nil⟩
  · rw [hlisted, List.map_cons, List.nodup_cons]
    refine ⟨fun hin => ?_, (Cascade.nodup_explore hsource _ _).1⟩
    obtain ⟨symbol, hsymbol, hid⟩ := List.mem_map.mp hin
    exact (Cascade.nodup_explore hsource _ _).2 symbol hsymbol (List.mem_singleton.mpr hid)

/-- A cascade in one direction is bounded. It lists the start first and no symbol twice. Every other
symbol lies above the start, or it lies below the start on a path within the documents of the search. So
a symbol declared elsewhere is listed only if it lies above the start. -/
theorem cascade_within (graph : SymbolGraph) (broken : SymbolId → Bool) (start : SymbolInfo)
    (options : SearchOptions) (documents : Option (List DocumentId)) :
    let source := graph.toSource broken
    let listed := cascade source start options.unidirectional documents
    listed.head? = some start ∧ (listed.map SymbolInfo.id).Nodup ∧
      (∀ symbol ∈ listed, symbol = start ∨ source.Ascends start.id symbol ∨
        source.Descends documents start.id symbol) ∧
      ∀ symbol ∈ listed, symbol ≠ start → ¬symbol.DeclaredIn documents →
        source.Ascends start.id symbol := by
  intro source listed
  have hsource : source.Keyed := graph.keyed_toSource broken
  have hlisted : listed = [start] ∨ listed = start ::
      Cascade.explore source .unidirectional documents [start.id] [(start.id, .both)] :=
    cascade_cases source start options.unidirectional documents
  clear_value listed
  have hbound : ∀ symbol ∈ listed, symbol = start ∨ source.Ascends start.id symbol ∨
      source.Descends documents start.id symbol := by
    intro symbol hsymbol
    rcases hlisted with rfl | rfl
    · exact .inl (List.mem_singleton.mp hsymbol)
    · rcases List.mem_cons.mp hsymbol with rfl | hsymbol
      · exact .inl rfl
      · refine .inr (Cascade.reached_of_mem_explore hsource (fun entry hentry => ?_) hsymbol)
        rw [List.mem_singleton.mp hentry]
        rfl
  refine ⟨?_, ?_, hbound, fun symbol hsymbol hne hdeclared => ?_⟩
  · rcases hlisted with rfl | rfl <;> rfl
  · rcases hlisted with rfl | rfl
    · exact List.pairwise_singleton _ _
    · obtain ⟨hnodup, hfresh⟩ := Cascade.nodup_explore hsource [start.id] [(start.id, .both)]
      refine List.nodup_cons.mpr ⟨fun hmem => ?_, hnodup⟩
      obtain ⟨symbol, hsymbol, hid⟩ := List.mem_map.mp hmem
      exact hfresh symbol hsymbol (hid ▸ List.mem_cons_self)
  · rcases hbound symbol hsymbol with heq | hup | hdown
    · exact absurd heq hne
    · exact hup
    · exact absurd hdown.enters hdeclared

end SolutionWatch
