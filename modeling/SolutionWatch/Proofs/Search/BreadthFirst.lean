import Mathlib.Data.List.Perm.Subperm
import Mathlib.Order.Lattice.Nat
import SolutionWatch.Proofs.Search.Completeness
import SolutionWatch.Proofs.Search.Direction

/-!
# A cascade in both directions goes breadth first

A cascade in both directions lists the start and every known symbol that steps of the four relationships
connect to it, nearer symbols before farther ones (`cascade_breadth_first`). A restriction to documents
makes no difference to it. The distance of a symbol is the least number of steps of a path from the start,
and a path leads through known symbols only, so a symbol behind one that is not known is not listed.

The queue is the frontier of the walk (`Cascade.Frontier`). Its entries are in order of their distances,
and no two distances in it are further apart than one step. A visited symbol that is not in the queue has
its known neighbours visited, so everything that is not farther than the first entry was visited
(`Cascade.Frontier.mem_visited`). What the first entry discovers was not, so it is exactly one step farther
(`Cascade.Frontier.distance_of_discovered`) and belongs at the end of the queue.
-/

namespace SolutionWatch

namespace SymbolSource

variable {source : SymbolSource} {start id : SymbolId} {n : ℕ}

/-- One of the four relationships leads from `a` to `b`. -/
def Relates (source : SymbolSource) (a b : SymbolId) : Prop :=
  source.StepsUp a b ∨ source.StepsDown a b

/-- A path of so many steps leads from `start` to a symbol, and each step leads to a known symbol. -/
inductive Leads (source : SymbolSource) (start : SymbolId) : ℕ → SymbolId → Prop
  /-- No step leads to the start. -/
  | start : Leads source start 0 start
  /-- One more step leads to a neighbour. -/
  | step {n : ℕ} {middle id : SymbolId} : Leads source start n middle → source.Relates middle id →
      (source.symbol? id).isSome = true → Leads source start (n + 1) id

/-- The symbol is known, and a path leads to it. -/
def Connects (source : SymbolSource) (start : SymbolId) (symbol : SymbolInfo) : Prop :=
  source.symbol? symbol.id = some symbol ∧ ∃ n, source.Leads start n symbol.id

/-- The least number of steps of a path from `start` to a symbol that a path leads to. -/
noncomputable def distance (source : SymbolSource) (start id : SymbolId) : ℕ :=
  sInf {n | source.Leads start n id}

/-- No path is shorter than the distance. -/
theorem Leads.distance_le (h : source.Leads start n id) : source.distance start id ≤ n := Nat.sInf_le h

/-- Where there is a path, there is one that is as long as the distance. -/
theorem Leads.leads_distance (h : source.Leads start n id) :
    source.Leads start (source.distance start id) id := by
  have hsome : {n | source.Leads start n id}.Nonempty := ⟨n, h⟩
  exact Nat.sInf_mem hsome

end SymbolSource

namespace Cascade

variable {source : SymbolSource} {documents : Option (List DocumentId)} {visited : List SymbolId}
  {queue rest : List (SymbolId × Walk)} {start id : SymbolId} {walk : Walk}

/-! ## One step of the walk -/

/-- A walk that may go both ways steps to every neighbour, and goes on both ways. -/
theorem mem_steps_both {next : SymbolId} :
    (next, Walk.both) ∈ steps source .bidirectional id .both ↔ source.Relates id next := by
  simp only [steps, reduceCtorEq, if_false, Walk.goesUp, Walk.goesDown, if_true, List.mem_append,
    List.mem_map, Prod.mk.injEq, and_true, exists_eq_right, mem_above_iff, mem_below_iff]
  rfl

/-- What is visited, and what waits in the queue, at some moment of a walk in both directions. -/
structure Frontier (source : SymbolSource) (start : SymbolId) (visited : List SymbolId)
    (queue : List (SymbolId × Walk)) : Prop where
  /-- The start is visited. -/
  starts : start ∈ visited
  /-- Every entry goes on both ways. -/
  both : ∀ entry ∈ queue, entry.2 = .both
  /-- A path leads to every entry. -/
  led : ∀ entry ∈ queue, ∃ n, source.Leads start n entry.1
  /-- A visited symbol waits in the queue, or its known neighbours are visited. -/
  closed : ∀ id ∈ visited, id ∈ queue.map Prod.fst ∨
    ∀ next, source.Relates id next → (source.symbol? next).isSome = true → next ∈ visited
  /-- The entries are in order of their distances. -/
  ordered : (queue.map Prod.fst).Pairwise fun a b => source.distance start a ≤ source.distance start b
  /-- No entry is more than one step farther than another one. -/
  narrow : ∀ entry ∈ queue, ∀ other ∈ queue,
    source.distance start other.1 ≤ source.distance start entry.1 + 1

/-- At the beginning the start waits in the queue. -/
theorem Frontier.initial (source : SymbolSource) (start : SymbolId) :
    Frontier source start [start] [(start, .both)] where
  starts := List.mem_cons_self
  both _ hentry := congrArg Prod.snd (List.mem_singleton.mp hentry)
  led _ hentry := by
    rw [List.mem_singleton.mp hentry]
    exact ⟨0, .start⟩
  closed _ hid := .inl hid
  ordered := List.pairwise_singleton _ _
  narrow entry hentry other hother := by
    rw [List.mem_singleton.mp hentry, List.mem_singleton.mp hother]
    omega

/-- What is not farther than any entry of the queue was visited. -/
theorem Frontier.mem_visited (h : Frontier source start visited queue) {bound n : ℕ}
    (hbound : ∀ id ∈ queue.map Prod.fst, bound ≤ source.distance start id)
    (hled : source.Leads start n id) (hn : n ≤ bound) : id ∈ visited := by
  induction hled with
  | start => exact h.starts
  | @step n middle id hmiddle hrelates hknown ih =>
    have hvisited : middle ∈ visited := ih (by omega)
    -- A symbol on the way to it is too near to wait in the queue.
    rcases h.closed middle hvisited with hwaits | hneighbours
    · have hfar := hbound middle hwaits
      have hnear := hmiddle.distance_le
      omega
    · exact hneighbours id hrelates hknown

/-- No entry of the queue is nearer than the first one. -/
theorem Frontier.first_le (h : Frontier source start visited ((id, walk) :: rest)) :
    ∀ other ∈ ((id, walk) :: rest).map Prod.fst, source.distance start id ≤ source.distance start other := by
  intro other hother
  rcases List.mem_cons.mp hother with rfl | hrest
  · exact Nat.le_refl _
  · exact List.rel_of_pairwise_cons h.ordered hrest

/-- What the first entry of the queue discovers is one step farther than the entry. -/
theorem Frontier.distance_of_discovered (h : Frontier source start visited ((id, walk) :: rest))
    {f : SymbolId × SymbolInfo × Walk}
    (hf : f ∈ discover source documents visited (steps source .bidirectional id walk)) :
    f.2.2 = .both ∧ source.Leads start (source.distance start id + 1) f.1 ∧
      source.distance start f.1 = source.distance start id + 1 := by
  obtain ⟨next, symbol, after⟩ := f
  obtain ⟨hnext, -, hfresh⟩ := of_mem_discover hf
  obtain rfl : after = .both := eq_both_of_mem_steps hnext
  obtain rfl : walk = .both := h.both _ List.mem_cons_self
  have hknown : (source.symbol? next).isSome = true := by rw [symbol?_of_mem_discover hf]; rfl
  obtain ⟨n, hn⟩ := h.led _ List.mem_cons_self
  have hled : source.Leads start (source.distance start id + 1) next :=
    .step hn.leads_distance (mem_steps_both.mp hnext) hknown
  -- Were it nearer, it would have been visited already.
  refine ⟨rfl, hled, Nat.le_antisymm hled.distance_le (Nat.le_of_not_lt fun hnear => hfresh ?_)⟩
  exact h.mem_visited h.first_le hled.leads_distance (Nat.le_of_lt_succ hnear)

/-- After a step every entry of the queue was in it before, or it is one of those that were discovered, at
the same distance. -/
theorem Frontier.entry_after_step (h : Frontier source start visited ((id, walk) :: rest)) :
    let found := discover source documents visited (steps source .bidirectional id walk)
    ∀ entry ∈ rest ++ found.map fun f => (f.1, f.2.2), entry ∈ rest ∨
      entry.2 = .both ∧ source.Leads start (source.distance start id + 1) entry.1 ∧
        source.distance start entry.1 = source.distance start id + 1 := by
  intro found entry hentry
  rcases List.mem_append.mp hentry with hold | hnew
  · exact .inl hold
  · obtain ⟨f, hf, rfl⟩ := List.mem_map.mp hnew
    exact .inr (h.distance_of_discovered hf)

/-- An entry that waited behind the first one is as far as that one or one step farther. -/
theorem Frontier.between (h : Frontier source start visited ((id, walk) :: rest)) :
    ∀ entry ∈ rest, source.distance start id ≤ source.distance start entry.1 ∧
      source.distance start entry.1 ≤ source.distance start id + 1 :=
  fun entry hold => ⟨h.first_le _ (List.mem_cons_of_mem _ (List.mem_map_of_mem hold)),
    h.narrow _ List.mem_cons_self entry (List.mem_cons_of_mem _ hold)⟩

/-- After a step no entry is nearer than the one that was taken from the queue. -/
theorem Frontier.le_after_step (h : Frontier source start visited ((id, walk) :: rest)) :
    let found := discover source documents visited (steps source .bidirectional id walk)
    ∀ entry ∈ rest ++ found.map fun f => (f.1, f.2.2),
      source.distance start id ≤ source.distance start entry.1 := by
  intro found entry hentry
  rcases h.entry_after_step entry hentry with hold | ⟨-, -, hnew⟩
  · exact (h.between entry hold).1
  · omega

/-- After a step the neighbours of the first entry are visited. -/
theorem Frontier.closed_after_step (h : Frontier source start visited ((id, walk) :: rest)) :
    let found := discover source documents visited (steps source .bidirectional id walk)
    ∀ other ∈ (found.map Prod.fst).reverse ++ visited, other ∈ rest.map Prod.fst ++ found.map Prod.fst ∨
      ∀ next, source.Relates other next → (source.symbol? next).isSome = true →
        next ∈ (found.map Prod.fst).reverse ++ visited := by
  intro found other hother
  obtain rfl : walk = .both := h.both _ List.mem_cons_self
  rcases List.mem_append.mp hother with hnew | hold
  · exact .inl (List.mem_append_right _ (List.mem_reverse.mp hnew))
  · rcases h.closed other hold with hwaits | hneighbours
    · rcases List.mem_cons.mp hwaits with rfl | hrest
      · refine .inr fun next hrelates hknown => ?_
        obtain ⟨symbol, hsymbol⟩ := Option.isSome_iff_exists.mp hknown
        have hvisits : next ∈ visited ∨ next ∈ found.map Prod.fst :=
          visited_of_mem_next (mem_steps_both.mpr hrelates) hsymbol (by simp [admits])
        rcases hvisits with hvisited | hnew
        · exact List.mem_append_right _ hvisited
        · exact List.mem_append_left _ (List.mem_reverse.mpr hnew)
      · exact .inl (List.mem_append_left _ hrest)
    · exact .inr fun next hrelates hknown => List.mem_append_right _ (hneighbours next hrelates hknown)

/-- After a step the entries are in order of their distances: those that were discovered are as far as each
other, and no entry that waited is farther. -/
theorem Frontier.ordered_after_step (h : Frontier source start visited ((id, walk) :: rest)) :
    let found := discover source documents visited (steps source .bidirectional id walk)
    (rest.map Prod.fst ++ found.map Prod.fst).Pairwise
      fun a b => source.distance start a ≤ source.distance start b := by
  intro found
  have hfound : ∀ f ∈ found, source.distance start f.1 = source.distance start id + 1 :=
    fun f hf => (h.distance_of_discovered hf).2.2
  rw [List.pairwise_append]
  refine ⟨(List.pairwise_cons.mp h.ordered).2, ?_, fun a ha b hb => ?_⟩
  · rw [List.pairwise_map]
    refine List.pairwise_of_forall_mem_list fun a ha b hb => ?_
    exact Nat.le_of_eq ((hfound a ha).trans (hfound b hb).symm)
  · obtain ⟨entry, hold, rfl⟩ := List.mem_map.mp ha
    obtain ⟨f, hf, rfl⟩ := List.mem_map.mp hb
    have hdistance := hfound f hf
    have hnear := (h.between entry hold).2
    omega

/-- Taking the first entry from the queue and putting what it discovers at the end gives the next
frontier. -/
theorem Frontier.step (h : Frontier source start visited ((id, walk) :: rest)) :
    let found := discover source documents visited (steps source .bidirectional id walk)
    Frontier source start ((found.map Prod.fst).reverse ++ visited)
      (rest ++ found.map fun f => (f.1, f.2.2)) := by
  intro found
  have hids : (rest ++ found.map fun f => (f.1, f.2.2)).map Prod.fst =
      rest.map Prod.fst ++ found.map Prod.fst := by
    rw [List.map_append, List.map_map]
    rfl
  refine ⟨List.mem_append_right _ h.starts, fun entry hin => ?_, fun entry hin => ?_,
    hids ▸ h.closed_after_step, hids ▸ h.ordered_after_step, fun entry hin other hother => ?_⟩
  · rcases h.entry_after_step entry hin with hold | ⟨hboth, -, -⟩
    · exact h.both entry (List.mem_cons_of_mem _ hold)
    · exact hboth
  · rcases h.entry_after_step entry hin with hold | ⟨-, hled, -⟩
    · exact h.led entry (List.mem_cons_of_mem _ hold)
    · exact ⟨_, hled⟩
  · have hlow := h.le_after_step entry hin
    have hhigh : source.distance start other.1 ≤ source.distance start id + 1 := by
      rcases h.entry_after_step other hother with hold | ⟨-, -, hnew⟩
      · exact (h.between other hold).2
      · omega
    omega

/-! ## The whole walk -/

/-- If what waits after a step and what is listed later are in order of distance, no symbol among them is
nearer than the one that was taken from the queue. -/
theorem Frontier.le_later (h : Frontier source start visited ((id, walk) :: rest)) :
    let found := discover source documents visited (steps source .bidirectional id walk)
    let next := rest ++ found.map fun f => (f.1, f.2.2)
    let later := explore source .bidirectional documents ((found.map Prod.fst).reverse ++ visited) next
    (next.map Prod.fst ++ later.map SymbolInfo.id).Pairwise
        (fun a b => source.distance start a ≤ source.distance start b) →
      ∀ other ∈ next.map Prod.fst ++ later.map SymbolInfo.id,
        source.distance start id ≤ source.distance start other := by
  intro found next later hordered other hother
  have hnext : ∀ entry ∈ next, source.distance start id ≤ source.distance start entry.1 := h.le_after_step
  have hlater : later =
      explore source .bidirectional documents ((found.map Prod.fst).reverse ++ visited) next := rfl
  clear_value next later
  cases next with
  | nil =>
    -- Nothing waits, so nothing is listed later.
    rw [hlater, explore] at hother
    exact absurd hother List.not_mem_nil
  | cons first more =>
    have hfirst := hnext first List.mem_cons_self
    rcases List.mem_cons.mp hother with rfl | hmore
    · exact hfirst
    · exact Nat.le_trans hfirst (List.rel_of_pairwise_cons hordered hmore)

/-- What is explored from a frontier comes after the entries of the queue, in order of distance. It is
connected to the start, and with what was visited it is all that a path leads to. -/
theorem Frontier.explored (documents : Option (List DocumentId)) (hsource : source.Keyed)
    (h : Frontier source start visited queue) :
    let listed := explore source .bidirectional documents visited queue
    (queue.map Prod.fst ++ listed.map SymbolInfo.id).Pairwise
        (fun a b => source.distance start a ≤ source.distance start b) ∧
      (∀ symbol ∈ listed, source.Connects start symbol) ∧
      ∀ n id, source.Leads start n id → id ∈ visited ∨ id ∈ listed.map SymbolInfo.id := by
  fun_induction explore source .bidirectional documents visited queue with
  | case1 visited =>
    -- With an empty queue everything that a path leads to was visited.
    refine ⟨List.Pairwise.nil, fun _ hsymbol => absurd hsymbol List.not_mem_nil, fun n id hled => ?_⟩
    exact .inl (h.mem_visited (fun _ hid => absurd hid List.not_mem_nil) hled (Nat.le_refl n))
  | case2 visited id walk rest found ih =>
    obtain ⟨hordered, hconnects, hall⟩ := ih h.step
    have hfar := h.le_later hordered
    have hids : (found.map fun f => f.2.1).map SymbolInfo.id = found.map Prod.fst :=
      ids_discover hsource visited _
    intro listed
    generalize hlater : explore source .bidirectional documents ((found.map Prod.fst).reverse ++ visited)
      (rest ++ found.map fun f => (f.1, f.2.2)) = later at hordered hconnects hall hfar
    have hlisted : listed = found.map (fun f => f.2.1) ++ later := by rw [← hlater]
    have hqueue : (rest ++ found.map fun f => (f.1, f.2.2)).map Prod.fst ++ later.map SymbolInfo.id =
        rest.map Prod.fst ++ listed.map SymbolInfo.id := by
      rw [hlisted, List.map_append, List.map_append, hids, List.map_map, List.append_assoc]
      rfl
    refine ⟨?_, fun symbol hsymbol => ?_, fun n other hled => ?_⟩
    · rw [List.map_cons, List.cons_append, ← hqueue]
      exact List.pairwise_cons.mpr ⟨hfar, hordered⟩
    · rw [hlisted] at hsymbol
      rcases List.mem_append.mp hsymbol with hnew | hold
      · obtain ⟨f, hf, rfl⟩ := List.mem_map.mp hnew
        have hknown : source.symbol? f.1 = some f.2.1 := symbol?_of_mem_discover hf
        have hid : f.2.1.id = f.1 := hsource f.1 f.2.1 hknown
        exact ⟨hid.symm ▸ hknown, _, hid.symm ▸ (h.distance_of_discovered hf).2.1⟩
      · exact hconnects symbol hold
    · rw [hlisted, List.map_append, hids]
      rcases hall n other hled with hvisited | hlisted
      · rcases List.mem_append.mp hvisited with hnew | hold
        · exact .inr (List.mem_append_left _ (List.mem_reverse.mp hnew))
        · exact .inl hold
      · exact .inr (List.mem_append_right _ hlisted)

end Cascade

/-- Known symbols of which none is counted twice are no more than there are. -/
theorem SymbolGraph.length_le_symbolCount (graph : SymbolGraph) {symbols : List SymbolInfo}
    (hnodup : (symbols.map SymbolInfo.id).Nodup)
    (hknown : ∀ symbol ∈ symbols, graph.symbols[symbol.id]? = some symbol) :
    symbols.length ≤ graph.symbolCount := by
  have hkeys : symbols.map SymbolInfo.id ⊆ graph.symbols.keys := by
    intro id hid
    obtain ⟨symbol, hsymbol, rfl⟩ := List.mem_map.mp hid
    rw [Std.HashMap.mem_keys]
    exact Std.HashMap.mem_iff_isSome_getElem?.mpr (by rw [hknown symbol hsymbol]; rfl)
  have hcount := (List.subperm_of_subset hnodup hkeys).length_le
  rw [List.length_map, Std.HashMap.length_keys] at hcount
  exact hcount

/-- A cascade in both directions, in any graph and with any restriction to documents. It lists the start
first and no symbol twice. It lists the start and the known symbols that are connected to it, and nothing
else, and no symbol comes before a nearer one. So it ends after at most one symbol more than there are
known ones. -/
theorem cascade_breadth_first (graph : SymbolGraph) (broken : SymbolId → Bool) (start : SymbolInfo)
    (documents : Option (List DocumentId)) :
    let source := graph.toSource broken
    let listed := cascade source start { direction := .bidirectional } documents
    listed.head? = some start ∧ (listed.map SymbolInfo.id).Nodup ∧
      (∀ symbol, symbol ∈ listed ↔
        symbol = start ∨ symbol.id ≠ start.id ∧ source.Connects start.id symbol) ∧
      listed.Pairwise (fun a b => source.distance start.id a.id ≤ source.distance start.id b.id) ∧
      listed.length ≤ graph.symbolCount + 1 := by
  intro source listed
  have hsource : source.Keyed := graph.keyed_toSource broken
  generalize hexplored : Cascade.explore source .bidirectional documents [start.id] [(start.id, .both)] =
    explored
  have hlisted : listed = start :: explored := by
    simp only [listed, cascade, if_true, hexplored]
  obtain ⟨hordered, hconnects, hall⟩ :=
    (Cascade.Frontier.initial source start.id).explored documents hsource
  obtain ⟨hnodup, hfresh⟩ : (explored.map SymbolInfo.id).Nodup ∧
      ∀ symbol ∈ explored, symbol.id ∉ [start.id] :=
    hexplored ▸ Cascade.nodup_explore hsource [start.id] [(start.id, .both)]
  rw [hexplored] at hordered hconnects hall
  refine ⟨congrArg List.head? hlisted, nodup_ids_cascade hsource start _ documents,
    fun symbol => ⟨fun hin => ?_, ?_⟩, ?_, ?_⟩
  · rw [hlisted] at hin
    rcases List.mem_cons.mp hin with rfl | hin
    · exact .inl rfl
    · exact .inr ⟨fun hid => hfresh symbol hin (List.mem_singleton.mpr hid), hconnects symbol hin⟩
  · rw [hlisted]
    rintro (rfl | ⟨hne, hknown, n, hled⟩)
    · exact List.mem_cons_self
    · -- It has the identity of a symbol that was explored, and only one symbol is known by that.
      have hin := (hall n symbol.id hled).resolve_left fun hid => hne (List.mem_singleton.mp hid)
      obtain ⟨other, hother, hid⟩ := List.mem_map.mp hin
      have hsame : other = symbol := by
        have hfound := (hconnects other hother).1
        rw [hid, hknown] at hfound
        exact (Option.some.inj hfound).symm
      exact List.mem_cons_of_mem _ (hsame ▸ hother)
  · have hids : (listed.map SymbolInfo.id).Pairwise fun a b =>
        source.distance start.id a ≤ source.distance start.id b := by
      rw [hlisted]
      exact hordered
    rw [List.pairwise_map] at hids
    exact hids
  · have hcount := graph.length_le_symbolCount hnodup fun symbol hsymbol => (hconnects symbol hsymbol).1
    rw [hlisted, List.length_cons]
    omega

end SolutionWatch
