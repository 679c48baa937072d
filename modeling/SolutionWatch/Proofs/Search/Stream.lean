import Mathlib.Data.List.Basic
import SolutionWatch.Proofs.Snapshot.Lookup
import SolutionWatch.Worker

/-!
# A worker's messages tell what its search reported

A worker sends a reference with the identity of the symbol only, and the reader of the messages puts
the symbol back in. This loses nothing as long as every reference comes after the announcement of
its symbol and no two announced symbols have one identity. The engine announces what the cascade
lists before it reports a reference (`Engine.search_eq`), and the cascade lists symbols that the
source knows under their own identities (`symbol?_of_mem_cascade`). So reading the messages of a
search gives back its reports and its result (`Worker.logWorker_answerOf`).

What a search finds in a filed snapshot depends on the fingerprint of the snapshot alone
(`Engine.search_congr`), so it does not matter that a worker may have another snapshot of that
fingerprint than its caller.
-/

namespace SolutionWatch

/-- Every symbol is known under its own identity. -/
def SymbolSource.Keyed (source : SymbolSource) : Prop :=
  ∀ id symbol, source.symbol? id = some symbol → symbol.id = id

/-- Every symbol of a graph is known under its own identity. -/
theorem SymbolGraph.keyed_toSource (graph : SymbolGraph) (broken : SymbolId → Bool) :
    (graph.toSource broken).Keyed := graph.keyed

namespace Cascade

variable {source : SymbolSource} {documents : Option (List DocumentId)}

/-- A discovered symbol is known to the source. -/
theorem symbol?_of_mem_discover {visited : List SymbolId} {next : List (SymbolId × Walk)}
    {f : SymbolId × SymbolInfo × Walk} (h : f ∈ discover source documents visited next) :
    source.symbol? f.1 = some f.2.1 := by
  fun_induction discover source documents visited next with
  | case1 => simp at h
  | case2 _ _ _ _ _ ih => exact ih h
  | case3 _ _ _ _ _ _ ih => exact ih h
  | case4 visited id walk more _ symbol hs _ ih =>
    rcases List.mem_cons.mp h with rfl | h
    · exact hs
    · exact ih h
  | case5 _ _ _ _ _ _ _ _ ih => exact ih h

/-- What is discovered is listed under the identities by which it was looked up. -/
theorem ids_discover (hsource : source.Keyed) (visited : List SymbolId) (next : List (SymbolId × Walk)) :
    ((discover source documents visited next).map fun f => f.2.1).map SymbolInfo.id =
      (discover source documents visited next).map Prod.fst := by
  rw [List.map_map]
  exact List.map_congr_left fun f hf => hsource f.1 f.2.1 (symbol?_of_mem_discover hf)

/-- An explored symbol is known to the source. -/
theorem symbol?_of_mem_explore {direction : CascadeDirection} {visited : List SymbolId}
    {queue : List (SymbolId × Walk)} {symbol : SymbolInfo}
    (h : symbol ∈ explore source direction documents visited queue) :
    ∃ id, source.symbol? id = some symbol := by
  fun_induction explore source direction documents visited queue with
  | case1 => simp at h
  | case2 visited id walk rest found ih =>
    rcases List.mem_append.mp h with h | h
    · obtain ⟨f, hf, rfl⟩ := List.mem_map.mp h
      exact ⟨f.1, symbol?_of_mem_discover hf⟩
    · exact ih h

end Cascade

/-- A cascade from a known symbol lists symbols that are known under their own identities. -/
theorem symbol?_of_mem_cascade {source : SymbolSource} (hsource : source.Keyed) {id : SymbolId}
    {start symbol : SymbolInfo} (hstart : source.symbol? id = some start)
    {options : SearchOptions} {documents : Option (List DocumentId)}
    (h : symbol ∈ cascade source start options documents) :
    source.symbol? symbol.id = some symbol := by
  -- It is known under the identity that the cascade found it by, which is its own.
  have hknown : ∃ k, source.symbol? k = some symbol := by
    rw [cascade] at h
    split at h
    · rcases List.mem_cons.mp h with rfl | h
      · exact ⟨id, hstart⟩
      · exact Cascade.symbol?_of_mem_explore h
    · exact ⟨id, List.mem_singleton.mp h ▸ hstart⟩
  obtain ⟨k, hk⟩ := hknown
  rwa [hsource k symbol hk]

/-- A report of an occurrence of one of some symbols. -/
def SearchEvent.RefersTo (symbols : List SymbolInfo) (event : SearchEvent) : Prop :=
  ∃ symbol ∈ symbols, ∃ location, event = .reference symbol location

namespace Engine

variable {source : SymbolSource} {symbols : List SymbolInfo} {point : CancelPoint}

/-- A target reports occurrences of the symbols that are searched for. -/
theorem refersTo_of_mem_visit {target : SearchTarget} {event : SearchEvent}
    (h : event ∈ visit source symbols target) : event.RefersTo symbols := by
  simp only [visit, List.mem_filterMap, List.mem_flatMap, List.mem_map] at h
  obtain ⟨finding, ⟨finder, -, symbol, hsymbol, location, -, rfl⟩, hevent⟩ := h
  split at hevent
  · exact ⟨symbol, hsymbol, location, (Option.some.inj hevent).symm⟩
  · contradiction

/-- The targets report occurrences of the symbols that are searched for. -/
theorem refersTo_of_mem_visitAll {delivered : ℕ} {found : Bool} {targets : List SearchTarget}
    {event : SearchEvent}
    (h : event ∈ (visitAll source symbols point delivered found targets).1) :
    event.RefersTo symbols := by
  induction targets generalizing delivered found with
  | nil => simp [visitAll] at h
  | cons target rest ih =>
    rw [visitAll] at h
    split at h
    · simp at h
    · split at h
      · simp at h
      · rcases List.mem_append.mp h with h | h
        · exact refersTo_of_mem_visit h
        · exact ih h

/-- A search announces symbols that are known under their own identities and then reports their
occurrences. -/
theorem search_eq (hsource : source.Keyed) (options : SearchOptions) (solution : Solution)
    (scope : SearchScope) (symbol : SymbolId) (point : CancelPoint) :
    ∃ (symbols : List SymbolInfo) (references : List SearchEvent) (result : EngineResult),
      search source options solution scope symbol point =
        (symbols.map .definition ++ references, result) ∧
      (∀ s ∈ symbols, source.symbol? s.id = some s) ∧
      ∀ event ∈ references, event.RefersTo symbols := by
  rw [search]
  split
  · exact ⟨[], [], _, rfl, by simp, by simp⟩
  · next start hstart =>
    exact ⟨_, _, _, rfl, fun s hs => symbol?_of_mem_cascade hsource hstart hs,
      fun event hevent => refersTo_of_mem_visitAll hevent⟩

/-- In filed snapshots of one fingerprint a scope has the same targets. -/
theorem targets_congr {a b : Solution} (ha : a.Filed) (hb : b.Filed)
    (h : a.fingerprint = b.fingerprint) (scope : SearchScope) : scope.targets a = scope.targets b := by
  have hcandidates : scope.candidates a = scope.candidates b := by
    cases scope with
    | everything =>
      -- The candidates can be read off the fingerprints of the projects.
      have hsources : ∀ s : Solution, SearchScope.candidates .everything s =
          (s.allProjects.map Project.fingerprint).flatMap fun project =>
            project.sources.map fun d => ⟨d.id, none⟩ := by
        intro s
        rw [List.flatMap_map]
        rfl
      rw [hsources, hsources]
      exact congrArg (fun c : Fingerprint => c.projects.flatMap _) h
    | documents ids => rfl
    | spans ranges => rfl
  rw [SearchScope.targets, SearchScope.targets, hcandidates]
  exact List.filter_congr fun target _ => ha.containsDocument_congr hb h target.document

/-- In filed snapshots of one fingerprint a search does the same. -/
theorem search_congr {a b : Solution} (ha : a.Filed) (hb : b.Filed) (h : a.fingerprint = b.fingerprint)
    (options : SearchOptions) (scope : SearchScope) (symbol : SymbolId) :
    search source options a scope symbol point = search source options b scope symbol point := by
  rw [search, search, targets_congr ha hb h]

end Engine

namespace StreamReading

/-- A reading with some reports before its own. -/
def prepend (events : List SearchEvent) (reading : StreamReading) : StreamReading :=
  { reading with events := events ++ reading.events }

/-- A completion ends the reading. -/
theorem read_completed (known : List SymbolInfo) (delivered : ℕ) (completion : Completion)
    (rest : List ReferenceMessage) :
    read none known delivered (.completed completion :: rest) = ⟨[], some completion, false⟩ := by
  simp [read, CancelPoint.reached]

/-- Without a further message nothing more is read. -/
theorem read_nil (known : List SymbolInfo) (delivered : ℕ) :
    read none known delivered [] = ⟨[], none, false⟩ := by
  simp [read, CancelPoint.reached]

/-- Announcements are reported and remembered. -/
theorem read_definitions (symbols known : List SymbolInfo) (delivered : ℕ)
    (rest : List ReferenceMessage) :
    read none known delivered (symbols.map .definitionFound ++ rest) =
      (read none (symbols.reverse ++ known) (delivered + symbols.length) rest).prepend
        (symbols.map .definition) := by
  induction symbols generalizing known delivered with
  | nil => rfl
  | cons symbol symbols ih =>
    rw [List.map_cons, List.cons_append, read, CancelPoint.reached, if_neg (by simp), ih]
    simp only [prepend, List.map_cons, List.cons_append, List.reverse_cons, List.append_assoc,
      List.nil_append, List.length_cons, Nat.add_assoc, Nat.add_comm 1]

/-- References to announced symbols are reported with these symbols. -/
theorem read_references {source : SymbolSource} {known : List SymbolInfo}
    (hknown : ∀ s ∈ known, source.symbol? s.id = some s) {events : List SearchEvent}
    (hevents : ∀ event ∈ events, event.RefersTo known) (delivered : ℕ)
    (rest : List ReferenceMessage) :
    read none known delivered (events.filterMap Worker.messageOf? ++ rest) =
      (read none known (delivered + events.length) rest).prepend events := by
  induction events generalizing delivered with
  | nil => rfl
  | cons event events ih =>
    obtain ⟨symbol, hsymbol, location, rfl⟩ := hevents event List.mem_cons_self
    -- The symbol that is found has the identity that was looked for, so it is the announced one.
    have hfind : (known.find? fun s => s.id = symbol.id) = some symbol := by
      obtain ⟨s, hs⟩ : ∃ s, (known.find? fun s => s.id = symbol.id) = some s :=
        Option.isSome_iff_exists.mp (List.find?_isSome.mpr ⟨symbol, hsymbol, by simp⟩)
      have hid : s.id = symbol.id := by simpa using List.find?_some hs
      have hsome := hknown s (List.mem_of_find?_eq_some hs)
      rw [hid, hknown symbol hsymbol] at hsome
      rw [hs, hsome]
    have hmessages : (SearchEvent.reference symbol location :: events).filterMap
        Worker.messageOf? = .referenceFound symbol.id location ::
          events.filterMap Worker.messageOf? := rfl
    rw [hmessages, List.cons_append, read, CancelPoint.reached, if_neg (by simp)]
    simp only [hfind]
    rw [ih fun e he => hevents e (List.mem_cons_of_mem _ he)]
    simp only [prepend, List.cons_append, List.length_cons, Nat.add_assoc, Nat.add_comm 1]

end StreamReading

namespace Worker

/-- What a worker sends for a search in this process, and how its call ends. -/
def answerOf (visited : List SearchEvent × EngineResult) : StreamAnswer :=
  match visited.2.toExcept with
  | .ok completion => ⟨visited.1.filterMap messageOf? ++ [.completed completion], .ok ()⟩
  | .error failure => ⟨visited.1.filterMap messageOf?, .error failure⟩

/-- The reader of a worker's messages reports what the search reported, and has its result. -/
theorem logWorker_answerOf {source : SymbolSource} {symbols : List SymbolInfo}
    {references : List SearchEvent} (hsymbols : ∀ s ∈ symbols, source.symbol? s.id = some s)
    (hreferences : ∀ event ∈ references, event.RefersTo symbols) (result : EngineResult) :
    let visited := (symbols.map SearchEvent.definition ++ references, result)
    Query.logWorker (.ofMessages none (answerOf visited).messages) (answerOf visited).outcome =
      .conclude visited.1 visited.2.toExcept := by
  intro visited
  have hread : ∀ rest, ∃ delivered,
      StreamReading.ofMessages none (visited.1.filterMap messageOf? ++ rest) =
        (StreamReading.read none symbols.reverse delivered rest).prepend visited.1 := by
    intro rest
    have hdefinitions : (symbols.map SearchEvent.definition).filterMap messageOf? =
        symbols.map .definitionFound := by
      rw [List.filterMap_map]
      exact congrFun List.filterMap_eq_map' _
    -- The reader remembers the announced symbols in the reverse order.
    have hback : ∀ event ∈ references, event.RefersTo symbols.reverse := by
      intro event hevent
      obtain ⟨s, hs, h⟩ := hreferences event hevent
      exact ⟨s, List.mem_reverse.mpr hs, h⟩
    refine ⟨0 + symbols.length + references.length, ?_⟩
    rw [StreamReading.ofMessages, List.filterMap_append, hdefinitions, List.append_assoc,
      StreamReading.read_definitions, List.append_nil,
      StreamReading.read_references (fun s hs => hsymbols s (List.mem_reverse.mp hs)) hback]
    simp only [StreamReading.prepend, visited, List.append_assoc]
  rw [answerOf]
  cases hresult : visited.2.toExcept with
  | ok completion =>
    obtain ⟨delivered, hread⟩ := hread [.completed completion]
    simp only [Query.logWorker, hread, StreamReading.read_completed, StreamReading.prepend,
      List.append_nil]
    rfl
  | error failure =>
    obtain ⟨delivered, hread⟩ := hread []
    rw [List.append_nil] at hread
    simp only [Query.logWorker, hread, StreamReading.read_nil, StreamReading.prepend,
      List.append_nil]
    rfl

end Worker

end SolutionWatch
