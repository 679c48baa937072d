import SolutionWatch.Symbol

/-!
# Cascading a search over related symbols

A search for a symbol also covers the symbols it is related to. `cascade` lists them breadth
first, the start first. In bidirectional mode every relationship is followed from every symbol
reached. In unidirectional mode a path keeps the direction of its first step, up to what is
overridden or implemented or down to what overrides or implements; if the search is restricted to
some documents, a downward step is only taken to symbols declared in them.

Unknown symbols are passed over and no symbol is listed twice, so the number of known symbols that
are not listed yet bounds the walk.
-/

namespace SolutionWatch

/-- How cascading walks over relationships. -/
inductive CascadeDirection where
  /-- Up and down, turning freely. -/
  | bidirectional
  /-- Only on in the direction of the first step. -/
  | unidirectional
  deriving DecidableEq, Repr

namespace CascadeDirection

/-- The written form of a direction. -/
def text : CascadeDirection → String
  | .bidirectional => "Bidirectional"
  | .unidirectional => "Unidirectional"

/-- Every direction. -/
def all : List CascadeDirection := [.bidirectional, .unidirectional]

end CascadeDirection

/-- What a caller chooses about a search. -/
structure SearchOptions where
  /-- Whether related symbols are covered at all. -/
  cascade : Bool := true
  /-- How relationships are walked. -/
  direction : CascadeDirection := .bidirectional
  deriving DecidableEq, Repr, Inhabited

namespace SearchOptions

/-- The same options with unidirectional cascading. -/
def unidirectional (options : SearchOptions) : SearchOptions :=
  { options with direction := .unidirectional }

end SearchOptions

namespace Cascade

/-- The directions in which a walk may go on from a symbol. -/
inductive Walk where
  /-- Up and down. -/
  | both
  /-- Up only. -/
  | up
  /-- Down only. -/
  | down
  deriving DecidableEq, Repr

/-- Whether a walk may go up. -/
def Walk.goesUp : Walk → Bool
  | .both | .up => true
  | .down => false

/-- Whether a walk may go down. -/
def Walk.goesDown : Walk → Bool
  | .both | .down => true
  | .up => false

/-- The symbols one step above a symbol. -/
def above (source : SymbolSource) (id : SymbolId) : List SymbolId :=
  source.overrides id ++ source.implements id

/-- The symbols one step below a symbol. -/
def below (source : SymbolSource) (id : SymbolId) : List SymbolId :=
  source.overriddenBy id ++ source.implementedBy id

/-- The steps that a walk may take from a symbol, each with the walk that goes on after it. -/
def steps (source : SymbolSource) (direction : CascadeDirection) (id : SymbolId) (walk : Walk) :
    List (SymbolId × Walk) :=
  let after (oneWay : Walk) := if direction = .unidirectional then oneWay else .both
  (if walk.goesUp then (above source id).map fun next => (next, after .up) else []) ++
    (if walk.goesDown then (below source id).map fun next => (next, after .down) else [])

/-- Whether a walk may enter a symbol: a walk down stays within the documents, if they are
restricted. -/
def admits (documents : Option (List DocumentId)) (symbol : SymbolInfo) (walk : Walk) : Bool :=
  match walk, documents with
  | .down, some documents => documents.contains symbol.declaration
  | _, _ => true

/-- The symbols that some steps newly enter, in order, each with its walk. -/
def discover (source : SymbolSource) (documents : Option (List DocumentId)) :
    List SymbolId → List (SymbolId × Walk) → List (SymbolId × SymbolInfo × Walk)
  | _, [] => []
  | visited, (id, walk) :: more =>
    if id ∈ visited then discover source documents visited more
    else
      match source.symbol? id with
      | none => discover source documents visited more
      | some symbol =>
        if admits documents symbol walk then
          (id, symbol, walk) :: discover source documents (id :: visited) more
        else discover source documents visited more

/-- The number of known symbols that have not been visited. -/
def unvisited : List SymbolId → List SymbolId → Nat
  | [], _ => 0
  | id :: rest, visited => (if id ∈ visited then 0 else 1) + unvisited rest visited

/-- Visiting a symbol never adds to the unvisited ones. -/
theorem unvisited_cons_le (known visited : List SymbolId) (id : SymbolId) :
    unvisited known (id :: visited) ≤ unvisited known visited := by
  induction known with
  | nil => simp [unvisited]
  | cons k rest ih =>
    by_cases hk : k ∈ visited <;> by_cases hid : k = id <;> simp [unvisited, hk, hid] <;> omega

/-- Visiting a known symbol for the first time takes it from the unvisited ones. -/
theorem unvisited_cons_lt {known visited : List SymbolId} {id : SymbolId} (hk : id ∈ known)
    (hv : id ∉ visited) : unvisited known (id :: visited) < unvisited known visited := by
  induction known with
  | nil => simp at hk
  | cons k rest ih =>
    have hle := unvisited_cons_le rest visited id
    by_cases hid : k = id
    · subst hid
      simp only [unvisited, List.mem_cons, true_or, if_true, hv, if_false]
      omega
    · have := ih ((List.mem_cons.mp hk).resolve_left fun h => hid h.symm)
      by_cases hkv : k ∈ visited <;> simp [unvisited, hkv, hid] <;> omega

/-- Every symbol discovered is taken from the unvisited ones. -/
theorem unvisited_discover {source : SymbolSource} {known : List SymbolId}
    (hknown : ∀ id, (source.symbol? id).isSome = true → id ∈ known)
    (documents : Option (List DocumentId)) (visited : List SymbolId)
    (next : List (SymbolId × Walk)) :
    unvisited known (((discover source documents visited next).map Prod.fst).reverse ++ visited) +
        (discover source documents visited next).length ≤ unvisited known visited := by
  fun_induction discover source documents visited next with
  | case1 => simp
  | case2 _ _ _ _ _ ih => exact ih
  | case3 _ _ _ _ _ _ ih => exact ih
  | case4 visited id walk more hv symbol hs _ ih =>
    have hlt := unvisited_cons_lt (hknown id (by simp [hs])) hv
    simp only [List.map_cons, List.reverse_cons, List.append_assoc, List.cons_append,
      List.nil_append, List.length_cons]
    omega
  | case5 _ _ _ _ _ _ _ _ ih => exact ih

/-- Walks on from the entries of a queue, listing the symbols in the order of their discovery. -/
def explore (source : SymbolSource) (direction : CascadeDirection)
    (documents : Option (List DocumentId)) (visited : List SymbolId) :
    List (SymbolId × Walk) → List SymbolInfo
  | [] => []
  | (id, walk) :: rest =>
    let found := discover source documents visited (steps source direction id walk)
    found.map (fun f => f.2.1) ++
      explore source direction documents ((found.map Prod.fst).reverse ++ visited)
        (rest ++ found.map fun f => (f.1, f.2.2))
termination_by queue => unvisited source.finite.choose visited + queue.length
decreasing_by
  have h := unvisited_discover source.finite.choose_spec documents visited
    (steps source direction id walk)
  simp only [List.length_append, List.length_map, List.length_cons]
  omega

end Cascade

/-- The symbols that a search for `start` covers, the start first. -/
def cascade (source : SymbolSource) (start : SymbolInfo) (options : SearchOptions)
    (documents : Option (List DocumentId)) : List SymbolInfo :=
  if options.cascade then
    start :: Cascade.explore source options.direction documents [start.id] [(start.id, .both)]
  else [start]

end SolutionWatch
