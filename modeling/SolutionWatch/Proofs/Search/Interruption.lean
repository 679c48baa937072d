import SolutionWatch.Proofs.Search.Occurrences

/-!
# Where a search stops that is cancelled

A search in this process announces the symbols that it covers and visits its targets one by one
(`Engine.plan`). It looks at its token before each target and nowhere else, so the moment of the
cancellation decides how many targets are looked at in time (`Engine.checkedInTime`), and nothing else: all
symbols are announced, what is reported of these targets is complete, nothing is reported of the others, and
the search comes back cancelled exactly if there are others (`Engine.search_stops_at_target`).

Moments are counted in reports. A target is looked at after all announcements and after everything that the
earlier targets report (`Engine.reportedBefore`). These numbers do not decrease, so the targets that are
looked at in time are the first ones (`Engine.lt_checkedInTime_iff`).
-/

namespace SolutionWatch

/-- A search that is cancelled stays cancelled while it goes on reporting. -/
theorem CancelPoint.reached_mono {point : CancelPoint} {delivered later : ℕ}
    (h : point.reached delivered = true) (hle : delivered ≤ later) : point.reached later = true := by
  cases point with
  | none => exact h
  | some n => exact decide_eq_true (Nat.le_trans (of_decide_eq_true h) hle)

namespace Engine

variable {source : SymbolSource} {symbols : List SymbolInfo} {point : CancelPoint}

/-- The symbols that a search announces and the targets that it visits. A search for an unknown symbol has
neither. -/
def plan (source : SymbolSource) (options : SearchOptions) (solution : Solution) (scope : SearchScope)
    (id : SymbolId) : List SymbolInfo × List SearchTarget :=
  match source.symbol? id with
  | none => ([], [])
  | some start => (cascade source start options scope.restriction, scope.targets solution)

/-- How many reports come before the look at the token at a target, if there are `delivered` ones before the
first target. -/
def reportedBefore (source : SymbolSource) (symbols : List SymbolInfo) (delivered : ℕ)
    (targets : List SearchTarget) (i : ℕ) : ℕ :=
  delivered + ((targets.take i).flatMap (visit source symbols)).length

/-- How many targets are looked at before the search counts as cancelled. -/
def checkedInTime (source : SymbolSource) (symbols : List SymbolInfo) (point : CancelPoint)
    (delivered : ℕ) (targets : List SearchTarget) : ℕ :=
  (List.range targets.length).countP fun i =>
    !point.reached (reportedBefore source symbols delivered targets i)

/-- A search announces its symbols and visits its targets. -/
theorem search_eq_plan (source : SymbolSource) (options : SearchOptions) (solution : Solution)
    (scope : SearchScope) (id : SymbolId) (point : CancelPoint) :
    let plan := plan source options solution scope id
    let visited := visitAll source plan.1 point plan.1.length false plan.2
    search source options solution scope id point = (plan.1.map .definition ++ visited.1, visited.2) := by
  rw [search, plan]
  cases source.symbol? id <;> rfl

/-! ## The targets that are looked at in time -/

/-- Nothing comes before the first target. -/
theorem reportedBefore_zero (source : SymbolSource) (symbols : List SymbolInfo) (delivered : ℕ)
    (targets : List SearchTarget) : reportedBefore source symbols delivered targets 0 = delivered := rfl

/-- What comes before the first target comes before every target. -/
theorem le_reportedBefore (source : SymbolSource) (symbols : List SymbolInfo) (delivered : ℕ)
    (targets : List SearchTarget) (i : ℕ) : delivered ≤ reportedBefore source symbols delivered targets i :=
  Nat.le_add_right _ _

/-- What the first target reports comes before the later ones. -/
theorem reportedBefore_succ (source : SymbolSource) (symbols : List SymbolInfo) (delivered : ℕ)
    (target : SearchTarget) (rest : List SearchTarget) (i : ℕ) :
    reportedBefore source symbols delivered (target :: rest) (i + 1) =
      reportedBefore source symbols (delivered + (visit source symbols target).length) rest i := by
  simp only [reportedBefore, List.take_succ_cons, List.flatMap_cons, List.length_append, Nat.add_assoc]

/-- If the search is cancelled before the first target, no target is looked at in time. -/
theorem checkedInTime_of_reached {delivered : ℕ} (h : point.reached delivered = true)
    (targets : List SearchTarget) : checkedInTime source symbols point delivered targets = 0 := by
  refine List.countP_eq_zero.mpr fun i _ => ?_
  simp [CancelPoint.reached_mono h (le_reportedBefore source symbols delivered targets i)]

/-- If it is not, the first target is, and the others are after it has reported. -/
theorem checkedInTime_cons {delivered : ℕ} (h : point.reached delivered = false) (target : SearchTarget)
    (rest : List SearchTarget) :
    checkedInTime source symbols point delivered (target :: rest) =
      checkedInTime source symbols point (delivered + (visit source symbols target).length) rest + 1 := by
  have hfirst : (!point.reached (reportedBefore source symbols delivered (target :: rest) 0)) = true := by
    rw [reportedBefore_zero, h]
    rfl
  rw [checkedInTime, List.length_cons, List.range_succ_eq_map, List.countP_cons, if_pos hfirst,
    List.countP_map]
  simp only [Function.comp_def, Nat.succ_eq_add_one, reportedBefore_succ]
  rfl

/-- The targets that are looked at in time are the first ones. -/
theorem lt_checkedInTime_iff {delivered i : ℕ} {targets : List SearchTarget} (hi : i < targets.length) :
    i < checkedInTime source symbols point delivered targets ↔
      point.reached (reportedBefore source symbols delivered targets i) = false := by
  induction targets generalizing delivered i with
  | nil => exact absurd hi (Nat.not_lt_zero i)
  | cons target rest ih =>
    cases hreached : point.reached delivered with
    | true =>
      have hlater := CancelPoint.reached_mono hreached
        (le_reportedBefore source symbols delivered (target :: rest) i)
      simp [checkedInTime_of_reached hreached, hlater]
    | false =>
      rw [checkedInTime_cons hreached]
      cases i with
      | zero => simp [reportedBefore_zero, hreached]
      | succ i =>
        rw [Nat.add_lt_add_iff_right, reportedBefore_succ]
        exact ih (Nat.lt_of_succ_lt_succ hi)

/-- Targets that are visited until the search is cancelled: those that are looked at in time report everything,
and the search is cancelled if there are others. -/
theorem visitAll_of_checkedInTime (hsound : ∀ symbol ∈ symbols, source.broken symbol.id = false)
    (point : CancelPoint) (delivered : ℕ) (found : Bool) (targets : List SearchTarget) :
    let checked := checkedInTime source symbols point delivered targets
    visitAll source symbols point delivered found targets =
      ((targets.take checked).flatMap (visit source symbols),
        if checked < targets.length then .cancelled
        else (visitAll source symbols none delivered found targets).2) := by
  have hunbroken : (symbols.any fun symbol => source.broken symbol.id) = false :=
    List.any_eq_false.mpr fun symbol hsymbol => by rw [hsound symbol hsymbol]; exact Bool.false_ne_true
  -- What was delivered and found so far varies along the targets, but only how a search that completes ends
  -- depends on `found`.
  induction targets generalizing delivered found with
  | nil => rfl
  | cons target rest ih =>
    cases hreached : point.reached delivered with
    | true => simp [visitAll, hreached, checkedInTime_of_reached hreached]
    | false =>
      have hgoes : CancelPoint.reached none delivered = false := rfl
      simp only [visitAll, hreached, hgoes, hunbroken, Bool.false_eq_true, if_false]
      rw [checkedInTime_cons hreached, ih]
      simp only [List.take_succ_cons, List.flatMap_cons, List.length_cons, Nat.add_lt_add_iff_right]

/-! ## Whole searches -/

/-- What a search answers that stops at a target: compared with the answer of a search that is not
cancelled. -/
structure StopsAtTarget (source : SymbolSource) (symbols : List SymbolInfo) (targets : List SearchTarget)
    (point : CancelPoint) (whole answer : List SearchEvent × EngineResult) : Prop where
  /-- The uncancelled search announces every symbol and then reports target by target. -/
  uncancelled : whole.1 = symbols.map .definition ++ targets.flatMap (visit source symbols)
  /-- The uncancelled search completes, and says that it found something if it reported an occurrence. -/
  completes : whole.2 =
    EngineResult.completed (if targets.flatMap (visit source symbols) = [] then .exhausted else .found)
  /-- The targets whose look at the token came before the cancellation are the first ones. -/
  inTime : ∀ i < targets.length, i < checkedInTime source symbols point symbols.length targets ↔
    point.reached (reportedBefore source symbols symbols.length targets i) = false
  /-- The search announces every symbol, and reports everything of these targets and nothing of the others. -/
  reports : answer.1 = symbols.map .definition ++
    (targets.take (checkedInTime source symbols point symbols.length targets)).flatMap (visit source symbols)
  /-- The search is cancelled if there are others, and ends like the uncancelled one if there are none. -/
  ends : answer.2 = if checkedInTime source symbols point symbols.length targets < targets.length
    then EngineResult.cancelled else whole.2

/-- An uncancelled search in a graph reports the occurrences of its symbols at its targets, and completes. -/
theorem search_of_uncancelled (graph : SymbolGraph) (options : SearchOptions) (solution : Solution)
    (scope : SearchScope) (id : SymbolId) :
    let plan := plan graph.toSource options solution scope id
    let found := plan.2.flatMap (occurrences graph.toSource plan.1)
    search graph.toSource options solution scope id none =
      (plan.1.map .definition ++ found.map (fun found => .reference found.1 found.2),
        .completed (if found = [] then .exhausted else .found)) := by
  intro plan found
  have hsound : ∀ symbol ∈ plan.1, graph.toSource.broken symbol.id = false := fun _ _ => rfl
  have hvisited := visitAll_of_uncancelled hsound plan.1.length false plan.2
  rw [search_eq_plan, hvisited]
  by_cases hnothing : found = [] <;> simp [plan, found, hnothing]

/-- A search in a graph, whenever it is cancelled, stops at a target: at the first one whose look at the token
comes after the cancellation. -/
theorem search_stops_at_target (graph : SymbolGraph) (options : SearchOptions) (solution : Solution)
    (scope : SearchScope) (id : SymbolId) (point : CancelPoint) :
    let plan := plan graph.toSource options solution scope id
    StopsAtTarget graph.toSource plan.1 plan.2 point
      (search graph.toSource options solution scope id none)
      (search graph.toSource options solution scope id point) := by
  intro plan
  have hwhole := search_of_uncancelled graph options solution scope id
  have hvisits : plan.2.flatMap (visit graph.toSource plan.1) =
      (plan.2.flatMap (occurrences graph.toSource plan.1)).map fun found => .reference found.1 found.2 := by
    rw [List.map_flatMap]
    exact List.flatMap_congr fun target _ => visit_eq graph.toSource plan.1 target
  have hsound : ∀ symbol ∈ plan.1, graph.toSource.broken symbol.id = false := fun _ _ => rfl
  have hvisited := visitAll_of_checkedInTime hsound point plan.1.length false plan.2
  have hanswer := search_eq_plan graph.toSource options solution scope id point
  refine ⟨?_, ?_, fun i hi => lt_checkedInTime_iff hi, ?_, ?_⟩
  · rw [hwhole, hvisits]
  · simp only [hwhole, hvisits, List.map_eq_nil_iff]
    rfl
  · rw [hanswer, hvisited]
  · rw [hanswer, hvisited, search_eq_plan]

end Engine

end SolutionWatch
