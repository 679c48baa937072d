import Mathlib.Data.Prod.Basic
import SolutionWatch.Proofs.Search.Counting
import SolutionWatch.Proofs.Search.Routing

/-!
# The lifecycle of a search

Every search that returns has reported a lifecycle: its start first and once, its completion last and
once, a completion that says what was returned, and no occurrence of a symbol that it had not announced
before (`SearchLog.FollowsLifecycle`). It was carried out by a worker or in this process or by nobody,
and never by both (`Session.find_lifecycle`). No assumption is made about the worker: its messages may
come in any order, stop anywhere or go on after a completion, and its call may end in any way.

Start and completion are reported around the findings (`SearchLog.followsLifecycle_conclude`), so what
is left to show is that findings announce before they report (`Announces`). A reader of messages
reports occurrences of the symbols that it remembers only (`StreamReading.announces_read`), and a
search in this process announces everything before its first target (`Engine.announces_search`).
-/

namespace SolutionWatch

deriving instance DecidableEq for SearchLog, FindResult

/-- The reports are findings, and every occurrence is one of a symbol that is known or was announced
before. -/
def Announces : List SymbolInfo → List SearchEvent → Prop
  | _, [] => True
  | known, .definition symbol :: later => Announces (symbol :: known) later
  | known, .reference symbol _ :: later => symbol ∈ known ∧ Announces known later
  | _, .started :: _ | _, .completed _ :: _ => False

namespace Announces

variable {known : List SymbolInfo} {events : List SearchEvent}

/-- A search does not start among its findings. -/
theorem started_notMem (h : Announces known events) : .started ∉ events := by
  fun_induction Announces known events with
  | case1 => exact List.not_mem_nil
  | case2 _ _ _ ih => exact fun hmem => ih h ((List.mem_cons.mp hmem).resolve_left nofun)
  | case3 _ _ _ _ ih => exact fun hmem => ih h.2 ((List.mem_cons.mp hmem).resolve_left nofun)
  | case4 | case5 => exact h.elim

/-- A search is not completed among its findings. -/
theorem completed_notMem (h : Announces known events) (completion : Completion) :
    .completed completion ∉ events := by
  fun_induction Announces known events with
  | case1 => exact List.not_mem_nil
  | case2 _ _ _ ih => exact fun hmem => ih h ((List.mem_cons.mp hmem).resolve_left nofun)
  | case3 _ _ _ _ ih => exact fun hmem => ih h.2 ((List.mem_cons.mp hmem).resolve_left nofun)
  | case4 | case5 => exact h.elim

/-- A symbol of which an occurrence is reported is known or was announced before. -/
theorem announced {before after : List SearchEvent} {symbol : SymbolInfo}
    {location : ReferenceLocation}
    (h : Announces known (before ++ .reference symbol location :: after)) :
    symbol ∈ known ∨ .definition symbol ∈ before := by
  induction before generalizing known with
  | nil => exact .inl h.1
  | cons event before ih =>
    cases event with
    | definition other =>
      rcases ih h with hknown | hbefore
      · rcases List.mem_cons.mp hknown with rfl | hknown
        · exact .inr List.mem_cons_self
        · exact .inl hknown
      · exact .inr (List.mem_cons_of_mem _ hbefore)
    | reference other _ => exact (ih h.2).imp_right (List.mem_cons_of_mem _)
    | started | completed _ => exact h.elim

/-- Occurrences of known symbols are findings. -/
theorem of_refersTo (h : ∀ event ∈ events, event.RefersTo known) : Announces known events := by
  induction events with
  | nil => trivial
  | cons event events ih =>
    obtain ⟨symbol, hsymbol, location, rfl⟩ := h event List.mem_cons_self
    exact ⟨hsymbol, ih fun later hlater => h later (List.mem_cons_of_mem _ hlater)⟩

/-- Symbols that are announced first are known afterwards. -/
theorem of_definitions (symbols : List SymbolInfo)
    (h : Announces (symbols.reverse ++ known) events) :
    Announces known (symbols.map .definition ++ events) := by
  induction symbols generalizing known with
  | nil => exact h
  | cons symbol symbols ih =>
    rw [List.reverse_cons, List.append_assoc] at h
    exact ih h

end Announces

/-- A reader of messages announces before it reports, whatever the messages are. -/
theorem StreamReading.announces_read (point : CancelPoint) (known : List SymbolInfo)
    (delivered : ℕ) (messages : List ReferenceMessage) :
    Announces known (read point known delivered messages).events := by
  fun_induction read point known delivered messages with
  | case1 | case2 | case6 => trivial
  | case3 _ _ _ _ _ _ ih => exact ih
  | case4 known delivered rest _ id location symbol hfind _ ih =>
    exact ⟨List.mem_of_find?_eq_some hfind, ih⟩
  | case5 _ _ _ _ _ _ _ ih => exact ih

/-- A search in this process announces before it reports. -/
theorem Engine.announces_search (source : SymbolSource) (options : SearchOptions)
    (solution : Solution) (scope : SearchScope) (symbol : SymbolId) (point : CancelPoint) :
    Announces [] (search source options solution scope symbol point).1 := by
  unfold search
  split
  · trivial
  · next start _ =>
    refine .of_definitions _ (.of_refersTo fun event hevent => ?_)
    obtain ⟨found, hfound, location, rfl⟩ := refersTo_of_mem_visitAll hevent
    exact ⟨found, List.mem_append_left _ (List.mem_reverse.mpr hfound), location, rfl⟩

/-- A log that follows the lifecycle of a search. -/
structure SearchLog.FollowsLifecycle (log : SearchLog) : Prop where
  /-- The start is reported first, and once. -/
  starts : ∃ later, log.events = .started :: later ∧ .started ∉ later
  /-- A completion is reported last, and once; it says what was returned. -/
  ends : ∃ before completion, log.events = before ++ [.completed completion] ∧
    (∀ other, .completed other ∉ before) ∧
    (∀ returned, log.result = .ok returned → completion = returned) ∧
    (log.result = .error .cancelled → completion = .cancelled) ∧
    ∀ failure, log.result = .error failure → failure ≠ .cancelled → completion = .failed
  /-- Every symbol of which an occurrence is reported was announced before. -/
  announced : ∀ before symbol location after,
    log.events = before ++ .reference symbol location :: after → .definition symbol ∈ before

/-- Findings that announce before they report, put between start and completion, follow the
lifecycle. -/
theorem SearchLog.followsLifecycle_conclude {findings : List SearchEvent}
    (h : Announces [] findings) (result : Except Failure Completion) :
    (conclude findings result).FollowsLifecycle where
  starts := by
    refine ⟨_, rfl, fun hmem => ?_⟩
    rcases List.mem_append.mp hmem with hmem | hmem
    · exact h.started_notMem hmem
    · exact nomatch List.mem_singleton.mp hmem
  ends := by
    refine ⟨.started :: findings, .ofResult result, rfl, fun other hmem => ?_, ?_, ?_, ?_⟩
    · exact h.completed_notMem other ((List.mem_cons.mp hmem).resolve_left nofun)
    · rintro returned (rfl : result = _)
      rfl
    · rintro (rfl : result = _)
      rfl
    · rintro failure (rfl : result = _) hfailure
      cases failure <;> first | rfl | contradiction
  announced := by
    intro before symbol location after heq
    -- The occurrence is neither the start nor the completion, so it is one of the findings.
    cases before with
    | nil => exact nomatch (List.cons.inj heq).1
    | cons first before =>
      have hrest : findings ++ [.completed (.ofResult result)] =
          before ++ .reference symbol location :: after := (List.cons.inj heq).2
      refine List.mem_cons_of_mem _ ?_
      rcases List.eq_nil_or_concat after with rfl | ⟨middle, last, rfl⟩
      · exact nomatch (List.append_inj' hrest rfl).2
      · rw [List.concat_eq_append, ← List.cons_append, ← List.append_assoc] at hrest
        obtain ⟨rfl, -⟩ := List.append_inj' hrest rfl
        exact h.announced.resolve_left List.not_mem_nil

namespace Session

/-- A search that the client of a scripted host carries out follows its lifecycle. -/
theorem findScripted_lifecycle {session after : Session} {host : Handle}
    {request : Request Fingerprint} {token : Token} {point : CancelPoint} {log : SearchLog}
    (h : session.findScripted host request token point = (.log log, after)) :
    log.FollowsLifecycle := by
  have hannounces : ∀ messages, Announces [] (StreamReading.ofMessages point messages).events :=
    StreamReading.announces_read point [] 0
  unfold findScripted at h
  dsimp only at h
  generalize hreading : StreamReading.ofMessages point _ = reading at h
  split at h
  · cases h
    exact SearchLog.followsLifecycle_conclude (hreading ▸ hannounces _) _
  · cases h
    exact SearchLog.followsLifecycle_conclude (hreading ▸ hannounces _) _
  · exact nomatch congrArg Prod.fst h
  · exact nomatch congrArg Prod.fst h

/-- Every search that returns follows its lifecycle, whoever carries it out, whatever the worker does,
and whenever it is cancelled. It is sent to a worker or carried out in this process, or neither if it
was cancelled before that, and never both: a search that fails on a worker is not repeated here. -/
theorem find_lifecycle {session after : Session} {searcher : Searcher} {query : Query}
    {solution : Solution} {token : Token} {cancelAt : CancelPoint} {log : SearchLog}
    (h : session.find searcher query solution token cancelAt = (.log log, after)) :
    log.FollowsLifecycle ∧ ∃ sent done, sent + done ≤ 1 ∧
      after.counters.remoteSearches = session.counters.remoteSearches + sent ∧
      after.counters.localSearches = session.counters.localSearches + done := by
  unfold find at h
  dsimp only at h
  generalize (if session.isCancelled token = true then some 0 else cancelAt : CancelPoint) = point at h
  split at h
  · next operation client registry _ _ =>
    generalize hfiled : ({ session with counters := _, registries := _ } : Session) = filed at h
    have hsent : filed.searches =
        (session.counters.remoteSearches + 1, session.counters.localSearches) := hfiled ▸ rfl
    have hcounts : log.FollowsLifecycle ∧ after.searches = filed.searches := by
      split at h
      · have hafter := congrArg (fun result => result.2.searches) h
        exact ⟨findScripted_lifecycle h, hafter.symm.trans (searches_findScripted _ _ _ _ _)⟩
      · cases h
        exact ⟨SearchLog.followsLifecycle_conclude (StreamReading.announces_read _ _ _ _) _,
          (searches_cancelAfter _ _ _ _).trans (searches_streamWorker _ _ _ _)⟩
    obtain ⟨hremote, hlocal⟩ := Prod.mk.inj (hcounts.2.trans hsent)
    exact ⟨hcounts.1, 1, 0, Nat.le_refl 1, hremote, hlocal⟩
  · cases h
    obtain ⟨hremote, hlocal⟩ := Prod.mk.inj (session.searches_cancelAfter token cancelAt [])
    have hnothing : Announces [] [] := trivial
    exact ⟨SearchLog.followsLifecycle_conclude hnothing _, 0, 0, Nat.zero_le 1, hremote, hlocal⟩
  · cases h
    obtain ⟨hremote, hlocal⟩ := Prod.mk.inj (searches_cancelAfter _ token cancelAt
      (query.logHere (session.source searcher.graph) solution point).events)
    exact ⟨SearchLog.followsLifecycle_conclude (Engine.announces_search _ _ _ _ _ _) _, 0, 1,
      Nat.le_refl 1, hremote, hlocal⟩

/-- A query with an address, whose client is that of a scripted host, is carried out by that client. -/
theorem find_of_scripted {session : Session} {searcher : Searcher} {query : Query}
    (hquery : query.Routable) {solution : Solution} {token : Token}
    (htoken : session.isCancelled token = false) {host registry : Handle}
    (hclient : session.searchClient? searcher = some (.scripted host, registry))
    {operation : Operation}
    (hoperation : query.operation? (session.source searcher.graph) solution = some operation) :
    session.find searcher query solution token none =
      ({ session with
          counters := { session.counters with
            remoteSearches := session.counters.remoteSearches + 1 }
          registries := session.registries.insert registry
            ((session.registry registry).file solution) }).findScripted host
        ⟨solution.fingerprint, operation⟩ token none := by
  simp only [find, htoken, hclient, path_eq hquery, hoperation, Option.isSome_some, if_true,
    Bool.false_eq_true, if_false]

/-- A session with a registry (0), the graph of one symbol (1), a host whose client sends these messages
in answer to the first search (2), and a dispatcher that asks this host (3). -/
def oneScripted (symbol : SymbolInfo) (messages : List (Option ReferenceMessage)) : Session where
  next := 4
  registries := Catalog.empty.insert 0 (.withCapacity 1)
  graphs := Catalog.empty.insert 1 { graph := ({} : SymbolGraph).addSymbol symbol }
  hosts := Catalog.empty.insert 2 (.scripted [{ messages := messages }] [])
  dispatchers := Catalog.empty.insert 3 ⟨2, 0, true⟩

/-- A worker reports an occurrence too early, announces the symbol, reports the occurrence again, and
goes away without a completion. -/
theorem find_lifecycle_of_disorderly :
    let method := Fixture.method 0 1
    let place : ReferenceLocation := ⟨Fixture.documentId 0 0, ⟨4, 12⟩, false⟩
    let session := oneScripted method [some (.referenceFound method.id place),
      some (.definitionFound method), some (.referenceFound method.id place)]
    let log : SearchLog := ⟨[.started, .definition method, .reference method place,
      .completed .failed], .error .workerDisconnected⟩
    ∃ after, session.find ⟨3, 1, {}⟩ (.references method.id none {})
        (Fixture.mk 2 2 1 1).solution ⟨[0]⟩ none = (.log log, after) ∧
      log.FollowsLifecycle ∧ ∃ sent done, sent + done ≤ 1 ∧
        after.counters.remoteSearches = session.counters.remoteSearches + sent ∧
        after.counters.localSearches = session.counters.localSearches + done := by
  intro method place session log
  have hsymbol : (session.source 1).symbol? method.id = some method := by
    have hgraph : session.graphs.get? 1 = some { graph := ({} : SymbolGraph).addSymbol method } := rfl
    simp only [source, sharedGraph, hgraph, Option.getD_some, SymbolGraph.toSource,
      SymbolGraph.addSymbol]
    exact Std.HashMap.getElem?_insert_self
  have haddress : method.address? (Fixture.mk 2 2 1 1).solution =
      some ⟨method.id, Fixture.projectId 0, method.name⟩ := by decide +kernel
  have hoperation : (Query.references method.id none {}).operation? (session.source 1)
      (Fixture.mk 2 2 1 1).solution =
      some (.findReferences ⟨method.id, Fixture.projectId 0, method.name⟩ none {}) := by
    simp only [Query.operation?, Query.references, hsymbol, Option.bind_some, haddress]
    rfl
  have htoken : session.isCancelled ⟨[0]⟩ = false := rfl
  have hclient : session.searchClient? ⟨3, 1, {}⟩ = some (.scripted 2, 0) := rfl
  have hlog : (session.find ⟨3, 1, {}⟩ (.references method.id none {})
      (Fixture.mk 2 2 1 1).solution ⟨[0]⟩ none).1 = .log log := by
    rw [find_of_scripted (Query.routable_references _ _ _) htoken hclient hoperation]
    decide +kernel
  have hfind := Prod.fst_eq_iff.mp hlog
  exact ⟨_, hfind, find_lifecycle hfind⟩

end Session

end SolutionWatch
