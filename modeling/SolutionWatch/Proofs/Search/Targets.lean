import Mathlib.Data.List.Induction
import Mathlib.Data.List.Nodup
import SolutionWatch.Proofs.Snapshot.Lookup
import SolutionWatch.Proofs.Snapshot.Recency
import SolutionWatch.Search.Scope

/-!
# The documents that a search visits

A scope names documents in some order, some of them perhaps more than once (`SearchScope.named`). A search
visits those that the solution has, each of them once, in the order of their first places
(`SearchScope.documents_targets`): what is taken up one by one is kept at its first place
(`SearchScope.foldl_takeUp`, `SearchScope.foldl_gather`). What a target keeps of a document is what the
scope asks for (`SearchScope.keeps_iff`), whichever of its ranges asks for it.
-/

namespace List

variable {α : Type*} [DecidableEq α]

/-- Without repetitions elements come in the order of their first places. -/
theorem pairwise_idxOf_eraseDups (l : List α) :
    l.eraseDups.Pairwise fun a b => l.idxOf a < l.idxOf b := by
  induction l with
  | nil => exact Pairwise.nil
  | cons a l ih =>
    have hne : ∀ b ∈ l.eraseDups.filter fun b => b ≠ a, a ≠ b := fun b hb =>
      (of_decide_eq_true (mem_filter.mp hb).2).symm
    rw [eraseDups_cons_ne, pairwise_cons]
    refine ⟨fun b hb => ?_, (ih.filter _).imp_of_mem fun {b c} hb hc hlt => ?_⟩
    · rw [idxOf_cons_self, idxOf_cons_ne _ (hne b hb)]
      exact Nat.succ_pos _
    · rw [idxOf_cons_ne _ (hne b hb), idxOf_cons_ne _ (hne c hc)]
      exact Nat.succ_lt_succ hlt

/-- A list in which nothing comes twice has no repetitions to leave out. -/
theorem Nodup.eraseDups_eq {l : List α} (h : l.Nodup) : l.eraseDups = l := by
  induction l with
  | nil => rfl
  | cons a l ih =>
    obtain ⟨ha, hl⟩ := nodup_cons.mp h
    rw [eraseDups_cons_ne, ih hl, filter_eq_self.mpr fun b hb => ?_]
    have hne : b ≠ a := fun heq => ha (heq ▸ hb)
    exact decide_eq_true hne

/-- An element at the end of a list is left out if it comes before, and is the last one otherwise. -/
theorem eraseDups_concat (l : List α) (a : α) :
    (l ++ [a]).eraseDups = if a ∈ l then l.eraseDups else l.eraseDups ++ [a] := by
  rw [eraseDups_append, removeAll]
  by_cases h : a ∈ l
  · simp [h]
  · simp [h, eraseDups_cons]

end List

namespace SolutionWatch

namespace SearchScope

variable {scope : SearchScope} {solution : Solution} {document : DocumentId} {span : TextSpan}

/-! ## What is taken up -/

/-- Documents that are taken up one by one are kept at their first places. -/
theorem foldl_takeUp (ids : List DocumentId) : ids.foldl takeUp [] = ids.eraseDups := by
  induction ids using List.reverseRecOn with
  | nil => rfl
  | append_singleton ids id ih =>
    rw [List.foldl_concat, ih, takeUp, List.eraseDups_concat]
    simp only [List.mem_eraseDups]

/-- A range of a document that has an entry extends this entry, any other range makes an entry. -/
theorem gather_map {docs : List DocumentId} (hdocs : docs.Nodup) (spans : DocumentId → List TextSpan)
    (range : DocumentSpan) :
    gather (docs.map fun d => (d, spans d)) range =
      if range.document ∈ docs then
        docs.map fun d => (d, spans d ++ if d = range.document then [range.span] else [])
      else (docs.map fun d => (d, spans d)) ++ [(range.document, [range.span])] := by
  induction docs with
  | nil => rfl
  | cons d docs ih =>
    obtain ⟨hd, hdocs⟩ := List.nodup_cons.mp hdocs
    rw [List.map_cons, gather]
    by_cases heq : d = range.document
    · -- No later entry is of this document.
      have hlater : ∀ e ∈ docs, e ≠ range.document := fun e he hsame => hd (heq ▸ hsame ▸ he)
      have hothers : docs.map (fun e => (e, spans e ++ if e = range.document then [range.span] else [])) =
          docs.map fun e => (e, spans e) :=
        List.map_congr_left fun e he => by rw [if_neg (hlater e he), List.append_nil]
      rw [if_pos heq, if_pos (heq ▸ List.mem_cons_self), List.map_cons, hothers, if_pos heq]
    · rw [if_neg heq, ih hdocs]
      by_cases hin : range.document ∈ docs
      · rw [if_pos hin, if_pos (List.mem_cons_of_mem _ hin), List.map_cons, if_neg heq, List.append_nil]
      · have hout : range.document ∉ d :: docs := by
          simpa [hin] using Ne.symm heq
        rw [if_neg hin, if_neg hout, List.cons_append]

/-- Ranges that are taken up one by one are kept with their documents, these at their first places. -/
theorem foldl_gather (ranges : List DocumentSpan) :
    ranges.foldl gather [] = (ranges.map DocumentSpan.document).eraseDups.map fun d =>
      (d, (ranges.filter fun range => range.document = d).map DocumentSpan.span) := by
  induction ranges using List.reverseRecOn with
  | nil => rfl
  | append_singleton ranges range ih =>
    have hspans : ∀ d, ((ranges ++ [range]).filter fun r => r.document = d).map DocumentSpan.span =
        (ranges.filter fun r => r.document = d).map DocumentSpan.span ++
          if d = range.document then [range.span] else [] := by
      intro d
      by_cases h : range.document = d
      · simp [List.filter_append, h]
      · simp [List.filter_append, h, Ne.symm h]
    rw [List.foldl_concat, ih, gather_map (List.nodup_eraseDups _), List.map_append, List.map_singleton,
      List.eraseDups_concat]
    simp only [hspans, List.mem_eraseDups]
    by_cases hin : range.document ∈ ranges.map DocumentSpan.document
    · rw [if_pos hin, if_pos hin]
    · -- The document is new, so no earlier range is of it.
      have hother : ∀ d ∈ (ranges.map DocumentSpan.document).eraseDups, d ≠ range.document :=
        fun d hd heq => hin (heq ▸ List.mem_eraseDups.mp hd)
      have hnone : (ranges.filter fun r => r.document = range.document) = [] :=
        List.filter_eq_nil_iff.mpr fun r hr heq => hin (of_decide_eq_true heq ▸ List.mem_map_of_mem hr)
      rw [if_neg hin, if_neg hin, List.map_append, List.map_singleton, hnone, if_pos rfl]
      refine congrArg (· ++ _) (List.map_congr_left fun d hd => ?_)
      rw [if_neg (hother d hd), List.append_nil]

/-- The candidates of a scope of documents are these documents, each at its first place. -/
theorem candidates_documents (ids : List DocumentId) (solution : Solution) :
    candidates (.documents ids) solution = ids.eraseDups.map fun d => ⟨d, none⟩ := by
  rw [candidates, foldl_takeUp]

/-- The candidates of a scope of ranges are their documents, each at its first place and with all of its
ranges. -/
theorem candidates_spans (ranges : List DocumentSpan) (solution : Solution) :
    candidates (.spans ranges) solution = (ranges.map DocumentSpan.document).eraseDups.map fun d =>
      ⟨d, some ((ranges.filter fun range => range.document = d).map DocumentSpan.span)⟩ := by
  rw [candidates, foldl_gather, List.map_map]
  rfl

/-! ## What is visited and kept -/

/-- The documents that a scope names, in order, and as often as it names them. -/
def named (scope : SearchScope) (solution : Solution) : List DocumentId :=
  match scope with
  | .everything => solution.allProjects.flatMap fun project => project.sources.map Document.id
  | .documents ids => ids
  | .spans ranges => ranges.map DocumentSpan.document

/-- The solution has the document, and a search that looks at everything looks at it if it is a source
document, any other search if the scope names it. -/
def Visits (scope : SearchScope) (solution : Solution) (document : DocumentId) : Prop :=
  ∃ d, solution.document? document = some d ∧ match scope with
    | .everything => d.kind = .source
    | .documents ids => document ∈ ids
    | .spans ranges => ∃ range ∈ ranges, range.document = document

/-- If the scope gives ranges, one of those in the document intersects the span. -/
def Requests (scope : SearchScope) (document : DocumentId) (span : TextSpan) : Prop :=
  match scope with
  | .everything | .documents _ => True
  | .spans ranges => ∃ range ∈ ranges, range.document = document ∧ range.span.intersects span = true

/-- A search of everything names the source documents of a filed snapshot. -/
theorem mem_named_everything (h : solution.Filed) :
    document ∈ named .everything solution ↔
      ∃ d, solution.document? document = some d ∧ d.kind = .source := by
  simp only [named, List.mem_flatMap, List.mem_map]
  constructor
  · rintro ⟨project, hproject, d, hd, rfl⟩
    obtain ⟨hfound, hsource⟩ := Project.mem_sources_iff.mp hd
    have hown : d.id.project = project.id := Project.project_of_document? hfound
    have hlisted := h.mem_allProjects_iff.mp hproject
    exact ⟨d, Solution.document?_eq_some_iff.mpr ⟨project, hown ▸ hlisted, hfound⟩, hsource⟩
  · rintro ⟨d, hd, hsource⟩
    obtain ⟨project, hproject, hfound⟩ := Solution.document?_eq_some_iff.mp hd
    have hid : d.id = document := (project.owned _ (Catalog.mem_of_get? hfound)).1
    have hlisted : project ∈ solution.allProjects :=
      h.mem_allProjects_iff.mpr (h.id_of_project? hproject ▸ hproject)
    exact ⟨project, hlisted, d, Project.mem_sources_iff.mpr ⟨hid.symm ▸ hfound, hsource⟩, hid⟩

/-- A search of everything names no document twice. -/
theorem nodup_named_everything (h : solution.Filed) : (named .everything solution).Nodup := by
  unfold named
  rw [List.nodup_flatMap]
  refine ⟨fun project _ => project.nodup_ids_sources, ?_⟩
  have hprojects : solution.allProjects.Pairwise fun a b => a.id ≠ b.id := List.pairwise_map.mp h.nodup_ids
  refine hprojects.imp fun {a b} hne id ha hb => hne ?_
  -- A document belongs to one project only.
  obtain ⟨d, hd, rfl⟩ := List.mem_map.mp ha
  obtain ⟨e, he, heq⟩ := List.mem_map.mp hb
  have hfirst := Project.project_of_document? (Project.mem_sources_iff.mp hd).1
  have hsecond := Project.project_of_document? (Project.mem_sources_iff.mp he).1
  rw [← hfirst, ← hsecond, heq]

/-- The targets are the documents that the scope names and the solution has, each of them at its first
place. -/
theorem documents_targets (h : solution.Filed) (scope : SearchScope) :
    (scope.targets solution).map SearchTarget.document =
      (scope.named solution).eraseDups.filter solution.containsDocument := by
  have hcandidates : (scope.candidates solution).map SearchTarget.document =
      (scope.named solution).eraseDups := by
    cases scope with
    | everything =>
      rw [(nodup_named_everything h).eraseDups_eq]
      simp only [candidates, named, List.map_flatMap, List.map_map]
      rfl
    | documents ids =>
      rw [candidates_documents, List.map_map]
      exact List.map_id _
    | spans ranges =>
      rw [candidates_spans, List.map_map]
      exact List.map_id _
  rw [← hcandidates, List.filter_map]
  rfl

/-- A document is a target if and only if the scope visits it. -/
theorem mem_documents_targets_iff (h : solution.Filed) :
    document ∈ (scope.targets solution).map SearchTarget.document ↔ scope.Visits solution document := by
  have hcontains : solution.containsDocument document = true ↔
      ∃ d, solution.document? document = some d := Option.isSome_iff_exists
  rw [documents_targets h, List.mem_filter, List.mem_eraseDups, hcontains]
  cases scope with
  | everything =>
    rw [mem_named_everything h]
    exact ⟨fun ⟨hsource, _⟩ => hsource, fun hsource => ⟨hsource, hsource.imp fun _ hd => hd.1⟩⟩
  | documents ids =>
    exact ⟨fun ⟨hid, d, hd⟩ => ⟨d, hd, hid⟩, fun ⟨d, hd, hid⟩ => ⟨hid, d, hd⟩⟩
  | spans ranges =>
    simp only [named, List.mem_map]
    exact ⟨fun ⟨hrange, d, hd⟩ => ⟨d, hd, hrange⟩, fun ⟨d, hd, hrange⟩ => ⟨hrange, d, hd⟩⟩

/-- The targets come in the order in which the scope names them first. -/
theorem pairwise_targets (h : solution.Filed) (scope : SearchScope) :
    (scope.targets solution).Pairwise fun a b =>
      (scope.named solution).idxOf a.document < (scope.named solution).idxOf b.document := by
  rw [← List.pairwise_map (f := SearchTarget.document)
    (R := fun a b => (scope.named solution).idxOf a < (scope.named solution).idxOf b), documents_targets h]
  exact (List.pairwise_idxOf_eraseDups _).filter _

/-- A target keeps what the scope asks for in its document. -/
theorem keeps_iff {target : SearchTarget} (h : target ∈ scope.targets solution) :
    target.keeps span = true ↔ scope.Requests target.document span := by
  have hcandidate : target ∈ scope.candidates solution := (List.mem_filter.mp h).1
  cases scope with
  | everything =>
    simp only [candidates, List.mem_flatMap, List.mem_map] at hcandidate
    obtain ⟨_, _, d, _, rfl⟩ := hcandidate
    exact ⟨fun _ => trivial, fun _ => rfl⟩
  | documents ids =>
    obtain ⟨d, _, rfl⟩ := List.mem_map.mp hcandidate
    exact ⟨fun _ => trivial, fun _ => rfl⟩
  | spans ranges =>
    -- All ranges of the document went into its target.
    rw [candidates_spans] at hcandidate
    obtain ⟨d, _, rfl⟩ := List.mem_map.mp hcandidate
    simp only [SearchTarget.keeps, Requests, List.any_eq_true, List.mem_map, List.mem_filter,
      decide_eq_true_eq]
    constructor
    · rintro ⟨_, ⟨range, ⟨hrange, hdocument⟩, rfl⟩, hspan⟩
      exact ⟨range, hrange, hdocument, hspan⟩
    · rintro ⟨range, hrange, hdocument, hspan⟩
      exact ⟨range.span, ⟨range, ⟨hrange, hdocument⟩, rfl⟩, hspan⟩

end SearchScope

end SolutionWatch
